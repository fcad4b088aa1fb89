import PacketRelay.Relay.State
import PacketRelay.Session.Service

/-!
Passes of a relay over its sessions.

A pass takes down which sessions are registered and services each of them, then takes down which are
in the table and evicts those that have been silent for too long. Sessions are taken down by number,
so a service may come to a session that has been closed meanwhile, even replaced by another of the
same flow.
-/

set_option autoImplicit false

namespace PacketRelay.Relay

open Session (Key Turn Pass)

/-- Takes a flow out of the relay: reported, no longer registered, and closed. -/
def drop (r : Relay) (id : SessionId) (key : Key) : Relay :=
  ((r.cancel key).turn id (·.report)).close key

/-- Ends a session whose socket or peer has failed. The peer of a TCP session is reset. -/
def abort (r : Relay) (id : SessionId) (key : Key) : Relay :=
  let r := match key.protocol with
    | .tcp => r.turn id (·.resetPeer)
    | .udp => r
  r.drop id key

def service (r : Relay) (id : SessionId) : Relay :=
  match r.sessions[id]? with
  | none => r
  | some session =>
    if session.state.aborting then r.abort id session.key
    else
      let (turn, pass) :=
        (Turn.start session).pump r.settings.ingressClassifier (r.isCurrent id) r.now
      let r := r.commit id turn
      match pass with
      | .keep => r
      | .remoteClosed => r.turn id (·.remoteClose)
      | .failed _ => r.abort id session.key
      | .gone => r.cancel session.key

/-- Evicts a session if it has been silent for longer than the timeout. -/
def evictIdle (r : Relay) (id : SessionId) : Relay :=
  match r.sessions[id]? with
  | none => r
  | some session =>
    if session.idleFor r.now ≤ r.settings.idleTimeout then r else r.drop id session.key

def serviceAll (r : Relay) : Relay := r.registered.ids.foldl service r

/-- Evicts every session that has been silent for too long. -/
def sweep (r : Relay) : Relay := r.table.ids.foldl evictIdle r

def poll (r : Relay) : Relay := r.serviceAll.sweep

end PacketRelay.Relay
