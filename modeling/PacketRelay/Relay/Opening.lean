import PacketRelay.Relay.State

/-!
Opening sessions.

A flow that has an open session gets no second one. The socket comes first: without it nothing is
entered anywhere.
-/

set_option autoImplicit false

namespace PacketRelay.Relay

/-- The session of a flow that was to be opened. -/
inductive Opened
  | new (id : SessionId)
  /-- The flow had an open session, which is unchanged. -/
  | existing (id : SessionId)
  deriving DecidableEq

def Opened.id : Opened → SessionId
  | new id => id
  | existing id => id

/-- Where a flow's socket is connected to. TCP ports may be redirected; UDP to link-local
destinations goes through the configured interface. -/
def Settings.target (s : Settings) (key : Session.Key) : Socket.Target :=
  let destination : Socket.Target := ⟨key.destination, key.destinationPort, 0⟩
  match key.protocol with
  | .tcp =>
    match s.redirections.find? fun redirection => redirection.port == key.destinationPort with
    | some redirection => redirection.target
    | none => destination
  | .udp => if key.destination.isLinkLocal then { destination with scope := s.linkLocalScope }
    else destination

def openSocket (r : Relay) (key : Session.Key) (prospect : Socket.Prospect) : Socket.Opening :=
  let target := r.settings.target key
  match key.protocol with
  | .tcp => prospect.openStream r.socketCount target r.settings.receiveBuffer
  | .udp => prospect.openDatagram r.socketCount target

/-- A session with a socket just opened for it, by a packet of the given length. -/
def newSession (key : Session.Key) (socket : Socket) (connected : Bool) (length now : Nat) :
    Session where
  key
  created := now
  lastSeen := 0
  state := ((Session.State.new key now).setConnected connected).record .egress length
  socket := some socket

/-- Opens a session for a flow, unless it has one, for a packet of the given length. -/
def openSession (r : Relay) (key : Session.Key) (length : Nat) (prospect : Socket.Prospect) :
    Relay × Except Errno Opened :=
  match r.lookup key with
  | some id => (r, .ok (.existing id))
  | none =>
    let opening := r.openSocket key prospect
    let r := { r with socketCount := r.socketCount + 1 }
    let r := match opening.attempt with
      | some attempt => r.emit none (.connect attempt)
      | none => r
    match opening.result with
    | .error e => (r, .error e)
    | .ok (socket, connected) =>
      let id := r.sessions.length
      let session := newSession key socket connected length r.now
      let r := { r with sessions := r.sessions ++ [session], table := r.table.insert key id }
      (r.emit (some id) (.flowCreated session.state.flow), .ok (.new id))

end PacketRelay.Relay
