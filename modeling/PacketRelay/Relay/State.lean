import PacketRelay.Packet.Inbound
import PacketRelay.Ping.Pool
import PacketRelay.Relay.Journal
import PacketRelay.Session

/-!
The state of a relay, and the few operations that all else is made of.

Sessions are kept by number for good, closed ones too. Which of them are open is told by the table,
and which of them a pass looks at by the registrations.
-/

set_option autoImplicit false

namespace PacketRelay

/-- Connections to a port that go elsewhere. -/
structure Redirection where
  port : UInt16
  target : Socket.Target
  deriving DecidableEq

/-- What stays the same while a relay runs. -/
structure Relay.Settings where
  /-- The largest segment size that a peer may ask for. -/
  mssLimit : UInt16
  /-- A session that was silent for longer is evicted. -/
  idleTimeout : Nat
  receiveBuffer : Nat
  /-- The interface of link-local destinations, or zero. -/
  linkLocalScope : UInt32
  redirections : List Redirection
  /-- Classifies what peers send. -/
  egressClassifier : Session.Classifier
  /-- Classifies what sockets deliver. -/
  ingressClassifier : Session.Classifier
  /-- How long a probe may take, in milliseconds. -/
  probeTimeout : Nat

structure Relay where
  settings : Relay.Settings
  /-- The moment that it is. -/
  now : Nat
  /-- The identification of the next IPv4 packet. -/
  identification : UInt16
  socketCount : Nat
  /-- All sessions ever opened, by number. -/
  sessions : List Session
  /-- The open session of each flow. -/
  table : Table
  /-- The sessions that a pass looks at. -/
  registered : Table
  /-- The workers that probe destinations of echo requests. -/
  pings : Ping.Pool Inbound.Echo
  /-- All effects so far, latest first. -/
  journal : List Entry

namespace Relay

def start (settings : Settings) (now : Nat) (coreWorkers maxWorkers : Nat) : Relay where
  settings
  now
  identification := 1
  socketCount := 0
  sessions := []
  table := Table.empty
  registered := Table.empty
  pings := Ping.Pool.new coreWorkers maxWorkers
  journal := []

def emit (r : Relay) (owner : Option SessionId) (effect : Effect) : Relay :=
  { r with
    journal := ⟨owner, r.identification, effect⟩ :: r.journal
    identification := effect.nextIdentification r.identification }

/-- Stores a session after a turn, and enters the effects of the turn in their order. -/
def commit (r : Relay) (id : SessionId) (turn : Session.Turn) : Relay :=
  turn.effects.foldr (fun effect r => r.emit (some id) effect)
    { r with sessions := r.sessions.set id turn.session }

def turn (r : Relay) (id : SessionId) (f : Session.Turn → Session.Turn) : Relay :=
  match r.sessions[id]? with
  | some session => r.commit id (f (.start session))
  | none => r

/-- Changes a session without any effect. -/
def modify (r : Relay) (id : SessionId) (f : Session → Session) : Relay :=
  { r with sessions := r.sessions.modify id f }

/-- Lets a span of time go by. -/
def advance (r : Relay) (span : Nat) : Relay := { r with now := r.now + span }

def lookup (r : Relay) (key : Session.Key) : Option SessionId := r.table.find? key

/-- Whether a session is the open one of its flow. -/
def isCurrent (r : Relay) (id : SessionId) : Bool :=
  match r.sessions[id]? with
  | some session => r.lookup session.key == some id
  | none => false

/-- Notes a sign of life of a session that is still open. -/
def keepAlive (r : Relay) (id : SessionId) : Relay :=
  if r.isCurrent id then r.modify id (·.touch r.now) else r

/-- Has a pass look at a session from now on. -/
def register (r : Relay) (id : SessionId) : Relay :=
  match r.sessions[id]? with
  | some session => { r with registered := r.registered.insert session.key id }
  | none => r

/-- Has no pass look at the session of a flow any more. -/
def cancel (r : Relay) (key : Session.Key) : Relay :=
  { r with registered := r.registered.erase key }

/-- Closes the open session of a flow: it leaves the table and its socket is shut down. -/
def close (r : Relay) (key : Session.Key) : Relay :=
  match r.lookup key with
  | none => r
  | some id =>
    let socket := (r.sessions[id]?).bind (·.socket)
    let r := { r with table := r.table.erase key }
    let r := r.modify id fun s => { s with socket := none }
    match socket with
    | some socket => r.emit (some id) (.shutdown socket.number)
    | none => r

/-- The open sessions. -/
def openSessions (r : Relay) : List Session := r.table.ids.filterMap fun id => r.sessions[id]?

end Relay
end PacketRelay
