import PacketRelay.Effect
import PacketRelay.Session.State

/-!
A session: one relayed flow and the real socket it owns.

Whatever happens to a session is a turn: it changes the session and has effects in a certain order.
A turn knows nothing of other sessions, and the packets it writes are drafts.
-/

set_option autoImplicit false

namespace PacketRelay

structure Session where
  key : Session.Key
  created : Nat
  /-- When the session last showed life, in whole milliseconds after it was created. -/
  lastSeen : Nat
  state : Session.State
  /-- The socket, until the session is closed. -/
  socket : Option Socket
  deriving DecidableEq

namespace Session

def update (s : Session) (f : State → State) : Session := { s with state := f s.state }

def age (s : Session) (now : Nat) : Nat := now - s.created

/-- Notes a sign of life, in whole milliseconds; no session is old enough for 2^64 of them. -/
def touch (s : Session) (now : Nat) : Session := { s with lastSeen := s.age now / millisecond }

/-- How long the session has been silent. What was cut off when the last sign of life was noted
counts as silence. -/
def idleFor (s : Session) (now : Nat) : Nat := s.age now - s.lastSeen * millisecond

/-- A session being handled, and the effects so far, latest first. -/
structure Turn where
  session : Session
  effects : List Effect
  deriving DecidableEq

namespace Turn

def start (s : Session) : Turn := ⟨s, []⟩

def state (t : Turn) : State := t.session.state

def emit (t : Turn) (e : Effect) : Turn := { t with effects := e :: t.effects }

def update (t : Turn) (f : State → State) : Turn := { t with session := t.session.update f }

def write (t : Turn) (purpose : Purpose) (draft : Draft) : Turn := t.emit (.write purpose draft)

def withSocket (t : Turn) (socket : Socket) : Turn :=
  { t with session := { t.session with socket := some socket } }

/-- Classifies the first payload of a direction, and reports the flow if it was recognized. -/
def classify (t : Turn) (classifier : Classifier) (direction : Direction) (payload : Bytes) : Turn :=
  let (state, hit) := t.state.classifyOnce classifier direction payload
  let t := t.update fun _ => state
  if hit then t.emit (.flowUpdated state.flow) else t

def report (t : Turn) : Turn := t.emit (.flowUpdated t.state.flow)

end Turn
end Session
end PacketRelay
