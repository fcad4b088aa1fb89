import PacketRelay.Session.Key

/-!
What is recorded about a flow for statistics.

Byte counts are whole IP packets on the tunnel side. Egress packets open the flow or carry payload
from the peer; ingress packets carry payload from the real socket.
-/

set_option autoImplicit false

namespace PacketRelay

/-- Moments are nanoseconds since the epoch, and spans of time are nanoseconds; so many are a
millisecond. -/
def millisecond : Nat := 1000000

namespace Session

/-- Which way payload travels: from the tunnel to the socket, or back. -/
inductive Direction
  | egress
  | ingress
  deriving DecidableEq

/-- What a classifier found out about a payload. -/
structure Classification where
  protocol : String
  report : String
  deriving DecidableEq

/-- Names the application protocol of a payload, if it knows it. -/
abbrev Classifier := Bytes → Option Classification

namespace Classifier

/-- The classifier that knows nothing. -/
def silent : Classifier := fun _ => none

/-- Goes through rules in turn; the first whose bytes start the payload decides. -/
def ofRules (rules : List (Bytes × Classification)) : Classifier := fun payload =>
  (rules.find? fun rule => rule.1.isPrefixOf payload).map (·.2)

end Classifier

/-- The record of a flow. Its counters are not bounded here: no run is long enough to count to
2^64. -/
structure Flow where
  key : Key
  createdAt : Nat
  egressPackets : Nat
  egressBytes : Nat
  ingressPackets : Nat
  ingressBytes : Nat
  /-- Whether the real TCP connection was ever established. -/
  established : Bool
  classification : Option Classification
  deriving DecidableEq

namespace Flow

def new (key : Key) (now : Nat) : Flow where
  key
  createdAt := now
  egressPackets := 0
  egressBytes := 0
  ingressPackets := 0
  ingressBytes := 0
  established := false
  classification := none

/-- Counts one packet of the given length. -/
def record (f : Flow) (direction : Direction) (length : Nat) : Flow :=
  match direction with
  | .egress =>
    { f with egressPackets := f.egressPackets + 1, egressBytes := f.egressBytes + length }
  | .ingress =>
    { f with ingressPackets := f.ingressPackets + 1, ingressBytes := f.ingressBytes + length }

end Flow
end Session
end PacketRelay
