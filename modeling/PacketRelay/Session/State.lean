import PacketRelay.Packet.Draft
import PacketRelay.Serial
import PacketRelay.Session.Flow
import PacketRelay.Session.Outbound

/-!
What changes about a session while packets and socket events are handled.

The counters are those of a TCP endpoint: `sendNext` and `sendUnacknowledged` bound what the peer
has not acknowledged, `recvNext` is the sequence number expected from it, and zero there stands for
a peer that has not been heard of. A UDP session uses none of them.
-/

set_option autoImplicit false

namespace PacketRelay.Session

structure State where
  sendNext : UInt32
  sendUnacknowledged : UInt32
  recvNext : UInt32
  /-- Whether the real socket is connected. -/
  connected : Bool
  outbound : Outbound
  /-- Whether the socket is due for a flush. -/
  dataReady : Bool
  /-- Our clock for the timestamp option. -/
  timestampSender : UInt32
  /-- The peer's clock, to be echoed. -/
  timestampReplyTo : UInt32
  /-- The socket has ended, and our FIN waits for the peer's acknowledgments. -/
  closing : Bool
  /-- The peer has reset the connection. -/
  aborting : Bool
  /-- Our FIN is out. -/
  ackedToFin : Bool
  /-- The last segment without payload was damaged. -/
  corrupted : Bool
  /-- The last segment without payload was an acceptable acknowledgment. -/
  acked : Bool
  lastIp : Option Ip.Header
  lastTcp : Option Tcp.Header
  lastUdp : Option Udp.Header
  maxSegmentSize : UInt16
  classifiedEgress : Bool
  classifiedIngress : Bool
  flow : Flow
  deriving DecidableEq

namespace State

def new (key : Key) (now : Nat) : State where
  sendNext := 0
  sendUnacknowledged := 0
  recvNext := 0
  connected := false
  outbound := Outbound.empty
  dataReady := false
  timestampSender := 0
  timestampReplyTo := 0
  closing := false
  aborting := false
  ackedToFin := false
  corrupted := false
  acked := false
  lastIp := none
  lastTcp := none
  lastUdp := none
  maxSegmentSize := Tcp.defaultMss
  classifiedEgress := false
  classifiedIngress := false
  flow := Flow.new key now

/-- The whole milliseconds of a moment, cut to the width of a TCP timestamp. -/
def clock (now : Nat) : UInt32 := UInt32.ofNat (now / millisecond)

/-- Whether data that starts at `seq` is taken: it is not behind what was taken before, or it is the
first. -/
def acceptsData (s : State) (seq : UInt32) : Bool :=
  s.recvNext == 0 || Serial.atOrAfter seq s.recvNext

/-- Whether an acknowledgment says something new, or that everything has arrived. -/
def acceptsAck (s : State) (ack : UInt32) : Bool :=
  Serial.after ack s.sendUnacknowledged || ack == s.sendNext

/-- Notes an acceptable acknowledgment. What counts as acknowledged never passes what was sent, and
the expected sequence number never moves back. -/
def applyAck (s : State) (ack seq : UInt32) (peer : Option Tcp.Timestamps) (now : Nat) : State :=
  { s with
    sendUnacknowledged := Serial.earlier ack s.sendNext
    recvNext := if s.recvNext == 0 || Serial.after seq s.recvNext then seq else s.recvNext
    timestampReplyTo := (peer.map (·.value)).getD s.timestampReplyTo
    timestampSender := clock now
    acked := true }

/-- Handles the acknowledgment of a segment without payload. -/
def acceptAck (s : State) (ack seq : UInt32) (peer : Option Tcp.Timestamps) (now : Nat) : State :=
  if s.acceptsAck ack then s.applyAck ack seq peer now else { s with acked := false }

/-- How much the peer has not acknowledged. -/
def unacknowledged (s : State) : UInt32 := s.sendNext - s.sendUnacknowledged

/-- Sets whether the socket is connected; a TCP connection that ever was counts as established. -/
def setConnected (s : State) (connected : Bool) : State :=
  { s with
    connected
    flow := { s.flow with
      established := s.flow.established || (connected && s.flow.key.protocol == .tcp) } }

def appendOutbound (s : State) (payload : Bytes) : State :=
  { s with outbound := s.outbound.push payload }

def consumeOutbound (s : State) (n : Nat) : State := { s with outbound := s.outbound.consume n }

/-- Notes the peer's clock, if it was sent, and reads ours. -/
def stampTimestamps (s : State) (peer : Option Tcp.Timestamps) (now : Nat) : State :=
  { s with
    timestampReplyTo := (peer.map (·.value)).getD s.timestampReplyTo
    timestampSender := clock now }

/-- The timestamps to send, if the peer's last segment had some. -/
def replyTimestamps (s : State) : Option Tcp.Timestamps :=
  (s.lastTcp.bind (·.timestamps?)).map fun _ => ⟨s.timestampSender, s.timestampReplyTo⟩

def rememberTcp (s : State) (ip : Ip.Header) (tcp : Tcp.Header) : State :=
  { s with lastIp := some ip, lastTcp := some tcp }

def rememberUdp (s : State) (ip : Ip.Header) (udp : Udp.Header) : State :=
  { s with lastIp := some ip, lastUdp := some udp }

/-- The headers of the peer's last segment, which every answer is drafted from. -/
def lastSegment? (s : State) : Option (Ip.Header × Tcp.Header) :=
  match s.lastIp, s.lastTcp with
  | some ip, some tcp => some (ip, tcp)
  | _, _ => none

/-- The headers of the peer's last datagram. -/
def lastDatagram? (s : State) : Option (Ip.Header × Udp.Header) :=
  match s.lastIp, s.lastUdp with
  | some ip, some udp => some (ip, udp)
  | _, _ => none

/-- Sets the segment size, kept between one byte and the largest possible. -/
def setMaxSegmentSize (s : State) (mss : UInt16) : State :=
  { s with maxSegmentSize := max 1 (min Tcp.maxMss mss) }

def classified (s : State) : Direction → Bool
  | .egress => s.classifiedEgress
  | .ingress => s.classifiedIngress

/-- Marks a direction as classified. -/
def claim (s : State) : Direction → State
  | .egress => { s with classifiedEgress := true }
  | .ingress => { s with classifiedIngress := true }

def record (s : State) (direction : Direction) (length : Nat) : State :=
  { s with flow := s.flow.record direction length }

/-- Classifies the first payload of a direction that is not empty. Also gives whether the classifier
recognized it. -/
def classifyOnce (s : State) (classify : Classifier) (direction : Direction) (payload : Bytes) :
    State × Bool :=
  if payload.isEmpty || s.classified direction then (s, false)
  else
    let s := s.claim direction
    match classify payload with
    | some hit => ({ s with flow := { s.flow with classification := some hit } }, true)
    | none => (s, false)

end State
end PacketRelay.Session
