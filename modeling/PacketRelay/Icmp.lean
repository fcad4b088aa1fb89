import PacketRelay.Ip.Header

/-!
ICMP messages of either IP version, and echo messages in particular.
-/

set_option autoImplicit false

namespace PacketRelay.Icmp

open Wire

/-- What the relay makes of a message. -/
inductive Kind
  | echoRequest
  | echoReply
  | destinationUnreachable
  | routerSolicitation
  | unsupported (type : UInt8)
  deriving DecidableEq

structure Message where
  ipVersion : UInt8
  type : UInt8
  code : UInt8
  checksum : UInt16
  identifier : UInt16
  sequence : UInt16
  data : Bytes
  deriving DecidableEq

namespace Message

def headerLength : Nat := 8

/-- The message type of echo requests: 8, and 128 in IPv6. -/
def requestType (ipVersion : UInt8) : UInt8 := if ipVersion = 4 then 8 else 128

/-- The message type of echo replies: 0, and 129 in IPv6. -/
def replyType (ipVersion : UInt8) : UInt8 := if ipVersion = 4 then 0 else 129

/-- The message on the wire, with its checksum as stored. -/
def write (m : Message) : Bytes :=
  [m.type, m.code] ++ octets16 m.checksum ++ octets16 m.identifier ++ octets16 m.sequence ++ m.data

def parse (ipVersion : UInt8) : Bytes → Except PacketError Message
  | b0 :: b1 :: b2 :: b3 :: b4 :: b5 :: b6 :: b7 :: data => .ok {
      ipVersion
      type := b0
      code := b1
      checksum := word16 b2 b3
      identifier := word16 b4 b5
      sequence := word16 b6 b7
      data }
  | buffer => .error (.truncated .icmpHeader headerLength buffer.length)

/-- The kind of a message follows from its type and the IP version. -/
def kind (m : Message) : Kind :=
  match m.ipVersion, m.type with
  | 4, 8 => .echoRequest
  | 6, 128 => .echoRequest
  | 4, 0 => .echoReply
  | 6, 129 => .echoReply
  | 4, 3 => .destinationUnreachable
  | 6, 1 => .destinationUnreachable
  | 6, 133 => .routerSolicitation
  | _, type => .unsupported type

/-- An echo request, its checksum still open. -/
def echoRequest (ipVersion : UInt8) (identifier sequence : UInt16) (data : Bytes) : Message :=
  { ipVersion, type := requestType ipVersion, code := 0, checksum := 0, identifier, sequence, data }

/-- The reply to an echo request: same identifier, sequence number and data. -/
def echoReply (m : Message) : Message :=
  { m with type := replyType m.ipVersion, code := 0, checksum := 0 }

/-- The checksum of a message inside a packet with the given header. In IPv6 it covers the
pseudo-header too. -/
def computedChecksum (m : Message) (ip : Ip.Header) : UInt16 :=
  let bytes := { m with checksum := 0 }.write
  match ip with
  | .v4 _ => Checksum.ofBytes bytes
  | .v6 _ =>
    (Checksum.ofSegment ip.source ip.destination Ip.protocolIcmpV6 bytes).getD 0

def toBytes (m : Message) (ip : Ip.Header) : Bytes :=
  { m with checksum := m.computedChecksum ip }.write

def isEcho (m : Message) : Bool := m.kind = .echoRequest ∨ m.kind = .echoReply

end Message
end PacketRelay.Icmp
