import PacketRelay.Icmp
import PacketRelay.Udp
import PacketRelay.Tcp.Corruption

/-!
Packets that come out of the tunnel, read as far as they concern the relay.

Here the IP total length ends the packet: what lies behind it in the buffer is not part of any
header or payload.
-/

set_option autoImplicit false

namespace PacketRelay

namespace Inbound

structure Segment where
  ip : Ip.Header
  tcp : Tcp.Header
  /-- The whole segment, header included. -/
  bytes : Bytes
  deriving DecidableEq

def Segment.payload (s : Segment) : Bytes := s.bytes.drop s.tcp.headerLength

/-- Whether the segment's checksum or options are wrong. -/
def Segment.isCorrupted (s : Segment) : Bool := Tcp.isCorrupted s.ip s.tcp s.bytes

/-- The sequence number behind the payload. -/
def Segment.nextSeq (s : Segment) : UInt32 := s.tcp.seq + UInt32.ofNat s.payload.length

structure Datagram where
  ip : Ip.Header
  udp : Udp.Header
  payload : Bytes
  deriving DecidableEq

structure Echo where
  ip : Ip.Header
  message : Icmp.Message
  deriving DecidableEq

end Inbound

inductive Inbound
  | segment (s : Inbound.Segment)
  | datagram (d : Inbound.Datagram)
  | echoRequest (e : Inbound.Echo)
  /-- An ICMP message to be ignored, or a protocol that is not relayed. -/
  | ignored
  deriving DecidableEq

namespace Inbound

/-- The part of a packet behind its IP header. -/
def body (ip : Ip.Header) (buffer : Bytes) : Bytes :=
  (buffer.take ip.totalLength).drop ip.headerLength

/-- Reads an ICMP message. Only echo requests are answered, and of the others only unreachable
destinations and router solicitations are tolerated. -/
def parseIcmp (ip : Ip.Header) (body : Bytes) : Except PacketError Inbound := do
  let message ← Icmp.Message.parse ip.version body
  match message.kind with
  | .echoRequest => return .echoRequest ⟨ip, message⟩
  | .destinationUnreachable => return .ignored
  | .routerSolicitation => return .ignored
  | .echoReply => throw (.unsupportedIcmp message.type)
  | .unsupported _ => throw (.unsupportedIcmp message.type)

/-- Reads a packet from the tunnel. -/
def parse (buffer : Bytes) : Except PacketError Inbound := do
  let ip ← Ip.Header.parse buffer
  let body := body ip buffer
  match ip.protocol with
  | .tcp => return .segment ⟨ip, ← Tcp.Header.parse body, body⟩
  | .udp => return .datagram ⟨ip, ← Udp.Header.parse body, body.drop Udp.Header.headerLength⟩
  | .icmp => parseIcmp ip body
  | .other _ => return .ignored

end Inbound
end PacketRelay
