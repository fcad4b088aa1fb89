import PacketRelay.Icmp
import PacketRelay.Packet

/-!
Packets about to be sent, and the answers the relay drafts.

A draft names the headers and the payload of a packet that is already addressed to its receiver. Its
lengths and checksums are filled in when it is sealed, and then an IPv4 packet gets its
identification. Every answer is drafted from the header of the packet it answers.
-/

set_option autoImplicit false

namespace PacketRelay

/-- A packet without lengths, identification and checksums. -/
inductive Draft
  | segment (ip : Ip.Header) (tcp : Tcp.Header) (payload : Bytes)
  | datagram (ip : Ip.Header) (udp : Udp.Header) (payload : Bytes)
  | echo (ip : Ip.Header) (message : Icmp.Message)
  deriving DecidableEq

namespace Draft

def ip : Draft → Ip.Header
  | segment ip _ _ => ip
  | datagram ip _ _ => ip
  | echo ip _ => ip

def bodyLength : Draft → Nat
  | segment _ tcp payload => tcp.headerLength + payload.length
  | datagram _ _ payload => Udp.Header.headerLength + payload.length
  | echo _ message => Icmp.Message.headerLength + message.data.length

def length (d : Draft) : Nat := d.ip.headerLength + d.bodyLength

/-- The IP header that goes out. -/
def sealedIp (d : Draft) (identification : UInt16) : Ip.Header :=
  (d.ip.withPayloadLength d.bodyLength identification).withChecksum

/-- A TCP header with the checksum of its segment; it stays zero between two address families. -/
def sealedTcp (ip : Ip.Header) (tcp : Tcp.Header) (payload : Bytes) : Tcp.Header :=
  let bare := { tcp with checksum := 0 }
  { tcp with
    checksum :=
      (Checksum.ofSegment ip.source ip.destination Ip.protocolTcp (bare.write ++ payload)).getD 0 }

/-- A UDP header with the checksum of its datagram. -/
def sealedUdp (ip : Ip.Header) (udp : Udp.Header) (payload : Bytes) : Udp.Header :=
  let bare := { udp with checksum := 0 }
  { udp with
    checksum := Udp.checksumField
      (Checksum.ofSegment ip.source ip.destination Ip.protocolUdp (bare.write ++ payload)) }

/-- The packet that goes out under an identification. -/
def toBytes (d : Draft) (identification : UInt16) : Bytes :=
  let ip := d.sealedIp identification
  match d with
  | segment _ tcp payload => ip.write ++ (sealedTcp ip tcp payload).write ++ payload
  | datagram _ udp payload => ip.write ++ (sealedUdp ip udp payload).write ++ payload
  | echo _ message => ip.write ++ message.toBytes ip

/-- The packet that goes out, with its headers; an echo message has no transport header. -/
def toPacket? (d : Draft) (identification : UInt16) : Option Packet :=
  let ip := d.sealedIp identification
  match d with
  | segment _ tcp payload =>
    some { ip, transport := .tcp (sealedTcp ip tcp payload), buffer := d.toBytes identification }
  | datagram _ udp payload =>
    some { ip, transport := .udp (sealedUdp ip udp payload), buffer := d.toBytes identification }
  | echo _ _ => none

/-- The segment that answers the sender of `ip` and `tcp` with a header of its own. -/
def answer (ip : Ip.Header) (reply : Tcp.Header) (payload : Bytes) : Draft :=
  segment ip.replyTemplate reply payload

/-- The answer to a SYN, starting our side at `isn`. It states the peer's own segment size, and has
timestamps only if the peer sent some. -/
def synAck (ip : Ip.Header) (tcp : Tcp.Header) (isn now : UInt32) : Draft :=
  let reply := (tcp.reply isn (tcp.seq + 1) (.syn ∪ .ack)).withMss (tcp.mss?.getD Tcp.defaultMss)
  answer ip (reply.withTimestamps? (tcp.timestamps?.map fun t => ⟨now, t.value⟩)) []

/-- A plain acknowledgment, sequenced where the peer expects us to be. -/
def ack (ip : Ip.Header) (tcp : Tcp.Header) (ack : UInt32)
    (timestamps : Option Tcp.Timestamps) : Draft :=
  answer ip ((tcp.reply tcp.ack ack .ack).withTimestamps? timestamps) []

def finAck (ip : Ip.Header) (tcp : Tcp.Header) (seq ack : UInt32) : Draft :=
  answer ip (tcp.reply seq ack (.fin ∪ .ack)) []

/-- The reset of a segment with `n` payload bytes. It takes its place from the segment's
acknowledgment, or else acknowledges all that the segment occupies. -/
def reset (ip : Ip.Header) (tcp : Tcp.Header) (n : Nat) : Draft :=
  let occupied := UInt32.ofNat n + (if tcp.isSyn then 1 else 0) + (if tcp.isFin then 1 else 0)
  if tcp.isAck then answer ip (tcp.reply tcp.ack 0 .rst) []
  else answer ip (tcp.reply 0 (tcp.seq + occupied) (.rst ∪ .ack)) []

def data (ip : Ip.Header) (tcp : Tcp.Header) (seq ack : UInt32) (payload : Bytes)
    (timestamps : Option Tcp.Timestamps) : Draft :=
  answer ip ((tcp.reply seq ack (.psh ∪ .ack)).withTimestamps? timestamps) payload

def response (ip : Ip.Header) (udp : Udp.Header) (payload : Bytes) : Draft :=
  datagram ip.replyTemplate (udp.reply payload.length) payload

/-- An echo message on its way to the receiver named in `ip`; other messages are not sent. -/
def echoMessage (ip : Ip.Header) (message : Icmp.Message) : Except PacketError Draft :=
  if message.isEcho then .ok (echo ip.withoutOptions message)
  else .error (.notAnEcho message.type)

end Draft
end PacketRelay
