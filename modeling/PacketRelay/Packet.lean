import PacketRelay.Tcp.Header
import PacketRelay.Udp

/-!
A TCP or UDP packet: its headers and the exact bytes it was read from or is sent as.
-/

set_option autoImplicit false

namespace PacketRelay

inductive Transport
  | tcp (header : Tcp.Header)
  | udp (header : Udp.Header)
  deriving DecidableEq

namespace Transport

def headerLength : Transport → Nat
  | tcp h => h.headerLength
  | udp _ => Udp.Header.headerLength

def sourcePort : Transport → UInt16
  | tcp h => h.sourcePort
  | udp h => h.sourcePort

def destinationPort : Transport → UInt16
  | tcp h => h.destinationPort
  | udp h => h.destinationPort

end Transport

structure Packet where
  ip : Ip.Header
  transport : Transport
  buffer : Bytes
  deriving DecidableEq

namespace Packet

/-- Reads a packet. The transport header may use all bytes behind the IP header. -/
def parse (buffer : Bytes) : Except PacketError Packet := do
  let ip ← Ip.Header.parse buffer
  let segment := buffer.drop ip.headerLength
  match ip.protocol with
  | .tcp => return { ip, transport := .tcp (← Tcp.Header.parse segment), buffer }
  | .udp => return { ip, transport := .udp (← Udp.Header.parse segment), buffer }
  | _ => throw (.malformed .notTcpOrUdp)

/-- The bytes behind the transport header, as far as the IP total length reaches. -/
def payload (p : Packet) : Bytes :=
  (p.buffer.take p.ip.totalLength).drop (p.ip.headerLength + p.transport.headerLength)

end Packet
end PacketRelay
