import PacketRelay.Ip.Header

/-!
The UDP header.
-/

set_option autoImplicit false

namespace PacketRelay.Udp

open Wire

structure Header where
  sourcePort : UInt16
  destinationPort : UInt16
  length : UInt16
  checksum : UInt16
  deriving DecidableEq

namespace Header

def headerLength : Nat := 8

def write (h : Header) : Bytes :=
  octets16 h.sourcePort ++ octets16 h.destinationPort ++ octets16 h.length ++ octets16 h.checksum

def parse : Bytes → Except PacketError Header
  | b0 :: b1 :: b2 :: b3 :: b4 :: b5 :: b6 :: b7 :: _ => .ok {
      sourcePort := word16 b0 b1
      destinationPort := word16 b2 b3
      length := word16 b4 b5
      checksum := word16 b6 b7 }
  | datagram => .error (.truncated .udpHeader headerLength datagram.length)

/-- The header of a datagram with `n` payload bytes back to the sender of this one, its checksum
still open. -/
def reply (h : Header) (n : Nat) : Header where
  sourcePort := h.destinationPort
  destinationPort := h.sourcePort
  length := UInt16.ofNat (headerLength + n)
  checksum := 0

end Header

/-- A checksum that is computed as zero goes out as all ones, since a zero field means that there is
none. -/
def checksumField : Option UInt16 → UInt16
  | some 0 => 0xffff
  | some checksum => checksum
  | none => 0

end PacketRelay.Udp
