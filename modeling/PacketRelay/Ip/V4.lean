import PacketRelay.Checksum
import PacketRelay.Packet.Error

/-!
The IPv4 header.

Fields are kept as they were given: a value too wide for its place on the wire loses its high bits
only when the header is written. The header length is the word count `ihl`, whatever the options
are.
-/

set_option autoImplicit false

namespace PacketRelay.Ip

open Wire

structure V4Header where
  /-- Header length in 32-bit words. -/
  ihl : UInt8
  dscp : UInt8
  ecn : UInt8
  totalLength : UInt16
  identification : UInt16
  reservedFlag : Bool
  dontFragment : Bool
  moreFragments : Bool
  /-- Offset of this fragment, in units of eight bytes. -/
  fragmentOffset : UInt16
  ttl : UInt8
  protocol : UInt8
  checksum : UInt16
  source : Octets 4
  destination : Octets 4
  options : Bytes
  deriving DecidableEq

namespace V4Header

def minLength : Nat := 20

def headerLength (h : V4Header) : Nat := h.ihl.toNat * 4

/-- What the total length leaves for the payload. -/
def payloadLength (h : V4Header) : Nat := h.totalLength.toNat - h.headerLength

def fragmentWord (h : V4Header) : UInt16 :=
  (if h.reservedFlag then 0x8000 else 0) + (if h.dontFragment then 0x4000 else 0) +
    (if h.moreFragments then 0x2000 else 0) + h.fragmentOffset % 0x2000

def write (h : V4Header) : Bytes :=
  [4 * 16 + h.ihl % 16, h.dscp * 4 + h.ecn % 4] ++ octets16 h.totalLength ++
    octets16 h.identification ++ octets16 h.fragmentWord ++ [h.ttl, h.protocol] ++
    octets16 h.checksum ++ h.source.toList ++ h.destination.toList ++ h.options

/-- Reads the header at the front of a buffer. The length of the header is checked before the
buffer's and the total length last. -/
def parse : Bytes → Except PacketError V4Header
  | b0 :: b1 :: b2 :: b3 :: b4 :: b5 :: b6 :: b7 :: b8 :: b9 :: b10 :: b11 ::
      s0 :: s1 :: s2 :: s3 :: d0 :: d1 :: d2 :: d3 :: rest =>
    let ihl := b0 % 16
    let optionsLength := ihl.toNat * 4 - minLength
    let totalLength := word16 b2 b3
    let fragment := word16 b6 b7
    if b0 / 16 ≠ 4 then .error (.invalidVersion 4 (b0 / 16))
    else if ihl < 5 then .error (.malformed .ipv4LengthBelowMinimum)
    else if rest.length < optionsLength then
      .error (.truncated .ipv4Options (ihl.toNat * 4) (minLength + rest.length))
    else if totalLength.toNat < ihl.toNat * 4 then .error (.malformed .ipv4TotalBelowHeader)
    else .ok {
      ihl
      dscp := b1 / 4
      ecn := b1 % 4
      totalLength
      identification := word16 b4 b5
      reservedFlag := fragment / 0x8000 % 2 == 1
      dontFragment := fragment / 0x4000 % 2 == 1
      moreFragments := fragment / 0x2000 % 2 == 1
      fragmentOffset := fragment % 0x2000
      ttl := b8
      protocol := b9
      checksum := word16 b10 b11
      source := #v[s0, s1, s2, s3]
      destination := #v[d0, d1, d2, d3]
      options := rest.take optionsLength }
  | buffer => .error (.truncated .ipv4Header minLength buffer.length)

/-- The checksum that belongs into the header. -/
def computedChecksum (h : V4Header) : UInt16 :=
  Checksum.ofBytes { h with checksum := 0 }.write

def withChecksum (h : V4Header) : V4Header := { h with checksum := h.computedChecksum }

end V4Header
end PacketRelay.Ip
