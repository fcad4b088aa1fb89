import PacketRelay.Address

/-!
The Internet checksum and the pseudo-headers it covers.

A checksum is the complement of the one's-complement sum of the big-endian words of the data, an odd
last byte standing for a word whose low byte is zero. Data that carries its own correct checksum has
the checksum zero.
-/

set_option autoImplicit false

namespace PacketRelay.Checksum

open Wire

/-- Adds the words of `bytes` to a running sum, which keeps its carries. -/
def add (sum : UInt32) : Bytes → UInt32
  | hi :: lo :: rest => add (sum + (word16 hi lo).toUInt32) rest
  | [last] => sum + last.toUInt32 * 256
  | [] => sum

/-- Adds the carries above the low sixteen bits back in. -/
def endAround (sum : UInt32) : UInt32 := sum % 65536 + sum / 65536

/-- The complement of a running sum. The first end-around addition leaves at most one carry and the
second leaves none. -/
def finish (sum : UInt32) : UInt16 := 65535 - (endAround (endAround sum)).toUInt16

def ofBytes (bytes : Bytes) : UInt16 := finish (add 0 bytes)

/-- The bytes covered beside an IPv4 segment: addresses, a zero byte, protocol and length. -/
def pseudoHeader4 (source destination : Octets 4) (protocol : UInt8) (length : UInt16) : Bytes :=
  source.toList ++ destination.toList ++ [0, protocol] ++ octets16 length

/-- The bytes covered beside an IPv6 segment: addresses, length, three zero bytes and protocol. -/
def pseudoHeader6 (source destination : Octets 16) (protocol : UInt8) (length : UInt32) : Bytes :=
  source.toList ++ destination.toList ++ octets32 length ++ [0, 0, 0, protocol]

/-- The pseudo-header for two addresses of one family. The length is cut to the width of its
field. -/
def pseudoHeader? (source destination : Address) (protocol : UInt8) (length : Nat) :
    Option Bytes :=
  match source, destination with
  | .v4 s, .v4 d => some (pseudoHeader4 s d protocol (UInt16.ofNat length))
  | .v6 s, .v6 d => some (pseudoHeader6 s d protocol (UInt32.ofNat length))
  | _, _ => none

/-- The checksum of a transport segment and the pseudo-header of its packet; it is zero if the
segment carries its correct checksum. Addresses of two families have no pseudo-header. -/
def ofSegment (source destination : Address) (protocol : UInt8) (segment : Bytes) : Option UInt16 :=
  (pseudoHeader? source destination protocol segment.length).map fun header =>
    finish (add (add 0 header) segment)

end PacketRelay.Checksum
