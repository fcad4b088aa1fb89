import PacketRelay.Wire.Word

/-!
IPv4 and IPv6 addresses as they stand on the wire: their order and their text.

The text of an IPv4 address is a dotted quad, that of an IPv6 address is eight groups of four
hexadecimal digits, never compressed.
-/

set_option autoImplicit false

namespace PacketRelay

/-- The bytes of an address, a fixed number of them. -/
abbrev Octets (n : Nat) := Vector UInt8 n

/-- The first `n` bytes of a list, padded with zeros where the list is shorter. -/
def Octets.read (n : Nat) (bytes : Bytes) : Octets n := Vector.ofFn fun i => bytes.getD i 0

inductive Address
  | v4 (octets : Octets 4)
  | v6 (octets : Octets 16)
  deriving DecidableEq

namespace Address

instance : Inhabited Address := ⟨.v4 (Vector.replicate 4 0)⟩

def octets : Address → Bytes
  | v4 o => o.toList
  | v6 o => o.toList

/-- The address with the given bytes: four make an IPv4 address, sixteen an IPv6 one. -/
def ofOctets? (bytes : Bytes) : Option Address :=
  if bytes.length = 4 then some (v4 (Octets.read 4 bytes))
  else if bytes.length = 16 then some (v6 (Octets.read 16 bytes))
  else none

def isV4 : Address → Bool
  | v4 _ => true
  | v6 _ => false

/-- An IPv6 address in `fe80::/10`, meaningful on one link only. -/
def isLinkLocal : Address → Bool
  | v4 _ => false
  | v6 o => o[0] == 0xfe && o[1] / 64 == 2

/-- IPv4 comes before IPv6, and within a family the bytes decide, first byte first. -/
def order : Address → Address → Ordering
  | v4 _, v6 _ => .lt
  | v6 _, v4 _ => .gt
  | a, b => List.compareLex compare a.octets b.octets

/-- The two hexadecimal digits of a byte. -/
def hexPair (b : UInt8) : List Char := [(b / 16).toNat.digitChar, (b % 16).toNat.digitChar]

/-- Pairs of bytes, each written as one group of four hexadecimal digits. -/
def hexGroups : Bytes → List (List Char)
  | hi :: lo :: rest => (hexPair hi ++ hexPair lo) :: hexGroups rest
  | _ => []

def chars : Address → List Char
  | v4 o => ['.'].intercalate (o.toList.map fun b => Nat.toDigits 10 b.toNat)
  | v6 o => [':'].intercalate (hexGroups o.toList)

def text (a : Address) : String := String.ofList a.chars

end Address
end PacketRelay
