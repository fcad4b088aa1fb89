/-!
Bytes and the words they spell on the wire.

Every multi-byte field of a packet header is an unsigned word, most significant byte first. A word
and its bytes determine each other: `word16_octets16`, `octets16_word16` and their 32-bit forms.
-/

set_option autoImplicit false

namespace PacketRelay

/-- A run of bytes: a packet, a segment, a payload. -/
abbrev Bytes := List UInt8

namespace Wire

/-- The 16-bit word spelled by two bytes. -/
def word16 (hi lo : UInt8) : UInt16 := hi.toUInt16 * 256 + lo.toUInt16

/-- The 32-bit word spelled by four bytes. -/
def word32 (a b c d : UInt8) : UInt32 := (word16 a b).toUInt32 * 65536 + (word16 c d).toUInt32

def octets16 (w : UInt16) : Bytes := [(w / 256).toUInt8, w.toUInt8]

def octets32 (w : UInt32) : Bytes := octets16 (w / 65536).toUInt16 ++ octets16 w.toUInt16

@[simp] theorem length_octets16 (w : UInt16) : (octets16 w).length = 2 := rfl

@[simp] theorem length_octets32 (w : UInt32) : (octets32 w).length = 4 := rfl

@[simp] theorem word16_octets16 (w : UInt16) : word16 (w / 256).toUInt8 w.toUInt8 = w := by
  apply UInt16.toNat.inj
  have := w.toNat_lt
  simp [word16]
  omega

private theorem word16_div (hi lo : UInt8) : (word16 hi lo / 256).toUInt8 = hi := by
  apply UInt8.toNat.inj
  have := hi.toNat_lt
  have := lo.toNat_lt
  simp [word16]
  omega

private theorem word16_toUInt8 (hi lo : UInt8) : (word16 hi lo).toUInt8 = lo := by
  apply UInt8.toNat.inj
  have := hi.toNat_lt
  have := lo.toNat_lt
  simp [word16]

@[simp] theorem octets16_word16 (hi lo : UInt8) : octets16 (word16 hi lo) = [hi, lo] := by
  simp [octets16, word16_div, word16_toUInt8]

theorem toNat_word16 (hi lo : UInt8) : (word16 hi lo).toNat = hi.toNat * 256 + lo.toNat := by
  have := hi.toNat_lt
  have := lo.toNat_lt
  simp [word16]
  omega

@[simp] theorem word32_octets32 (w : UInt32) :
    word32 ((w / 65536).toUInt16 / 256).toUInt8 (w / 65536).toUInt16.toUInt8
      (w.toUInt16 / 256).toUInt8 w.toUInt16.toUInt8 = w := by
  apply UInt32.toNat.inj
  have := w.toNat_lt
  simp only [word32, word16_octets16]
  simp
  omega

@[simp] theorem octets32_word32 (a b c d : UInt8) : octets32 (word32 a b c d) = [a, b, c, d] := by
  have high : (word32 a b c d / 65536).toUInt16 = word16 a b := by
    apply UInt16.toNat.inj
    have := (word16 a b).toNat_lt
    have := (word16 c d).toNat_lt
    simp [word32]
    omega
  have low : (word32 a b c d).toUInt16 = word16 c d := by
    apply UInt16.toNat.inj
    have := (word16 a b).toNat_lt
    have := (word16 c d).toNat_lt
    simp [word32]
  simp [octets32, high, low]

end Wire
end PacketRelay
