import PacketRelay.Icmp
import PacketRelay.Udp
import PacketRelay.Tcp.Header

/-!
Headers are read as they were written.

A header fits the wire if none of its fields loses bits there and its length counts its options.
Headers that were read fit, and a header that fits is read back from what is written of it, whatever
follows.
-/

set_option autoImplicit false

namespace PacketRelay

open Wire

private theorem Octets.toList4 (o : Octets 4) :
    ∃ a b c d, o = #v[a, b, c, d] ∧ o.toList = [a, b, c, d] := by
  obtain ⟨⟨list⟩, size⟩ := o
  match list, size with
  | [a, b, c, d], _ => exact ⟨a, b, c, d, rfl, rfl⟩

private theorem Octets.read_append {n : Nat} (o : Octets n) (rest : Bytes) :
    Octets.read n (o.toList ++ rest) = o := by
  ext i within
  have : i < o.toList.length := by simpa using within
  simp [Octets.read, List.getElem?_append_left this, within]

private theorem Octets.read_drop {n : Nat} (front o : Octets n) (rest : Bytes) :
    Octets.read n ((front.toList ++ (o.toList ++ rest)).drop n) = o := by
  have : (front.toList ++ (o.toList ++ rest)).drop n = o.toList ++ rest := by
    rw [List.drop_append_of_le_length (by simp), List.drop_eq_nil_of_le (by simp), List.nil_append]
  rw [this, Octets.read_append]

namespace Wire

private theorem bit_eq {w : UInt16} {d : UInt16} {b : Bool}
    (bit : w.toNat / d.toNat % 2 = b.toNat) : (w / d % 2 == 1) = b := by
  have : (w / d % 2).toNat = b.toNat := by
    simpa [UInt16.toNat_mod, UInt16.toNat_div] using bit
  cases b with
  | false =>
    rw [beq_eq_false_iff_ne]
    intro one
    rw [one] at this
    cases this
  | true =>
    rw [beq_iff_eq]
    exact UInt16.toNat.inj this

private theorem nibble_mod {n high : UInt8} (small : n < 16) : (high * 16 + n % 16) % 16 = n := by
  rw [UInt8.lt_iff_toNat_lt] at small
  apply UInt8.toNat.inj
  simp at small ⊢
  omega

theorem nibble_div {high : UInt8} (small : high < 16) (n : UInt8) :
    (high * 16 + n % 16) / 16 = high := by
  rw [UInt8.lt_iff_toNat_lt] at small
  apply UInt8.toNat.inj
  simp at small ⊢
  omega

end Wire

namespace Ip

/-- The fields fit their places, and the lengths count the header. -/
structure V4Header.Fits (h : V4Header) : Prop where
  least : 5 ≤ h.ihl
  most : h.ihl < 16
  options : h.options.length = h.headerLength - minLength
  total : h.headerLength ≤ h.totalLength.toNat
  dscp : h.dscp < 64
  ecn : h.ecn < 4
  fragmentOffset : h.fragmentOffset < 0x2000

theorem V4Header.toNat_fragmentWord {h : V4Header} (fits : h.fragmentOffset < 0x2000) :
    h.fragmentWord.toNat = h.reservedFlag.toNat * 32768 + h.dontFragment.toNat * 16384 +
      h.moreFragments.toNat * 8192 + h.fragmentOffset.toNat := by
  have small : h.fragmentOffset.toNat < 8192 := by
    simpa [UInt16.lt_iff_toNat_lt] using fits
  unfold fragmentWord
  cases h.reservedFlag <;> cases h.dontFragment <;> cases h.moreFragments <;>
    simp [UInt16.toNat_add, UInt16.toNat_mod] <;> omega

theorem V4Header.parse_write {h : V4Header} (fits : h.Fits) (rest : Bytes) :
    V4Header.parse (h.write ++ rest) = .ok h := by
  have word := toNat_fragmentWord fits.fragmentOffset
  have small : h.fragmentOffset.toNat < 8192 := by
    simpa [UInt16.lt_iff_toNat_lt] using fits.fragmentOffset
  have r := Bool.toNat_le h.reservedFlag
  have d := Bool.toNat_le h.dontFragment
  have m := Bool.toNat_le h.moreFragments
  have reserved : (h.fragmentWord / 0x8000 % 2 == 1) = h.reservedFlag :=
    bit_eq (by simp only [word, UInt16.reduceToNat]; omega)
  have dont : (h.fragmentWord / 0x4000 % 2 == 1) = h.dontFragment :=
    bit_eq (by simp only [word, UInt16.reduceToNat]; omega)
  have more : (h.fragmentWord / 0x2000 % 2 == 1) = h.moreFragments :=
    bit_eq (by simp only [word, UInt16.reduceToNat]; omega)
  have offset : h.fragmentWord % 0x2000 = h.fragmentOffset := by
    apply UInt16.toNat.inj
    simp only [UInt16.toNat_mod, word, UInt16.reduceToNat]
    omega
  have ihl : (4 * 16 + h.ihl % 16) % 16 = h.ihl := nibble_mod fits.most
  have version : (4 * 16 + h.ihl % 16) / 16 = 4 := nibble_div (by decide) _
  have dscp : (h.dscp * 4 + h.ecn % 4) / 4 = h.dscp := by
    have := fits.dscp
    rw [UInt8.lt_iff_toNat_lt] at this
    apply UInt8.toNat.inj
    simp at this ⊢
    omega
  have ecn : (h.dscp * 4 + h.ecn % 4) % 4 = h.ecn := by
    have := fits.ecn
    rw [UInt8.lt_iff_toNat_lt] at this
    apply UInt8.toNat.inj
    simp at this ⊢
    omega
  obtain ⟨s0, s1, s2, s3, source, sources⟩ := h.source.toList4
  obtain ⟨d0, d1, d2, d3, destination, destinations⟩ := h.destination.toList4
  have least : ¬ h.ihl < 5 := by
    rw [UInt8.not_lt]
    exact fits.least
  have total : ¬ h.totalLength.toNat < h.ihl.toNat * 4 := Nat.not_lt.2 fits.total
  have options : h.ihl.toNat * 4 - minLength = h.options.length := fits.options.symm
  have enough : ¬ (h.options ++ rest).length < h.options.length := by simp
  simp only [write, sources, destinations, octets16, List.cons_append, List.nil_append,
    V4Header.parse, ihl, version, dscp, ecn, word16_octets16, offset, reserved,
    dont, more, least, total, options, enough, ← source, ← destination, if_false, ne_eq,
    not_true_eq_false, List.take_left]

theorem V4Header.fits_of_parse {buffer : Bytes} {h : V4Header}
    (parsed : V4Header.parse buffer = .ok h) :
    h.Fits := by
  unfold V4Header.parse at parsed
  split at parsed
  case h_2 => cases parsed
  case h_1 b0 b1 b2 b3 b4 b5 b6 b7 b8 b9 b10 b11 s0 s1 s2 s3 d0 d1 d2 d3 rest =>
    simp only at parsed
    split at parsed
    · cases parsed
    · split at parsed
      · cases parsed
      · split at parsed
        · cases parsed
        · split at parsed
          · cases parsed
          case isFalse version least enough total =>
            obtain rfl := Except.ok.inj parsed
            refine ⟨UInt8.not_lt.1 least, ?_, ?_, Nat.not_lt.1 total, ?_, ?_, ?_⟩
            · exact UInt8.mod_lt _ (by decide)
            · simp only [headerLength, List.length_take]
              omega
            · rw [UInt8.lt_iff_toNat_lt]
              have := b1.toNat_lt
              simp
              omega
            · exact UInt8.mod_lt _ (by decide)
            · exact UInt16.mod_lt _ (by decide)

/-- The fields fit their places. -/
structure V6Header.Fits (h : V6Header) : Prop where
  flowLabel : h.flowLabel < 0x100000

theorem V6Header.fits_of_parse {buffer : Bytes} {h : V6Header}
    (parsed : V6Header.parse buffer = .ok h) :
    h.Fits := by
  unfold V6Header.parse at parsed
  split at parsed
  · cases parsed
  · split at parsed
    case h_2 => cases parsed
    case h_1 b0 b1 b2 b3 b4 b5 b6 b7 addresses _ =>
      split at parsed
      · cases parsed
      · obtain rfl := Except.ok.inj parsed
        constructor
        rw [UInt32.lt_iff_toNat_lt]
        have := (word16 b2 b3).toNat_lt
        simp only [UInt32.toNat_add, UInt32.toNat_mul, UInt8.toNat_toUInt32, UInt16.toNat_toUInt32,
          UInt8.toNat_mod, UInt32.reduceToNat, UInt8.reduceToNat]
        omega

private theorem V6Header.length_write (h : V6Header) : h.write.length = length := by
  simp [write, length]

theorem V6Header.parse_write {h : V6Header} (fits : h.Fits) (rest : Bytes) :
    V6Header.parse (h.write ++ rest) = .ok h := by
  have enough : ¬ (h.write ++ rest).length < length := by
    rw [List.length_append, length_write]
    omega
  have label := fits.flowLabel
  rw [UInt32.lt_iff_toNat_lt] at label
  simp only [UInt32.reduceToNat] at label
  have low := h.trafficClass.toNat_lt
  have version : (6 * 16 + h.trafficClass / 16) / 16 = 6 := by
    apply UInt8.toNat.inj
    simp
    omega
  have trafficClass : (6 * 16 + h.trafficClass / 16) % 16 * 16 +
      (h.trafficClass % 16 * 16 + (h.flowLabel / 65536).toUInt8 % 16) / 16 = h.trafficClass := by
    apply UInt8.toNat.inj
    simp
    omega
  have flowLabel : ((h.trafficClass % 16 * 16 + (h.flowLabel / 65536).toUInt8 % 16) % 16).toUInt32 *
      65536 + h.flowLabel.toUInt16.toUInt32 = h.flowLabel := by
    apply UInt32.toNat.inj
    simp
    omega
  have bytes : h.write ++ rest = (6 * 16 + h.trafficClass / 16) ::
      (h.trafficClass % 16 * 16 + (h.flowLabel / 65536).toUInt8 % 16) ::
      (h.flowLabel.toUInt16 / 256).toUInt8 :: h.flowLabel.toUInt16.toUInt8 ::
      (h.payloadLength / 256).toUInt8 :: h.payloadLength.toUInt8 :: h.nextHeader :: h.hopLimit ::
      (h.source.toList ++ (h.destination.toList ++ rest)) := by
    simp [write, octets16]
  unfold V6Header.parse
  rw [if_neg enough, bytes]
  simp only [version, trafficClass, flowLabel, word16_octets16, Octets.read_append,
    Octets.read_drop, ne_eq, not_true_eq_false, if_false]

namespace Header

def Fits : Header → Prop
  | v4 h => h.Fits
  | v6 h => h.Fits

theorem fits_of_parse {buffer : Bytes} {ip : Header} (parsed : Header.parse buffer = .ok ip) :
    ip.Fits := by
  unfold Header.parse at parsed
  split at parsed
  · cases parsed
  · split at parsed
    · cases four : V4Header.parse (_ :: _) with
      | error e => rw [four] at parsed; cases parsed
      | ok h =>
        rw [four] at parsed
        obtain rfl := Except.ok.inj parsed
        exact V4Header.fits_of_parse four
    · split at parsed
      · cases six : V6Header.parse (_ :: _) with
        | error e => rw [six] at parsed; cases parsed
        | ok h =>
          rw [six] at parsed
          obtain rfl := Except.ok.inj parsed
          exact V6Header.fits_of_parse six
      · cases parsed

theorem parse_write {ip : Header} (fits : ip.Fits) (rest : Bytes) :
    Header.parse (ip.write ++ rest) = .ok ip := by
  cases ip with
  | v4 h =>
    have back := V4Header.parse_write fits rest
    have version : (4 * 16 + h.ihl % 16) / 16 = 4 := nibble_div (by decide) _
    have front : ∃ tail, h.write ++ rest = (4 * 16 + h.ihl % 16) :: tail := ⟨_, rfl⟩
    obtain ⟨tail, front⟩ := front
    show Header.parse (h.write ++ rest) = _
    rw [front] at back ⊢
    unfold Header.parse
    simp only [version, if_true, back]
    rfl
  | v6 h =>
    have back := V6Header.parse_write fits rest
    have low := h.trafficClass.toNat_lt
    have version : (6 * 16 + h.trafficClass / 16) / 16 = 6 := by
      apply UInt8.toNat.inj
      simp
      omega
    have front : ∃ tail, h.write ++ rest = (6 * 16 + h.trafficClass / 16) :: tail := ⟨_, rfl⟩
    obtain ⟨tail, front⟩ := front
    show Header.parse (h.write ++ rest) = _
    rw [front] at back ⊢
    unfold Header.parse
    simp only [version, back]
    rfl

theorem length_write {ip : Header} (fits : ip.Fits) : ip.write.length = ip.headerLength := by
  cases ip with
  | v4 h =>
    have options := fits.options
    have least := fits.least
    rw [UInt8.le_iff_toNat_le] at least
    simp only [UInt8.reduceToNat] at least
    show h.write.length = h.headerLength
    simp only [V4Header.write, List.length_append, List.length_cons, List.length_nil,
      length_octets16,
      Vector.length_toList, options, V4Header.headerLength, V4Header.minLength]
    omega
  | v6 h => exact h.length_write

end Header
end Ip
namespace Tcp.Options

theorem walk_nil (seen : Options) : walk seen [] = .ok seen := by
  rw [walk]

theorem walk_nop (seen : Options) (rest : Bytes) : walk seen (kindNop :: rest) = walk seen rest := by
  cases rest with
  | nil => rw [walk, walk, if_pos (.inr rfl)]
  | cons length rest => rw [walk, if_neg (by decide), if_pos rfl]

end Tcp.Options

namespace Tcp.Header

/-- The fields fit their places, and the data offset counts the options. -/
structure Fits (h : Header) : Prop where
  least : 5 ≤ h.dataOffset
  most : h.dataOffset < 16
  options : h.options.length = h.headerLength - minLength
  reserved : h.reserved < 16

theorem fits_of_parse {segment : Bytes} {h : Header} (parsed : Header.parse segment = .ok h) :
    h.Fits := by
  unfold Header.parse at parsed
  split at parsed
  case h_2 => cases parsed
  case h_1 b12 b13 b14 b15 b16 b17 b18 b19 rest =>
    simp only at parsed
    split at parsed
    · cases parsed
    · split at parsed
      · cases parsed
      case isFalse least enough =>
        obtain rfl := Except.ok.inj parsed
        refine ⟨UInt8.not_lt.1 least, ?_, ?_, UInt8.mod_lt _ (by decide)⟩
        · rw [UInt8.lt_iff_toNat_lt]
          have := b12.toNat_lt
          simp
          omega
        · simp only [headerLength, List.length_take]
          omega

theorem fits_of_options {h : Header} (reserved : h.reserved < 16) (words : h.options.length % 4 = 0)
    (room : h.options.length ≤ 40) (counts : h.dataOffset = UInt8.ofNat (5 + h.options.length / 4)) :
    h.Fits := by
  have number : h.dataOffset.toNat = 5 + h.options.length / 4 := by
    rw [counts]
    simp
    omega
  refine ⟨?_, ?_, ?_, reserved⟩
  · rw [UInt8.le_iff_toNat_le, number]
    simp
  · rw [UInt8.lt_iff_toNat_lt, number]
    simp
    omega
  · unfold headerLength minLength
    rw [number]
    omega

theorem length_write {h : Header} (fits : h.Fits) : h.write.length = h.headerLength := by
  have options := fits.options
  have least := fits.least
  rw [UInt8.le_iff_toNat_le] at least
  simp only [UInt8.reduceToNat] at least
  simp only [write, List.length_append, List.length_cons, List.length_nil, length_octets16,
    length_octets32, options, headerLength, minLength]
  omega

theorem parse_write {h : Header} (fits : h.Fits) (rest : Bytes) :
    Header.parse (h.write ++ rest) = .ok h := by
  have offset : (h.dataOffset * 16 + h.reserved % 16) / 16 = h.dataOffset := nibble_div fits.most _
  have reserved : (h.dataOffset * 16 + h.reserved % 16) % 16 = h.reserved :=
    nibble_mod fits.reserved
  have least : ¬ h.dataOffset < 5 := by
    rw [UInt8.not_lt]
    exact fits.least
  have options : h.dataOffset.toNat * 4 - minLength = h.options.length := fits.options.symm
  have enough : ¬ (h.options ++ rest).length < h.options.length := by simp
  simp only [write, octets32, octets16, List.cons_append, List.nil_append, Header.parse, offset,
    reserved, least, options, enough, word16_octets16, word32_octets32, if_false, List.take_left]

end Tcp.Header

namespace Udp.Header

theorem length_write (h : Header) : h.write.length = headerLength := rfl

theorem parse_write (h : Header) (rest : Bytes) : Header.parse (h.write ++ rest) = .ok h := by
  simp only [write, octets16, List.cons_append, List.nil_append, Header.parse, word16_octets16]

end Udp.Header

namespace Icmp.Message

theorem length_write (m : Message) : m.write.length = headerLength + m.data.length := by
  simp [write, headerLength]
  omega

theorem parse_write (m : Message) : Message.parse m.ipVersion m.write = .ok m := by
  simp only [write, octets16, List.cons_append, List.nil_append, Message.parse, word16_octets16]

end Icmp.Message
end PacketRelay
