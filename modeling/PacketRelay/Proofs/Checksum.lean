import PacketRelay.Checksum

/-!
Checksums verify.

While a running sum does not overflow it is the sum of the words. Its complement folds away
everything but the remainder modulo 65535, so data with its own checksum filled in, at an even
place, has the checksum zero.
-/

set_option autoImplicit false

namespace PacketRelay.Checksum

open Wire

/-- The sum of the words of some data, as `add` takes them. -/
def wordSum : Bytes → Nat
  | hi :: lo :: rest => (word16 hi lo).toNat + wordSum rest
  | [last] => last.toNat * 256
  | [] => 0

theorem wordSum_le (bytes : Bytes) : wordSum bytes ≤ 65535 * ((bytes.length + 1) / 2) := by
  fun_induction wordSum bytes with
  | case1 hi lo rest ih =>
    have := (word16 hi lo).toNat_lt
    simp only [List.length_cons]
    omega
  | case2 last =>
    have := last.toNat_lt
    simp only [List.length_singleton]
    omega
  | case3 => simp

theorem toNat_add (sum : UInt32) (bytes : Bytes) (small : sum.toNat + wordSum bytes < 4294967296) :
    (add sum bytes).toNat = sum.toNat + wordSum bytes := by
  fun_induction add sum bytes with
  | case1 sum hi lo rest ih =>
    simp only [wordSum] at small ⊢
    have next : (sum + (word16 hi lo).toUInt32).toNat = sum.toNat + (word16 hi lo).toNat := by
      simp only [UInt32.toNat_add, UInt16.toNat_toUInt32]
      omega
    rw [ih (by omega), next]
    omega
  | case2 sum last =>
    simp only [wordSum] at small ⊢
    have := last.toNat_lt
    simp only [UInt32.toNat_add, UInt32.toNat_mul, UInt8.toNat_toUInt32, UInt32.reduceToNat]
    omega
  | case3 sum => simp [wordSum]

private theorem wordSum_append (front back : Bytes) (even : front.length % 2 = 0) :
    wordSum (front ++ back) = wordSum front + wordSum back := by
  fun_induction wordSum front with
  | case1 hi lo rest ih =>
    simp only [List.length_cons] at even
    simp only [List.cons_append, wordSum, ih (by omega)]
    omega
  | case2 last => simp at even
  | case3 => simp

private theorem wordSum_octets16 (w : UInt16) (rest : Bytes) :
    wordSum (octets16 w ++ rest) = w.toNat + wordSum rest := by
  simp [octets16, wordSum]

theorem toNat_endAround (sum : UInt32) :
    (endAround sum).toNat = sum.toNat % 65536 + sum.toNat / 65536 := by
  have := sum.toNat_lt
  simp only [endAround, UInt32.toNat_add, UInt32.toNat_mod, UInt32.toNat_div, UInt32.reduceToNat]
  omega

/-- What two end-around additions leave of a sum. -/
def fold (n : Nat) : Nat :=
  let once := n % 65536 + n / 65536
  once % 65536 + once / 65536

theorem toNat_finish (sum : UInt32) : (finish sum).toNat = 65535 - fold sum.toNat := by
  have := sum.toNat_lt
  have folded : (endAround (endAround sum)).toNat = fold sum.toNat := by
    rw [toNat_endAround, toNat_endAround]
    rfl
  have small : fold sum.toNat ≤ 65535 := by
    unfold fold
    simp only
    omega
  unfold finish
  rw [UInt16.toNat_sub_of_le]
  · simp only [UInt32.toNat_toUInt16, folded, UInt16.reduceToNat]
    omega
  · rw [UInt16.le_iff_toNat_le]
    simp only [UInt32.toNat_toUInt16, folded, UInt16.reduceToNat]
    omega

theorem fold_mod (n : Nat) : fold n % 65535 = n % 65535 := by
  unfold fold
  simp only
  omega

theorem fold_eq_zero (n : Nat) : fold n = 0 ↔ n = 0 := by
  unfold fold
  simp only
  omega

theorem fold_le (n : Nat) (small : n < 4294967296) : fold n ≤ 65535 := by
  unfold fold
  simp only
  omega

theorem finish_eq_zero (sum : UInt32) :
    finish sum = 0 ↔ sum.toNat ≠ 0 ∧ sum.toNat % 65535 = 0 := by
  have := sum.toNat_lt
  have mod := fold_mod sum.toNat
  have zero := fold_eq_zero sum.toNat
  have le := fold_le sum.toNat this
  rw [← UInt16.toNat_inj, toNat_finish]
  simp only [UInt16.toNat_zero]
  omega

theorem toNat_add_add (header bytes : Bytes)
    (short : (header.length + 1) / 2 + (bytes.length + 1) / 2 ≤ 65536) :
    (add (add 0 header) bytes).toNat = wordSum header + wordSum bytes := by
  have first := wordSum_le header
  have second := wordSum_le bytes
  have total : wordSum header + wordSum bytes < 4294967296 := by omega
  have begun : (add 0 header).toNat = wordSum header := by
    rw [toNat_add 0 header (by rw [UInt32.toNat_zero]; omega), UInt32.toNat_zero, Nat.zero_add]
  rw [toNat_add _ bytes (by rw [begun]; exact total), begun]

private theorem wordSum_fill (front back : Bytes) (field : UInt16) (even : front.length % 2 = 0) :
    wordSum (front ++ octets16 field ++ back) = wordSum front + field.toNat + wordSum back := by
  rw [List.append_assoc, wordSum_append front _ even, wordSum_octets16, Nat.add_assoc]

section Fill

variable {header front back : Bytes} (even : front.length % 2 = 0)
  (short : (header.length + 1) / 2 + (front.length + back.length + 3) / 2 ≤ 65536)

include even short

private theorem toNat_filled (field : UInt16) :
    (add (add 0 header) (front ++ octets16 field ++ back)).toNat =
      wordSum header + wordSum front + wordSum back + field.toNat := by
  rw [toNat_add_add, wordSum_fill front back field even]
  · omega
  · simp only [List.length_append, length_octets16]
    omega

private theorem finish_filled :
    finish (add (add 0 header) (front ++
      octets16 (finish (add (add 0 header) (front ++ octets16 0 ++ back))) ++ back)) = 0 := by
  have open_sum := toNat_filled even short 0
  have own := toNat_finish (add (add 0 header) (front ++ octets16 0 ++ back))
  rw [finish_eq_zero, toNat_filled even short, own, open_sum]
  have small := (add (add 0 header) (front ++ octets16 0 ++ back)).toNat_lt
  rw [open_sum] at small
  rw [UInt16.toNat_zero] at small ⊢
  have mod := fold_mod (wordSum header + wordSum front + wordSum back + 0)
  have zero := fold_eq_zero (wordSum header + wordSum front + wordSum back + 0)
  have le := fold_le _ small
  omega

private theorem finish_filled_ones
    (zero : finish (add (add 0 header) (front ++ octets16 0 ++ back)) = 0) :
    finish (add (add 0 header) (front ++ octets16 0xffff ++ back)) = 0 := by
  rw [finish_eq_zero, toNat_filled even short] at zero ⊢
  simp only [UInt16.toNat_zero, UInt16.reduceToNat] at zero ⊢
  omega

end Fill

theorem ofBytes_filled {front back : Bytes} (even : front.length % 2 = 0)
    (short : front.length + back.length ≤ 131070) :
    ofBytes (front ++ octets16 (ofBytes (front ++ octets16 0 ++ back)) ++ back) = 0 :=
  @finish_filled [] front back even (by simp only [List.length_nil]; omega)

private theorem length_pseudoHeader4 (source destination : Octets 4) (protocol : UInt8)
    (length : UInt16) : (pseudoHeader4 source destination protocol length).length = 12 := by
  simp [pseudoHeader4]

private theorem length_pseudoHeader6 (source destination : Octets 16) (protocol : UInt8)
    (length : UInt32) : (pseudoHeader6 source destination protocol length).length = 40 := by
  simp [pseudoHeader6]

theorem length_pseudoHeader? {source destination : Address} {protocol : UInt8} {length : Nat}
    {header : Bytes} (eq : pseudoHeader? source destination protocol length = some header) :
    header.length ≤ 40 := by
  unfold pseudoHeader? at eq
  split at eq
  · obtain rfl := Option.some.inj eq
    rw [length_pseudoHeader4]
    omega
  · obtain rfl := Option.some.inj eq
    exact Nat.le_of_eq (length_pseudoHeader6 ..)
  · cases eq

section Segment

variable {source destination : Address} {protocol : UInt8} {front back : Bytes}
  (family : source.isV4 = destination.isV4) (even : front.length % 2 = 0)
  (short : front.length + back.length ≤ 120000)

include family in
theorem pseudoHeader?_isSome (length : Nat) :
    ∃ header, pseudoHeader? source destination protocol length = some header := by
  cases source <;> cases destination <;> first | exact ⟨_, rfl⟩ | cases family

include family even short

theorem ofSegment_filled :
    ofSegment source destination protocol (front ++ octets16
      ((ofSegment source destination protocol (front ++ octets16 0 ++ back)).getD 0) ++ back) =
        some 0 := by
  obtain ⟨header, eq⟩ : ∃ header, pseudoHeader? source destination protocol
      (front.length + 2 + back.length) = some header := pseudoHeader?_isSome family _
  have within := length_pseudoHeader? eq
  unfold ofSegment
  simp only [List.length_append, length_octets16, eq, Option.map_some, Option.getD_some]
  rw [finish_filled even (by omega)]

theorem ofSegment_filled_ones
    (zero : ofSegment source destination protocol (front ++ octets16 0 ++ back) = some 0) :
    ofSegment source destination protocol (front ++ octets16 0xffff ++ back) = some 0 := by
  obtain ⟨header, eq⟩ : ∃ header, pseudoHeader? source destination protocol
      (front.length + 2 + back.length) = some header := pseudoHeader?_isSome family _
  have within := length_pseudoHeader? eq
  unfold ofSegment at zero ⊢
  simp only [List.length_append, length_octets16, eq, Option.map_some, Option.some.injEq] at zero ⊢
  exact finish_filled_ones even (by omega) zero

end Segment
end PacketRelay.Checksum
