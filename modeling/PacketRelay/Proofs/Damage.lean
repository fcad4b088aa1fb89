import Mathlib.Algebra.GroupWithZero.Nat
import PacketRelay.Proofs.Checksum
import PacketRelay.Tcp.Corruption

/-!
What the checksum is, and what damage it shows.

It is the complement of the one's-complement sum of the words, however the carries are collected,
and it is zero for data that carries its own. One byte in place of another changes the sum by less
than 65535, so a segment that verified does not verify any more.
-/

set_option autoImplicit false

namespace PacketRelay.Checksum

open Wire

private theorem lt_carry {sum : UInt32} : sum < 65536 ↔ sum.toNat < 65536 := UInt32.lt_iff_toNat_lt

/-- Adds carries back in until there are none. -/
def foldAll (sum : UInt32) : UInt32 :=
  if _ : sum < 65536 then sum else foldAll (endAround sum)
termination_by sum.toNat
decreasing_by
  rename_i carries
  rw [lt_carry] at carries
  rw [toNat_endAround]
  omega

/-- One's-complement addition: a carry out of the top comes back in at the bottom. -/
def onesAdd (a b : UInt16) : UInt16 := if a.toNat + b.toNat < 65536 then a + b else a + b + 1

/-- The big-endian words of some data, an odd last byte padded with zero. -/
def words : Bytes → List UInt16
  | hi :: lo :: rest => word16 hi lo :: words rest
  | [last] => [word16 last 0]
  | [] => []

def onesSum (bytes : Bytes) : UInt16 := (words bytes).foldl onesAdd 0

section Sum

private theorem sum_words (bytes : Bytes) : ((words bytes).map (·.toNat)).sum = wordSum bytes := by
  fun_induction words bytes with
  | case1 hi lo rest ih => simp [wordSum, ih]
  | case2 last => simp [wordSum, toNat_word16]
  | case3 => rfl

private theorem endAround_of_small {sum : UInt32} (small : sum < 65536) : endAround sum = sum := by
  rw [lt_carry] at small
  apply UInt32.toNat.inj
  rw [toNat_endAround]
  omega

private theorem endAround_endAround_lt (sum : UInt32) : endAround (endAround sum) < 65536 := by
  have := sum.toNat_lt
  rw [lt_carry, toNat_endAround, toNat_endAround]
  omega

private theorem foldAll_eq (sum : UInt32) : foldAll sum = endAround (endAround sum) := by
  rw [foldAll]
  split
  case isTrue small => rw [endAround_of_small small, endAround_of_small small]
  case isFalse =>
    rw [foldAll]
    split
    case isTrue small => rw [endAround_of_small small]
    case isFalse => rw [foldAll, dif_pos (endAround_endAround_lt sum)]

private theorem finish_eq (sum : UInt32) : finish sum = ~~~ (foldAll sum).toUInt16 := by
  rw [foldAll_eq]
  apply UInt16.toNat.inj
  have small := (endAround (endAround sum)).toUInt16.toNat_lt
  rw [finish, UInt16.toNat_not, UInt16.toNat_sub_of_le]
  · rfl
  · rw [UInt16.le_iff_toNat_le]
    exact Nat.le_of_lt_succ small

private theorem toNat_onesAdd (a b : UInt16) : (onesAdd a b).toNat =
    if a.toNat + b.toNat < 65536 then a.toNat + b.toNat else a.toNat + b.toNat - 65535 := by
  have := a.toNat_lt
  have := b.toNat_lt
  unfold onesAdd
  split
  · rw [UInt16.toNat_add]
    omega
  · rw [UInt16.toNat_add, UInt16.toNat_add, UInt16.toNat_one]
    omega

private theorem toNat_foldl_onesAdd (ws : List UInt16) (a : UInt16) :
    (ws.foldl onesAdd a).toNat % 65535 = (a.toNat + (ws.map (·.toNat)).sum) % 65535 ∧
      ((ws.foldl onesAdd a).toNat = 0 ↔ a.toNat + (ws.map (·.toNat)).sum = 0) := by
  induction ws generalizing a with
  | nil => simp
  | cons w ws ih =>
    obtain ⟨mod, zero⟩ := ih (onesAdd a w)
    have added := toNat_onesAdd a w
    simp only [List.foldl_cons, List.map_cons, List.sum_cons]
    split at added <;> omega

private theorem toNat_add_words {bytes : Bytes} (short : bytes.length ≤ 131072) :
    (add 0 bytes).toNat = ((words bytes).map (·.toNat)).sum := by
  have le := wordSum_le bytes
  rw [toNat_add 0 bytes (by rw [UInt32.toNat_zero]; omega), UInt32.toNat_zero, Nat.zero_add,
    sum_words]

/-- The checksum is the complement of the one's-complement sum: both sums have the remainder of the
true sum modulo 65535, and of the two numbers with the remainder zero both have the same. -/
private theorem ofBytes_eq {bytes : Bytes} (short : bytes.length ≤ 131072) :
    ofBytes bytes = ~~~ onesSum bytes := by
  have total := toNat_add_words short
  obtain ⟨mod, zero⟩ := toNat_foldl_onesAdd (words bytes) 0
  have mod' := fold_mod (add 0 bytes).toNat
  have zero' := fold_eq_zero (add 0 bytes).toNat
  have le := fold_le _ (add 0 bytes).toNat_lt
  have within := (onesSum bytes).toNat_lt
  apply UInt16.toNat.inj
  rw [ofBytes, toNat_finish, UInt16.toNat_not, UInt16.size]
  rw [UInt16.toNat_zero, Nat.zero_add, ← total] at mod zero
  change (onesSum bytes).toNat % 65535 = _ at mod
  change (onesSum bytes).toNat = 0 ↔ _ at zero
  omega

end Sum

section Replacement

/-- What a byte counts for at its place. -/
def weight (i : Nat) : Nat := if i % 2 = 0 then 256 else 1

private theorem wordSum_set (bytes : Bytes) {i : Nat} (inside : i < bytes.length) (b : UInt8) :
    wordSum (bytes.set i b) + bytes[i].toNat * weight i = wordSum bytes + b.toNat * weight i := by
  fun_induction wordSum bytes generalizing i with
  | case1 hi lo rest ih =>
    rcases i with _ | _ | i
    · have own : weight 0 = 256 := rfl
      simp only [List.set_cons_zero, List.getElem_cons_zero, wordSum, toNat_word16, own]
      omega
    · have own : weight (0 + 1) = 1 := rfl
      simp only [List.set_cons_succ, List.set_cons_zero, List.getElem_cons_succ,
        List.getElem_cons_zero, wordSum, toNat_word16, own]
      omega
    · have later := ih (i := i) (by simpa using inside)
      have same : weight (i + 1 + 1) = weight i := by simp [weight, Nat.add_assoc]
      simp only [List.set_cons_succ, List.getElem_cons_succ, wordSum, same]
      omega
  | case2 last =>
    obtain rfl : i = 0 := by simpa using inside
    simp [wordSum, weight, Nat.add_comm]
  | case3 => simp at inside

private theorem wordSum_set_mod {bytes : Bytes} {i : Nat} (inside : i < bytes.length) {b : UInt8}
    (differs : b ≠ bytes[i]) (header : Nat) :
    (header + wordSum (bytes.set i b)) % 65535 ≠ (header + wordSum bytes) % 65535 := by
  have changed := wordSum_set bytes inside b
  have unequal : b.toNat ≠ bytes[i].toNat := fun same => differs (UInt8.toNat.inj same)
  have := b.toNat_lt
  have := bytes[i].toNat_lt
  -- The sum changes by less than 65535, so the remainder cannot stay.
  unfold weight at changed
  split at changed <;> omega

private theorem ofBytes_stored {bytes : Bytes} (short : bytes.length ≤ 131072) {i : Nat}
    (even : i % 2 = 0) (hi : bytes[i]? = some 0) (lo : bytes[i + 1]? = some 0) :
    ofBytes (bytes.take i ++ octets16 (ofBytes bytes) ++ bytes.drop (i + 2)) = 0 := by
  obtain ⟨within, hi⟩ := List.getElem?_eq_some_iff.1 hi
  obtain ⟨inside, lo⟩ := List.getElem?_eq_some_iff.1 lo
  have front : (bytes.take i).length = i := List.length_take_of_le (Nat.le_of_lt within)
  have split : bytes = bytes.take i ++ octets16 0 ++ bytes.drop (i + 2) :=
    calc bytes = bytes.take i ++ bytes.drop i := (List.take_append_drop i bytes).symm
      _ = bytes.take i ++ (0 :: 0 :: bytes.drop (i + 2)) := by
        rw [List.drop_eq_getElem_cons within, List.drop_eq_getElem_cons inside, hi, lo]
      _ = bytes.take i ++ octets16 0 ++ bytes.drop (i + 2) := by
        rw [List.append_assoc]
        rfl
  have filled := @ofBytes_filled (bytes.take i) (bytes.drop (i + 2)) (by rw [front]; exact even) (by
    rw [front, List.length_drop]
    omega)
  rw [← split] at filled
  exact filled

private theorem ofSegment_set {source destination : Address} {protocol : UInt8} {segment : Bytes}
    (short : segment.length ≤ 65535)
    (verifies : ofSegment source destination protocol segment = some 0) {i : Nat}
    (inside : i < segment.length) {b : UInt8} (differs : b ≠ segment[i]) :
    ofSegment source destination protocol (segment.set i b) ≠ some 0 := by
  unfold ofSegment at verifies ⊢
  rw [List.length_set]
  obtain ⟨header, eq, sum⟩ := Option.map_eq_some_iff.1 verifies
  have within := length_pseudoHeader? eq
  rw [eq, Option.map_some, ne_eq, Option.some.injEq]
  intro also
  have changed := wordSum_set_mod inside differs (wordSum header)
  rw [finish_eq_zero, toNat_add_add _ _ (by omega)] at sum
  rw [finish_eq_zero, toNat_add_add _ _ (by rw [List.length_set]; omega)] at also
  exact changed (also.2.trans sum.2.symm)

end Replacement

/-- The checksum of data is the complement of its one's-complement sum, and data that carries its
own has the checksum zero. Of a TCP segment that verifies no single byte can be replaced
unnoticed. -/
theorem checksum_detects :
    (∀ sum, finish sum = ~~~ (foldAll sum).toUInt16) ∧
    (∀ bytes : Bytes, bytes.length ≤ 131072 →
      (add 0 bytes).toNat = ((words bytes).map (·.toNat)).sum ∧
      ofBytes bytes = ~~~ onesSum bytes ∧
      ∀ i, i % 2 = 0 → bytes[i]? = some 0 → bytes[i + 1]? = some 0 →
        ofBytes (bytes.take i ++ octets16 (ofBytes bytes) ++ bytes.drop (i + 2)) = 0) ∧
    ∀ (source destination : Address) (segment : Bytes), source.isV4 = destination.isV4 →
      segment.length ≤ 65535 →
      ofSegment source destination Ip.protocolTcp segment = some 0 →
      ∀ (i : Nat) (inside : i < segment.length) (b : UInt8), b ≠ segment[i] →
        ofSegment source destination Ip.protocolTcp (segment.set i b) ≠ some 0 ∧
        ∀ ip tcp, ip.source = source → ip.destination = destination →
          Tcp.isCorrupted ip tcp (segment.set i b) = true := by
  refine ⟨finish_eq, fun bytes short => ⟨toNat_add_words short, ofBytes_eq short,
    fun i even hi lo => ofBytes_stored short even hi lo⟩,
    fun source destination segment _ short verifies i inside b differs => ?_⟩
  have noticed := ofSegment_set short verifies inside differs
  refine ⟨noticed, fun ip tcp from_source to_destination => ?_⟩
  unfold Tcp.isCorrupted
  rw [from_source, to_destination]
  simp [noticed]

/-- A SYN that verifies between two addresses does not with an acknowledgment flag in place of its
own, and its checksum is the one that its zero field is to be filled with. -/
theorem checksum_detects_flag :
    let source := Address.v4 #v[10, 0, 0, 1]
    let destination := Address.v4 #v[8, 8, 8, 8]
    let syn : Bytes :=
      [19, 136, 0, 80, 0, 0, 3, 232, 0, 0, 0, 0, 80, 2, 255, 255, 126, 18, 0, 0]
    ofSegment source destination Ip.protocolTcp syn = some 0 ∧
      ofSegment source destination Ip.protocolTcp (syn.set 13 16) ≠ some 0 ∧
      (∀ ip tcp, ip.source = source → ip.destination = destination →
        Tcp.isCorrupted ip tcp (syn.set 13 16) = true) ∧
      syn[18]? = some 0 ∧ ofBytes (syn.take 18 ++ octets16 (ofBytes syn) ++ syn.drop 20) = 0 := by
  intro source destination syn
  have verifies : ofSegment source destination Ip.protocolTcp syn = some 0 := by decide
  obtain ⟨-, sums, detects⟩ := checksum_detects
  obtain ⟨noticed, corrupted⟩ := detects source destination syn rfl (by decide) verifies 13
    (by decide) 16 (by decide)
  exact ⟨verifies, noticed, corrupted, rfl, (sums syn (by decide)).2.2 18 rfl rfl rfl⟩

end PacketRelay.Checksum
