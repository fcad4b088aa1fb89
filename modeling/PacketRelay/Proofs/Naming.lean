import PacketRelay.Session.Key

/-!
The text of a key names one flow.

Numbers are spelled with letters and digits, so every separator in the text of a key separates. The
last two bars part the source and the destination from the protocol, and the last colon of an
endpoint parts the port from the address. The address itself has no colon or seven, by its family.
-/

set_option autoImplicit false

namespace PacketRelay

variable {mark other : Char} {front front' back back' : List Char}
  {parts parts' : List (List Char)}

section Separators

/-- The last separator parts a list, wherever others stand in front of it. -/
private theorem parted_inj (free : mark ∉ back) (free' : mark ∉ back')
    (same : front ++ mark :: back = front' ++ mark :: back') : front = front' ∧ back = back' := by
  have split := congrArg (List.splitOn mark) same
  rw [List.splitOn_append_cons_self, List.splitOn_append_cons_self,
    List.splitOn_eq_singleton free, List.splitOn_eq_singleton free'] at split
  obtain ⟨fronts, backs⟩ := List.append_inj' split rfl
  have joined := congrArg [mark].intercalate fronts
  rw [List.intercalate_splitOn, List.intercalate_splitOn] at joined
  exact ⟨joined, List.singleton_inj.1 backs⟩

private theorem intercalate_inj (free : ∀ part ∈ parts, mark ∉ part)
    (free' : ∀ part ∈ parts', mark ∉ part) (some : parts ≠ []) (some' : parts' ≠ [])
    (same : [mark].intercalate parts = [mark].intercalate parts') : parts = parts' := by
  rw [← List.splitOn_intercalate mark free some, same, List.splitOn_intercalate mark free' some']

private theorem notMem_intercalate (differs : mark ≠ other) (free : ∀ part ∈ parts, mark ∉ part) :
    mark ∉ [other].intercalate parts := by
  induction parts with
  | nil => simp
  | cons part parts ih =>
    obtain ⟨first, later⟩ := List.forall_mem_cons.1 free
    cases parts with
    | nil => simpa using first
    | cons next parts =>
      rw [List.intercalate_cons_cons]
      simp [first, differs, ih later]

end Separators

section Numbers

private theorem decimal_inj {m n : Nat} (same : Nat.toDigits 10 m = Nat.toDigits 10 n) : m = n :=
  calc
    m = Nat.ofDigitChars 10 (Nat.toDigits 10 m) 0 := Nat.ofDigitChars_ten_toDigits.symm
    _ = Nat.ofDigitChars 10 (Nat.toDigits 10 n) 0 := by rw [same]
    _ = n := Nat.ofDigitChars_ten_toDigits

private theorem notMem_decimal (separates : mark.isAlphanum = false) (n : Nat) :
    mark ∉ Nat.toDigits 10 n := by
  intro within
  have digit := Nat.isDigit_of_mem_toDigits (by decide) (by decide) within
  simp [Char.isAlphanum, digit] at separates

private theorem isAlphanum_digitChar {n : Nat}
    (small : n < 16) : n.digitChar.isAlphanum = true := by
  decide +revert

private theorem digitChar_inj {m n : Nat} (small : m < 16) (small' : n < 16)
    (same : m.digitChar = n.digitChar) : m = n := by
  have distinct : ∀ i j : Fin 16, (i : Nat).digitChar = (j : Nat).digitChar → i = j := by decide
  exact congrArg Fin.val (distinct ⟨m, small⟩ ⟨n, small'⟩ same)

end Numbers

namespace Address

private theorem digits_lt (b : UInt8) : (b / 16).toNat < 16 ∧ (b % 16).toNat < 16 := by
  have := b.toNat_lt
  simp
  omega

private theorem hexPair_inj {b c : UInt8} (same : hexPair b = hexPair c) : b = c := by
  simp only [hexPair, List.cons.injEq, and_true] at same
  have high := digitChar_inj (digits_lt b).1 (digits_lt c).1 same.1
  have low := digitChar_inj (digits_lt b).2 (digits_lt c).2 same.2
  apply UInt8.toNat.inj
  simp at high low
  omega

private theorem notMem_hexPair (separates : mark.isAlphanum = false)
    (b : UInt8) : mark ∉ hexPair b := by
  have spelled : ∀ digit ∈ hexPair b, digit.isAlphanum = true :=
    List.forall_mem_cons.2 ⟨isAlphanum_digitChar (digits_lt b).1,
      List.forall_mem_singleton.2 (isAlphanum_digitChar (digits_lt b).2)⟩
  intro within
  rw [spelled mark within] at separates
  cases separates

private theorem notMem_hexGroups (separates : mark.isAlphanum = false) (bytes : Bytes) :
    ∀ group ∈ hexGroups bytes, mark ∉ group := by
  fun_induction hexGroups bytes with
  | case1 hi lo rest ih =>
    rw [List.forall_mem_cons, List.mem_append, not_or]
    exact ⟨⟨notMem_hexPair separates hi, notMem_hexPair separates lo⟩, ih⟩
  | case2 => simp

private theorem length_hexGroups (bytes : Bytes) : (hexGroups bytes).length = bytes.length / 2 := by
  fun_induction hexGroups bytes with
  | case1 hi lo rest ih =>
    simp only [List.length_cons, ih]
    omega
  | case2 bytes short =>
    match bytes with
    | [] => rfl
    | [_] => simp
    | hi :: lo :: rest => exact absurd rfl (short hi lo rest)

private theorem hexGroups_inj {a b : Bytes} (length : a.length = b.length) (even : a.length % 2 = 0)
    (same : hexGroups a = hexGroups b) : a = b := by
  fun_induction hexGroups a generalizing b with
  | case1 hi lo rest ih =>
    match b with
    | hi' :: lo' :: rest' =>
      simp only [hexGroups, List.cons.injEq] at same
      obtain ⟨first, later⟩ := same
      obtain ⟨upper, lower⟩ := List.append_inj first rfl
      simp only [List.length_cons, Nat.add_right_cancel_iff] at length even
      rw [hexPair_inj upper, hexPair_inj lower, ih length (by omega) later]
  | case2 bytes short =>
    match bytes, b with
    | [], [] => rfl
    | [_], _ => simp at even
    | hi :: lo :: rest, _ => exact absurd rfl (short hi lo rest)

/-- The numbers of a dotted quad. -/
def quad (o : Octets 4) : List (List Char) := o.toList.map fun b => Nat.toDigits 10 b.toNat

private theorem notMem_quad (separates : mark.isAlphanum = false) (o : Octets 4) :
    ∀ number ∈ quad o, mark ∉ number := by
  intro number within
  obtain ⟨b, -, rfl⟩ := List.mem_map.1 within
  exact notMem_decimal separates b.toNat

private theorem quad_inj {o p : Octets 4} (same : quad o = quad p) : o = p := by
  have bytes : o.toList = p.toList :=
    (List.map_inj_right fun _ _ digits => UInt8.toNat.inj (decimal_inj digits)).1 same
  exact Vector.toList_inj.1 bytes

/-- The parts of an address between its colons. -/
def groups : Address → List (List Char)
  | v4 o => [['.'].intercalate (quad o)]
  | v6 o => hexGroups o.toList

private theorem length_groups (a : Address) : a.groups.length = if a.isV4 then 1 else 8 := by
  cases a with
  | v4 o => rfl
  | v6 o =>
    show (hexGroups o.toList).length = 8
    rw [length_hexGroups, Vector.length_toList]

private theorem chars_eq (a : Address) : a.chars = [':'].intercalate a.groups := by
  cases a with
  | v4 o => exact List.intercalate_singleton.symm
  | v6 o => rfl

private theorem notMem_groups (separates : mark.isAlphanum = false) (differs : mark ≠ '.')
    (a : Address) : ∀ group ∈ a.groups, mark ∉ group := by
  cases a with
  | v4 o => exact List.forall_mem_singleton.2 (notMem_intercalate differs (notMem_quad separates o))
  | v6 o => exact notMem_hexGroups separates o.toList

private theorem groups_inj {a b : Address} (same : a.groups = b.groups) : a = b := by
  have lengths := congrArg List.length same
  rw [length_groups, length_groups] at lengths
  cases a with
  | v4 o =>
    cases b with
    | v4 p =>
      have quads : quad o = quad p :=
        intercalate_inj (notMem_quad rfl o) (notMem_quad rfl p) (by simp [quad]) (by simp [quad])
          (List.singleton_inj.1 same)
      rw [quad_inj quads]
    | v6 p => cases lengths
  | v6 o =>
    cases b with
    | v4 p => cases lengths
    | v6 p =>
      have bytes : o.toList = p.toList := hexGroups_inj (by simp) (by simp) same
      rw [Vector.toList_inj.1 bytes]

private theorem groups_ne_nil (a : Address) : a.groups ≠ [] := by
  intro none
  have length := a.length_groups
  rw [none] at length
  split at length <;> cases length

private theorem chars_inj {a b : Address} (same : a.chars = b.chars) : a = b := by
  rw [chars_eq, chars_eq] at same
  exact groups_inj (intercalate_inj (notMem_groups rfl (by decide) a)
    (notMem_groups rfl (by decide) b) a.groups_ne_nil b.groups_ne_nil same)

private theorem notMem_chars (a : Address) : '|' ∉ a.chars := by
  rw [chars_eq]
  exact notMem_intercalate (by decide) (notMem_groups rfl (by decide) a)

end Address

namespace Session

private theorem Protocol.chars_inj {p q : Protocol} (same : p.chars = q.chars) : p = q := by
  match p, q with
  | .tcp, .tcp | .udp, .udp => rfl
  | .tcp, .udp | .udp, .tcp => cases same

namespace Key

private theorem notMem_endpointChars (address : Address) (port : UInt16) :
    '|' ∉ endpointChars address port := by
  rw [endpointChars, List.mem_append, List.mem_cons, not_or, not_or]
  exact ⟨address.notMem_chars, by decide, notMem_decimal rfl _⟩

private theorem endpointChars_inj {address address' : Address} {port port' : UInt16}
    (same : endpointChars address port = endpointChars address' port') :
    address = address' ∧ port = port' := by
  obtain ⟨addresses, ports⟩ := parted_inj (notMem_decimal rfl _) (notMem_decimal rfl _) same
  exact ⟨Address.chars_inj addresses, UInt16.toNat.inj (decimal_inj ports)⟩

/-- Keys have one text exactly if they are of one protocol and have the same endpoints. -/
theorem text_identifies (k l : Key) :
    k.text = l.text ↔ k.protocol = l.protocol ∧
      k.destination = l.destination ∧ k.destinationPort = l.destinationPort ∧
      k.source = l.source ∧ k.sourcePort = l.sourcePort := by
  constructor
  · intro same
    obtain ⟨front, sources⟩ := parted_inj (notMem_endpointChars _ _) (notMem_endpointChars _ _)
      (String.ofList_injective same)
    obtain ⟨protocols, destinations⟩ :=
      parted_inj (notMem_endpointChars _ _) (notMem_endpointChars _ _) front
    obtain ⟨destination, destinationPort⟩ := endpointChars_inj destinations
    obtain ⟨source, sourcePort⟩ := endpointChars_inj sources
    exact ⟨Protocol.chars_inj protocols, destination, destinationPort, source, sourcePort⟩
  · intro same
    obtain ⟨protocol, destination, destinationPort, source, sourcePort⟩ := k
    obtain ⟨rfl, rfl, rfl, rfl, rfl⟩ := same
    rfl

end Key
end Session
end PacketRelay
