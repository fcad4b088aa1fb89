import Mathlib.Data.List.Induction
import PacketRelay.Proofs.Access

/-!
The grammar of option lists.

An option list is a run of items, which are no-operations and options whose bodies have a length
that their kind allows; it ends with the bytes, or at an end-of-list byte, and then what follows is
no part of it. Walking the bytes accepts these lists and no others, and comes to the last value that
the items give for each field.
-/

set_option autoImplicit false

namespace PacketRelay.Tcp.Options

open Wire

/-- The lengths that the body of an option may have. Unknown kinds have bodies of any length. -/
def Allows (kind : UInt8) (length : Nat) : Prop :=
  (kind = kindMss → length = 2) ∧ (kind = kindWindowScale → length = 1) ∧
    (kind = kindSackPermitted → length = 0) ∧ (kind = kindTimestamps → length = 8) ∧
    (kind = kindSack → length % 8 = 0)

instance (kind : UInt8) (length : Nat) : Decidable (Allows kind length) :=
  inferInstanceAs (Decidable (_ ∧ _))

/-- A part of an option list. -/
inductive Item
  | nop
  | option (kind : UInt8) (body : Bytes)
  deriving DecidableEq

namespace Item

/-- The length of an option counts its kind and the length itself. -/
def bytes : Item → Bytes
  | nop => [kindNop]
  | option kind body => kind :: UInt8.ofNat (body.length + 2) :: body

/-- An option has a kind of its own, a length that fits its byte, and a body that its kind
allows. -/
def Legal : Item → Prop
  | nop => True
  | option kind body =>
    kind ≠ kindEnd ∧ kind ≠ kindNop ∧ body.length + 2 < 256 ∧ Allows kind body.length

instance : (item : Item) → Decidable item.Legal
  | nop => .isTrue trivial
  | option _ _ => inferInstanceAs (Decidable (_ ∧ _))

/-- The body of an option of the given kind. -/
def body? (kind : UInt8) : Item → Option Bytes
  | nop => none
  | option own body => if own = kind then some body else none

def mss? (item : Item) : Option UInt16 :=
  match item.body? kindMss with
  | some [a, b] => some (word16 a b)
  | _ => none

def windowScale? (item : Item) : Option UInt8 :=
  match item.body? kindWindowScale with
  | some [shift] => some shift
  | _ => none

def permitsSack (item : Item) : Bool := (item.body? kindSackPermitted).isSome

def timestamps? (item : Item) : Option Timestamps :=
  match item.body? kindTimestamps with
  | some [a, b, c, d, e, f, g, h] => some ⟨word32 a b c d, word32 e f g h⟩
  | _ => none

end Item

/-- The last value that items give for each field. -/
def ofItems (items : List Item) : Options where
  mss := (items.filterMap (·.mss?)).getLast?
  windowScale := (items.filterMap (·.windowScale?)).getLast?
  sackPermitted := items.any (·.permitsSack)
  timestamps := (items.filterMap (·.timestamps?)).getLast?

/-- Some bytes are items, and behind them nothing, or an end-of-list byte and anything. -/
structure Spells (bytes : Bytes) (items : List Item) (tail : Bytes) : Prop where
  bytes_eq : bytes = items.flatMap (·.bytes) ++ tail
  legal : ∀ item ∈ items, item.Legal
  ends : tail = [] ∨ ∃ after, tail = kindEnd :: after

variable {bytes tail rest : Bytes} {items others : List Item} {item other : Item}

section Values

/-- The fields after one more item. -/
def note (seen : Options) (item : Item) : Options where
  mss := item.mss?.or seen.mss
  windowScale := item.windowScale?.or seen.windowScale
  sackPermitted := item.permitsSack || seen.sackPermitted
  timestamps := item.timestamps?.or seen.timestamps

private theorem ofItems_append (items : List Item) (item : Item) :
    ofItems (items ++ [item]) = (ofItems items).note item := by
  simp [ofItems, note, Bool.or_comm]

private theorem foldl_note (items : List Item) : items.foldl note empty = ofItems items := by
  induction items using List.reverseRecOn with
  | nil => rfl
  | append_singleton items item ih =>
    rw [List.foldl_append, ih, List.foldl_cons, List.foldl_nil, ofItems_append]

private theorem record_eq (seen : Options) (kind : UInt8) (body : Bytes) :
    seen.record kind body =
      if Allows kind body.length then some (seen.note (.option kind body)) else none := by
  by_cases mss : kind = kindMss
  · subst mss
    match body with
    | [a, b] => rfl
    | [] | [_] | _ :: _ :: _ :: _ => rfl
  by_cases scale : kind = kindWindowScale
  · subst scale
    match body with
    | [a] => rfl
    | [] | _ :: _ :: _ => rfl
  by_cases permitted : kind = kindSackPermitted
  · subst permitted
    match body with
    | [] | _ :: _ => rfl
  by_cases stamps : kind = kindTimestamps
  · subst stamps
    by_cases whole : body.length = 8
    · obtain ⟨a, b, c, d, e, f, g, h, rest, rfl⟩ := Bytes.eight (Nat.le_of_eq whole.symm)
      obtain rfl : rest = [] := by simpa using whole
      rfl
    · have refused : seen.record kindTimestamps body = none := by
        simp only [record, mss, scale, permitted, show kindTimestamps ≠ kindSack by decide, if_false,
          if_true]
        split
        · simp at whole
        · rfl
      rw [refused, if_neg fun allowed => whole (allowed.2.2.2.1 rfl)]
  -- Options of other kinds have no value.
  have silent : seen.note (.option kind body) = seen := by
    simp [note, Item.mss?, Item.windowScale?, Item.permitsSack, Item.timestamps?, Item.body?, mss,
      scale, permitted, stamps]
  simp only [record, Allows, silent, mss, scale, permitted, stamps, if_false, false_implies, true_and]
  by_cases sack : kind = kindSack <;> simp [sack]

end Values

section Walk

private theorem walk_end (seen : Options) (after : Bytes) :
    walk seen (kindEnd :: after) = .ok seen := by
  cases after with
  | nil => rw [walk, if_pos (.inl rfl)]
  | cons length rest => rw [walk, if_pos rfl]

private theorem walk_item (seen : Options) (legal : item.Legal) (rest : Bytes) :
    walk seen (item.bytes ++ rest) = walk (seen.note item) rest := by
  cases item with
  | nop => exact walk_nop seen rest
  | option kind body =>
    obtain ⟨notEnd, notNop, short, allowed⟩ := legal
    have length : (UInt8.ofNat (body.length + 2)).toNat = body.length + 2 :=
      UInt8.toNat_ofNat_of_lt' short
    have least : ¬ UInt8.ofNat (body.length + 2) < 2 := by
      rw [UInt8.lt_iff_toNat_lt, length]
      exact Nat.not_lt.2 (Nat.le_add_left 2 _)
    have within : ¬ (body ++ rest).length + 2 < body.length + 2 := by
      rw [List.length_append]
      omega
    simp only [Item.bytes, List.cons_append]
    rw [walk, if_neg notEnd, if_neg notNop, length, if_neg (not_or.2 ⟨least, within⟩),
      Nat.add_sub_cancel, List.take_left, List.drop_left, record_eq, if_pos allowed]

/-- The walk over items ends where they end. -/
theorem walk_items (legal : ∀ item ∈ items, item.Legal) (seen : Options) (rest : Bytes) :
    walk seen (items.flatMap (·.bytes) ++ rest) = walk (items.foldl note seen) rest := by
  induction items generalizing seen with
  | nil => rfl
  | cons item items ih =>
    obtain ⟨first, later⟩ := List.forall_mem_cons.1 legal
    rw [List.flatMap_cons, List.append_assoc, walk_item seen first]
    exact ih later _

theorem Spells.walk (spells : Spells bytes items tail) (seen : Options) :
    walk seen bytes = .ok (items.foldl note seen) := by
  rw [spells.bytes_eq, walk_items spells.legal]
  rcases spells.ends with rfl | ⟨after, rfl⟩
  · exact walk_nil _
  · exact walk_end _ after

private theorem Spells.cons (legal : item.Legal) (spells : Spells bytes items tail) :
    Spells (item.bytes ++ bytes) (item :: items) tail where
  bytes_eq := by rw [List.flatMap_cons, List.append_assoc, ← spells.bytes_eq]
  legal := List.forall_mem_cons.2 ⟨legal, spells.legal⟩
  ends := spells.ends

theorem exists_spells {seen options : Options} (walked : walk seen bytes = .ok options) :
    ∃ items tail, Spells bytes items tail := by
  fun_induction Options.walk seen bytes with
  | case1 => exact ⟨[], [], rfl, by simp, .inl rfl⟩
  | case2 seen kind known =>
    rcases known with rfl | rfl
    · exact ⟨[], [kindEnd], rfl, by simp, .inr ⟨[], rfl⟩⟩
    · exact ⟨[.nop], [], rfl, by simp [Item.Legal], .inl rfl⟩
  | case4 seen length rest => exact ⟨[], _, rfl, by simp, .inr ⟨length :: rest, rfl⟩⟩
  | case5 seen length rest _ ih =>
    obtain ⟨items, tail, spells⟩ := ih walked
    have legal : Item.Legal .nop := trivial
    exact ⟨.nop :: items, tail, spells.cons legal⟩
  | case7 seen kind length rest notEnd notNop inside later recorded ih =>
    obtain ⟨items, tail, spells⟩ := ih walked
    obtain ⟨least, most⟩ := not_or.1 inside
    have least : 2 ≤ length.toNat := UInt8.le_iff_toNat_le.1 (UInt8.not_lt.1 least)
    have small := length.toNat_lt
    have counted : (rest.take (length.toNat - 2)).length + 2 = length.toNat := by
      rw [List.length_take]
      omega
    have allowed : Allows kind (rest.take (length.toNat - 2)).length := by
      rw [record_eq] at recorded
      by_contra refused
      rw [if_neg refused] at recorded
      cases recorded
    have legal : (Item.option kind (rest.take (length.toNat - 2))).Legal :=
      ⟨notEnd, notNop, by rw [counted]; exact small, allowed⟩
    have spelled := spells.cons legal
    rw [Item.bytes, counted, UInt8.ofNat_toNat, List.cons_append, List.cons_append,
      List.take_append_drop] at spelled
    exact ⟨_, tail, spelled⟩
  | case3 | case6 | case8 => cases walked

end Walk

section Unique

private theorem Item.Legal.first (legal : item.Legal) :
    ∃ first more, item.bytes = first :: more ∧ first ≠ kindEnd := by
  cases item with
  | nop => exact ⟨kindNop, [], rfl, by decide⟩
  | option kind body => exact ⟨kind, _, rfl, legal.1⟩

private theorem Item.Legal.eq_of_append (legal : item.Legal) (also : other.Legal)
    (same : item.bytes ++ bytes = other.bytes ++ rest) : item = other ∧ bytes = rest := by
  cases item with
  | nop =>
    cases other with
    | nop => exact ⟨rfl, List.append_cancel_left same⟩
    | option kind body => exact absurd (List.cons.inj same).1.symm also.2.1
  | option kind body =>
    cases other with
    | nop => exact absurd (List.cons.inj same).1 legal.2.1
    | option kind' body' =>
      simp only [Item.bytes, List.cons_append, List.cons.injEq] at same
      obtain ⟨rfl, counts, behind⟩ := same
      have lengths : body.length = body'.length := by
        have counts := congrArg UInt8.toNat counts
        rw [UInt8.toNat_ofNat_of_lt' legal.2.2.1, UInt8.toNat_ofNat_of_lt' also.2.2.1] at counts
        exact Nat.add_right_cancel counts
      obtain ⟨rfl, rfl⟩ := List.append_inj behind lengths
      exact ⟨rfl, rfl⟩

private theorem Item.Legal.ne_tail (legal : item.Legal)
    (ends : tail = [] ∨ ∃ after, tail = kindEnd :: after) : item.bytes ++ bytes ≠ tail := by
  obtain ⟨first, more, same, differs⟩ := legal.first
  rw [same]
  rintro rfl
  rcases ends with none | ⟨after, same⟩
  · cases none
  · exact differs (List.cons.inj same).1

theorem Spells.unique (spells : Spells bytes items tail) (also : Spells bytes others rest) :
    items = others ∧ tail = rest := by
  obtain ⟨rfl, legal, ends⟩ := spells
  obtain ⟨same, legal', ends'⟩ := also
  induction items generalizing others with
  | nil =>
    cases others with
    | nil => exact ⟨rfl, same⟩
    | cons other others =>
      rw [List.flatMap_cons, List.append_assoc] at same
      exact absurd same.symm ((List.forall_mem_cons.1 legal').1.ne_tail ends)
  | cons item items ih =>
    obtain ⟨first, later⟩ := List.forall_mem_cons.1 legal
    rw [List.flatMap_cons, List.append_assoc] at same
    cases others with
    | nil => exact absurd same (first.ne_tail ends')
    | cons other others =>
      obtain ⟨first', later'⟩ := List.forall_mem_cons.1 legal'
      rw [List.flatMap_cons, List.append_assoc] at same
      obtain ⟨rfl, behind⟩ := first.eq_of_append first' same
      obtain ⟨rfl, rfl⟩ := ih later behind later'
      exact ⟨rfl, rfl⟩

end Unique

/-- Reading the options of a header is defined for all bytes, and no access is out of range on the
way. It accepts the bytes that spell a list of items, and comes to the last value that the items
give for each field. Bytes spell one list only, and what stands behind its end-of-list byte is not
read. -/
theorem parse_grammar (bytes : Bytes) :
    Access.options bytes = MonadExcept.ofExcept (parse bytes) ∧
    (∀ options, parse bytes = .ok options ↔
      ∃ items tail, Spells bytes items tail ∧ options = ofItems items) ∧
    (∀ items tail, Spells bytes items tail → ∀ others rest, Spells bytes others rest →
      others = items ∧ rest = tail) ∧
    ∀ items after, Spells bytes items (kindEnd :: after) → ∀ other,
      parse (items.flatMap (·.bytes) ++ kindEnd :: other) = parse bytes := by
  have accepts : ∀ {bytes : Bytes} {items : List Item} {tail : Bytes}, Spells bytes items tail →
      parse bytes = .ok (ofItems items) := fun spells => by
    rw [parse, spells.walk, foldl_note]
  refine ⟨Access.options_eq bytes, fun options => ⟨fun parsed => ?_, ?_⟩,
    fun items tail spells others rest also => also.unique spells, fun items after spells other => ?_⟩
  · obtain ⟨items, tail, spells⟩ := exists_spells parsed
    rw [accepts spells] at parsed
    exact ⟨items, tail, spells, (Except.ok.inj parsed).symm⟩
  · rintro ⟨items, tail, spells, rfl⟩
    exact accepts spells
  · have ended : Spells (items.flatMap (·.bytes) ++ kindEnd :: other) items (kindEnd :: other) :=
      ⟨rfl, spells.legal, .inr ⟨other, rfl⟩⟩
    rw [accepts ended, accepts spells]

/-- Of a segment size that is stated twice the second counts, and nothing behind the end of the list
does. -/
theorem parse_grammar_repeated :
    let items : List Item :=
      [.option kindMss [5, 180], .nop, .option kindWindowScale [7], .option kindMss [4, 0]]
    let bytes : Bytes := [2, 4, 5, 180, 1, 3, 3, 7, 2, 4, 4, 0, 0, 2]
    Spells bytes items [kindEnd, 2] ∧ parse bytes = .ok ⟨some 1024, some 7, false, none⟩ ∧
      parse (items.flatMap (·.bytes) ++ [kindEnd, 8, 1]) = parse bytes := by
  intro items bytes
  have spells : Spells bytes items [kindEnd, 2] := ⟨by decide, by decide, .inr ⟨[2], rfl⟩⟩
  obtain ⟨-, accepted, -, ended⟩ := parse_grammar bytes
  exact ⟨spells, (accepted _).2 ⟨items, _, spells, by decide⟩, ended items [2] spells [8, 1]⟩

end PacketRelay.Tcp.Options
