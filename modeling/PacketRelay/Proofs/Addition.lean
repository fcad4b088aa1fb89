import PacketRelay.Proofs.OptionList

/-!
Options that are added to a header are read back.

Options can be added to a header whose option bytes are whole words that are read to their end,
since the walk then goes on with what is added. Every addition leaves such a header, and its value
takes the place of the one before it.
-/

set_option autoImplicit false

namespace PacketRelay.Tcp

open Wire

/-- An option that can be added to a header. -/
inductive Addition
  | mss (size : UInt16)
  | timestamps (clocks : Timestamps)
  deriving DecidableEq

namespace Options

@[simp] theorem length_writeMss (size : UInt16) : (writeMss size).length = 4 := rfl

@[simp] theorem length_writeTimestamps (clocks : Timestamps) :
    (writeTimestamps clocks).length = 12 := rfl

private theorem note_mss (seen : Options) (size : UInt16) :
    seen.note (.option kindMss (octets16 size)) = { seen with mss := some size } := by
  show { seen with mss := some (word16 (size / 256).toUInt8 size.toUInt8) } = _
  rw [word16_octets16]

private theorem note_timestamps (seen : Options) (clocks : Timestamps) :
    seen.note (.option kindTimestamps (octets32 clocks.value ++ octets32 clocks.echoReply)) =
      { seen with timestamps := some clocks } := by
  obtain ⟨value, echoReply⟩ := clocks
  have first := word32_octets32 value
  have second := word32_octets32 echoReply
  show { seen with timestamps := some ⟨word32 _ _ _ _, word32 _ _ _ _⟩ } = _
  rw [first, second]

end Options

namespace Addition

def mss? : Addition → Option UInt16
  | mss size => some size
  | timestamps _ => none

def timestamps? : Addition → Option Timestamps
  | mss _ => none
  | timestamps clocks => some clocks

def bytes : Addition → Bytes
  | mss size => Options.writeMss size
  | timestamps clocks => Options.writeTimestamps clocks

/-- What the bytes of an addition spell. -/
def items : Addition → List Options.Item
  | mss size => [.option Options.kindMss (octets16 size)]
  | timestamps clocks =>
    [.nop, .nop, .option Options.kindTimestamps (octets32 clocks.value ++ octets32 clocks.echoReply)]

private theorem bytes_eq (a : Addition) : a.bytes = a.items.flatMap (·.bytes) := by
  cases a <;> rfl

private theorem words (a : Addition) : a.bytes.length % 4 = 0 := by
  cases a <;> simp [bytes]

private theorem legal (a : Addition) : ∀ item ∈ a.items, item.Legal := by
  cases a with
  | mss size =>
    exact List.forall_mem_singleton.2 ⟨by decide, by decide, (by decide : 2 + 2 < 256),
      (by decide : Options.Allows Options.kindMss 2)⟩
  | timestamps clocks =>
    refine List.forall_mem_cons.2 ⟨trivial, List.forall_mem_cons.2 ⟨trivial, ?_⟩⟩
    exact List.forall_mem_singleton.2 ⟨by decide, by decide, (by decide : 8 + 2 < 256),
      (by decide : Options.Allows Options.kindTimestamps 8)⟩

end Addition

variable {h : Header} {options : Options} {additions : List Addition}

namespace Options

/-- The fields with the last values of some additions, where there are any. -/
def update (options : Options) (additions : List Addition) : Options :=
  { options with
    mss := (additions.filterMap (·.mss?)).getLast?.or options.mss
    timestamps := (additions.filterMap (·.timestamps?)).getLast?.or options.timestamps }

private theorem update_append (options : Options) (additions others : List Addition) :
    options.update (additions ++ others) = (options.update additions).update others := by
  simp only [update, List.filterMap_append, List.getLast?_append, Option.or_assoc]

private theorem foldl_note_items (seen : Options) (a : Addition) :
    a.items.foldl note seen = seen.update [a] := by
  cases a with
  | mss size => exact note_mss seen size
  | timestamps clocks => exact note_timestamps seen clocks

private theorem walk_addition (seen : Options) (a : Addition) (rest : Bytes) :
    walk seen (a.bytes ++ rest) = walk (seen.update [a]) rest := by
  rw [a.bytes_eq, walk_items a.legal, foldl_note_items]

end Options

namespace Header

/-- The header with one more option. -/
def add (h : Header) : Addition → Header
  | .mss size => h.withMss size
  | .timestamps clocks => h.withTimestamps clocks

def addAll (h : Header) (additions : List Addition) : Header := additions.foldl add h

private theorem add_eq (h : Header) (a : Addition) : h.add a = h.addOption a.bytes := by
  cases a <;> rfl

theorem withTimestamps?_eq (h : Header) (timestamps : Option Timestamps) :
    h.withTimestamps? timestamps = h.addAll (timestamps.toList.map .timestamps) := by
  cases timestamps <;> rfl

theorem withMss_eq (h : Header) (size : UInt16) (timestamps : Option Timestamps) :
    (h.withMss size).withTimestamps? timestamps =
      h.addAll (.mss size :: timestamps.toList.map .timestamps) := by
  cases timestamps <;> rfl

theorem options_addAll (h : Header) (additions : List Addition) :
    (h.addAll additions).options = h.options ++ additions.flatMap (·.bytes) := by
  induction additions generalizing h with
  | nil => exact (List.append_nil _).symm
  | cons a additions ih =>
    show ((h.add a).addAll additions).options = _
    rw [ih, add_eq, List.flatMap_cons, ← List.append_assoc]
    rfl

private theorem dataOffset_addAll (added : additions ≠ []) :
    (h.addAll additions).dataOffset =
      UInt8.ofNat (5 + (h.addAll additions).options.length / 4) := by
  obtain ⟨earlier, last, rfl⟩ := (List.eq_nil_or_concat additions).resolve_left added
  rw [addAll, List.concat_eq_append, List.foldl_append, List.foldl_cons, List.foldl_nil, add_eq]
  rfl

/-- A header that options can be added to: the walk over its own options goes on behind them, with
what they say. -/
structure Extensible (h : Header) (options : Options) : Prop where
  reserved : h.reserved < 16
  words : h.options.length % 4 = 0
  walk : ∀ rest, Options.walk .empty (h.options ++ rest) = Options.walk options rest

theorem extensible_reply (h : Header) (seq ack : UInt32) (flags : Flags) :
    (h.reply seq ack flags).Extensible .empty where
  reserved := (by decide : (0 : UInt8) < 16)
  words := rfl
  walk _ := rfl

namespace Extensible

private theorem of_accepted (reserved : h.reserved < 16) (words : h.options.length % 4 = 0)
    (accepted : h.parsedOptions = .ok options)
    (unended : ∀ items after, ¬ Options.Spells h.options items (Options.kindEnd :: after)) :
    h.Extensible options := by
  refine ⟨reserved, words, fun rest => ?_⟩
  obtain ⟨items, tail, spells⟩ := Options.exists_spells accepted
  rcases spells.ends with rfl | ⟨after, rfl⟩
  · have read : Except.ok options = .ok (items.foldl Options.note .empty) :=
      accepted.symm.trans (spells.walk .empty)
    rw [Except.ok.inj read, spells.bytes_eq, List.append_nil, Options.walk_items spells.legal]
  · exact absurd spells (unended items after)

theorem parsedOptions (extensible : h.Extensible options) : h.parsedOptions = .ok options := by
  have read := extensible.walk []
  rwa [List.append_nil, Options.walk_nil] at read

private theorem add (extensible : h.Extensible options) (a : Addition) :
    (h.add a).Extensible (options.update [a]) := by
  rw [add_eq]
  refine ⟨extensible.reserved, ?_, fun rest => ?_⟩
  · show (h.options ++ a.bytes).length % 4 = 0
    rw [List.length_append, Nat.add_mod, extensible.words, a.words]
  · show Options.walk .empty (h.options ++ a.bytes ++ rest) = _
    rw [List.append_assoc, extensible.walk, Options.walk_addition]

theorem addAll (extensible : h.Extensible options) (additions : List Addition) :
    (h.addAll additions).Extensible (options.update additions) := by
  induction additions generalizing h options with
  | nil => exact extensible
  | cons a additions ih =>
    rw [← List.singleton_append, Options.update_append]
    exact ih (extensible.add a)

theorem fits (extensible : h.Extensible options) (added : additions ≠ [])
    (room : (h.addAll additions).options.length ≤ 40) : (h.addAll additions).Fits :=
  have extended := extensible.addAll additions
  fits_of_options extended.reserved extended.words room (dataOffset_addAll added)

end Extensible

/-- Options are added to a header whose own are accepted, are whole words and do not run into an
end-of-list byte. It is read back from what is written of it, and its options say what they said
before, but for the last values that were added. -/
theorem additions_read (additions : List Addition) (reserved : h.reserved < 16)
    (accepted : h.parsedOptions = .ok options)
    (unended : ∀ items after, ¬ Options.Spells h.options items (Options.kindEnd :: after))
    (words : h.options.length % 4 = 0) (added : additions ≠ [])
    (room : (h.addAll additions).options.length ≤ 40) (payload : Bytes) :
    Header.parse ((h.addAll additions).write ++ payload) = .ok (h.addAll additions) ∧
    (h.addAll additions).parsedOptions = .ok { options with
      mss := (additions.filterMap (·.mss?)).getLast?.or options.mss
      timestamps := (additions.filterMap (·.timestamps?)).getLast?.or options.timestamps } := by
  have extensible := Extensible.of_accepted reserved words accepted unended
  exact ⟨parse_write (extensible.fits added room) payload,
    (extensible.addAll additions).parsedOptions⟩

/-- A window scale that the data offset does not count, and behind it clocks and segment sizes that
are stated more than once, forty bytes in all. -/
theorem additions_read_full :
    let h : Header := ⟨5000, 80, 1, 0, 0, 15, .syn, 512, 7, 0, [3, 3, 7, 1]⟩
    let additions : List Addition :=
      [.timestamps ⟨1, 0⟩, .mss 1400, .timestamps ⟨2, 9⟩, .mss 1200, .mss 1300]
    h.parsedOptions = .ok ⟨none, some 7, false, none⟩ ∧
    (∀ items after, ¬ Options.Spells h.options items (Options.kindEnd :: after)) ∧
    (h.addAll additions).options.length = 40 ∧ (h.addAll additions).dataOffset = 15 ∧
    Header.parse ((h.addAll additions).write ++ [104, 105]) = .ok (h.addAll additions) ∧
    (h.addAll additions).parsedOptions = .ok ⟨some 1300, some 7, false, some ⟨2, 9⟩⟩ := by
  intro h additions
  have spells : Options.Spells h.options [.option Options.kindWindowScale [7], .nop] [] :=
    ⟨by decide, by decide, .inl rfl⟩
  have accepted : h.parsedOptions = .ok ⟨none, some 7, false, none⟩ := spells.walk .empty
  have unended : ∀ items after, ¬ Options.Spells h.options items (Options.kindEnd :: after) :=
    fun items after ended => List.cons_ne_nil _ _ (ended.unique spells).2
  exact ⟨accepted, unended, by decide, by decide,
    additions_read additions (by decide) accepted unended (by decide) (by decide) (by decide)
      [104, 105]⟩

end Header
end PacketRelay.Tcp
