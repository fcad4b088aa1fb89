import PacketRelay.Session.Key

/-!
Tables from flows to sessions, which are known by number.

A table holds at most one entry for a key: `find?_insert` and `find?_erase` say what each operation
does to look-ups.
-/

set_option autoImplicit false

namespace PacketRelay

/-- Sessions are numbered in the order in which they are opened. -/
abbrev SessionId := Nat

/-- The entries, oldest first. -/
structure Table where
  entries : List (Session.Key × SessionId)
  deriving DecidableEq

namespace Table

def empty : Table := ⟨[]⟩

def find? (t : Table) (key : Session.Key) : Option SessionId :=
  (t.entries.find? fun entry => entry.1 == key).map (·.2)

def erase (t : Table) (key : Session.Key) : Table := ⟨t.entries.filter fun entry => entry.1 != key⟩

/-- Makes a session that of its flow, in place of any other. -/
def insert (t : Table) (key : Session.Key) (id : SessionId) : Table :=
  ⟨(t.erase key).entries ++ [(key, id)]⟩

def size (t : Table) : Nat := t.entries.length

/-- The sessions in the table at this moment. -/
def ids (t : Table) : List SessionId := t.entries.map (·.2)

@[simp] theorem find?_empty (key : Session.Key) : empty.find? key = none := rfl

private theorem find?_filter_ne (entries : List (Session.Key × SessionId))
    (erased key : Session.Key) (differ : key ≠ erased) :
    (entries.filter fun entry => entry.1 != erased).find? (fun entry => entry.1 == key) =
      entries.find? fun entry => entry.1 == key := by
  induction entries with
  | nil => rfl
  | cons entry rest ih =>
    by_cases h : entry.1 = erased
    · have : (entry.1 == key) = false := by simpa [h] using Ne.symm differ
      rw [List.filter_cons_of_neg (by simp [h]), List.find?_cons_of_neg (by simp [this]), ih]
    · rw [List.filter_cons_of_pos (by simp [h])]
      by_cases k : entry.1 = key
      · rw [List.find?_cons_of_pos (by simp [k]), List.find?_cons_of_pos (by simp [k])]
      · rw [List.find?_cons_of_neg (by simp [k]), List.find?_cons_of_neg (by simp [k]), ih]

theorem find?_erase (t : Table) (erased key : Session.Key) :
    (t.erase erased).find? key = if key = erased then none else t.find? key := by
  by_cases h : key = erased
  · subst h
    simp [find?, erase]
  · simp [find?, erase, h, find?_filter_ne t.entries erased key h]

theorem find?_insert (t : Table) (inserted key : Session.Key) (id : SessionId) :
    (t.insert inserted id).find? key = if key = inserted then some id else t.find? key := by
  by_cases h : key = inserted
  · subst h
    have gone : (t.erase key).entries.find? (fun entry => entry.1 == key) = none := by
      have := find?_erase t key key
      simpa [find?] using this
    simp [find?, insert, List.find?_append, gone]
  · have old := find?_erase t inserted key
    have : (inserted == key) = false := by simpa using Ne.symm h
    simp only [find?, h, if_false] at old ⊢
    simp [insert, List.find?_append, this, old]

end Table
end PacketRelay
