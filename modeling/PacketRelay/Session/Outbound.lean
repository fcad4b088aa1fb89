import PacketRelay.Wire.Word

/-!
Client payload on its way to the real socket.

Payloads are queued as chunks, so that a datagram socket can send one datagram per chunk. No chunk
is empty and the stored size is the number of queued bytes: `Outbound.WellFormed` holds of the empty
queue and is kept by `push` and `consume`.
-/

set_option autoImplicit false

namespace PacketRelay.Session

structure Outbound where
  /-- The chunks, oldest first. -/
  chunks : List Bytes
  /-- The number of queued bytes. -/
  size : Nat
  deriving DecidableEq

namespace Outbound

def empty : Outbound := ⟨[], 0⟩

/-- Queues a payload; an empty one leaves no chunk. -/
def push (q : Outbound) (payload : Bytes) : Outbound :=
  if payload.isEmpty then q else ⟨q.chunks ++ [payload], q.size + payload.length⟩

/-- The chunk to send next. -/
def front? (q : Outbound) : Option Bytes := q.chunks.head?

/-- Drops up to `n` bytes of the front chunk, and the chunk with its last byte. -/
def consume (q : Outbound) (n : Nat) : Outbound :=
  match q.chunks with
  | [] => q
  | front :: rest =>
    let left := front.drop n
    ⟨if left.isEmpty then rest else left :: rest, q.size - min n front.length⟩

def bytes (q : Outbound) : Bytes := q.chunks.flatten

/-- No chunk is empty, and the size counts the queued bytes. -/
structure WellFormed (q : Outbound) : Prop where
  nonempty : ∀ chunk ∈ q.chunks, chunk ≠ []
  size_eq : q.size = q.chunks.flatten.length

theorem wellFormed_empty : WellFormed empty := ⟨by simp [empty], rfl⟩

theorem WellFormed.push {q : Outbound} (h : q.WellFormed) (payload : Bytes) :
    (q.push payload).WellFormed := by
  cases payload with
  | nil => exact h
  | cons b rest =>
    refine ⟨fun chunk member => ?_, ?_⟩
    · rcases List.mem_append.1 member with old | new
      · exact h.nonempty chunk old
      · simp at new
        simp [new]
    · simp [Outbound.push, h.size_eq]

theorem WellFormed.consume {q : Outbound} (h : q.WellFormed) (n : Nat) :
    (q.consume n).WellFormed := by
  obtain ⟨chunks, size⟩ := q
  cases chunks with
  | nil => exact h
  | cons front rest =>
    have total : size = front.length + rest.flatten.length := by
      rw [← List.length_append, ← List.flatten_cons]
      exact h.size_eq
    have later : ∀ chunk ∈ rest, chunk ≠ [] := fun chunk member =>
      h.nonempty chunk (List.mem_cons_of_mem _ member)
    by_cases gone : front.drop n = []
    · refine ⟨by simpa [Outbound.consume, gone] using later, ?_⟩
      have : front.length ≤ n := List.drop_eq_nil_iff.1 gone
      simp only [Outbound.consume, gone, List.isEmpty_nil, if_true]
      omega
    · refine ⟨?_, ?_⟩
      · simpa [Outbound.consume, gone] using later
      · have : (front.drop n).isEmpty = false := by simpa using gone
        simp only [Outbound.consume, this, Bool.false_eq_true, if_false, List.flatten_cons,
          List.length_append, List.length_drop]
        omega

@[simp] theorem bytes_push (q : Outbound) (payload : Bytes) :
    (q.push payload).bytes = q.bytes ++ payload := by
  cases payload <;> simp [Outbound.push, bytes]

theorem bytes_consume (q : Outbound) (n : Nat) (front : Bytes) (first : q.front? = some front)
    (within : n ≤ front.length) : front.take n ++ (q.consume n).bytes = q.bytes := by
  obtain ⟨chunks, size⟩ := q
  cases chunks with
  | nil => simp [front?] at first
  | cons head rest =>
    obtain rfl : head = front := by simpa [front?] using first
    by_cases gone : head.drop n = []
    · have : head.length ≤ n := List.drop_eq_nil_iff.1 gone
      simp [Outbound.consume, bytes, gone, List.take_of_length_le this]
    · have : (head.drop n).isEmpty = false := by simpa using gone
      simp [Outbound.consume, bytes, this, ← List.append_assoc, List.take_append_drop]

end Outbound
end PacketRelay.Session
