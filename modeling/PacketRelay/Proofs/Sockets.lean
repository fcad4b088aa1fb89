import PacketRelay.Session.Flush

/-!
What operations leave alone about a socket, and what a socket has still to deliver.

An operation uses up outcomes of its own kind. The bytes that are read from a stream are the next
ones of what it has to deliver.
-/

set_option autoImplicit false

namespace PacketRelay
namespace Socket

variable {s after : Socket}

theorem read_frame {result : Except Errno Bytes} (read : s.read = (result, after)) :
    ∃ arrivals, after = { s with arrivals := arrivals } := by
  have : after = s.read.2 := by rw [read]
  subst this
  unfold Socket.read
  split
  · exact ⟨s.arrivals, rfl⟩
  · exact ⟨_, rfl⟩
  · exact ⟨_, rfl⟩

private theorem send_frame {chunk : Bytes} {result : Except Errno Nat}
    (sent : s.send chunk = (result, after)) :
    ∃ room, after = { s with room := room } := by
  have : after = (s.send chunk).2 := by rw [sent]
  subst this
  unfold send
  split
  · exact ⟨s.room, rfl⟩
  · exact ⟨_, rfl⟩
  · exact ⟨_, rfl⟩

theorem send_le {chunk : Bytes} {n : Nat} (sent : s.send chunk = (.ok n, after)) :
    n ≤ chunk.length := by
  unfold send at sent
  split at sent <;> cases sent
  · exact Nat.le_refl _
  · exact Nat.min_le_right _ _

theorem checkConnected_frame {result : Except Errno Bool}
    (checked : s.checkConnected = (result, after)) :
    ∃ error, after = { s with pendingError := error } := by
  have : after = s.checkConnected.2 := by rw [checked]
  subst this
  unfold checkConnected
  split <;> exact ⟨_, rfl⟩

theorem flush_frame (q : Session.Outbound) (socket : Socket) (sent : List Bytes) :
    ∃ room, (q.flush socket sent).socket = { socket with room := room } := by
  fun_induction Session.Outbound.flush q socket sent with
  | case1 q socket => exact ⟨socket.room, rfl⟩
  | case2 q socket sent chunk rest chunks after refused => exact send_frame refused
  | case3 q socket sent chunk rest chunks e after differ failed => exact send_frame failed
  | case4 q socket sent chunk rest chunks after taken => exact send_frame taken
  | case5 q socket sent chunk rest chunks n after taken some_taken ih =>
    obtain ⟨room, rfl⟩ := send_frame taken
    exact ih

def Arrival.bytes : Arrival → Bytes
  | data bytes => bytes
  | failure _ => []

/-- The bytes that arrive. -/
def arrived (arrivals : List Arrival) : Bytes := (arrivals.map (·.bytes)).flatten

@[simp] theorem arrived_nil : arrived [] = [] := rfl

@[simp] theorem arrived_cons (next : Arrival) (rest : List Arrival) :
    arrived (next :: rest) = next.bytes ++ arrived rest := rfl

/-- What reads will deliver. -/
def unread (s : Socket) : Bytes := arrived s.arrivals

theorem unread_read {bytes : Bytes} (stream : s.stream = true)
    (read : s.read = (.ok bytes, after)) :
    s.unread = bytes ++ after.unread := by
  unfold Socket.read at read
  cases arrivals : s.arrivals with
  | nil => simp [arrivals] at read
  | cons next rest =>
    cases next with
    | failure e => simp [arrivals] at read
    | data all =>
      simp only [arrivals, Prod.mk.injEq, Except.ok.injEq, stream, Bool.true_and] at read
      obtain ⟨rfl, rfl⟩ := read
      have whole : all.take readLimit ++ all.drop readLimit = all := List.take_append_drop _ _
      by_cases short : all.drop readLimit = []
      · rw [short, List.append_nil] at whole
        simp [unread, arrivals, short, whole, Arrival.bytes]
      · have long : (all.drop readLimit).isEmpty = false := by simpa using short
        simp only [unread, arrivals, long, Bool.not_false, if_true, arrived_cons, Arrival.bytes,
          ← List.append_assoc, whole]

theorem unread_failure {e : Errno} (read : s.read = (.error e, after)) :
    after.unread = s.unread := by
  unfold Socket.read at read
  cases arrivals : s.arrivals with
  | nil =>
    simp only [arrivals, Prod.mk.injEq] at read
    rw [← read.2]
  | cons next rest =>
    cases next with
    | data all => simp [arrivals] at read
    | failure e =>
      simp only [arrivals, Prod.mk.injEq] at read
      rw [← read.2]
      simp [unread, arrivals, Arrival.bytes]

theorem read_ahead {result : Except Errno Bytes} {ahead rest : List Arrival}
    (stream : s.stream = true) (arrivals : s.arrivals = ahead ++ .data [] :: rest)
    (first : .data [] ∉ ahead) (read : s.read = (result, after)) :
    result = .ok [] ∧ ahead = [] ∧ after.arrivals = rest ∨
      result ≠ .ok [] ∧ ∃ left, .data [] ∉ left ∧ after.arrivals = left ++ .data [] :: rest ∧
        result.toOption.getD [] ++ arrived left = arrived ahead := by
  unfold Socket.read at read
  rw [arrivals] at read
  cases ahead with
  | nil =>
    obtain ⟨rfl, rfl⟩ := Prod.mk.inj read
    exact .inl ⟨rfl, rfl, by simp⟩
  | cons next more =>
    obtain ⟨differs, behind⟩ := List.ne_and_not_mem_of_not_mem_cons first
    cases next with
    | failure e =>
      obtain ⟨rfl, rfl⟩ := Prod.mk.inj read
      refine .inr ⟨?_, more, behind, rfl, rfl⟩
      exact fun same => by cases same
    | data all =>
      have some_bytes : all ≠ [] := fun none => differs (by rw [none])
      obtain ⟨rfl, rfl⟩ := Prod.mk.inj read
      have whole : all.take readLimit ++ all.drop readLimit = all := List.take_append_drop _ _
      refine .inr ⟨fun none => some_bytes ?_, ?_⟩
      · exact (List.take_eq_nil_iff.1 (Except.ok.inj none)).resolve_left (by decide)
      · by_cases short : all.drop readLimit = []
        · rw [short, List.append_nil] at whole
          refine ⟨more, behind, ?_, ?_⟩
          · simp [short]
          · simp [Arrival.bytes, Except.toOption, whole]
        · refine ⟨.data (all.drop readLimit) :: more, ?_, ?_, ?_⟩
          · exact List.not_mem_cons_of_ne_of_not_mem (fun none => short (Arrival.data.inj none).symm)
              behind
          · simp [stream, short]
          · simp [Arrival.bytes, Except.toOption, ← List.append_assoc, whole]

end Socket
end PacketRelay
