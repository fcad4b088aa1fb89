import PacketRelay.Proofs.Step

/-!
The lives of sessions in a run.

Whatever happens in a run, the history of each session is a life: the session was opened, and then
it moved. What belongs to no session is of a few kinds. So an invariant of sessions holds in every
run once it holds of every session just opened and is kept by every move.
-/

set_option autoImplicit false

namespace PacketRelay

open Session (Key Turn)
open Relation (ReflTransGen)

namespace Session.Turn

variable {settings : Relay.Settings} {outside : Outside} {t u : Turn}

/-- A session that was opened and then moved. -/
def Lives (settings : Relay.Settings) (t : Turn) : Prop :=
  ∃ first, Opened settings first ∧ Moves settings .anything first t

theorem Opened.lives (opened : Opened settings t) : Lives settings t := ⟨t, opened, .refl⟩

theorem Lives.moves (lives : Lives settings t) (moves : Moves settings outside t u) :
    Lives settings u := by
  obtain ⟨first, opened, before⟩ := lives
  exact ⟨first, opened, before.trans (moves.mono (Outside.within_anything outside))⟩

/-- What holds of every session just opened and is kept by every move holds of every life. -/
theorem Lives.induction {P : Turn → Prop} (lives : Lives settings t)
    (opened : ∀ t, Opened settings t → P t)
    (move : ∀ t u, Lives settings t → P t → Move settings .anything t u → P u) : P t := by
  obtain ⟨first, begun, moves⟩ := lives
  induction moves with
  | refl => exact opened first begun
  | tail before step ih => exact move _ _ ⟨first, begun, before⟩ ih step

theorem Lives.stream_induction {P : Turn → Prop} (lives : Lives settings t)
    (stream : t.session.key.protocol = .tcp)
    (opened : ∀ t, Opened settings t → t.session.key.protocol = .tcp → P t)
    (move : ∀ t u, Lives settings t → t.session.key.protocol = .tcp → P t →
      Move settings .anything t u → P u) : P t := by
  refine lives.induction (P := fun t => t.session.key.protocol = .tcp → P t) opened
    (fun t u lives ih step stream => ?_) stream
  have stream : t.session.key.protocol = .tcp := by rw [← step.key, stream]
  exact move t u lives stream (ih stream) step

end Session.Turn

namespace Relay

variable {outside : SessionId → Outside} {r after : Relay} {id : SessionId} {t u : Turn} {key : Key}

private theorem Change.settings
    (change : Change outside r after) : after.settings = r.settings := by
  cases change with
  | quiet histories scene =>
    obtain ⟨_, _, -, scene, -⟩ := scene
    exact congrArg (·.settings) scene
  | aside _ _ _ scene | opening _ _ _ _ scene | moving _ _ _ _ _ _ _ _ scene
  | leaving _ _ _ _ _ _ _ _ scene => exact congrArg (·.settings) scene

theorem Changes.settings (changes : Changes outside r after) : after.settings = r.settings := by
  induction changes with
  | refl => rfl
  | tail _ change ih => exact change.settings.trans ih

private theorem Change.now_le (change : Change outside r after) : r.now ≤ after.now := by
  cases change with
  | quiet histories scene =>
    obtain ⟨now, _, later, scene, -⟩ := scene
    have same : after.now = now := congrArg (·.now) scene
    exact same ▸ later
  | aside _ _ _ scene | opening _ _ _ _ scene | moving _ _ _ _ _ _ _ _ scene
  | leaving _ _ _ _ _ _ _ _ scene => exact Nat.le_of_eq (congrArg (·.now) scene).symm

theorem Changes.now_le (changes : Changes outside r after) : r.now ≤ after.now := by
  induction changes with
  | refl => exact Nat.le_refl _
  | tail _ change ih => exact Nat.le_trans ih change.now_le

theorem Change.history (change : Change outside r after) (known : r.history id = some t) :
    ∃ u, after.history id = some u ∧ Turn.Moves r.settings (outside id) t u := by
  have follow : ∀ {other : SessionId} {v w : Turn}, r.history other = some v →
      Turn.Moves r.settings (outside other) v w → Stands r after other w →
      ∃ u, after.history id = some u ∧ Turn.Moves r.settings (outside id) t u := by
    intro other v w before moves stands
    by_cases same : id = other
    · subst same
      obtain rfl : t = v := Option.some.inj (known.symm.trans before)
      exact ⟨w, stands.history, moves⟩
    · exact ⟨t, (stands.other same).trans known, .refl⟩
  cases change with
  | quiet histories =>
    refine ⟨t, ?_, .refl⟩
    rw [← known]
    exact congrArg (·.of? id) histories
  | aside effect _ histories =>
    refine ⟨t, ?_, .refl⟩
    rw [← known]
    exact (congrArg (·.of? id) histories).trans (Histories.of?_aside effect)
  | opening v _ _ histories =>
    have differ : id ≠ r.sessions.length := Nat.ne_of_lt (length_of_history known)
    exact ⟨t, (history_add_other histories differ).trans known, .refl⟩
  | moving other v w before _ moves _ stands => exact follow before moves stands
  | leaving other v w before _ moves _ stands => exact follow before moves stands

theorem Changes.history (changes : Changes outside r after) (known : r.history id = some t) :
    ∃ u, after.history id = some u ∧ Turn.Moves r.settings (outside id) t u := by
  induction changes with
  | refl => exact ⟨t, known, .refl⟩
  | tail before change ih =>
    obtain ⟨u, known, moves⟩ := ih
    obtain ⟨v, later, next⟩ := change.history known
    rw [Changes.settings before] at next
    exact ⟨v, later, moves.trans next⟩

private theorem Change.closed (h : Consistent r) (change : Change outside r after)
    (known : r.history id = some t) (closed : t.session.socket = none) :
    after.history id = some t := by
  have apart : ∀ {other : SessionId} {v w : Turn}, r.history other = some v →
      r.lookup v.session.key = some other → Stands r after other w → after.history id = some t := by
    intro other v w before current stands
    have differ : id ≠ other := by
      rintro rfl
      obtain rfl : t = v := Option.some.inj (known.symm.trans before)
      obtain ⟨w, same, -, opened⟩ := h.found _ _ current
      obtain rfl : t = w := Option.some.inj (known.symm.trans same)
      rw [closed] at opened
      cases opened
    exact (stands.other differ).trans known
  cases change with
  | quiet histories =>
    rw [← known]
    exact congrArg (·.of? id) histories
  | aside effect _ histories =>
    rw [← known]
    exact (congrArg (·.of? id) histories).trans (Histories.of?_aside effect)
  | opening v _ _ histories =>
    have differ : id ≠ r.sessions.length := Nat.ne_of_lt (length_of_history known)
    exact (history_add_other histories differ).trans known
  | moving other v w before current _ _ stands => exact apart before current stands
  | leaving other v w before current _ _ stands => exact apart before current stands

theorem Changes.closed (h : Consistent r) (changes : Changes outside r after)
    (known : r.history id = some t) (closed : t.session.socket = none) :
    after.history id = some t := by
  induction changes with
  | refl => exact known
  | tail before change ih => exact change.closed (Changes.consistent h before) ih closed

theorem Changes.opened (h : Consistent r) (changes : Changes outside r after)
    (known : r.history id = some t) (later : after.history id = some u)
    (opened : u.session.socket.isSome = true) : t.session.socket.isSome = true := by
  cases socket : t.session.socket with
  | some _ => rfl
  | none =>
    obtain rfl := Option.some.inj (later.symm.trans (Changes.closed h changes known socket))
    rw [socket] at opened
    cases opened

/-- Every session lives, and nothing happens besides but what may. -/
structure Traced (r : Relay) : Prop where
  lives : ∀ id t, r.history id = some t → Turn.Lives r.settings t
  aside : ∀ e ∈ r.effectsOf none, Aside e

private theorem Change.traced (h : Traced r) (change : Change outside r after) : Traced after := by
  have settings := change.settings
  -- To move on and to take leave are alike here: both are moves of one session.
  have follow : ∀ {other : SessionId} {v w : Turn}, r.history other = some v →
      Turn.Moves r.settings (outside other) v w → Stands r after other w → Traced after := by
    intro other v w before moves stands
    refine ⟨fun id t known => ?_, ?_⟩
    · rw [settings]
      by_cases same : id = other
      · subst same
        obtain rfl : w = t := Option.some.inj (stands.history.symm.trans known)
        exact (h.lives id v before).moves moves
      · exact h.lives id t ((stands.other same).symm.trans known)
    · rw [stands.effectsOf_other (by simp)]
      exact h.aside
  cases change with
  | quiet histories =>
    refine ⟨fun id t known => ?_, ?_⟩
    · rw [settings]
      exact h.lives id t ((congrArg (·.of? id) histories).symm.trans known)
    · have : after.effectsOf none = r.effectsOf none := congrArg (·.effects none) histories
      rw [this]
      exact h.aside
  | aside effect aside histories =>
    refine ⟨fun id t known => ?_, ?_⟩
    · rw [settings]
      have same : after.history id = r.history id :=
        (congrArg (·.of? id) histories).trans (Histories.of?_aside effect)
      exact h.lives id t (same.symm.trans known)
    · have : after.effectsOf none = effect :: r.effectsOf none := by
        refine (congrArg (·.effects none) histories).trans ?_
        simp [Histories.aside, Relay.histories]
      rw [this]
      exact List.forall_mem_cons.2 ⟨aside, h.aside⟩
  | opening v opened _ histories =>
    refine ⟨fun id t known => ?_, ?_⟩
    · rw [settings]
      by_cases new : id = r.sessions.length
      · subst new
        obtain rfl : v = t := Option.some.inj ((history_add histories).symm.trans known)
        exact opened.lives
      · exact h.lives id t ((history_add_other histories new).symm.trans known)
    · have : after.effectsOf none = r.effectsOf none := by
        refine (congrArg (·.effects none) histories).trans ?_
        simp [Histories.add, Relay.histories]
      rw [this]
      exact h.aside
  | moving other v w before _ moves _ stands => exact follow before moves stands
  | leaving other v w before _ moves _ stands => exact follow before moves stands

theorem Changes.traced (h : Traced r) (changes : Changes outside r after) : Traced after := by
  induction changes with
  | refl => exact h
  | tail _ change ih => exact change.traced ih

section Run

variable (settings : Settings) (now coreWorkers maxWorkers : Nat) (events : List Event)

theorem traced_start : Traced (start settings now coreWorkers maxWorkers) where
  lives id t known := absurd (length_of_history known) (Nat.not_lt_zero id)
  aside _ none := by cases none

theorem consistent_run : Consistent ((start settings now coreWorkers maxWorkers).run events) :=
  have begun := consistent_start settings now coreWorkers maxWorkers
  Changes.consistent begun (begun.run events)

theorem traced_run : Traced ((start settings now coreWorkers maxWorkers).run events) :=
  Changes.traced (traced_start settings now coreWorkers maxWorkers)
    ((consistent_start settings now coreWorkers maxWorkers).run events)

theorem settings_run :
    ((start settings now coreWorkers maxWorkers).run events).settings = settings :=
  Changes.settings ((consistent_start settings now coreWorkers maxWorkers).run events)

end Run

end Relay
end PacketRelay
