import PacketRelay.Proofs.Life

/-!
What one event does to one session.

In an event a session has to answer one segment at most. If it does, it handles that segment as the
session that it was before; all its other moves are deaf. A session that comes into being in an
event has heard nothing but the packet that opened it. A session that a pass comes to is served
once, and taken out if it has been silent for too long by then.
-/

set_option autoImplicit false

namespace PacketRelay

open Session (Key Turn)
open Relation (ReflTransGen)

/-- Nothing comes out of the tunnel that a session of the flow would have to answer. -/
def Outside.Deaf (outside : Outside) (key : Key) : Prop :=
  ∀ s, outside.brings s → s.key = key → s.tcp.isAck = true → s.tcp.isSyn = true

theorem Outside.deaf_nothing (key : Key) : Outside.nothing.Deaf key := fun _ => False.elim

theorem Outside.Deaf.silent {outside : Outside} {t : Turn} (deaf : outside.Deaf t.session.key)
    {s : Inbound.Segment} : ¬ t.Hears outside s := by
  intro hears
  have isSyn := deaf s hears.brought hears.own hears.isAck
  rw [hears.notSyn] at isSyn
  cases isSyn

namespace Relay

variable {outside : SessionId → Outside} {r after : Relay} {id : SessionId} {t u : Turn} {e : Event}
  {s : Inbound.Segment}

private theorem Changes.born (changes : Changes outside r after) (unborn : r.history id = none)
    (known : after.history id = some u) :
    ∃ first, Turn.Opened r.settings first ∧ Turn.Moves r.settings (outside id) first u := by
  induction changes generalizing u with
  | refl =>
    rw [unborn] at known
    cases known
  | @tail mid after before change ih =>
    cases was : mid.history id with
    | some v =>
      obtain ⟨first, opened, moves⟩ := ih was
      obtain ⟨w, later, next⟩ := change.history was
      obtain rfl : u = w := Option.some.inj (known.symm.trans later)
      rw [Changes.settings before] at next
      exact ⟨first, opened, moves.trans next⟩
    | none =>
      -- Only an opening brings in a session that was not there.
      have apart : ∀ {other : SessionId} {v w : Turn}, mid.history other = some v →
          Stands mid after other w → after.history id = none := by
        intro other v w there stands
        have differ : id ≠ other := by
          rintro rfl
          rw [was] at there
          cases there
        exact (stands.other differ).trans was
      have same : after.history id = none ∨
          ∃ v, Turn.Opened mid.settings v ∧ after.history id = some v := by
        cases change with
        | quiet histories => exact .inl ((congrArg (·.of? id) histories).trans was)
        | aside effect _ histories =>
          refine .inl (Eq.trans ?_ was)
          exact (congrArg (·.of? id) histories).trans (Histories.of?_aside effect)
        | opening v opened _ histories =>
          by_cases new : id = mid.sessions.length
          · subst new
            exact .inr ⟨v, opened, history_add histories⟩
          · exact .inl ((history_add_other histories new).trans was)
        | moving other v w there _ _ _ stands => exact .inl (apart there stands)
        | leaving other v w there _ _ _ stands => exact .inl (apart there stands)
      rcases same with none_yet | ⟨v, opened, now_known⟩
      · rw [none_yet] at known
        cases known
      · obtain rfl : u = v := Option.some.inj (known.symm.trans now_known)
        rw [Changes.settings before] at opened
        exact ⟨u, opened, .refl⟩

/-- An event brings an open session a segment that it has to answer. -/
structure Reaches (e : Event) (t : Turn) (s : Inbound.Segment) : Prop where
  brings : e.segment? = some s
  own : s.key = t.session.key
  isAck : s.tcp.isAck = true
  notSyn : s.tcp.isSyn = false
  opened : t.session.socket.isSome = true

theorem step_handleAck (brings : e.segment? = some s) (isAck : s.tcp.isAck = true)
    (notSyn : s.tcp.isSyn = false) : r.step e = r.handleAck s := by
  obtain ⟨buffer, isn, prospect, rfl, parsed⟩ := Event.segment?_eq_some brings
  rw [r.step_segment parsed, handleSegment, if_neg (by rw [notSyn]; exact Bool.false_ne_true),
    if_pos isAck]

private theorem Consistent.length_handleAck (h : Consistent r) (s : Inbound.Segment) :
    (r.handleAck s).sessions.length = r.sessions.length := by
  cases found : r.lookup s.key with
  | none =>
    unfold Relay.handleAck Relay.handleOrphan
    rw [found]
    simp only
    split
    · rfl
    · split <;> rfl
  | some id =>
    obtain ⟨t, known, own, opened⟩ := h.found s.key id found
    obtain ⟨stands, -⟩ := h.hear known opened own
    exact stands.length

theorem Consistent.heard (h : Consistent r) (known : r.history id = some t)
    (reaches : Reaches e t s) : ∃ u, (r.step e).history id = some u ∧
      Turn.Moves r.settings .nothing (t.receiveAck s r.settings.egressClassifier r.now).1 u := by
  obtain ⟨stands, -⟩ := h.hear known reaches.opened reaches.own.symm
  refine ⟨_, ?_, Turn.hear_moves reaches.opened s _ r.now⟩
  rw [step_handleAck reaches.brings reaches.isAck reaches.notSyn]
  exact stands.history

theorem Consistent.unheard (h : Consistent r) (known : r.history id = some t)
    (unreached : ∀ s, ¬ Reaches e t s) : ∃ u outside, (r.step e).history id = some u ∧
      outside.Deaf t.session.key ∧ (outside.changes → e.disturbs id) ∧
        Turn.Moves r.settings outside t u := by
  cases opened : t.session.socket with
  | none =>
    exact ⟨t, .nothing, Changes.closed h (h.step e) known opened, Outside.deaf_nothing _,
      False.elim, .refl⟩
  | some socket =>
    obtain ⟨u, later, moves⟩ := Changes.history (h.step e) known
    refine ⟨u, e.outside id, later, fun s brings own isAck => ?_, fun changes => changes, moves⟩
    by_contra notSyn
    exact unreached s ⟨brings, own, isAck, Bool.eq_false_iff.2 notSyn, by rw [opened]; rfl⟩

private theorem length_of_unborn (unborn : r.history id = none) : r.sessions.length ≤ id := by
  unfold history Histories.of? at unborn
  rw [Option.map_eq_none_iff, List.getElem?_eq_none_iff] at unborn
  exact unborn

theorem Consistent.effects_unborn (h : Consistent r) (unborn : r.history id = none) :
    r.effectsOf (some id) = [] := h.unborn id (length_of_unborn unborn)

private theorem Consistent.born (h : Consistent r) (unborn : r.history id = none)
    (known : (r.step e).history id = some u) : ∃ first outside, Turn.Opened r.settings first ∧
      outside.Deaf first.session.key ∧ (outside.changes → e.disturbs id) ∧
        Turn.Moves r.settings outside first u := by
  obtain ⟨first, opened, moves⟩ := Changes.born (h.step e) unborn known
  refine ⟨first, e.outside id, opened, fun s brings own isAck => ?_, fun changes => changes, moves⟩
  -- A segment that would have to be answered has ACK, and then there is no new session.
  by_contra notSyn
  have within := length_of_history known
  rw [step_handleAck brings isAck (Bool.eq_false_iff.2 notSyn), h.length_handleAck s] at within
  exact absurd within (Nat.not_lt.2 (length_of_unborn unborn))

theorem Consistent.goes_on (h : Consistent r) (e : Event) (known : r.history id = some t) :
    ∃ u, (r.step e).history id = some u ∧
      ((∃ s, Reaches e t s ∧
        Turn.Moves r.settings .nothing (t.receiveAck s r.settings.egressClassifier r.now).1 u) ∨
      (∀ s, ¬ Reaches e t s) ∧ ∃ outside, outside.Deaf t.session.key ∧
        (outside.changes → e.disturbs id) ∧ Turn.Moves r.settings outside t u) := by
  by_cases reached : ∃ s, Reaches e t s
  · obtain ⟨s, reaches⟩ := reached
    obtain ⟨u, later, moves⟩ := h.heard known reaches
    exact ⟨u, later, .inl ⟨s, reaches, moves⟩⟩
  · have unreached : ∀ s, ¬ Reaches e t s := fun s reaches => reached ⟨s, reaches⟩
    obtain ⟨u, outside, later, deaf, changes, moves⟩ := h.unheard known unreached
    exact ⟨u, later, .inr ⟨unreached, outside, deaf, changes, moves⟩⟩

/-- How a session has come to what it is after an event: it has gone on from what it was, or it has
only moved from where it was opened. -/
theorem Consistent.moment (h : Consistent r) (e : Event) (known : (r.step e).history id = some u) :
    (∃ t s, r.history id = some t ∧ Reaches e t s ∧
      Turn.Moves r.settings .nothing (t.receiveAck s r.settings.egressClassifier r.now).1 u) ∨
    ∃ t outside,
      (r.history id = some t ∧ (∀ s, ¬ Reaches e t s) ∨
        r.history id = none ∧ Turn.Opened r.settings t) ∧
      outside.Deaf t.session.key ∧ (outside.changes → e.disturbs id) ∧
        Turn.Moves r.settings outside t u := by
  cases was : r.history id with
  | none =>
    obtain ⟨first, outside, opened, deaf, changes, moves⟩ := h.born was known
    exact .inr ⟨first, outside, .inr ⟨rfl, opened⟩, deaf, changes, moves⟩
  | some t =>
    obtain ⟨v, later, ⟨s, reaches, moves⟩ | ⟨unreached, outside, deaf, changes, moves⟩⟩ :=
      h.goes_on e was
    · obtain rfl : u = v := Option.some.inj (known.symm.trans later)
      exact .inl ⟨t, s, rfl, reaches, moves⟩
    · obtain rfl : u = v := Option.some.inj (known.symm.trans later)
      exact .inr ⟨t, outside, .inl ⟨rfl, unreached⟩, deaf, changes, moves⟩

section Visits

variable {β : Type} (read : Relay → β) {visit : Relay → SessionId → Relay}

private theorem Visits.foldl_keeps (visits : Visits (fun _ => .nothing) visit)
    (keeps : ∀ r id t, Listed r → r.history id = some t → t.session.socket.isSome = true →
      read (visit r id) = read r)
    (ids : List SessionId) (once : ids.Nodup) (h : Listed r)
    (opened : ∀ id ∈ ids, ∃ t, r.history id = some t ∧ t.session.socket.isSome = true) :
    read (ids.foldl visit r) = read r := by
  induction ids generalizing r with
  | nil => rfl
  | cons id rest ih =>
    obtain ⟨absent, once⟩ := List.nodup_cons.1 once
    obtain ⟨t, known, socket⟩ := opened id List.mem_cons_self
    obtain ⟨changes, others⟩ := visits r id t h known socket
    have later := ih once (changes.listed h) fun other member => by
      rw [others other fun same => absent (same ▸ member)]
      exact opened other (List.mem_cons_of_mem id member)
    exact later.trans (keeps r id t h known socket)

theorem Listed.keeps_byRank (h : Listed r) (visits : Visits (fun _ => .nothing) visit)
    (keeps : ∀ r id t, Listed r → r.history id = some t → t.session.socket.isSome = true →
      read (visit r id) = read r)
    (rank : SessionId → Nat) : read ((byRank rank r.table.ids).foldl visit r) = read r := by
  have order := byRank_perm rank r.table.ids
  exact visits.foldl_keeps read keeps _ (order.nodup_iff.2 h.nodup_ids) h fun id member =>
    h.opened_ids id (order.mem_iff.1 member)

theorem Listed.history_visits (visits : Visits (fun _ => .nothing) visit)
    (rank : SessionId → Nat) (h : Listed r) (absent : id ∉ r.table.ids) :
    ((byRank rank r.table.ids).foldl visit r).history id = r.history id := by
  have order := byRank_perm rank r.table.ids
  have others := visits.foldl _ (order.nodup_iff.2 h.nodup_ids) h fun other member =>
    h.opened_ids other (order.mem_iff.1 member)
  exact others.2 id fun member => absent (order.mem_iff.1 member)

private theorem Listed.visited (visits : Visits (fun _ => .nothing) visit)
    (clocked : ∀ r id t, Listed r → r.history id = some t → t.session.socket.isSome = true →
      (visit r id).now = r.now)
    (rank : SessionId → Nat) (h : Listed r) (known : r.history id = some t)
    (opened : t.session.socket.isSome = true) :
    ∃ mid : Relay, Listed mid ∧ mid.history id = some t ∧ mid.now = r.now ∧
      mid.settings = r.settings ∧
      ((byRank rank r.table.ids).foldl visit r).history id = (visit mid id).history id := by
  have order := byRank_perm rank r.table.ids
  have once := order.nodup_iff.2 h.nodup_ids
  have member : id ∈ byRank rank r.table.ids :=
    order.mem_iff.2 ((Table.mem_ids h.differ).2 ⟨_, h.listed id t known opened⟩)
  have there : ∀ other ∈ byRank rank r.table.ids, ∃ v, r.history other = some v ∧
      v.session.socket.isSome = true := fun other member =>
    h.opened_ids other (order.mem_iff.1 member)
  generalize byRank rank r.table.ids = ids at once member there
  -- The visits before and after that to the session itself do not touch it.
  obtain ⟨before, after, rfl⟩ := List.append_of_mem member
  have first := (List.nodup_append.1 once).1
  have open_before : ∀ other ∈ before, ∃ v, r.history other = some v ∧
      v.session.socket.isSome = true := fun other member =>
    there other (List.mem_append_left _ member)
  have absent : id ∉ before := fun member =>
    (List.nodup_append.1 once).2.2 id member id List.mem_cons_self rfl
  obtain ⟨fresh, once_after⟩ := List.nodup_cons.1 (List.nodup_append.1 once).2.1
  obtain ⟨changes, others⟩ := visits.foldl before first h open_before
  have mid := changes.listed h
  have known_mid := (others id absent).trans known
  obtain ⟨changes_own, others_own⟩ := visits _ id t mid known_mid opened
  have later := (visits.foldl after once_after (changes_own.listed mid) fun other member => by
    have differ : other ≠ id := fun same => fresh (same ▸ member)
    have apart : other ∉ before := fun earlier =>
      (List.nodup_append.1 once).2.2 other earlier other (List.mem_cons_of_mem id member) rfl
    rw [others_own other differ, others other apart]
    exact there other (List.mem_append_right _ (List.mem_cons_of_mem id member))).2 id fresh
  refine ⟨before.foldl visit r, mid, known_mid,
    visits.foldl_keeps (·.now) clocked before first h open_before, Changes.settings changes, ?_⟩
  rw [List.foldl_append, List.foldl_cons, later]

end Visits

section Pass

private theorem Listed.now_service (h : Listed r) (known : r.history id = some t)
    (opened : t.session.socket.isSome = true) : (r.service id).now = r.now := by
  obtain ⟨-, scene⟩ := h.service known opened
  split at scene <;> exact congrArg (·.now) scene

private theorem Listed.now_evictIdle (h : Listed r) (known : r.history id = some t)
    (opened : t.session.socket.isSome = true) : (r.evictIdle id).now = r.now := by
  unfold Relay.evictIdle
  rw [(Stands.refl known).session]
  simp only
  split
  · rfl
  · exact congrArg (·.now) (scene_drop (h.listed id t known opened))

private theorem Listed.evictIdle (h : Listed r) (known : r.history id = some t)
    (opened : t.session.socket.isSome = true) : (r.evictIdle id).history id =
      some (if t.session.idleFor r.now ≤ r.settings.idleTimeout then t else t.report.shut) := by
  have stands := Stands.refl known
  unfold Relay.evictIdle
  rw [stands.session]
  simp only
  split
  · exact known
  · exact (stands.drop (h.listed id t known opened)).history

theorem Consistent.serviced (h : Consistent r) (rank : SessionId → Nat)
    (known : r.history id = some t) (opened : t.session.socket.isSome = true) :
    (r.serviceBy rank).history id = some (t.serve r.settings.ingressClassifier r.now) := by
  obtain ⟨mid, listed, there, now, settings, visited⟩ := h.visited visits_service
    (fun r id t h known => h.now_service known) rank known opened
  have served := (listed.service there opened).1.history
  rw [settings, now] at served
  unfold Relay.serviceBy
  rw [h.registered]
  exact visited.trans served

theorem Listed.swept (h : Listed r) (rank : SessionId → Nat) (known : r.history id = some t)
    (opened : t.session.socket.isSome = true) : (r.sweepBy rank).history id =
      some (if t.session.idleFor r.now ≤ r.settings.idleTimeout then t else t.report.shut) := by
  obtain ⟨mid, listed, there, now, settings, visited⟩ := h.visited visits_evictIdle
    (fun r id t h known => h.now_evictIdle known) rank known opened
  have evicted := listed.evictIdle there opened
  rw [settings, now] at evicted
  exact visited.trans evicted

theorem Consistent.passed (h : Consistent r) (first second : SessionId → Nat)
    (known : r.history id = some t) (opened : t.session.socket.isSome = true) :
    let served := t.serve r.settings.ingressClassifier r.now
    (r.step (.pass first second)).history id =
      some (if served.session.socket.isSome = true ∧
        r.settings.idleTimeout < served.session.idleFor r.now then served.report.shut
      else served) := by
  intro served
  have changes : Changes (fun _ => .nothing) r (r.serviceBy first) := h.serviceBy first
  have later : Consistent (r.serviceBy first) := changes.consistent h
  have there : (r.serviceBy first).history id = some served := h.serviced first known opened
  have now : (r.serviceBy first).now = r.now := by
    unfold Relay.serviceBy
    rw [h.registered]
    exact h.keeps_byRank (·.now) visits_service (fun r id t h known => h.now_service known) first
  cases stays : served.session.socket with
  | none =>
    have swept : Changes (fun _ => .nothing) (r.serviceBy first)
        ((r.serviceBy first).sweepBy second) := later.sweepBy second
    rw [if_neg (by simp)]
    exact Changes.closed later swept there stays
  | some socket =>
    have swept := later.swept second there (by rw [stays]; rfl)
    rw [now, Changes.settings changes] at swept
    refine swept.trans ?_
    by_cases late : r.settings.idleTimeout < served.session.idleFor r.now
    · rw [if_neg (Nat.not_le.2 late), if_pos ⟨rfl, late⟩]
    · rw [if_pos (Nat.not_lt.1 late), if_neg fun both => late both.2]

/-- In a pass an open session is served, and may then be evicted. -/
theorem Consistent.pass (h : Consistent r) (first second : SessionId → Nat)
    (known : r.history id = some t) (opened : t.session.socket.isSome = true) :
    ∃ u, (r.step (.pass first second)).history id = some u ∧
      Turn.Moves r.settings .nothing (t.serve r.settings.ingressClassifier r.now) u := by
  have passed := h.passed first second known opened
  refine ⟨_, passed, ?_⟩
  split
  case isTrue evicted => exact .single (.leave _ evicted.1)
  case isFalse => exact .refl

end Pass

end Relay
end PacketRelay
