import PacketRelay.Proofs.Ledger

/-!
A pass in steps, with packets in between.

The thread that goes over the sessions takes down whom to visit, and then visits one after another.
In between, packets may close a session that it has still to visit, and open another one of the same
flow. What a visit then does to the newer session depends on how the old one was left: sessions are
told apart by number where a sign of life is noted, but a session is taken out of the tables by its
flow.
-/

set_option autoImplicit false

namespace PacketRelay

open Session (Key Turn)

/-- What the thread is at, and whom it has still to visit. -/
inductive Task
  | idle
  | serving (left : List SessionId)
  | sweeping (left : List SessionId)

/-- A relay while its thread goes over the sessions. -/
structure Threads where
  relay : Relay
  task : Task

namespace Threads

/-- One step of the thread: it takes down whom to visit, or visits one. -/
def proceed (s : Threads) (first second : SessionId → Nat) : Threads :=
  match s.task with
  | .idle => { s with task := .serving (Relay.byRank first s.relay.registered.ids) }
  | .serving [] => { s with task := .sweeping (Relay.byRank second s.relay.table.ids) }
  | .serving (id :: left) => ⟨s.relay.service id, .serving left⟩
  | .sweeping [] => { s with task := .idle }
  | .sweeping (id :: left) => ⟨s.relay.evictIdle id, .sweeping left⟩

/-- An event, where a pass is no more than one step of the thread. -/
def act (s : Threads) : Relay.Event → Threads
  | .pass first second => s.proceed first second
  | e => { s with relay := s.relay.step e }

def run (s : Threads) (events : List Relay.Event) : Threads := events.foldl act s

def start (settings : Relay.Settings) (now coreWorkers maxWorkers : Nat) : Threads :=
  ⟨Relay.start settings now coreWorkers maxWorkers, .idle⟩

/-- The session that the thread comes to next. -/
def next? (s : Threads) : Option SessionId :=
  match s.task with
  | .serving (id :: _) | .sweeping (id :: _) => some id
  | _ => none

/-- The thread comes next to a session whose flow belongs to another session by now. -/
structure Stale (s : Threads) (id new : SessionId) (old : Session) : Prop where
  next : s.next? = some id
  session : s.relay.sessions[id]? = some old
  replaced : s.relay.lookup old.key = some new
  apart : new ≠ id

section Alone

variable (first second : SessionId → Nat)

private theorem run_append (s : Threads) (events later : List Relay.Event) :
    s.run (events ++ later) = (s.run events).run later :=
  List.foldl_append

private theorem run_serving (r : Relay) (left : List SessionId) :
    run ⟨r, .serving left⟩ (List.replicate left.length (.pass first second)) =
      ⟨left.foldl Relay.service r, .serving []⟩ := by
  induction left generalizing r with
  | nil => rfl
  | cons id left ih => exact ih (r.service id)

private theorem run_sweeping (r : Relay) (left : List SessionId) :
    run ⟨r, .sweeping left⟩ (List.replicate left.length (.pass first second)) =
      ⟨left.foldl Relay.evictIdle r, .sweeping []⟩ := by
  induction left generalizing r with
  | nil => rfl
  | cons id left ih => exact ih (r.evictIdle id)

/-- With no packet in between, the steps of the thread are a pass. -/
theorem run_alone (r : Relay) : ∃ n, run ⟨r, .idle⟩ (List.replicate n (.pass first second)) =
    ⟨r.step (.pass first second), .idle⟩ := by
  let served := Relay.byRank first r.registered.ids
  let swept := Relay.byRank second (r.serviceBy first).table.ids
  refine ⟨1 + served.length + 1 + swept.length + 1, ?_⟩
  simp only [List.replicate_add, run_append]
  have taken : run ⟨r, .idle⟩ (List.replicate 1 (.pass first second)) = ⟨r, .serving served⟩ := rfl
  have between : run ⟨r.serviceBy first, .serving []⟩ (List.replicate 1 (.pass first second)) =
      ⟨r.serviceBy first, .sweeping swept⟩ := rfl
  rw [taken, run_serving]
  show run (run (run ⟨r.serviceBy first, .serving []⟩ _) _) _ = _
  rw [between, run_sweeping]
  rfl

end Alone

end Threads

namespace Relay

variable {r after : Relay} {id new : SessionId} {t : Turn} {key : Key}

/-- A session has its flow: it is in the table and registered, and its socket is open. -/
structure Serves (r : Relay) (key : Key) (id : SessionId) : Prop where
  listed : r.lookup key = some id
  registered : r.registered.find? key = some id
  opened : ((r.sessions[id]?).bind (·.socket)).isSome = true

/-- The session of a flow is out of the tables, and its socket is shut down. -/
structure Evicts (r after : Relay) (key : Key) (id : SessionId) : Prop where
  scene : after.scene = r.scene.without key
  sessions : after.sessions = r.sessions.modify id fun s => { s with socket := none }

private theorem Evicts.not_serves (evicts : Evicts r after key id) : ¬ Serves after key id := by
  intro serves
  have gone : after.lookup key = none :=
    (lookup_scene (congrArg (·.table) evicts.scene) key).trans
      ((Table.find?_erase r.table key key).trans (if_pos rfl))
  rw [serves.listed] at gone
  cases gone

private theorem not_serves_cancel : ¬ Serves (r.cancel key) key id := by
  intro serves
  have gone : (r.cancel key).registered.find? key = none :=
    (Table.find?_erase r.registered key key).trans (if_pos rfl)
  rw [serves.registered] at gone
  cases gone

section Closed

private theorem set_session {session : Session} (at_id : r.sessions[id]? = some session) :
    r.sessions.set id session = r.sessions := by
  obtain ⟨within, same⟩ := List.getElem?_eq_some_iff.1 at_id
  rw [← same, List.set_getElem_self]

private theorem sessions_close (found : r.lookup key = some id) : (r.close key).sessions =
    r.sessions.modify id fun s => { s with socket := none } := by
  unfold close
  rw [found]
  simp only
  split <;> rfl

private theorem Stands.sessions_told {u : Turn} (stands : Stands r after id u)
    (known : r.history id = some t) (same : u.session = t.session) :
    after.sessions = r.sessions := by
  have sessions : after.sessions = r.sessions.set id u.session :=
    congrArg (·.sessions) stands.histories
  rw [sessions, same, set_session (Stands.refl known).session]

variable (h : Listed r) (known : r.history id = some t)

include h known

private theorem Listed.told {u : Turn} (same : u.session = t.session) (stands : Stands r after id u)
    (table : after.table = r.table) (pings : after.pings = r.pings) : Listed after :=
  h.staying known (by rw [same]) (by rw [same]) stands table pings

private theorem Listed.drop_any (key : Key) : Listed (r.drop id key) ∧
    ∀ new, r.lookup key = some new → Evicts r (r.drop id key) key new := by
  have stands := ((Stands.refl known).cancel key).turn (f := (·.report)) fun u past =>
    u.on_report past
  have scene : ((r.cancel key).turn id (·.report)).scene =
      { r.scene with registered := r.scene.registered.erase key } := by
    rw [scene_turn]
    rfl
  have listed := h.told known (u := t.report) rfl stands (congrArg (·.table) scene)
    (congrArg (·.pings) scene)
  have sessions := stands.sessions_told known rfl
  have lookup := fun key => lookup_scene (congrArg (·.table) scene) key
  unfold drop
  generalize (r.cancel key).turn id (·.report) = mid at scene listed sessions lookup
  cases found : r.lookup key with
  | none =>
    have same : mid.close key = mid := by
      unfold close
      rw [(lookup key).trans found]
    rw [same]
    exact ⟨listed, nofun⟩
  | some current =>
    have found : mid.lookup key = some current := (lookup key).trans found
    obtain ⟨v, there, own, -⟩ := listed.found key current found
    have closed := (Stands.refl there).close found
    have after := mid.scene_close key current found
    refine ⟨listed.leaving there (own ▸ found) Turn.socket_shut closed
      (own.symm ▸ congrArg (·.table) after) (congrArg (·.pings) after), fun new same => ?_⟩
    obtain rfl := Option.some.inj same
    refine ⟨?_, ?_⟩
    · rw [after, scene]
      rfl
    · rw [sessions_close found, sessions]

private theorem Listed.abort_any : Listed (r.abort id t.session.key) ∧
    ∀ new, r.lookup t.session.key = some new →
      Evicts r (r.abort id t.session.key) t.session.key new := by
  have stands := (Stands.refl known).resetStream
  have same : t.resetStream.session = t.session := by
    unfold Turn.resetStream
    cases t.session.key.protocol with
    | tcp =>
      simp only [Turn.resetPeer]
      split <;> rfl
    | udp => rfl
  have scene : (r.resetStream id t.session.key).scene = r.scene := scene_resetStream
  have listed := h.told known same stands (congrArg (·.table) scene) (congrArg (·.pings) scene)
  have sessions := stands.sessions_told known same
  obtain ⟨dropped, evicts⟩ := listed.drop_any stands.history t.session.key
  rw [abort_eq]
  refine ⟨dropped, fun new found => ?_⟩
  have found := (lookup_scene (congrArg (·.table) scene) t.session.key).trans found
  obtain ⟨gone, shut⟩ := evicts new found
  exact ⟨by rw [gone, scene], by rw [shut, sessions]⟩

end Closed

private theorem service_closed (known : r.history id = some t) (closed : t.session.socket = none) :
    r.service id =
      if t.session.state.aborting then r.abort id t.session.key else r.cancel t.session.key := by
  have at_id := (Stands.refl known).session
  unfold Relay.service
  rw [at_id]
  simp only
  have none_there : (Turn.start t.session).pump r.settings.ingressClassifier (r.isCurrent id)
      r.now = (.start t.session, .gone) := by
    unfold Turn.pump
    rw [show (Turn.start t.session).session.socket = none from closed]
  have same : r.commit id (.start t.session) = r := by
    show ({ r with sessions := r.sessions.set id t.session } : Relay) = r
    rw [set_session at_id]
  rw [none_there, same]


private theorem Listed.service_any (h : Listed r) (id : SessionId) : Listed (r.service id) := by
  cases at_id : r.sessions[id]? with
  | none =>
    unfold Relay.service
    rw [at_id]
    exact h
  | some session =>
    have known := history_of_session at_id
    generalize Turn.mk session _ = t at known
    cases opened : t.session.socket with
    | some socket =>
      have visits : Visits (fun _ => .anything) Relay.service := visits_service
      obtain ⟨changes, -⟩ := visits r id t h known (by rw [opened]; rfl)
      exact Changes.listed h changes
    | none =>
      rw [service_closed known opened]
      split
      · exact (h.abort_any known).1
      · exact h.quiet rfl (fun _ => rfl) rfl h.asked

private theorem Listed.evictIdle_any (h : Listed r) (id : SessionId) : Listed (r.evictIdle id) := by
  unfold evictIdle
  split
  · exact h
  · split
    · exact h
    · rename_i session at_id _
      exact (h.drop_any (history_of_session at_id) session.key).1

end Relay

namespace Threads

variable {s : Threads} {id new : SessionId} {old : Session}

private theorem act_of_not_pass {e : Relay.Event} (other : e.isPass = false) :
    (s.act e).relay = s.relay.step e := by
  cases e with
  | pass => cases other
  | _ => rfl

private theorem listed_act (h : Relay.Listed s.relay) (e : Relay.Event) :
    Relay.Listed (s.act e).relay := by
  cases pass : e.isPass with
  | false =>
    rw [act_of_not_pass pass]
    exact Relay.Changes.listed h (h.step pass)
  | true =>
    cases e with
    | pass first second =>
      show Relay.Listed (s.proceed first second).relay
      unfold proceed
      split
      · exact h
      · exact h
      · exact h.service_any _
      · exact h
      · exact h.evictIdle_any _
    | _ => cases pass

private theorem listed_run (h : Relay.Listed s.relay) (events : List Relay.Event) :
    Relay.Listed (s.run events).relay := by
  induction events generalizing s with
  | nil => exact h
  | cons e rest ih => exact ih (listed_act h e)

private theorem next?_eq_some : s.next? = some id ↔
    ∃ left, s.task = .serving (id :: left) ∨ s.task = .sweeping (id :: left) := by
  unfold next?
  split <;> simp_all

section Stale

variable (stale : Stale s id new old) (h : Relay.Listed s.relay) (first second : SessionId → Nat)

include stale h

private theorem Stale.closed : old.socket = none := by
  by_contra opened
  have found := h.listed id _ (Relay.history_of_session stale.session)
    (Option.isSome_iff_ne_none.2 opened)
  exact stale.apart (Option.some.inj (stale.replaced.symm.trans found))

private theorem Stale.serve {left : List SessionId} (task : s.task = .serving (id :: left)) :
    let after := (s.act (.pass first second)).relay
    if old.state.aborting then Relay.Evicts s.relay after old.key new
    else after = s.relay.cancel old.key := by
  have known := Relay.history_of_session stale.session
  have step : (s.act (.pass first second)).relay = s.relay.service id := by
    show (s.proceed first second).relay = _
    unfold proceed
    rw [task]
  simp only [step, Relay.service_closed known (stale.closed h)]
  split
  · exact (h.abort_any known).2 new stale.replaced
  · rfl

private theorem Stale.sweep {left : List SessionId} (task : s.task = .sweeping (id :: left)) :
    let after := (s.act (.pass first second)).relay
    if s.relay.settings.idleTimeout < old.idleFor s.relay.now then
      Relay.Evicts s.relay after old.key new
    else after = s.relay := by
  have known := Relay.history_of_session stale.session
  have step : (s.act (.pass first second)).relay = s.relay.evictIdle id := by
    show (s.proceed first second).relay = _
    unfold proceed
    rw [task]
  simp only [step, Relay.evictIdle, stale.session]
  split
  case isTrue overdue =>
    rw [if_neg (Nat.not_le.2 overdue)]
    exact (h.drop_any known old.key).2 new stale.replaced
  case isFalse intime => rw [if_pos (Nat.not_lt.1 intime)]

private theorem Stale.serves_act (serves : Relay.Serves s.relay old.key new) :
    Relay.Serves (s.act (.pass first second)).relay old.key new ↔
      (∃ left, s.task = .sweeping (id :: left)) ∧
        ¬ s.relay.settings.idleTimeout < old.idleFor s.relay.now := by
  obtain ⟨left, task | task⟩ := next?_eq_some.1 stale.next
  · -- Whatever the closed session was left as, a service harms the newer one.
    have harmed : ¬ Relay.Serves (s.act (.pass first second)).relay old.key new := by
      have served := stale.serve h first second task
      simp only at served
      split at served
      · exact served.not_serves
      · rw [served]
        exact Relay.not_serves_cancel
    refine iff_of_false harmed fun ⟨⟨left, other⟩, _⟩ => ?_
    rw [task] at other
    cases other
  · have swept := stale.sweep h first second task
    simp only at swept
    split at swept
    case isTrue overdue => exact iff_of_false swept.not_serves fun ⟨_, intime⟩ => intime overdue
    case isFalse intime =>
      rw [swept]
      exact iff_of_true serves ⟨⟨left, task⟩, intime⟩

end Stale

/-- A step for a session that is closed already leaves the newer session of the flow as it is only
if it is an idle check and the closed session has not been silent for too long. A service has the
newer session no longer registered, and evicts it if the closed one was to be aborted; an idle check
of a session that was silent for too long evicts it as well. -/
theorem run_stale (settings : Relay.Settings) (now coreWorkers maxWorkers : Nat)
    (events : List Relay.Event) (first second : SessionId → Nat) (id new : SessionId)
    (old : Session)
    (stale : Stale ((start settings now coreWorkers maxWorkers).run events) id new old) :
    let s := (start settings now coreWorkers maxWorkers).run events
    let after := (s.act (.pass first second)).relay
    let overdue := s.relay.settings.idleTimeout < old.idleFor s.relay.now
    old.socket = none ∧
    (∀ left, s.task = .serving (id :: left) →
      if old.state.aborting then Relay.Evicts s.relay after old.key new
      else after = s.relay.cancel old.key) ∧
    (∀ left, s.task = .sweeping (id :: left) →
      if overdue then Relay.Evicts s.relay after old.key new else after = s.relay) ∧
    (Relay.Serves s.relay old.key new →
      (Relay.Serves after old.key new ↔
        (∃ left, s.task = .sweeping (id :: left)) ∧ ¬ overdue)) := by
  intro s after overdue
  have h : Relay.Listed s.relay :=
    listed_run (Relay.consistent_start settings now coreWorkers maxWorkers).toListed events
  exact ⟨stale.closed h, fun left task => stale.serve h first second task,
    fun left task => stale.sweep h first second task, stale.serves_act h first second⟩

/-- A connection is closed and opened again before the thread comes to its first session: the second
one is registered no longer. -/
theorem run_stale_closed :
    let packet (seq : UInt32) (flags : UInt8) (isn : UInt32) : Relay.Event := .packet
      (sampleSegment flags seq 0 []) isn (.smooth [])
    let key := sampleFlow
    let pass : Relay.Event := .pass (fun _ => 0) (fun _ => 0)
    let s := (start .plain 0 1 1).run
      [packet 1000 2 500, pass, packet 1001 0x11 0, packet 1018 2 700]
    Relay.Serves s.relay key 1 ∧ (s.act pass).relay = s.relay.cancel key ∧
      ¬ Relay.Serves (s.act pass).relay key 1 := by
  intro packet key pass s
  have at_id : (s.relay.sessions[0]?).isSome = true := by decide +kernel
  obtain ⟨old, at_id⟩ := Option.isSome_iff_exists.1 at_id
  have known : (s.relay.sessions[0]?).map (fun old => (old.key, old.state.aborting)) =
      some (key, false) := by decide +kernel
  rw [at_id] at known
  obtain ⟨own, calm⟩ := Prod.mk.inj (Option.some.inj known)
  have serves : Relay.Serves s.relay key 1 :=
    ⟨by decide +kernel, by decide +kernel, by decide +kernel⟩
  have stale : Stale s 0 1 old := ⟨by decide +kernel, at_id, own ▸ serves.listed, by decide⟩
  obtain ⟨-, served, -, spared⟩ := run_stale .plain 0 1 1
    [packet 1000 2 500, pass, packet 1001 0x11 0, packet 1018 2 700] (fun _ => 0) (fun _ => 0) 0 1 old
    stale
  have served := served [] rfl
  rw [calm, own] at served
  refine ⟨serves, served, fun still => ?_⟩
  rw [own] at spared
  obtain ⟨⟨left, task⟩, -⟩ := (spared serves).1 still
  cases task

/-- The peer resets its connection as well before it is closed: the second one is evicted. -/
theorem reset_evicts_successor :
    let packet (seq : UInt32) (flags : UInt8) (isn : UInt32) : Relay.Event := .packet
      (sampleSegment flags seq 0 []) isn (.smooth [])
    let key := sampleFlow
    let pass : Relay.Event := .pass (fun _ => 0) (fun _ => 0)
    let s := (start .plain 0 1 1).run
      [packet 1000 2 500, pass, packet 1001 0x14 0, packet 1001 0x11 0, packet 1018 2 700]
    (∃ old, old.key = key ∧ Stale s 0 1 old) ∧ Relay.Serves s.relay key 1 ∧
      (s.act pass).relay.lookup key = none ∧ (s.act pass).relay.registered.find? key = none ∧
      (((s.act pass).relay.sessions[1]?).bind (·.socket)).isSome = false := by
  intro packet key pass s
  have known : (s.relay.sessions[0]?).map (·.key) = some key := by decide +kernel
  obtain ⟨old, at_id, own⟩ := Option.map_eq_some_iff.1 known
  have serves : Relay.Serves s.relay key 1 :=
    ⟨by decide +kernel, by decide +kernel, by decide +kernel⟩
  exact ⟨⟨old, own, by decide +kernel, at_id, own ▸ serves.listed, by decide⟩, serves,
    by decide +kernel, by decide +kernel, by decide +kernel⟩

end Threads
end PacketRelay
