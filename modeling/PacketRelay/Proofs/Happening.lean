import Mathlib.Data.List.Induction
import PacketRelay.Proofs.Moment

/-!
All that an event does to a session.

`Befalls` lists what can become of a session in an event, each time with the session that it leaves,
and `Opens` how one comes into being. So what a session has to show can be told from the events of
its run: `run_told` goes through them one by one, and collects what each of them was.
-/

set_option autoImplicit false

namespace PacketRelay

open Session (Key Turn Protocol)

namespace Relay

/-- The packet that an event brings. -/
def Event.inbound? : Event → Option Inbound
  | packet buffer _ _ => (Inbound.parse buffer).toOption
  | _ => none

theorem Event.read {e : Event} {packet : Inbound} (brings : e.inbound? = some packet) :
    packet.Read := by
  cases e with
  | packet buffer isn prospect =>
    cases parsed : Inbound.parse buffer with
    | error e =>
      simp only [Event.inbound?, parsed] at brings
      cases brings
    | ok other =>
      simp only [Event.inbound?, parsed] at brings
      obtain rfl := Option.some.inj brings
      exact ⟨buffer, parsed⟩
  | _ => cases brings

theorem Event.segment?_eq {e : Event} {s : Inbound.Segment} :
    e.segment? = some s ↔ e.inbound? = some (.segment s) := by
  cases e with
  | packet buffer isn prospect =>
    simp only [Event.segment?, Event.inbound?]
    rcases Inbound.parse buffer with _ | ⟨_ | _ | _ | _⟩ <;> simp [Except.toOption]
  | _ => simp [Event.segment?, Event.inbound?]

/-- What an event does to a session that is there. -/
inductive Befalls (r : Relay) (id : SessionId) (t : Turn) : Event → Turn → Prop
  /-- It handles a packet of its flow. -/
  | handled {e : Event} {packet : Inbound} (brings : e.inbound? = some packet) (read : packet.Read)
      (own : packet.key? = some t.session.key) (opened : t.session.socket.isSome = true) :
      Befalls r id t e (t.handle r.settings.egressClassifier r.now packet)
  /-- A pass serves it. -/
  | served (first second : SessionId → Nat) (opened : t.session.socket.isSome = true) :
      Befalls r id t (.pass first second) (t.serve r.settings.ingressClassifier r.now)
  /-- A pass serves it and then takes it out, since it has been silent for too long. -/
  | evicted (first second : SessionId → Nat) (opened : t.session.socket.isSome = true) :
      Befalls r id t (.pass first second) (t.serve r.settings.ingressClassifier r.now).report.shut
  /-- What its socket meets changes. -/
  | met (outlook : Socket) : Befalls r id t (.network id outlook) (t.meet outlook)
  /-- It is closed, or the event is not about it. -/
  | nothing {e : Event} (apart : t.session.socket.isSome = true →
      e.isPass = false ∧ ∀ packet, e.inbound? = some packet → packet.key? ≠ some t.session.key) :
      Befalls r id t e t

/-- An event opens a session: it brings a packet of a flow that has none. -/
inductive Opens (r : Relay) (u : Turn) : Event → Prop
  | admitted {buffer : Bytes} {isn : UInt32} {prospect : Socket.Prospect} {packet : Inbound}
      (parsed : Inbound.parse buffer = .ok packet) (own : packet.key? = some u.session.key)
      (fresh : r.lookup u.session.key = none)
      (opened : (r.settings.admission r.now r.socketCount packet isn prospect).opened = some u) :
      Opens r u (.packet buffer isn prospect)

variable {r : Relay} {id : SessionId} {t u : Turn} {e : Event} {packet : Inbound}

section Unmoved

theorem history_finishProbe (r : Relay) (i : Nat) (reachable : Bool) (id : SessionId) :
    (r.finishProbe i reachable).history id = r.history id := by
  have emitted : ∀ (r : Relay) (effect : Effect), (r.emit none effect).history id = r.history id := by
    intro r effect
    unfold history
    rw [histories_emit_none, Histories.of?_aside]
  unfold finishProbe
  split
  · rfl
  · simp only
    split
    · split
      · rw [emitted, emitted]
        rfl
      · rw [emitted]
        rfl
    · rw [emitted]
      rfl

private theorem history_asking (r : Relay) (packet : Inbound) (effects : List Effect)
    (id : SessionId) : (r.asking packet effects).history id = r.history id := by
  unfold history Histories.of? histories
  simp only [sessions_asking]
  unfold asking
  simp only [effectsOf_asides]
  rfl

private theorem history_network_other (r : Relay) {id other : SessionId} (differ : id ≠ other)
    (outlook : Socket) : (r.network other outlook).history id = r.history id := by
  have same : (r.network other outlook).sessions[id]? = r.sessions[id]? := by
    simp [network, modify, Ne.symm differ]
  unfold history Histories.of? histories
  simp only [same]
  rfl

private theorem history_network (known : r.history id = some t) (outlook : Socket) :
    (r.network id outlook).history id = some (t.meet outlook) :=
  ((Stands.refl known).modify fun s => { s with socket := s.socket.map (·.meet outlook) }).history

private theorem Consistent.history_handle_other (h : Consistent r) (known : r.history id = some t)
    (other : packet.key? ≠ some t.session.key) (isn : UInt32) (prospect : Socket.Prospect) :
    (r.handle packet isn prospect).history id = r.history id := by
  cases own : packet.key? with
  | none =>
    cases packet with
    | segment | datagram => cases own
    | echoRequest | ignored => rfl
  | some key =>
    cases found : r.lookup key with
    | some number =>
      obtain ⟨v, there, rfl, opened_there⟩ := h.found key number found
      have differ : id ≠ number := by
        rintro rfl
        obtain rfl : t = v := Option.some.inj (known.symm.trans there)
        exact other own
      exact (h.handle_found there opened_there own isn prospect).1.other differ
    | none =>
      have received := h.handle_fresh own found isn prospect
      unfold Receives at received
      split at received
      · rw [received, history_asking]
      · have differ : id ≠ (r.asking packet
            (r.settings.admission r.now r.socketCount packet isn prospect).aside).sessions.length := by
          rw [sessions_asking]
          exact Nat.ne_of_lt (length_of_history known)
        rw [history_add_other received.histories differ, history_asking]

end Unmoved

/-- Something becomes of every session in every event. -/
theorem Consistent.befalls (h : Consistent r) (e : Event) (known : r.history id = some t) :
    ∃ u, (r.step e).history id = some u ∧ Befalls r id t e u := by
  cases opened : t.session.socket.isSome with
  | false =>
    have closed : t.session.socket = none := by simpa using opened
    exact ⟨t, Changes.closed h (h.step e) known closed, .nothing fun some_socket => by
      rw [opened] at some_socket
      cases some_socket⟩
  | true =>
    cases e with
    | packet buffer isn prospect =>
      cases parsed : Inbound.parse buffer with
      | error e =>
        refine ⟨t, by rw [r.step_refused parsed, known], .nothing fun _ => ⟨rfl, fun packet brings => ?_⟩⟩
        simp only [Event.inbound?, parsed] at brings
        cases brings
      | ok packet =>
        have brings : (Event.packet buffer isn prospect).inbound? = some packet := by
          simp only [Event.inbound?, parsed]
          rfl
        rw [r.step_packet parsed]
        by_cases own : packet.key? = some t.session.key
        · exact ⟨_, (h.handle_found known opened own isn prospect).1.history,
            .handled brings ⟨buffer, parsed⟩ own opened⟩
        · refine ⟨t, (h.history_handle_other known own isn prospect).trans known,
            .nothing fun _ => ⟨rfl, fun other also => ?_⟩⟩
          obtain rfl : packet = other := Option.some.inj (brings.symm.trans also)
          exact own
    | pass first second =>
      have passed := h.passed first second known opened
      refine ⟨_, passed, ?_⟩
      split
      · exact .evicted first second opened
      · exact .served first second opened
    | network other outlook =>
      by_cases same : id = other
      · subst same
        exact ⟨_, history_network known outlook, .met outlook⟩
      · exact ⟨t, (history_network_other r same outlook).trans known,
          .nothing fun _ => ⟨rfl, fun _ none => by cases none⟩⟩
    | time | retire =>
      exact ⟨t, known, .nothing fun _ => ⟨rfl, fun _ none => by cases none⟩⟩
    | probe i reachable =>
      exact ⟨t, (history_finishProbe r i reachable id).trans known,
        .nothing fun _ => ⟨rfl, fun _ none => by cases none⟩⟩

/-- No event but the packet of a flow without a session opens one. -/
theorem Consistent.opens (h : Consistent r) (unborn : r.history id = none)
    (known : (r.step e).history id = some u) : Opens r u e := by
  have born : (r.step e).history id ≠ r.history id := by
    rw [unborn, known]
    exact Option.some_ne_none u
  cases e with
  | packet buffer isn prospect =>
    cases parsed : Inbound.parse buffer with
    | error e => exact absurd (by rw [r.step_refused parsed]) born
    | ok packet =>
      rw [r.step_packet parsed] at known born
      cases own : packet.key? with
      | none =>
        refine absurd ?_ born
        cases packet with
        | segment | datagram => cases own
        | echoRequest | ignored => rfl
      | some key =>
        cases found : r.lookup key with
        | some number =>
          obtain ⟨v, there, rfl, opened⟩ := h.found key number found
          have differ : id ≠ number := by
            rintro rfl
            rw [unborn] at there
            cases there
          exact absurd ((h.handle_found there opened own isn prospect).1.other differ) born
        | none =>
          have received := h.handle_fresh own found isn prospect
          unfold Receives at received
          split at received
          case h_1 => exact absurd (by rw [received, history_asking]) born
          case h_2 v opened =>
            by_cases new : id = r.sessions.length
            · have last := history_add received.histories
              rw [sessions_asking, ← new, known] at last
              obtain rfl := Option.some.inj last
              obtain rfl := key_admission own opened
              exact .admitted parsed own found opened
            · refine absurd ?_ born
              rw [history_add_other received.histories (by rw [sessions_asking]; exact new),
                history_asking]
  | pass first second =>
    have absent : ∀ after : Relay, Listed after → after.history id = none → id ∉ after.table.ids := by
      intro after listed none_there member
      obtain ⟨v, there, -⟩ := listed.opened_ids id member
      rw [none_there] at there
      cases there
    have served : (r.serviceBy first).history id = r.history id := by
      unfold Relay.serviceBy
      rw [h.registered]
      exact h.history_visits visits_service first (absent r h.toListed unborn)
    have changes : Changes (fun _ => .nothing) r (r.serviceBy first) := h.serviceBy first
    have later := changes.consistent h
    have swept : ((r.serviceBy first).sweepBy second).history id = (r.serviceBy first).history id :=
      later.history_visits visits_evictIdle second
        (absent _ later.toListed (served.trans unborn))
    exact absurd (swept.trans served) born
  | network other outlook =>
    by_cases same : id = other
    · subst same
      have none_there : r.sessions[id]? = none := by
        simpa [history, Histories.of?, histories] using unborn
      refine absurd ?_ born
      simp only [Relay.step]
      unfold network modify
      rw [List.modify_eq_self (List.getElem?_eq_none_iff.1 none_there)]
    · exact absurd (history_network_other r same outlook) born
  | time | retire => exact absurd rfl born
  | probe i reachable => exact absurd (history_finishProbe r i reachable id) born

theorem Opens.cases (opens : Opens r u e) :
    (∃ s isn prospect connected, e.segment? = some s ∧ s.tcp.isSyn = true ∧ r.lookup s.key = none ∧
      u = .begun r.settings s isn prospect r.socketCount connected r.now) ∨
    ∃ d prospect, e.inbound? = some (.datagram d) ∧ d.Read ∧ r.lookup d.key = none ∧
      u = .started r.settings d prospect r.socketCount r.now := by
  cases opens with
  | @admitted buffer isn prospect packet parsed own fresh opened =>
    have brings : (Event.packet buffer isn prospect).inbound? = some packet := by
      simp only [Event.inbound?, parsed]
      rfl
    cases packet with
    | segment s =>
      have own : s.key = u.session.key := Option.some.inj own
      simp only [Settings.admission] at opened
      split at opened
      case isTrue isSyn =>
        simp only [Settings.admitSyn] at opened
        split at opened
        · cases opened
        · exact .inl ⟨s, isn, prospect, _, Event.segment?_eq.2 brings, isSyn, own ▸ fresh,
            (Option.some.inj opened).symm⟩
      case isFalse =>
        split at opened
        · cases opened
        · split at opened <;> cases opened
    | datagram d =>
      have own : d.key = u.session.key := Option.some.inj own
      simp only [Settings.admission, Settings.admitDatagram] at opened
      split at opened
      · cases opened
      · exact .inr ⟨d, prospect, brings, ⟨buffer, parsed⟩, own ▸ fresh,
          (Option.some.inj opened).symm⟩
    | echoRequest | ignored => cases own

theorem Opens.syn (opens : Opens r u e) (stream : u.session.key.protocol = .tcp) :
    ∃ s isn prospect connected, e.segment? = some s ∧ s.tcp.isSyn = true ∧ r.lookup s.key = none ∧
      u = .begun r.settings s isn prospect r.socketCount connected r.now := by
  obtain begun | ⟨d, prospect, -, -, -, rfl⟩ := opens.cases
  · exact begun
  · rw [Turn.key_started] at stream
    cases stream

theorem Opens.datagram (opens : Opens r u e) (datagrams : u.session.key.protocol = .udp) :
    ∃ d prospect, e.inbound? = some (.datagram d) ∧ d.Read ∧ r.lookup d.key = none ∧
      u = .started r.settings d prospect r.socketCount r.now := by
  obtain ⟨s, isn, prospect, connected, -, -, -, rfl⟩ | started := opens.cases
  · cases datagrams
  · exact started

theorem Consistent.found_step (h : Consistent r) {key : Key}
    (found : (r.step e).lookup key = some id) :
    ∃ u, (r.step e).history id = some u ∧ u.session.key = key ∧ u.session.socket.isSome = true :=
  (Changes.consistent h (h.step e)).found key id found

theorem Consistent.key_step (h : Consistent r) (known : r.history id = some t)
    (later : (r.step e).history id = some u) : u.session.key = t.session.key := by
  obtain ⟨v, same, moves⟩ := Changes.history (h.step e) known
  obtain rfl : u = v := Option.some.inj (later.symm.trans same)
  exact moves.key

theorem Consistent.lookup_step (h : Consistent r) (known : (r.step e).history id = some u)
    (opened : u.session.socket.isSome = true) : (r.step e).lookup u.session.key = some id :=
  (Changes.consistent h (h.step e)).listed id u known opened

section Runs

variable {α : Type}

/-- What is collected in a run, in order. -/
def collect (f : Relay → Event → List α) : Relay → List Event → List α
  | _, [] => []
  | r, e :: rest => f r e ++ collect f (r.step e) rest

theorem collect_append (f : Relay → Event → List α) (r : Relay) (events later : List Event) :
    collect f r (events ++ later) = collect f r events ++ collect f (r.run events) later := by
  induction events generalizing r with
  | nil => rfl
  | cons e rest ih => simp only [List.cons_append, collect, ih, run_cons, List.append_assoc]

/-- What holds whenever something happens in a run. -/
def Throughout (p : Relay → Event → Prop) : Relay → List Event → Prop
  | _, [] => True
  | r, e :: rest => p r e ∧ Throughout p (r.step e) rest

instance decidableThroughout (p : Relay → Event → Prop) [∀ r e, Decidable (p r e)] :
    (r : Relay) → (events : List Event) → Decidable (Throughout p r events)
  | _, [] => .isTrue trivial
  | r, e :: rest =>
    have := decidableThroughout p (r.step e) rest
    inferInstanceAs (Decidable (_ ∧ _))

private theorem throughout_append {p : Relay → Event → Prop} {r : Relay}
    {events later : List Event} : Throughout p r (events ++ later) ↔
      Throughout p r events ∧ Throughout p (r.run events) later := by
  induction events generalizing r with
  | nil => simp [Throughout]
  | cons e rest ih => simp only [List.cons_append, Throughout, ih, run_cons, and_assoc]

theorem throughout_of_forall {p : Relay → Event → Prop} (all : ∀ r e, p r e) (r : Relay)
    (events : List Event) : Throughout p r events := by
  induction events generalizing r with
  | nil => trivial
  | cons e rest ih => exact ⟨all r e, ih (r.step e)⟩

theorem throughout_of_prefixes {p : Relay → Event → Prop} {r : Relay} {events : List Event}
    (each : ∀ before e after, before ++ e :: after = events → p (r.run before) e) :
    Throughout p r events := by
  induction events generalizing r with
  | nil => trivial
  | cons e rest ih =>
    refine ⟨each [] e rest rfl, ih fun before later after same => ?_⟩
    exact each (e :: before) later after (congrArg (e :: ·) same)

theorem Consistent.throughout_settings (h : Consistent r) (events : List Event) :
    Throughout (fun later _ => later.settings = r.settings) r events := by
  induction events generalizing r with
  | nil => trivial
  | cons e rest ih =>
    have same : (r.step e).settings = r.settings := Changes.settings (h.step e)
    refine ⟨rfl, ?_⟩
    rw [← same]
    exact ih (Changes.consistent h (h.step e))

theorem Consistent.collect_unborn (h : Consistent r) {id : SessionId} {f : Relay → Event → List α}
    (silent : ∀ r e, Consistent r → (r.step e).history id = none → f r e = []) (events : List Event)
    (unborn : (r.run events).history id = none) : collect f r events = [] := by
  induction events generalizing r with
  | nil => rfl
  | cons e rest ih =>
    rw [run_cons] at unborn
    have later : Consistent (r.step e) := Changes.consistent h (h.step e)
    have fresh : (r.step e).history id = none := by
      by_contra known
      obtain ⟨t, known⟩ := Option.ne_none_iff_exists'.1 known
      obtain ⟨u, after, -⟩ := (later.run rest).history known
      rw [unborn] at after
      cases after
    rw [collect, silent r e h fresh, ih later unborn, List.nil_append]

/-- What holds of a session of a protocol when it is opened, and of what has been told of it then,
and goes on to hold in every event, holds after every run of what all its events tell. -/
theorem run_told (settings : Settings) (now coreWorkers maxWorkers : Nat) {id : SessionId}
    {protocol : Protocol} {p : Relay → Event → Prop} {f : Relay → Event → List α}
    {P : Turn → List α → Prop}
    (silent : ∀ r e, Consistent r → (r.step e).history id = none → f r e = [])
    (opens : ∀ r e u, Consistent r → p r e → (r.step e).history id = some u →
      u.session.key.protocol = protocol → Opens r u e → P u (f r e))
    (befalls : ∀ r e t u told, Consistent r → Traced r → p r e → r.history id = some t →
      (r.step e).history id = some u → t.session.key.protocol = protocol → Befalls r id t e u →
      P t told → P u (told ++ f r e))
    (events : List Event)
    (always : Throughout p (start settings now coreWorkers maxWorkers) events) {u : Turn}
    (known : ((start settings now coreWorkers maxWorkers).run events).history id = some u)
    (own : u.session.key.protocol = protocol) :
    P u (collect f (start settings now coreWorkers maxWorkers) events) := by
  have begun := consistent_start settings now coreWorkers maxWorkers
  have traced := traced_run settings now coreWorkers maxWorkers
  have empty : (start settings now coreWorkers maxWorkers).history id = none := rfl
  generalize start settings now coreWorkers maxWorkers = r at begun traced empty always known
  have consistent : ∀ events, Consistent (r.run events) := fun events =>
    Changes.consistent begun (begun.run events)
  induction events using List.reverseRecOn generalizing u with
  | nil =>
    rw [run_nil, empty] at known
    cases known
  | append_singleton events e ih =>
    obtain ⟨always, holds, -⟩ := throughout_append.1 always
    rw [run_append] at known
    rw [collect_append]
    simp only [collect, List.append_nil]
    cases was : (r.run events).history id with
    | none =>
      rw [begun.collect_unborn silent events was, List.nil_append]
      exact opens _ e u (consistent events) holds known own ((consistent events).opens was known)
    | some t =>
      obtain ⟨v, later, befall⟩ := (consistent events).befalls e was
      obtain rfl : u = v := Option.some.inj (known.symm.trans later)
      have own : t.session.key.protocol = protocol := by
        rw [← (consistent events).key_step was known, own]
      exact befalls _ e t u _ (consistent events) (traced events) holds was known own befall
        (ih own always was)

theorem run_kept (settings : Settings) (now coreWorkers maxWorkers : Nat) {id : SessionId}
    {protocol : Protocol} {p : Relay → Event → Prop} {P : Turn → Prop}
    (opens : ∀ r e u, Consistent r → p r e → (r.step e).history id = some u →
      u.session.key.protocol = protocol → Opens r u e → P u)
    (befalls : ∀ r e t u, Consistent r → Traced r → p r e → r.history id = some t →
      (r.step e).history id = some u → t.session.key.protocol = protocol → Befalls r id t e u →
      P t → P u)
    (events : List Event)
    (always : Throughout p (start settings now coreWorkers maxWorkers) events) {u : Turn}
    (known : ((start settings now coreWorkers maxWorkers).run events).history id = some u)
    (own : u.session.key.protocol = protocol) : P u :=
  run_told settings now coreWorkers maxWorkers (f := fun _ _ => ([] : List Event))
    (P := fun u _ => P u) (fun _ _ _ _ => rfl) opens
    (fun r e t u _ h traced holds known later own befall before =>
      befalls r e t u h traced holds known later own befall before) events always known own

end Runs

end Relay
end PacketRelay
