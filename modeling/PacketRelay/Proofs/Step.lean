import PacketRelay.Proofs.Reception

/-!
Every event of a run is a chain of changes.

A packet changes the session that handles it, or it is admitted. A pass visits sessions by number;
since no visit touches another session, each of them is still open when its turn comes.
-/

set_option autoImplicit false

namespace PacketRelay

open Session (Key Turn)
open Relation (ReflTransGen)

namespace Ping.Pool

variable {Job : Type} {p : Pool Job} {job j : Job}

theorem mem_jobs : j ∈ p.jobs ↔ j ∈ p.refused ∨ j ∈ p.starting ∨ j ∈ p.busy := by
  simp [jobs]

private theorem jobs_offer (member : j ∈ (p.offer job).jobs) : j ∈ p.jobs ∨ j = job := by
  unfold offer at member
  split at member <;>
    simp only [mem_jobs, List.mem_append, List.mem_singleton] at member ⊢ <;> tauto

private theorem jobs_reserve (member : j ∈ p.reserve.jobs) : j ∈ p.jobs := by
  unfold reserve at member
  split at member
  case h_1 => exact member
  case h_2 first rest refused =>
    rw [mem_jobs, refused, List.mem_cons]
    split at member <;>
      simp only [mem_jobs, List.mem_append, List.mem_singleton] at member <;> tauto

private theorem jobs_started (ok : Bool) (member : j ∈ (p.started ok).jobs) : j ∈ p.jobs := by
  unfold started at member
  split at member
  case h_1 => exact member
  case h_2 first rest starting =>
    rw [mem_jobs, starting, List.mem_cons]
    split at member <;>
      simp only [mem_jobs, List.mem_append, List.mem_singleton] at member <;> tauto

private theorem jobs_submit (member : j ∈ (p.submit job).1.jobs) : j ∈ p.jobs ∨ j = job := by
  unfold submit at member
  split at member
  · exact jobs_offer member
  · split at member
    · exact jobs_offer (jobs_reserve (jobs_started true member))
    · exact jobs_offer (jobs_reserve member)

private theorem jobs_complete (i : Nat) (member : j ∈ (p.complete i).jobs) : j ∈ p.jobs := by
  unfold complete at member
  split at member
  · simp only [mem_jobs] at member ⊢
    exact member.imp_right (Or.imp_right List.mem_of_mem_eraseIdx)
  · exact member

private theorem jobs_retire : p.retire.jobs = p.jobs := by
  unfold retire
  split <;> rfl

end Ping.Pool

namespace Relay

/-- What an event does to a session from outside. -/
def Event.outside (e : Event) (id : SessionId) : Outside := ⟨e.disturbs id, (e.segment? = some ·)⟩

/-- What the events of a run do to a session from outside. -/
def outsideOf (events : List Event) (id : SessionId) : Outside :=
  ⟨∃ e ∈ events, e.disturbs id, fun s => ∃ e ∈ events, e.segment? = some s⟩

variable {outside : SessionId → Outside} {r after : Relay} {id : SessionId} {t u : Turn} {key : Key}

section Visits

private theorem Change.of_stands (known : r.history id = some t)
    (current : r.lookup t.session.key = some id) (moves : Turn.Moves r.settings (outside id) t u)
    (stands : Stands r after id u)
    (scene : after.scene =
      if u.session.socket.isSome then r.scene else r.scene.without t.session.key) :
    Change outside r after := by
  cases socket : u.session.socket with
  | some _ =>
    refine .moving id t u known current moves (by rw [socket]; rfl) stands ?_
    rw [scene, socket]
    rfl
  | none =>
    refine .leaving id t u known current moves socket stands ?_
    rw [scene, socket]
    rfl

/-- A visit to an open session touches no other. -/
def Visits (outside : SessionId → Outside) (visit : Relay → SessionId → Relay) : Prop :=
  ∀ r id t, Listed r → r.history id = some t → t.session.socket.isSome = true →
    Changes outside r (visit r id) ∧
      ∀ other, other ≠ id → (visit r id).history other = r.history other

/-- Visiting open sessions, each of them once, is a chain of changes, and touches no others. -/
theorem Visits.foldl {visit : Relay → SessionId → Relay} (visits : Visits outside visit)
    (ids : List SessionId) (once : ids.Nodup) (h : Listed r)
    (opened : ∀ id ∈ ids, ∃ t, r.history id = some t ∧ t.session.socket.isSome = true) :
    Changes outside r (ids.foldl visit r) ∧
      ∀ other, other ∉ ids → (ids.foldl visit r).history other = r.history other := by
  induction ids generalizing r with
  | nil => exact ⟨.refl, fun _ _ => rfl⟩
  | cons id rest ih =>
    obtain ⟨absent, once⟩ := List.nodup_cons.1 once
    obtain ⟨t, known, socket⟩ := opened id List.mem_cons_self
    obtain ⟨changes, others⟩ := visits r id t h known socket
    obtain ⟨later, apart⟩ := ih once (changes.listed h) fun other member => by
      rw [others other fun same => absent (same ▸ member)]
      exact opened other (List.mem_cons_of_mem id member)
    refine ⟨changes.trans later, fun other differ => ?_⟩
    obtain ⟨differs, beyond⟩ := not_or.1 (List.mem_cons.not.1 differ)
    exact (apart other beyond).trans (others other differs)

theorem Listed.nodup_ids (h : Listed r) : r.table.ids.Nodup := by
  refine Table.nodup_ids h.differ fun key other id found also => ?_
  obtain ⟨t, known, own, -⟩ := h.found key id found
  obtain ⟨u, again, theirs, -⟩ := h.found other id also
  obtain rfl : t = u := Option.some.inj (known.symm.trans again)
  rw [← own, theirs]

theorem Listed.opened_ids (h : Listed r) (id : SessionId) (member : id ∈ r.table.ids) :
    ∃ t, r.history id = some t ∧ t.session.socket.isSome = true := by
  obtain ⟨key, found⟩ := (Table.mem_ids h.differ).1 member
  obtain ⟨t, known, -, socket⟩ := h.found key id found
  exact ⟨t, known, socket⟩

private theorem Visits.byRank {visit : Relay → SessionId → Relay} (visits : Visits outside visit)
    (rank : SessionId → Nat) (h : Listed r) :
    Changes outside r ((byRank rank r.table.ids).foldl visit r) := by
  have order := byRank_perm rank r.table.ids
  exact (visits.foldl _ (order.nodup_iff.2 h.nodup_ids) h fun id member =>
    h.opened_ids id (order.mem_iff.1 member)).1

end Visits

theorem Listed.current (h : Listed r) (known : r.history id = some t)
    (opened : t.session.socket.isSome = true) : r.isCurrent id = true := by
  unfold isCurrent
  rw [(Stands.refl known).session]
  simp [h.listed id t known opened]

theorem Listed.service (h : Listed r) (known : r.history id = some t)
    (opened : t.session.socket.isSome = true) :
    Stands r (r.service id) id (t.serve r.settings.ingressClassifier r.now) ∧
      (r.service id).scene =
        if (t.serve r.settings.ingressClassifier r.now).session.socket.isSome then r.scene
        else r.scene.without t.session.key := by
  have stands := Stands.refl known
  have found := h.listed id t known opened
  unfold Relay.service Turn.serve
  rw [stands.session]
  simp only
  by_cases aborting : t.session.state.aborting = true
  · have : t.state.aborting = true := aborting
    rw [if_pos aborting, if_pos this]
    refine ⟨stands.abort found, ?_⟩
    rw [scene_abort found]
    unfold Turn.abort
    rw [Turn.socket_shut]
    rfl
  · have : ¬ t.state.aborting = true := aborting
    rw [if_neg aborting, if_neg this, h.current known opened]
    -- The pass starts a turn of its own; on top of the history it is the turn of `serve`.
    have on := (Turn.start t.session).on_pump t.effects r.now r.settings.ingressClassifier true
    rw [Turn.on_start] at on
    have passed : Turn.Passed r.settings .anything t _ _ := Turn.pump_passed r.now opened
    rw [on] at passed ⊢
    generalize (Turn.start t.session).pump r.settings.ingressClassifier true r.now = result
      at passed ⊢
    obtain ⟨v, pass⟩ := result
    simp only at passed ⊢
    have committed := stands.commit v
    have scene := r.scene_commit id v
    have own : (v.on t.effects).session.key = t.session.key := passed.key
    cases pass with
    | keep =>
      refine ⟨committed, ?_⟩
      rw [scene, if_pos passed.opened]
    | remoteClosed =>
      refine ⟨committed.turn fun u past => u.on_remoteClose past, ?_⟩
      rw [scene_turn, scene, Turn.alike_remoteClose.socket, if_pos passed.opened]
    | failed e =>
      have found : (r.commit id v).lookup t.session.key = some id :=
        (lookup_scene (congrArg (·.table) scene) _).trans found
      have ended := committed.abort (own ▸ found)
      rw [own] at ended
      refine ⟨ended, ?_⟩
      rw [scene_abort found, scene]
      unfold Turn.abort
      rw [Turn.socket_shut]
      rfl
    | gone => exact absurd rfl passed.notGone

theorem visits_service : Visits outside service := by
  intro r id t h known opened
  obtain ⟨stands, scene⟩ := h.service known opened
  have moves : Turn.Moves r.settings (outside id) t _ := Turn.serve_moves r.now opened
  exact ⟨.single (.of_stands known (h.listed id t known opened) moves stands scene),
    fun other differ => stands.other differ⟩

theorem visits_evictIdle : Visits outside evictIdle := by
  intro r id t h known opened
  have stands := Stands.refl known
  have found := h.listed id t known opened
  unfold evictIdle
  rw [stands.session]
  simp only
  split
  case isTrue => exact ⟨.refl, fun other _ => rfl⟩
  case isFalse =>
    have dropped := stands.drop found
    refine ⟨.single (.leaving id t _ known found (.single (.leave t opened)) Turn.socket_shut dropped
      (scene_drop found)), fun other differ => dropped.other differ⟩

theorem Consistent.serviceBy (h : Consistent r) (rank : SessionId → Nat) :
    Changes outside r (r.serviceBy rank) := by
  unfold Relay.serviceBy
  rw [h.registered]
  exact visits_service.byRank rank h.toListed

theorem Listed.sweepBy (h : Listed r) (rank : SessionId → Nat) :
    Changes outside r (r.sweepBy rank) :=
  visits_evictIdle.byRank rank h

private theorem Change.workers {now : Nat} (later : r.now ≤ now) (pings : Ping.Pool Inbound.Echo)
    (asked : ∀ e ∈ pings.jobs, e ∈ r.pings.jobs ∨ e.Read) :
    Change outside r { r with now := now, pings := pings } :=
  .quiet rfl ⟨now, pings, later, rfl, asked⟩

private theorem Change.emit {effect : Effect} (aside : Aside effect) :
    Change outside r (r.emit none effect) :=
  .aside effect aside (r.histories_emit_none effect) rfl

private theorem changes_advance (span : Nat) : Changes outside r (r.advance span) :=
  .single (.workers (Nat.le_add_right _ _) r.pings fun _ => .inl)

private theorem changes_retire : Changes outside r { r with pings := r.pings.retire } :=
  .single (.workers (Nat.le_refl _) _ fun _ job => .inl (Ping.Pool.jobs_retire ▸ job))

private theorem changes_handleEcho {e : Inbound.Echo} (read : e.Read) :
    Changes outside r (r.handleEcho e) := by
  refine .single (.workers (Nat.le_refl _) _ fun job member => ?_)
  rcases Ping.Pool.jobs_submit member with old | rfl
  · exact .inl old
  · exact .inr read

private theorem Listed.finishProbe (h : Listed r) (i : Nat) (reachable : Bool) :
    Changes outside r (r.finishProbe i reachable) := by
  unfold Relay.finishProbe
  split
  case h_1 => exact .refl
  case h_2 job busy =>
    have read : job.Read :=
      h.asked job (Ping.Pool.mem_jobs.2 (.inr (.inr (List.mem_of_getElem? busy))))
    have completed : Changes outside r { r with pings := r.pings.complete i } :=
      .single (.workers (Nat.le_refl _) _ fun e member => .inl (Ping.Pool.jobs_complete i member))
    have probed := completed.tail
      (.emit (.probe job.ip.destination r.settings.probeTimeout reachable))
    simp only
    split
    · split
      case h_1 draft reply => exact probed.tail (.emit (.echoReply job read draft reply))
      case h_2 => exact probed
    · exact probed

private theorem Listed.network (h : Listed r) (id : SessionId) (outlook : Socket)
    (allowed : (outside id).changes) : Changes outside r (r.network id outlook) := by
  cases known : r.history id with
  | none =>
    have : r.sessions[id]? = none := by simpa [history, Histories.of?, histories] using known
    have same : r.network id outlook = r := by
      unfold Relay.network modify
      rw [List.modify_eq_self (List.getElem?_eq_none_iff.1 this)]
    rw [same]
  | some t =>
    have stands :=
      (Stands.refl known).modify fun s => { s with socket := s.socket.map (·.meet outlook) }
    cases socket : t.session.socket with
    | some _ =>
      have opened : t.session.socket.isSome = true := by rw [socket]; rfl
      refine .single (.moving id t _ known (h.listed id t known opened)
        (.single (.network t outlook allowed)) ?_ stands rfl)
      simp [Turn.meet, socket]
    | none =>
      have same : { t with session :=
          { t.session with socket := t.session.socket.map (·.meet outlook) } } = t := by
        rw [socket, Option.map_none, ← socket]
      rw [same] at stands
      have histories := stands.histories.trans (Histories.put_self known)
      exact .single (.quiet histories ⟨r.now, r.pings, Nat.le_refl _, rfl, fun _ => .inl⟩)

section Packets

variable {settings : Settings} {now number : Nat} {packet : Inbound} {isn : UInt32}
  {prospect : Socket.Prospect}

private theorem aside_attempted (opening : Socket.Opening) : ∀ e ∈ attempted opening, Aside e := by
  intro e member
  obtain ⟨attempt, -, rfl⟩ := List.mem_map.1 member
  exact .connect attempt

private theorem aside_orphanAnswer {s : Inbound.Segment} (read : s.Read) :
    ∀ e ∈ orphanAnswer s, Aside e := by
  intro e member
  unfold orphanAnswer at member
  split at member
  · obtain rfl := List.mem_singleton.1 member
    exact .acknowledgment s read
  · split at member
    · cases member
    · obtain rfl := List.mem_singleton.1 member
      exact .reset s read _

private theorem aside_admission (read : packet.Read) :
    ∀ e ∈ (settings.admission now number packet isn prospect).aside, Aside e := by
  cases packet with
  | segment s =>
    simp only [Settings.admission]
    split
    · simp only [Settings.admitSyn]
      split
      · exact List.forall_mem_cons.2 ⟨.reset s read 0, aside_attempted _⟩
      · exact aside_attempted _
    · split
      · exact aside_orphanAnswer read
      · split
        · exact List.forall_mem_singleton.2 (.finAnswer s read)
        · exact List.forall_mem_nil _
  | datagram d =>
    simp only [Settings.admission, Settings.admitDatagram]
    split <;> exact aside_attempted _
  | echoRequest | ignored => exact List.forall_mem_nil _

theorem opened_admission (read : packet.Read)
    (admitted : (settings.admission now number packet isn prospect).opened = some t) :
    Turn.Opened settings t := by
  cases packet with
  | segment s =>
    simp only [Settings.admission] at admitted
    split at admitted
    case isTrue isSyn =>
      simp only [Settings.admitSyn] at admitted
      split at admitted
      · cases admitted
      · obtain rfl := Option.some.inj admitted
        exact .stream s read isSyn isn prospect number _ now
    case isFalse =>
      split at admitted
      · cases admitted
      · split at admitted <;> cases admitted
  | datagram d =>
    simp only [Settings.admission, Settings.admitDatagram] at admitted
    split at admitted
    · cases admitted
    · obtain rfl := Option.some.inj admitted
      exact .datagram d read prospect number now _ rfl
  | echoRequest | ignored => cases admitted

private theorem changes_asides {effects : List Effect} (asides : ∀ e ∈ effects, Aside e) :
    Changes outside r (r.asides effects) := by
  induction effects with
  | nil => exact .refl
  | cons e rest ih =>
    obtain ⟨aside, asides⟩ := List.forall_mem_cons.1 asides
    exact (ih asides).tail (.emit aside)

private theorem changes_asking {effects : List Effect} (asides : ∀ e ∈ effects, Aside e) :
    Changes outside r (r.asking packet effects) := by
  have counted : Change outside r
      { r with socketCount := r.socketCount + packet.opens.toNat } :=
    .quiet rfl ⟨r.now, r.pings, Nat.le_refl _, rfl, fun _ => .inl⟩
  exact (ReflTransGen.single counted).trans (changes_asides asides)

theorem Listed.handle (h : Listed r) (read : packet.Read)
    (brought : ∀ s id, packet = .segment s → (outside id).brings s) :
    Changes outside r (r.handle packet isn prospect) := by
  cases own : packet.key? with
  | none =>
    cases packet with
    | segment | datagram => cases own
    | echoRequest e => exact changes_handleEcho read
    | ignored => exact .refl
  | some key =>
    cases found : r.lookup key with
    | some id =>
      obtain ⟨t, known, rfl, opened⟩ := h.found key id found
      obtain ⟨stands, scene⟩ := h.handle_found known opened own isn prospect
      have moves : Turn.Moves r.settings (outside id) t
          (t.handle r.settings.egressClassifier r.now packet) :=
        Turn.handle_moves read own opened (fun s => brought s id) r.now
      exact .single (.of_stands known found moves stands scene)
    | none =>
      have received := h.handle_fresh own found isn prospect
      have asking : Changes outside r (r.asking packet
          (r.settings.admission r.now r.socketCount packet isn prospect).aside) :=
        changes_asking (aside_admission read)
      unfold Receives at received
      cases opened : (r.settings.admission r.now r.socketCount packet isn prospect).opened with
      | none =>
        rw [opened] at received
        rw [received]
        exact asking
      | some t =>
        rw [opened] at received
        obtain rfl := key_admission own opened
        have scene := r.scene_asking packet
          (r.settings.admission r.now r.socketCount packet isn prospect).aside
        have settings : (r.asking packet
            (r.settings.admission r.now r.socketCount packet isn prospect).aside).settings =
            r.settings := congrArg (·.settings) scene
        refine asking.tail (.opening t ?_ ?_ received.histories received.scene)
        · rw [settings]
          exact opened_admission read opened
        · exact (lookup_scene (congrArg (·.table) scene) _).trans found

end Packets

private theorem Listed.handlePacket (h : Listed r) {buffer : Bytes} {isn : UInt32}
    {prospect : Socket.Prospect} (handled : r.handlePacket buffer isn prospect = .ok after)
    (brought : ∀ s id, Inbound.parse buffer = .ok (.segment s) → (outside id).brings s) :
    Changes outside r after := by
  unfold Relay.handlePacket at handled
  cases parsed : Inbound.parse buffer with
  | error e =>
    rw [parsed] at handled
    cases handled
  | ok packet =>
    rw [parsed] at handled
    obtain rfl := Except.ok.inj handled
    exact h.handle ⟨buffer, parsed⟩ fun s id same => brought s id (same ▸ parsed)

theorem Listed.step (h : Listed r) {e : Event} (other : e.isPass = false) :
    Changes e.outside r (r.step e) := by
  cases e with
  | packet buffer isn prospect =>
    cases handled : r.handlePacket buffer isn prospect with
    | ok after =>
      simp only [Relay.step, handled]
      refine h.handlePacket handled fun s id parsed => ?_
      show (Event.packet buffer isn prospect).segment? = some s
      simp only [Event.segment?, parsed]
    | error e =>
      simp only [Relay.step, handled]
      exact .refl
  | pass first second => cases other
  | time span => exact changes_advance span
  | probe i reachable => exact h.finishProbe i reachable
  | retire => exact changes_retire
  | network id outlook => exact h.network id outlook rfl

/-- Every event is a chain of changes. -/
theorem Consistent.step (h : Consistent r) (e : Event) : Changes e.outside r (r.step e) := by
  cases e with
  | pass first second =>
    have served : Changes (Event.pass first second).outside r (r.serviceBy first) :=
      h.serviceBy first
    exact ReflTransGen.trans served ((Changes.listed h.toListed served).sweepBy second)
  | _ => exact h.toListed.step rfl

/-- Every run is a chain of changes. -/
theorem Consistent.run (h : Consistent r) (events : List Event) :
    Changes (outsideOf events) r (r.run events) := by
  induction events generalizing r with
  | nil => exact .refl
  | cons e rest ih =>
    have first := h.step e
    have later := ih (Changes.consistent h first)
    refine ReflTransGen.trans (Changes.mono (fun id => ⟨?_, fun s brings => ?_⟩) first)
      (Changes.mono (fun id => ⟨?_, fun s => ?_⟩) later)
    · exact fun disturbs => ⟨e, List.mem_cons_self, disturbs⟩
    · exact ⟨e, List.mem_cons_self, brings⟩
    · exact fun ⟨other, member, disturbs⟩ => ⟨other, List.mem_cons_of_mem e member, disturbs⟩
    · exact fun ⟨other, member, brings⟩ => ⟨other, List.mem_cons_of_mem e member, brings⟩

end Relay
end PacketRelay