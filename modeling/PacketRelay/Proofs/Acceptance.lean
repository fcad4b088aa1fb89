import PacketRelay.Proofs.Delivery
import PacketRelay.Proofs.Happening

/-!
What a session accepts from its peer.

A session accepts payload as it handles a packet of its flow, and at no other time:
`Befalls.accepts` says so of what can become of it. So what it has accepted is told by the events of
its run: a stream accepts the segments with payload that it does not refuse, a session for datagrams
all of its flow.
-/

set_option autoImplicit false

namespace PacketRelay

open Session (Turn Classifier Verdict)

/-- The payload that an effect accepts, with the length of its packet. -/
def Effect.accepted? : Effect → Option (Bytes × Nat)
  | accept payload length => some (payload, length)
  | _ => none

/-- What has been accepted, in order. -/
def acceptances (effects : List Effect) : List (Bytes × Nat) :=
  effects.reverse.filterMap (·.accepted?)

section Effects

variable {new : List Effect}

theorem acceptances_append (new effects : List Effect) :
    acceptances (new ++ effects) = acceptances effects ++ acceptances new := by
  simp [acceptances]

private theorem acceptances_silent (silent : ∀ e ∈ new, e.payload? .egress = none) :
    acceptances new = [] := by
  refine List.filterMap_eq_nil_iff.2 fun e member => ?_
  have silent := silent e (List.mem_reverse.1 member)
  cases e with
  | accept => cases silent
  | _ => rfl

end Effects

namespace Session.Turn

variable {t u : Turn}

theorem acceptances_of_silent (silent : t.Silent u) :
    acceptances u.effects = acceptances t.effects := by
  obtain ⟨new, added, silent⟩ := silent
  rw [added, acceptances_append, acceptances_silent silent, List.append_nil]

section Silence

variable (classifier : Classifier) (now : Nat)

private theorem readAll_keeps (n : Nat) (t : Turn) :
    t.Keeps (readAll classifier true now n t).1 := by
  induction n generalizing t with
  | zero => exact (Bides.refl t).toKeeps
  | succ n ih =>
    cases opened : t.session.socket with
    | none =>
      simp only [readAll, opened]
      exact (Bides.refl t).toKeeps
    | some socket =>
      rcases r : socket.read with ⟨e | bytes, after⟩
      · have idle := (bides_withSocket (t := t) after).toKeeps
        cases e <;> simp only [readAll, opened, r] <;> first | exact idle | exact idle.trans (ih _)
      · have idle := (bides_withSocket (t := t) after).toKeeps
        simp only [readAll, opened, r]
        split
        · exact idle
        · exact (idle.trans (keeps_deliver bytes classifier now)).trans (ih _)

private theorem exchange_keeps (t : Turn) :
    ∃ v, (v = t ∨ v = t.flush.1) ∧ v.Keeps (t.exchange classifier true now).1 := by
  have flushed : ∃ v failure, (if 0 < t.state.outbound.size || t.state.dataReady then t.flush
      else (t, none)) = (v, failure) ∧ (v = t ∨ v = t.flush.1) := by
    split
    · exact ⟨_, _, rfl, .inr rfl⟩
    · exact ⟨_, _, rfl, .inl rfl⟩
  obtain ⟨v, failure, eq, first⟩ := flushed
  refine ⟨v, first, ?_⟩
  unfold exchange
  rw [eq]
  cases failure with
  | some e => exact (Bides.refl v).toKeeps
  | none =>
    simp only
    split
    · exact (Bides.refl v).toKeeps
    · exact readAll_keeps classifier now _ v

private theorem abort_leaves (t : Turn) : t.Leaves t.abort := by
  have reset : t.Leaves t.resetStream := by
    unfold resetStream
    split
    · exact bides_resetPeer.toKeeps.leaves
    · exact .refl t
  exact reset.trans bides_leave.toKeeps.leaves

/-- What is taken from the queue goes with one flush, which comes once the socket is connected. -/
def Flushes (t u : Turn) : Prop :=
  ∃ v w, (v = t ∨ t.state.connected = false ∧ t.Leaves v) ∧ (w = v ∨ w = v.flush.1) ∧ w.Leaves u

private theorem Leaves.flushes {t u : Turn} (leaves : t.Leaves u) : t.Flushes u :=
  ⟨t, t, .inl rfl, .inl rfl, leaves⟩

private theorem Flushes.leaves {t u v : Turn} (flushes : t.Flushes u)
    (leaves : u.Leaves v) : t.Flushes v := by
  obtain ⟨first, second, connects, flushed, before⟩ := flushes
  exact ⟨first, second, connects, flushed, before.trans leaves⟩

private theorem pump_flushes (t : Turn) : t.Flushes (t.pump classifier true now).1 := by
  unfold pump
  split
  · exact (Leaves.refl t).flushes
  · split
    case isTrue =>
      obtain ⟨w, flushed, keeps⟩ := t.exchange_keeps classifier now
      exact ⟨t, w, .inl rfl, flushed, keeps.leaves⟩
    case isFalse pending =>
      have pending : t.state.connected = false := by simpa using pending
      split
      case h_1 | h_2 => exact (bides_withSocket _).toKeeps.leaves.flushes
      -- A socket that turns out to be connected is served at once.
      case h_3 after checked =>
        have connects : t.Leaves ((t.withSocket after).update fun s => s.setConnected true) :=
          ⟨.none rfl, .none rfl, rfl, fun none => (by cases none), id⟩
        obtain ⟨w, flushed, keeps⟩ := exchange_keeps classifier now
          ((t.withSocket after).update fun s => s.setConnected true)
        exact ⟨_, w, .inr ⟨pending, connects⟩, flushed, keeps.leaves⟩

theorem serve_flushes (t : Turn) : t.Flushes (t.serve classifier now) := by
  have pumped := t.pump_flushes classifier now
  unfold serve
  split
  · exact t.abort_leaves.flushes
  · rcases eq : t.pump classifier true now with ⟨u, _ | _ | _ | _⟩ <;> rw [eq] at pumped
    · exact pumped
    · exact pumped.leaves leaves_remoteClose
    · exact pumped.leaves u.abort_leaves
    · exact pumped

theorem serve_silent (t : Turn) : t.Silent (t.serve classifier now) := by
  obtain ⟨v, w, before, flushed, leaves⟩ := t.serve_flushes classifier now
  have first : t.Silent v := by
    rcases before with rfl | ⟨-, before⟩
    · exact .none rfl
    · exact before.silent
  have second : v.Silent w := by
    rcases flushed with rfl | rfl
    · exact .none rfl
    · exact silent_flush
  exact (first.trans second).trans leaves.silent

private theorem conclude_silent (t : Turn) (verdict : Verdict) :
    t.Silent (t.conclude now verdict) := by
  cases verdict with
  | close =>
    have cancelled : t.Silent (t.emit (.cancel t.session.key)) := .one rfl rfl
    have flushed : t.Silent (if t.state.connected && 0 < t.state.outbound.size then
        (t.emit (.cancel t.session.key)).flush.1 else t.emit (.cancel t.session.key)) := by
      split
      · exact cancelled.trans silent_flush
      · exact cancelled
    exact flushed.trans bides_leave.toKeeps.leaves.silent
  | stay refresh =>
    have told : t.Silent (t.tell refresh) := by
      cases refresh with
      | false => exact .none rfl
      | true => exact .one rfl rfl
    simp only [conclude]
    split
    · exact told
    · exact told.trans (.none rfl)

end Silence

/-- The payload that a stream accepts from a segment, with the length of its packet. -/
def acceptance (t : Turn) (s : Inbound.Segment) : List (Bytes × Nat) :=
  if s.tcp.isSyn = false ∧ s.tcp.isAck = true ∧ t.state.acceptsData s.tcp.seq = true ∧ s.payload ≠ []
  then [(s.payload, s.ip.totalLength)] else []

private theorem acceptances_receiveAck (t : Turn) (s : Inbound.Segment) (classifier : Classifier)
    (now : Nat) : acceptances (t.receiveAck s classifier now).1.effects = acceptances t.effects ++
      if t.state.acceptsData s.tcp.seq = true ∧ s.payload ≠ [] then
        [(s.payload, s.ip.totalLength)] else [] := by
  obtain ⟨bare, bides⟩ | ⟨payload, accepts, bides, -⟩ | ⟨-, refuses, bides⟩ :=
    t.receiveAck_cases s classifier now
  · rw [acceptances_of_silent bides.toKeeps.leaves.silent, if_neg fun both => both.2 bare, List.append_nil]
    exact acceptances_of_silent (leaves_takeAck s now).silent
  · rw [acceptances_of_silent bides.toKeeps.leaves.silent, if_pos ⟨accepts, payload⟩]
    exact acceptances_append [_] t.effects
  · rw [acceptances_of_silent bides.toKeeps.leaves.silent, if_neg fun both => (by
      rw [refuses] at both
      exact Bool.false_ne_true both.1), List.append_nil]
    rfl

private theorem acceptances_handle (t : Turn) (s : Inbound.Segment) (classifier : Classifier)
    (now : Nat) : acceptances (t.handle classifier now (.segment s)).effects =
      acceptances t.effects ++ t.acceptance s := by
  have unmoved : ∀ u : Turn, t.Silent u → ¬ (s.tcp.isSyn = false ∧ s.tcp.isAck = true) →
      acceptances u.effects = acceptances t.effects ++ t.acceptance s := by
    intro u silent deaf
    unfold acceptance
    rw [acceptances_of_silent silent, if_neg fun all => deaf ⟨all.1, all.2.1⟩, List.append_nil]
  simp only [handle]
  split
  case isTrue isSyn =>
    exact unmoved _ bides_resendAck.toKeeps.leaves.silent fun both => by
      rw [isSyn] at both
      cases both.1
  case isFalse notSyn =>
    split
    case isTrue isAck =>
      have notSyn : s.tcp.isSyn = false := by simpa using notSyn
      unfold hear acceptance
      rw [acceptances_of_silent (conclude_silent now _ _), acceptances_receiveAck]
      simp only [notSyn, isAck, true_and]
    case isFalse notAck =>
      have deaf : ¬ (s.tcp.isSyn = false ∧ s.tcp.isAck = true) := fun both => notAck both.2
      split
      · exact unmoved _ (.none rfl) deaf
      · split
        · exact unmoved _ (.none rfl) deaf
        · exact unmoved _ (.none rfl) deaf

theorem acceptances_takeDatagram (t : Turn) (d : Inbound.Datagram) (opened : Bool)
    (classifier : Classifier) : acceptances (t.takeDatagram d opened classifier).effects =
      acceptances t.effects ++ [(d.payload, d.ip.totalLength)] := by
  have queued : acceptances (t.queueDatagram d opened).effects =
      acceptances t.effects ++ [(d.payload, d.ip.totalLength)] := acceptances_append [_] _
  rw [takeDatagram_eq, ← queued]
  exact acceptances_of_silent (bides_classify classifier .egress d.payload).toKeeps.leaves.silent

theorem acceptances_handle_datagram (t : Turn) (d : Inbound.Datagram) (classifier : Classifier)
    (now : Nat) : acceptances (t.handle classifier now (.datagram d)).effects =
      acceptances t.effects ++ [(d.payload, d.ip.totalLength)] := by
  have told : (t.takeDatagram d false classifier).Silent (t.handle classifier now (.datagram d)) :=
    .one (e := .refresh d.key) rfl rfl
  rw [acceptances_of_silent told, acceptances_takeDatagram]

theorem acceptances_started (settings : Relay.Settings) (d : Inbound.Datagram)
    (prospect : Socket.Prospect) (number now : Nat) :
    acceptances (started settings d prospect number now).effects =
      [(d.payload, d.ip.totalLength)] := by
  have told : (Turn.takeDatagram _ d true settings.egressClassifier).Silent
      (started settings d prospect number now) :=
    .trans (.one (e := .register d.key) rfl rfl) (.one (e := .refresh d.key) rfl rfl)
  rw [acceptances_of_silent told, acceptances_takeDatagram]
  rfl

end Session.Turn

namespace Relay

variable {r : Relay} {id : SessionId} {t u : Turn} {e : Event}

/-- The segment whose payload a stream accepts. -/
def acceptedSegment (id : SessionId) (r : Relay) (e : Event) : List Inbound.Segment :=
  if r.accepts id e = [] then [] else e.segment?.toList

/-- The datagram that a session handles, the one that opens it included. -/
def handledDatagram (id : SessionId) (r : Relay) (e : Event) : List Inbound.Datagram :=
  match e.inbound? with
  | some (.datagram d) => if (r.step e).lookup d.key = some id then [d] else []
  | _ => []

/-- A session handles a packet of its flow, or accepts nothing. -/
theorem Befalls.accepts (befalls : Befalls r id t e u) :
    (∃ packet, e.inbound? = some packet ∧ packet.Read ∧ packet.key? = some t.session.key ∧
      t.session.socket.isSome = true ∧ u = t.handle r.settings.egressClassifier r.now packet) ∨
    t.Silent u ∧ (t.session.socket.isSome = true → ∀ packet, e.inbound? = some packet →
      packet.key? ≠ some t.session.key) := by
  cases befalls with
  | handled brings read own opened => exact .inl ⟨_, brings, read, own, opened, rfl⟩
  | served => exact .inr ⟨Turn.serve_silent _ _ t, fun _ _ none => by cases none⟩
  | evicted =>
    exact .inr ⟨(Turn.serve_silent _ _ t).trans Turn.bides_leave.toKeeps.leaves.silent,
      fun _ _ none => by cases none⟩
  | met => exact .inr ⟨.none rfl, fun _ _ none => by cases none⟩
  | nothing apart => exact .inr ⟨.none rfl, fun opened => (apart opened).2⟩

section Told

private theorem acceptedSegment_nil (h : Consistent r)
    (unreached : ∀ t s, r.history id = some t → ¬ Reaches e t s) : acceptedSegment id r e = [] :=
  if_pos (h.accepts_unreached unreached)

theorem Consistent.acceptedSegment_unborn (h : Consistent r) (unborn : (r.step e).history id = none) :
    acceptedSegment id r e = [] := by
  refine acceptedSegment_nil h fun t s known => ?_
  obtain ⟨u, later, -⟩ := h.befalls e known
  rw [unborn] at later
  cases later

private theorem Consistent.acceptedSegment_handled (h : Consistent r)
    (known : r.history id = some t) (opened : t.session.socket.isSome = true) {s : Inbound.Segment}
    (brings : e.segment? = some s)
    (own : s.key = t.session.key) :
    (acceptedSegment id r e).map (fun s => (s.payload, s.ip.totalLength)) = t.acceptance s := by
  by_cases heard : s.tcp.isSyn = false ∧ s.tcp.isAck = true
  · have accepts := h.accepts_reached known ⟨brings, own, heard.2, heard.1, opened⟩
    unfold acceptedSegment Turn.acceptance
    rw [accepts, brings]
    by_cases empty : s.payload = []
    · rw [empty, ite_self, if_pos rfl, if_neg fun all => all.2.2.2 rfl]
      rfl
    · by_cases accepted : t.state.acceptsData s.tcp.seq = true
      · rw [if_pos accepted, if_neg empty, if_pos ⟨heard.1, heard.2, accepted, empty⟩]
        rfl
      · rw [if_neg accepted, if_pos rfl, if_neg fun all => accepted all.2.2.1]
        rfl
  · rw [acceptedSegment_nil h fun v other there reaches => ?_]
    · unfold Turn.acceptance
      rw [if_neg fun all => heard ⟨all.1, all.2.1⟩]
      rfl
    · obtain rfl : s = other := Option.some.inj (brings.symm.trans reaches.brings)
      exact heard ⟨reaches.notSyn, reaches.isAck⟩

/-- What a stream has accepted came in the segments whose payload it accepted. -/
theorem run_acceptedSegments (settings : Settings) (now coreWorkers maxWorkers : Nat)
    (events : List Event)
    (known : ((start settings now coreWorkers maxWorkers).run events).history id = some u)
    (stream : u.session.key.protocol = .tcp) :
    acceptances u.effects =
      (collect (acceptedSegment id) (start settings now coreWorkers maxWorkers) events).map
        fun s => (s.payload, s.ip.totalLength) := by
  refine run_told settings now coreWorkers maxWorkers
    (P := fun u (told : List Inbound.Segment) =>
      acceptances u.effects = told.map fun s => (s.payload, s.ip.totalLength))
    (fun _ _ h unborn => h.acceptedSegment_unborn unborn) ?opens ?befalls events
    (throughout_of_forall (fun _ _ => trivial) _ events) known stream
  case opens =>
    intro r e u h _ later stream opens
    obtain ⟨s, isn, prospect, connected, brings, isSyn, fresh, rfl⟩ := opens.syn stream
    rw [acceptedSegment_nil h fun t other known reaches => ?_]
    · rfl
    · obtain rfl : s = other := Option.some.inj (brings.symm.trans reaches.brings)
      rw [reaches.notSyn] at isSyn
      cases isSyn
  case befalls =>
    intro r e t u told h traced _ known later stream befalls before
    rw [List.map_append, ← before]
    obtain ⟨packet, brings, -, own, opened, rfl⟩ | ⟨silent, apart⟩ := befalls.accepts
    · obtain ⟨s, rfl, mine⟩ := Inbound.exists_segment own stream
      rw [Session.Turn.acceptances_handle,
        h.acceptedSegment_handled known opened (Event.segment?_eq.2 brings) mine]
    · rw [Turn.acceptances_of_silent silent, acceptedSegment_nil h fun v s there reaches => ?_]
      · exact (List.append_nil _).symm
      · obtain rfl : t = v := Option.some.inj (known.symm.trans there)
        exact apart reaches.opened _ (Event.segment?_eq.1 reaches.brings) (congrArg some reaches.own)

private theorem Consistent.handledDatagram_nil (h : Consistent r)
    (apart : ∀ d u, e.inbound? = some (.datagram d) → (r.step e).history id = some u →
      u.session.socket.isSome = true → u.session.key ≠ d.key) : handledDatagram id r e = [] := by
  unfold handledDatagram
  split
  case h_1 d brings =>
    refine if_neg fun found => ?_
    obtain ⟨u, later, own, opened⟩ := h.found_step found
    exact apart d u brings later opened own
  case h_2 => rfl

theorem Consistent.handledDatagram_unborn (h : Consistent r) (unborn : (r.step e).history id = none) :
    handledDatagram id r e = [] := by
  refine h.handledDatagram_nil fun d u _ later => ?_
  rw [unborn] at later
  cases later

private theorem Consistent.handledDatagram_found (h : Consistent r) {d : Inbound.Datagram}
    (brings : e.inbound? = some (.datagram d)) (later : (r.step e).history id = some u)
    (opened : u.session.socket.isSome = true) (own : u.session.key = d.key) :
    handledDatagram id r e = [d] := by
  unfold handledDatagram
  rw [brings]
  exact if_pos (own ▸ h.lookup_step later opened)

/-- What a session for datagrams has accepted are the datagrams that it handled. -/
theorem run_handledDatagrams (settings : Settings) (now coreWorkers maxWorkers : Nat)
    (events : List Event)
    (known : ((start settings now coreWorkers maxWorkers).run events).history id = some u)
    (datagrams : u.session.key.protocol = .udp) :
    acceptances u.effects =
      (collect (handledDatagram id) (start settings now coreWorkers maxWorkers) events).map
        fun d => (d.payload, d.ip.totalLength) := by
  refine run_told settings now coreWorkers maxWorkers
    (P := fun u (told : List Inbound.Datagram) =>
      acceptances u.effects = told.map fun d => (d.payload, d.ip.totalLength))
    (fun _ _ h unborn => h.handledDatagram_unborn unborn) ?opens ?befalls events
    (throughout_of_forall (fun _ _ => trivial) _ events) known datagrams
  case opens =>
    intro r e u h _ later datagrams opens
    obtain ⟨d, prospect, brings, read, -, rfl⟩ := opens.datagram datagrams
    have begun : Turn.Opened r.settings (.started r.settings d prospect r.socketCount r.now) :=
      .datagram d read prospect r.socketCount r.now _ rfl
    rw [h.handledDatagram_found brings later (socket_opened begun) (Turn.key_started ..)]
    exact Turn.acceptances_started ..
  case befalls =>
    intro r e t u told h traced _ known later datagrams befalls before
    have own_key := h.key_step known later
    rw [List.map_append, ← before]
    obtain ⟨packet, brings, -, own, opened, rfl⟩ | ⟨silent, apart⟩ := befalls.accepts
    · obtain ⟨d, rfl, mine⟩ := Inbound.exists_datagram own datagrams
      have stays : (t.handle r.settings.egressClassifier r.now (.datagram d)).session.socket.isSome =
          true := by
        show (t.takeDatagram d false _).session.socket.isSome = true
        rw [Turn.socket_takeDatagram, opened]
      rw [h.handledDatagram_found brings later stays (own_key.trans mine.symm)]
      exact Turn.acceptances_handle_datagram ..
    · rw [Turn.acceptances_of_silent silent, h.handledDatagram_nil fun d v brings also opened => ?_]
      · exact (List.append_nil _).symm
      · obtain rfl : u = v := Option.some.inj (later.symm.trans also)
        have before := Changes.opened h (h.step e) known later opened
        exact fun own => apart before _ brings (congrArg some (own.symm.trans own_key))

end Told
end Relay
end PacketRelay
