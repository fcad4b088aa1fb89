import PacketRelay.Proofs.Acceptance
import PacketRelay.Proofs.Addressing

/-!
The counters of a flow match its traffic.

What is accepted from the peer is counted with the packet that it came in, and what carries data to
the peer is counted as it is written: `Counted` says so of a session, and every move keeps it. A
receiver reads what was drafted, so the ingress counters are those of the packets in the tunnel.
-/

set_option autoImplicit false

namespace PacketRelay

open Session (Turn State Flow Classifier Direction)

/-- The data that a draft carries: the payload of a segment that has some, or a datagram. -/
def Draft.data? : Draft → Option Bytes
  | segment _ _ payload => if payload = [] then none else some payload
  | datagram _ _ payload => some payload
  | echo _ _ => none

/-- The drafts that carry data, latest first. -/
def carriers (effects : List Effect) : List Draft := (drafts effects).filter (·.data?.isSome)

/-- The data that has been carried to the peer, in order. -/
def carried (effects : List Effect) : Bytes :=
  ((drafts effects).reverse.filterMap (·.data?)).flatten

/-- The data that a packet carries, as its receiver reads it. -/
def Packet.data? (buffer : Bytes) : Option Bytes :=
  match Packet.parse buffer with
  | .ok packet =>
    let behind := buffer.drop (packet.ip.headerLength + packet.transport.headerLength)
    match packet.transport with
    | .tcp _ => if behind = [] then none else some behind
    | .udp _ => some behind
  | .error _ => none

theorem Draft.Legible.data?_toBytes {d : Draft} (legible : d.Legible) (identification : UInt16) :
    Packet.data? (d.toBytes identification) = d.data? := by
  have fits : (d.sealedIp identification).Fits := legible.bare.fits d.bodyLength identification
  have behind : ∀ n, (d.toBytes identification).drop
      ((d.sealedIp identification).headerLength + n) = (d.body identification).drop n := by
    intro n
    rw [← List.drop_drop, toBytes_eq, List.drop_left' (Ip.Header.length_write fits)]
  simp only [Packet.data?, legible.parse identification]
  cases d with
  | segment ip tcp payload =>
    have fits : (sealedTcp ((segment ip tcp payload).sealedIp identification) tcp payload).Fits :=
      fits_sealedTcp legible.2.2 payload
    have own : ((segment ip tcp payload).body identification).drop
        (sealedTcp ((segment ip tcp payload).sealedIp identification) tcp payload).headerLength =
        payload := List.drop_left' (Tcp.Header.length_write fits)
    simp only [toPacket?, Transport.headerLength, behind, own]
    rfl
  | datagram ip udp payload =>
    have own : ((datagram ip udp payload).body identification).drop Udp.Header.headerLength =
        payload := List.drop_left' (Udp.Header.length_write _)
    simp only [toPacket?, Transport.headerLength, behind, own]
    rfl
  | echo => rfl

/-- An effect that brings no payload of either direction, and carries none. -/
structure Effect.Uncounted (e : Effect) : Prop where
  payload : ∀ direction, e.payload? direction = none
  data : ∀ d, e.draft? = some d → d.data? = none

section Effects

variable {new : List Effect}

private theorem carriers_append (new effects : List Effect) :
    carriers (new ++ effects) = carriers new ++ carriers effects := by
  simp [carriers]

private theorem carried_append (new effects : List Effect) :
    carried (new ++ effects) = carried effects ++ carried new := by
  simp [carried]

private theorem data_uncounted
    (uncounted : ∀ e ∈ new, e.Uncounted) : ∀ d ∈ drafts new, d.data? = none := by
  intro d member
  obtain ⟨e, inside, same⟩ := List.mem_filterMap.1 member
  exact (uncounted e inside).data d same

private theorem carriers_uncounted (uncounted : ∀ e ∈ new, e.Uncounted) : carriers new = [] :=
  List.filter_eq_nil_iff.2 fun d member => by
    rw [data_uncounted uncounted d member]
    exact Bool.false_ne_true

private theorem carried_uncounted (uncounted : ∀ e ∈ new, e.Uncounted) : carried new = [] := by
  unfold carried
  have : (drafts new).reverse.filterMap (·.data?) = [] :=
    List.filterMap_eq_nil_iff.2 fun d member =>
      data_uncounted uncounted d (List.mem_reverse.1 member)
  rw [this, List.flatten_nil]

private theorem Effect.Uncounted.of_unwritten {e : Effect}
    (silent : ∀ direction, e.payload? direction = none) (unwritten : e.draft? = none) :
    e.Uncounted where
  payload := silent
  data d written := by
    rw [unwritten] at written
    cases written

theorem uncounted_write {purpose : Purpose} {draft : Draft} (empty : draft.data? = none) :
    Effect.Uncounted (.write purpose draft) where
  payload direction := by cases direction <;> rfl
  data d same := by
    obtain rfl := Option.some.inj same
    exact empty

end Effects

theorem Draft.data?_reset (ip : Ip.Header) (tcp : Tcp.Header) (n : Nat) :
    (Draft.reset ip tcp n).data? = none := by
  unfold Draft.reset
  simp only
  split <;> rfl

/-- The counters of a flow. -/
def Session.Flow.counts (f : Flow) : Nat × Nat × Nat × Nat :=
  (f.egressPackets, f.egressBytes, f.ingressPackets, f.ingressBytes)

namespace Session.Turn

variable {settings : Relay.Settings} {outside : Outside} {t u v : Turn} {s : Inbound.Segment}
  {packets bytes : Nat} {owed rest : Bytes}

/-- What is added is not counted, and the counters stay. -/
structure Uncounted (t u : Turn) : Prop where
  effects : Adds Effect.Uncounted t u
  counts : u.state.flow.counts = t.state.flow.counts

/-- The egress counters tell of what was accepted, on top of given numbers, and the ingress counters
of what carried data, which is what was delivered except for what is still owed. -/
structure Counted (packets bytes : Nat) (owed : Bytes) (t : Turn) : Prop where
  egressPackets : t.state.flow.egressPackets = packets + (acceptances t.effects).length
  egressBytes : t.state.flow.egressBytes = bytes + ((acceptances t.effects).map (·.2)).sum
  ingressPackets : t.state.flow.ingressPackets = (carriers t.effects).length
  ingressBytes : t.state.flow.ingressBytes = ((carriers t.effects).map (·.length)).sum
  whole : carried t.effects ++ owed = received t.effects

private theorem Uncounted.refl (t : Turn) : t.Uncounted t := ⟨.none rfl, rfl⟩

private theorem Uncounted.trans (first : t.Uncounted u) (second : u.Uncounted v) : t.Uncounted v :=
  ⟨first.effects.trans second.effects, second.counts.trans first.counts⟩

private theorem Uncounted.silent (uncounted : t.Uncounted u) : t.Silent u :=
  uncounted.effects.imp fun _ uncounted => uncounted.payload .egress

private theorem Counted.uncounted (h : Counted packets bytes owed t) (uncounted : t.Uncounted u) :
    Counted packets bytes owed u := by
  have accepted := acceptances_of_silent uncounted.silent
  have counts := uncounted.counts
  obtain ⟨new, added, none_new⟩ := uncounted.effects
  have same : carriers u.effects = carriers t.effects := by
    rw [added, carriers_append, carriers_uncounted none_new, List.nil_append]
  simp only [Flow.counts, Prod.mk.injEq] at counts
  obtain ⟨egressPackets, egressBytes, ingressPackets, ingressBytes⟩ := counts
  refine ⟨?_, ?_, ?_, ?_, ?_⟩
  · rw [egressPackets, accepted, h.egressPackets]
  · rw [egressBytes, accepted, h.egressBytes]
  · rw [ingressPackets, same, h.ingressPackets]
  · rw [ingressBytes, same, h.ingressBytes]
  · rw [added, carried_append, carried_uncounted none_new, received_append,
      received_silent fun e member => (none_new e member).payload .ingress, List.append_nil,
      List.append_nil, h.whole]

section Moves

private theorem uncounted_emit {e : Effect} (uncounted : e.Uncounted) : t.Uncounted (t.emit e) :=
  ⟨.one rfl uncounted, rfl⟩

theorem uncounted_classify (classifier : Classifier) (direction : Direction) (payload : Bytes) :
    t.Uncounted (t.classify classifier direction payload) := by
  refine ⟨(t.adds_classify classifier direction payload).imp fun e ⟨flow, same⟩ => ?_, ?_⟩
  · subst same
    exact .of_unwritten (silent_flowUpdated flow) rfl
  · by_cases again : payload = [] ∨ t.state.classified direction = true
    · rw [classify_again t classifier again]
    · obtain ⟨some_payload, fresh⟩ := not_or.1 again
      rw [classify_first t classifier some_payload (by simpa using fresh)]
      cases classifier payload <;> cases direction <;> rfl

private theorem uncounted_endStream (next : UInt32) : t.Uncounted (t.endStream next) := by
  unfold endStream sendFin
  split
  · exact ⟨.none rfl, rfl⟩
  · exact ⟨.one rfl (uncounted_write rfl), rfl⟩

private theorem uncounted_takeAck (s : Inbound.Segment) (now : Nat) :
    t.Uncounted (t.takeAck s now) := by
  have noted : t.Uncounted (t.noteAck s now) := by
    obtain ⟨_, _, _, _, _, frame⟩ := t.noteAck_frame now s
    refine ⟨.none rfl, ?_⟩
    unfold state
    rw [frame]
    rfl
  rw [takeAck_eq]
  split
  · exact noted.trans (uncounted_endStream _)
  · exact noted

private theorem uncounted_remoteClose : t.Uncounted t.remoteClose := by
  rw [remoteClose_eq]
  split
  · exact ⟨.none rfl, rfl⟩
  · exact uncounted_endStream _

private theorem uncounted_takePush (s : Inbound.Segment) (now : Nat) :
    t.Uncounted (t.takePush s now) := by
  rw [takePush_eq]
  split <;> exact ⟨.none rfl, rfl⟩

private theorem uncounted_takeEnd (s : Inbound.Segment) (inOrder : Bool) :
    t.Uncounted (t.takeEnd s inOrder) := by
  unfold takeEnd
  split
  · split
    · exact uncounted_emit (uncounted_write rfl)
    · exact .refl t
  · split <;> exact ⟨.none rfl, rfl⟩

private theorem uncounted_resendAck : t.Uncounted t.resendAck := by
  unfold resendAck
  split
  · exact .refl t
  · exact uncounted_emit (uncounted_write rfl)

private theorem uncounted_resetPeer : t.Uncounted t.resetPeer := by
  unfold resetPeer
  split
  · exact .refl t
  · exact uncounted_emit (uncounted_write (Draft.data?_reset _ _ 0))

private theorem uncounted_flush : t.Uncounted t.flush.1 := by
  refine ⟨t.adds_flush.imp fun e ⟨socket, bytes, same⟩ => ?_, ?_⟩
  · subst same
    exact .of_unwritten (Effect.plain_send socket bytes).payload rfl
  · cases opened : t.session.socket with
    | none => rw [flush_none t opened]
    | some socket => rw [flush_some t opened rfl]; rfl

private theorem uncounted_leave : t.Uncounted t.report.shut := by
  have reported : t.Uncounted t.report :=
    uncounted_emit (.of_unwritten (silent_flowUpdated _) rfl)
  refine reported.trans ⟨t.report.adds_shut.imp fun e ⟨number, same⟩ => ?_, ?_⟩
  · subst same
    exact .of_unwritten (silent_shutdown number) rfl
  · unfold Turn.shut
    split <;> rfl

private theorem Counted.accept (h : Counted packets bytes owed t) {payload : Bytes} {length : Nat}
    (accepts : u.effects = .accept payload length :: t.effects)
    (counts : u.state.flow = t.state.flow.record .egress length) : Counted packets bytes owed u := by
  have accepted : acceptances u.effects = acceptances t.effects ++ [(payload, length)] := by
    rw [accepts]
    exact acceptances_append [_] t.effects
  refine ⟨?_, ?_, ?_, ?_, ?_⟩
  · rw [accepted, List.length_append, ← Nat.add_assoc, ← h.egressPackets, counts]
    rfl
  · rw [accepted, List.map_append, List.sum_append, ← Nat.add_assoc, ← h.egressBytes, counts]
    rfl
  · rw [counts, accepts]
    exact h.ingressPackets
  · rw [counts, accepts]
    exact h.ingressBytes
  · rw [accepts]
    exact h.whole.trans ((received_append [_] t.effects).trans (List.append_nil _)).symm

private theorem Counted.carry {data : Bytes} (h : Counted packets bytes (data ++ rest) t)
    {purpose : Purpose} {draft : Draft} (carries : draft.data? = some data)
    (writes : u.effects = .write purpose draft :: t.effects)
    (counts : u.state.flow = t.state.flow.record .ingress draft.length) :
    Counted packets bytes rest u := by
  have accepted : acceptances u.effects = acceptances t.effects := by
    rw [writes]
    exact (acceptances_append [_] t.effects).trans (List.append_nil _)
  have carriers : carriers u.effects = draft :: carriers t.effects := by
    rw [writes]
    unfold PacketRelay.carriers drafts
    rw [List.filterMap_cons_some (by rfl), List.filter_cons_of_pos (by rw [carries]; rfl)]
  have carried : carried u.effects = carried t.effects ++ data := by
    rw [writes]
    refine (carried_append [_] t.effects).trans (congrArg (carried t.effects ++ ·) ?_)
    simp [PacketRelay.carried, drafts, Effect.draft?, carries]
  refine ⟨?_, ?_, ?_, ?_, ?_⟩
  · rw [accepted, counts]
    exact h.egressPackets
  · rw [accepted, counts]
    exact h.egressBytes
  · rw [carriers, counts, List.length_cons, ← h.ingressPackets]
    rfl
  · rw [carriers, counts, List.map_cons, List.sum_cons, ← h.ingressBytes, Nat.add_comm]
    rfl
  · rw [carried, List.append_assoc, h.whole, writes]
    exact ((received_append [_] t.effects).trans (List.append_nil _)).symm

private theorem Counted.sendSegments (ip : Ip.Header) (tcp : Tcp.Header) (data : Bytes)
    (h : Counted packets bytes data t) : Counted packets bytes [] (t.sendSegments ip tcp data) := by
  fun_induction Turn.sendSegments t ip tcp data with
  | case1 t => exact h
  | case2 t first rest more ih =>
    have owed : Counted packets bytes (first :: rest.take more ++ rest.drop more) t := by
      rw [List.cons_append, List.take_append_drop]
      exact h
    refine ih (owed.carry ?_ rfl rfl)
    cases t.state.replyTimestamps <;> rfl

private theorem Counted.handOn {data : Bytes} (h : Counted packets bytes data t)
    (heard : t.state.lastKey? t.session.key.protocol = some t.session.key) :
    Counted packets bytes [] (t.handOn data) := by
  unfold Turn.handOn
  split
  case h_1 stream =>
    rw [stream] at heard
    obtain ⟨⟨ip, tcp⟩, last, -⟩ := Option.map_eq_some_iff.1 heard
    rw [last]
    exact h.sendSegments ip tcp data
  case h_2 datagrams =>
    rw [datagrams] at heard
    obtain ⟨⟨ip, udp⟩, last, -⟩ := Option.map_eq_some_iff.1 heard
    rw [last]
    have owed : Counted packets bytes (data ++ []) t := by
      rw [List.append_nil]
      exact h
    exact owed.carry rfl rfl rfl

private theorem Counted.receive (h : Counted packets bytes [] t) (data : Bytes) :
    Counted packets bytes data (t.emit (.receive data)) := by
  have accepted : acceptances (t.emit (.receive data)).effects = acceptances t.effects :=
    (acceptances_append [_] t.effects).trans (List.append_nil _)
  refine ⟨?_, ?_, h.ingressPackets, h.ingressBytes, ?_⟩
  · rw [accepted]
    exact h.egressPackets
  · rw [accepted]
    exact h.egressBytes
  · exact (congrArg (· ++ data) ((List.append_nil _).symm.trans h.whole)).trans
      (received_receive data t.effects).symm

private theorem Counted.deliver (h : Counted packets bytes [] t)
    (heard : t.state.lastKey? t.session.key.protocol = some t.session.key) (data : Bytes)
    (classifier : Classifier) (now : Nat) :
    Counted packets bytes [] (t.deliver data classifier true now) := by
  have classified := (h.receive data).uncounted (uncounted_classify classifier .ingress data)
  obtain ⟨key, last⟩ :=
    lastKey?_of_heads (heads_classify (t := t.emit (.receive data)) classifier .ingress data)
  have heard := last.trans (heard.trans (congrArg some key.symm))
  rw [deliver_eq, if_pos rfl]
  exact (classified.handOn heard).uncounted ⟨.none rfl, rfl⟩

end Moves

theorem Move.uncounted (move : Move settings outside t u) :
    t.Uncounted u ∨
    (∃ s now, u = t.takePayload s settings.egressClassifier now) ∨
    (∃ d, u = t.takeDatagram d false settings.egressClassifier) ∨
    ∃ data after now, u = (t.withSocket after).deliver data settings.ingressClassifier true now := by
  cases move with
  | takePayload s now => exact .inr (.inl ⟨s, now, rfl⟩)
  | takeDatagram d => exact .inr (.inr (.inl ⟨d, rfl⟩))
  | deliver data after now => exact .inr (.inr (.inr ⟨data, after, now, rfl⟩))
  | resendAck => exact .inl uncounted_resendAck
  | refusePayload => exact .inl (uncounted_emit (uncounted_write rfl))
  | takeAck s now => exact .inl (uncounted_takeAck s now)
  | takePush s now => exact .inl (uncounted_takePush s now)
  | takeEnd s inOrder => exact .inl (uncounted_takeEnd s inOrder)
  | cancel => exact .inl (uncounted_emit (.of_unwritten (Effect.plain_cancel _).payload rfl))
  | refresh => exact .inl (uncounted_emit (.of_unwritten (Effect.plain_refresh _).payload rfl))
  | flush => exact .inl uncounted_flush
  | remoteClose after =>
    have same : t.Uncounted (t.withSocket after) := ⟨.none rfl, rfl⟩
    exact .inl (same.trans uncounted_remoteClose)
  | resetPeer => exact .inl uncounted_resetPeer
  | leave => exact .inl uncounted_leave
  | remember | touch | abandon | check | connect | readNothing | network =>
    exact .inl ⟨.none rfl, rfl⟩

/-- Every move counts what it accepts and what it carries. -/
private theorem Counted.move (h : Counted packets bytes [] t) (lives : Lives settings t)
    (move : Move settings outside t u) : Counted packets bytes [] u := by
  obtain uncounted | ⟨s, now, rfl⟩ | ⟨d, rfl⟩ | ⟨data, after, now, rfl⟩ := move.uncounted
  · exact h.uncounted uncounted
  · have queued : Counted packets bytes [] (t.queue s) := h.accept rfl rfl
    have classified := queued.uncounted (uncounted_classify settings.egressClassifier .egress s.payload)
    rw [takePayload_eq]
    exact classified.uncounted ⟨.one rfl (uncounted_write rfl), rfl⟩
  · have queued : Counted packets bytes [] (t.queueDatagram d false) := h.accept rfl rfl
    rw [takeDatagram_eq]
    exact (queued.uncounted (uncounted_classify settings.egressClassifier .egress d.payload)).uncounted
      ⟨.none rfl, rfl⟩
  · have same : Counted packets bytes [] (t.withSocket after) := h.uncounted ⟨.none rfl, rfl⟩
    exact same.deliver lives.lastKey? data _ now

private theorem Counted.moves (h : Counted packets bytes [] t) (lives : Lives settings t)
    (moves : Moves settings outside t u) : Counted packets bytes [] u := by
  induction moves with
  | refl => exact h
  | tail before move ih => exact ih.move (lives.moves before) move

private theorem counted_begun (settings : Relay.Settings) (s : Inbound.Segment) (isn : UInt32)
    (prospect : Socket.Prospect) (number : Nat) (connected : Bool) (now : Nat) :
    Counted 1 s.ip.totalLength [] (begun settings s isn prospect number connected now) := by
  -- The SYN of a stream carries no payload that would be accepted.
  have counts : (begun settings s isn prospect number connected now).state.flow.counts =
      (1, s.ip.totalLength, 0, 0) := by
    simp [begun, Relay.newSession, state, Session.update, Flow.counts, State.record, Flow.record,
      State.setConnected, State.new, Flow.new, State.begin, State.rememberTcp, State.stampTimestamps,
      State.setMaxSegmentSize]
  simp only [Flow.counts, Prod.mk.injEq] at counts
  exact ⟨counts.1, counts.2.1, counts.2.2.1, counts.2.2.2, rfl⟩

private theorem counted_started (settings : Relay.Settings) (d : Inbound.Datagram)
    (prospect : Socket.Prospect) (number now : Nat) :
    Counted 0 0 [] (started settings d prospect number now) := by
  have queued : ∀ flow, Counted 0 0 [] ((Turn.mk (Relay.newSession d.key
      (prospect.begun number false true) true d.ip.totalLength now)
      [.flowCreated flow]).queueDatagram d true) := by
    intro flow
    have counts : (Turn.mk (Relay.newSession d.key (prospect.begun number false true) true
        d.ip.totalLength now) [.flowCreated flow]).state.flow.counts =
        (1, d.ip.totalLength, 0, 0) := by
      simp [Relay.newSession, state, Flow.counts, State.record, Flow.record, State.setConnected,
        State.new, Flow.new]
    simp only [Flow.counts, Prod.mk.injEq] at counts
    exact ⟨counts.1, counts.2.1.trans (Nat.zero_add _).symm, counts.2.2.1, counts.2.2.2, rfl⟩
  unfold started
  simp only
  rw [takeDatagram_eq]
  have registered := Effect.Uncounted.of_unwritten (Effect.plain_register d.key).payload rfl
  have refreshed := Effect.Uncounted.of_unwritten (Effect.plain_refresh d.key).payload rfl
  exact ((queued _).uncounted (uncounted_classify settings.egressClassifier .egress d.payload)).uncounted
    ⟨.trans (.one rfl registered) (.one rfl refreshed), rfl⟩

private theorem Lives.counted_datagrams (lives : Lives settings t)
    (datagrams : t.session.key.protocol = .udp) : Counted 0 0 [] t := by
  refine lives.induction (P := fun t => t.session.key.protocol = .udp → Counted 0 0 [] t)
    (fun t opened datagrams => ?_) (fun t u lives counted move datagrams => ?_) datagrams
  · cases opened with
    | stream => cases datagrams
    | datagram d read prospect number now session fresh =>
      subst fresh
      exact counted_started settings d prospect number now
  · exact (counted (by rw [← move.key, datagrams])).move lives move

end Session.Turn

namespace Relay

variable {r : Relay} {id : SessionId} {t u : Turn} {e : Event}

/-- The SYN that opens a stream. -/
def openingSyn (id : SessionId) (r : Relay) (e : Event) : List Inbound.Segment :=
  match e.segment? with
  | some s => if r.lookup s.key = none ∧ (r.step e).lookup s.key = some id then [s] else []
  | none => []

section Told

private theorem Consistent.openingSyn_nil (h : Consistent r) (known : r.history id = some t) :
    openingSyn id r e = [] := by
  unfold openingSyn
  split
  case h_1 s brings =>
    refine if_neg fun ⟨fresh, found⟩ => ?_
    obtain ⟨u, later, own, opened⟩ := h.found_step found
    have listed := h.listed id t known (Changes.opened h (h.step e) known later opened)
    rw [← h.key_step known later, own, fresh] at listed
    cases listed
  case h_2 => rfl

theorem run_begun (settings : Settings) (now coreWorkers maxWorkers : Nat) (events : List Event)
    (known : ((start settings now coreWorkers maxWorkers).run events).history id = some u)
    (stream : u.session.key.protocol = .tcp) :
    ∃ syn, collect (openingSyn id) (start settings now coreWorkers maxWorkers) events = [syn] ∧
      syn.tcp.isSyn = true ∧ ∃ first, Turn.Opened settings first ∧
        (∃ isn prospect number connected now,
          first = .begun settings syn isn prospect number connected now) ∧
        Turn.Moves settings .anything first u := by
  have always := (consistent_start settings now coreWorkers maxWorkers).throughout_settings events
  refine run_told settings now coreWorkers maxWorkers
    (P := fun u (told : List Inbound.Segment) =>
      ∃ syn, told = [syn] ∧ syn.tcp.isSyn = true ∧ ∃ first, Turn.Opened settings first ∧
        (∃ isn prospect number connected now,
          first = .begun settings syn isn prospect number connected now) ∧
        Turn.Moves settings .anything first u)
    ?silent ?opens ?befalls events always known stream
  case silent =>
    intro r e h unborn
    unfold openingSyn
    split
    case h_1 s brings =>
      refine if_neg fun ⟨_, found⟩ => ?_
      obtain ⟨u, later, -⟩ := h.found_step found
      rw [unborn] at later
      cases later
    case h_2 => rfl
  case opens =>
    intro r e u h same later stream opens
    obtain ⟨s, isn, prospect, connected, brings, isSyn, fresh, rfl⟩ := opens.syn stream
    have found : (r.step e).lookup s.key = some id := h.lookup_step later rfl
    obtain ⟨buffer, _, _, _, parsed⟩ := Event.segment?_eq_some brings
    have same : r.settings = settings := same
    rw [same]
    refine ⟨s, ?_, isSyn, _, .stream s ⟨buffer, parsed⟩ isSyn isn prospect _ connected _,
      ⟨isn, prospect, _, connected, _, rfl⟩, .refl⟩
    unfold openingSyn
    rw [brings]
    exact if_pos ⟨fresh, found⟩
  case befalls =>
    intro r e t u told h traced same known later _ _ before
    obtain ⟨v, there, moves⟩ := Changes.history (h.step e) known
    obtain rfl : u = v := Option.some.inj (later.symm.trans there)
    have same : r.settings = settings := same
    obtain ⟨syn, rfl, isSyn, first, opened, begun, before⟩ := before
    refine ⟨syn, ?_, isSyn, first, opened, begun, ?_⟩
    · rw [h.openingSyn_nil known, List.append_nil]
    · rw [same] at moves
      exact before.trans (moves.mono (Outside.within_anything _))

private theorem run_opened (settings : Settings) (now coreWorkers maxWorkers : Nat)
    (events : List Event)
    (known : ((start settings now coreWorkers maxWorkers).run events).history id = some u)
    (stream : u.session.key.protocol = .tcp) :
    ∃ syn, collect (openingSyn id) (start settings now coreWorkers maxWorkers) events = [syn] ∧
      syn.tcp.isSyn = true ∧ u.Counted 1 syn.ip.totalLength [] := by
  obtain ⟨syn, told, isSyn, first, opened, ⟨isn, prospect, number, connected, _, rfl⟩, moves⟩ :=
    run_begun settings now coreWorkers maxWorkers events known stream
  exact ⟨syn, told, isSyn, (Session.Turn.counted_begun ..).moves opened.lives moves⟩

end Told

theorem filterMap_writtenBy {β : Type} {read : Bytes → Option β} {tell : Draft → Option β}
    (same : ∀ d ∈ drafts (r.effectsOf (some id)), ∀ identification,
      read (d.toBytes identification) = tell d) :
    (r.writtenBy id).filterMap read = (drafts (r.effectsOf (some id))).reverse.filterMap tell := by
  unfold writtenBy drafts effectsOf at *
  rw [← List.filterMap_reverse, List.filterMap_filterMap, List.filterMap_filterMap,
    ← List.map_reverse, List.filterMap_map]
  refine List.filterMap_congr fun entry member => ?_
  unfold Entry.packet?
  simp only [Function.comp_apply]
  cases effect : entry.effect with
  | write purpose d =>
    refine same d (List.mem_filterMap.2 ⟨entry.effect, ?_, ?_⟩) entry.identification
    · exact List.mem_map.2 ⟨entry, List.mem_reverse.1 member, rfl⟩
    · rw [effect]
      rfl
  | _ => rfl

theorem Traced.legible (traced : Traced r) (known : r.history id = some t) :
    ∀ d ∈ drafts t.effects, d.Legible ∧ d.key? = some t.session.key.back := by
  intro d member
  obtain ⟨purpose, inside⟩ := mem_drafts.1 member
  exact ((traced.lives id t known).replies _ inside purpose d rfl).addressed

/-- The counters of a flow match its traffic. Those of a stream tell of the SYN that opened it and
of the segments whose payload was accepted, those of a session for datagrams of the datagrams that
it handled, and of nothing else. The ingress counters tell of the packets that carried data to the
peer, and what these carried is what the socket has delivered. -/
theorem run_counts (settings : Settings) (now coreWorkers maxWorkers : Nat) (events : List Event)
    {id : SessionId} {session : Session}
    (at_id : ((start settings now coreWorkers maxWorkers).run events).sessions[id]? = some session) :
    let start := start settings now coreWorkers maxWorkers
    let r := start.run events
    let flow := session.state.flow
    let accepted := collect (acceptedSegment id) start events
    let handled := collect (handledDatagram id) start events
    let carrying := (r.writtenBy id).filter fun packet => (Packet.data? packet).isSome
    (session.key.protocol = .tcp → ∃ syn, collect (openingSyn id) start events = [syn] ∧
      syn.tcp.isSyn = true ∧ flow.egressPackets = 1 + accepted.length ∧
      flow.egressBytes = syn.ip.totalLength + (accepted.map (·.ip.totalLength)).sum) ∧
    (session.key.protocol = .udp → flow.egressPackets = handled.length ∧
      flow.egressBytes = (handled.map (·.ip.totalLength)).sum) ∧
    flow.ingressPackets = carrying.length ∧ flow.ingressBytes = (carrying.map List.length).sum ∧
    (carrying.filterMap Packet.data?).flatten = received (r.effectsOf (some id)) := by
  intro start r flow accepted handled carrying
  have traced : Traced r := traced_run settings now coreWorkers maxWorkers events
  have known : r.history id = some ⟨session, r.effectsOf (some id)⟩ := history_of_session at_id
  have read : (r.writtenBy id).filterMap Packet.data? =
      (drafts (r.effectsOf (some id))).reverse.filterMap (·.data?) :=
    filterMap_writtenBy fun d member identification =>
      (traced.legible known d member).1.data?_toBytes identification
  have lengths : carrying.map List.length =
      (carriers (r.effectsOf (some id))).reverse.map (·.length) := by
    simp only [carrying, carriers, ← List.filter_reverse, ← List.filterMap_eq_map',
      List.filterMap_filter]
    refine filterMap_writtenBy fun d member identification => ?_
    obtain ⟨legible, -⟩ := traced.legible known d member
    rw [legible.data?_toBytes, legible.length_toBytes]
  have ingress : ∀ {packets bytes : Nat},
      Turn.Counted packets bytes [] ⟨session, r.effectsOf (some id)⟩ →
      flow.ingressPackets = carrying.length ∧ flow.ingressBytes = (carrying.map List.length).sum ∧
        (carrying.filterMap Packet.data?).flatten = received (r.effectsOf (some id)) := by
    intro packets bytes counted
    refine ⟨?_, ?_, ?_⟩
    · have count := congrArg List.length lengths
      rw [List.length_map, List.length_map, List.length_reverse] at count
      exact counted.ingressPackets.trans count.symm
    · rw [lengths, List.map_reverse, List.sum_reverse]
      exact counted.ingressBytes
    · have all : carrying.filterMap Packet.data? = (r.writtenBy id).filterMap Packet.data? := by
        rw [List.filterMap_filter]
        refine List.filterMap_congr fun packet _ => ?_
        cases Packet.data? packet <;> rfl
      rw [all, read]
      exact (List.append_nil _).symm.trans counted.whole
  refine ⟨fun stream => ?streams, fun datagrams => ?datagrams, ?carried⟩
  case streams =>
    obtain ⟨syn, told, isSyn, counted⟩ :=
      run_opened settings now coreWorkers maxWorkers events known stream
    have taken := run_acceptedSegments settings now coreWorkers maxWorkers events known stream
    refine ⟨syn, told, isSyn, counted.egressPackets.trans ?_, counted.egressBytes.trans ?_⟩
    · rw [taken, List.length_map]
    · rw [taken, List.map_map]
      rfl
  case datagrams =>
    have counted := (traced.lives id _ known).counted_datagrams datagrams
    have taken := run_handledDatagrams settings now coreWorkers maxWorkers events known datagrams
    refine ⟨counted.egressPackets.trans ?_, counted.egressBytes.trans ?_⟩
    · rw [taken, List.length_map, Nat.zero_add]
    · rw [taken, List.map_map, Nat.zero_add]
      rfl
  case carried =>
    cases protocol : session.key.protocol with
    | tcp =>
      obtain ⟨syn, -, -, counted⟩ :=
        run_opened settings now coreWorkers maxWorkers events known protocol
      exact ingress counted
    | udp => exact ingress ((traced.lives id _ known).counted_datagrams protocol)

/-- The SYN that comes twice and the payload that comes twice are counted once, and the bare
acknowledgment is not; of the datagrams the empty ones are. -/
theorem run_counts_twice :
    let segment (flags : UInt8) (seq : UInt32) (payload : Bytes) : Event := .packet
      (sampleSegment flags seq 501 payload) 500 (.smooth [.data [1, 2, 3]])
    let datagram (payload : Bytes) : Event := .packet (sampleDatagram payload) 0
      (.smooth [.data [], .data [7]])
    let events := [segment 2 1000 [], segment 2 1000 [], segment 16 1001 [104, 105],
      segment 16 1001 [104, 105], segment 16 1003 [], datagram [1], datagram [],
      .pass (fun _ => 0) (fun _ => 0)]
    let start := start .plain 0 1 1
    let r := start.run events
    (collect (acceptedSegment 0) start events).map (·.ip.totalLength) = [42] ∧
    (collect (handledDatagram 1) start events).map (·.ip.totalLength) = [29, 28] ∧
    (∃ session, r.sessions[0]? = some session ∧ session.state.flow.egressPackets = 2 ∧
      session.state.flow.ingressBytes = 43) ∧
    ∃ session, r.sessions[1]? = some session ∧ session.state.flow.egressBytes = 57 ∧
      session.state.flow.ingressPackets = 2 := by
  intro segment datagram events start r
  have accepted : (collect (acceptedSegment 0) start events).map (·.ip.totalLength) = [42] := by
    decide +kernel
  have handled : (collect (handledDatagram 1) start events).map (·.ip.totalLength) = [29, 28] := by
    decide +kernel
  have carrying : ((r.writtenBy 0).filter fun packet => (Packet.data? packet).isSome).map
      List.length = [43] := by decide +kernel
  have answers : ((r.writtenBy 1).filter fun packet => (Packet.data? packet).isSome).length = 2 := by
    decide +kernel
  have opened : r.sessions.map (·.key.protocol) = [.tcp, .udp] := by decide +kernel
  refine ⟨accepted, handled, ?_, ?_⟩
  · have stream : r.sessions[0]?.map (·.key.protocol) = some .tcp := by
      rw [← List.getElem?_map, opened]
      rfl
    obtain ⟨session, at_id, stream⟩ := Option.map_eq_some_iff.1 stream
    obtain ⟨streams, -, -, bytes, -⟩ := run_counts .plain 0 1 1 events at_id
    obtain ⟨syn, -, -, packets, -⟩ := streams stream
    have count := congrArg List.length accepted
    rw [List.length_map] at count
    exact ⟨session, at_id, packets.trans (congrArg (1 + ·) count),
      bytes.trans (congrArg List.sum carrying)⟩
  · have datagrams : r.sessions[1]?.map (·.key.protocol) = some .udp := by
      rw [← List.getElem?_map, opened]
      rfl
    obtain ⟨session, at_id, datagrams⟩ := Option.map_eq_some_iff.1 datagrams
    obtain ⟨-, told, packets, -⟩ := run_counts .plain 0 1 1 events at_id
    exact ⟨session, at_id, (told datagrams).2.trans (congrArg List.sum handled),
      packets.trans answers⟩

end Relay
end PacketRelay
