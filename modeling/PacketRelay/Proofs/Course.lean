import PacketRelay.Proofs.Egress
import PacketRelay.Proofs.Ingress
import PacketRelay.Proofs.Moment

/-!
How a stream goes on.

Most moves of a stream leave alone what both of its directions depend on: the sequence numbers, the
flags of its end, and the payload that is queued. `Bides` says so, and `Course` lists the few moves
that do not.
-/

set_option autoImplicit false

namespace PacketRelay

open Session (Turn State Classifier Direction)

def Effect.isOwnFin : Effect → Bool
  | write .ownFin _ => true
  | _ => false

/-- Our FINs among effects, earliest first. -/
def ownFins (effects : List Effect) : List Sent := segments (effects.filter (·.isOwnFin))

/-- What has been accepted from the peer, in order. -/
def accepted (effects : List Effect) : Bytes :=
  (effects.reverse.filterMap (·.payload? .egress)).flatten

/-- An effect that accepts nothing from the peer, sends nothing to the socket, and is not our
FIN. -/
structure Effect.Idle (e : Effect) : Prop where
  payload : e.payload? .egress = none
  sent : e.sent? = none
  notFin : e.isOwnFin = false

section Effects

variable {new : List Effect}

private theorem ownFins_append (new effects : List Effect) :
    ownFins (new ++ effects) = ownFins effects ++ ownFins new := by
  unfold ownFins
  rw [List.filter_append, segments_append]

theorem accepted_append (new effects : List Effect) :
    accepted (new ++ effects) = accepted effects ++ accepted new := by
  simp [accepted]

private theorem ownFins_of_none (none_fin : ∀ e ∈ new, e.isOwnFin = false) : ownFins new = [] := by
  unfold ownFins
  rw [List.filter_eq_nil_iff.2 fun e member => by rw [none_fin e member]; exact Bool.false_ne_true]
  rfl

theorem accepted_of_none (silent : ∀ e ∈ new, e.payload? .egress = none) : accepted new = [] := by
  unfold accepted
  have : new.reverse.filterMap (·.payload? .egress) = [] :=
    List.filterMap_eq_nil_iff.2 fun e member => silent e (List.mem_reverse.1 member)
  rw [this, List.flatten_nil]

theorem relayed_of_none (unsent : ∀ e ∈ new, e.sent? = none) : relayed new = [] := by
  unfold relayed
  have : new.reverse.filterMap (·.sent?) = [] :=
    List.filterMap_eq_nil_iff.2 fun e member => unsent e (List.mem_reverse.1 member)
  rw [this, List.flatten_nil]

end Effects

namespace Session.Turn

variable {settings : Relay.Settings} {outside : Outside} {t u v : Turn} {s : Inbound.Segment}

/-- Nothing is accepted or handed on, and nothing is acknowledged on either side. -/
structure Keeps (t u : Turn) : Prop where
  effects : Adds Effect.Idle t u
  unacknowledged : u.state.sendUnacknowledged = t.state.sendUnacknowledged
  expected : u.state.recvNext = t.state.recvNext
  closing : u.state.closing = t.state.closing
  ackedToFin : u.state.ackedToFin = t.state.ackedToFin
  outbound : u.state.outbound = t.state.outbound
  connected : u.state.connected = false → t.state.connected = false
  ready : u.state.dataReady = false → t.state.dataReady = false

/-- Nor does anything go to the peer. -/
structure Bides (t u : Turn) : Prop extends Keeps t u where
  still : Adds Effect.Still t u
  next : u.state.sendNext = t.state.sendNext

theorem Keeps.trans (first : t.Keeps u) (second : u.Keeps v) : t.Keeps v where
  effects := first.effects.trans second.effects
  unacknowledged := second.unacknowledged.trans first.unacknowledged
  expected := second.expected.trans first.expected
  closing := second.closing.trans first.closing
  ackedToFin := second.ackedToFin.trans first.ackedToFin
  outbound := second.outbound.trans first.outbound
  connected := first.connected ∘ second.connected
  ready := first.ready ∘ second.ready

private theorem Bides.trans (first : t.Bides u) (second : u.Bides v) : t.Bides v where
  toKeeps := first.toKeeps.trans second.toKeeps
  still := first.still.trans second.still
  next := second.next.trans first.next

theorem Keeps.fins (keeps : t.Keeps u) : ownFins u.effects = ownFins t.effects := by
  obtain ⟨new, added, idle⟩ := keeps.effects
  rw [added, ownFins_append, ownFins_of_none fun e member => (idle e member).notFin, List.append_nil]

theorem Keeps.accepted (keeps : t.Keeps u) : accepted u.effects = accepted t.effects := by
  obtain ⟨new, added, idle⟩ := keeps.effects
  rw [added, accepted_append, accepted_of_none fun e member => (idle e member).payload,
    List.append_nil]

theorem Keeps.relayed (keeps : t.Keeps u) : relayed u.effects = relayed t.effects := by
  obtain ⟨new, added, idle⟩ := keeps.effects
  rw [added, relayed_append, relayed_of_none fun e member => (idle e member).sent, List.append_nil]

private theorem idle_write {purpose : Purpose} (other : purpose ≠ .ownFin) (draft : Draft) :
    Effect.Idle (.write purpose draft) := by
  refine ⟨rfl, rfl, ?_⟩
  cases purpose <;> first | rfl | exact absurd rfl other

private theorem idle_flowUpdated (flow : Flow) : Effect.Idle (.flowUpdated flow) := ⟨rfl, rfl, rfl⟩

private theorem still_flowUpdated (flow : Flow) : Effect.Still (.flowUpdated flow) :=
  ⟨rfl, fun _ none => by cases none⟩

private theorem bides_of_state (effects : Adds Effect.Idle t u) (still : Adds Effect.Still t u)
    (same : u.state = t.state) : t.Bides u where
  effects := effects
  unacknowledged := by rw [same]
  expected := by rw [same]
  closing := by rw [same]
  ackedToFin := by rw [same]
  outbound := by rw [same]
  connected := by rw [same]; exact id
  ready := by rw [same]; exact id
  still := still
  next := by rw [same]

theorem Bides.refl (t : Turn) : t.Bides t := bides_of_state (.none rfl) (.none rfl) rfl

theorem bides_emit {e : Effect} (idle : e.Idle) (still : e.Still) : t.Bides (t.emit e) :=
  bides_of_state (.one rfl idle) (.one rfl still) rfl

private theorem bides_write {purpose : Purpose} {draft : Draft} (other : purpose ≠ .ownFin)
    (still : Effect.Still (.write purpose draft)) : t.Bides (t.write purpose draft) :=
  bides_emit (idle_write other draft) still

theorem bides_withSocket (socket : Socket) : t.Bides (t.withSocket socket) :=
  bides_of_state (.none rfl) (.none rfl) rfl

theorem bides_remember (ip : Ip.Header) (tcp : Tcp.Header) :
    t.Bides (t.update fun st => st.rememberTcp ip tcp) :=
  ⟨⟨.none rfl, rfl, rfl, rfl, rfl, rfl, id, id⟩, .none rfl, rfl⟩

private theorem bides_stamp (s : Inbound.Segment) (now : Nat) : t.Bides (t.stamp s now) :=
  ⟨⟨.none rfl, rfl, rfl, rfl, rfl, rfl, id, fun none => by cases none⟩, .none rfl, rfl⟩

theorem bides_takePush (s : Inbound.Segment) (now : Nat) : t.Bides (t.takePush s now) := by
  rw [takePush_eq]
  split
  · exact bides_stamp s now
  · exact .refl t

theorem bides_takeEnd (s : Inbound.Segment) (inOrder : Bool) : t.Bides (t.takeEnd s inOrder) := by
  unfold takeEnd
  split
  · split
    · exact bides_write (by decide) (still_write (Sent.ofDraft?_finAck _ _ _ _) rfl)
    · exact .refl t
  · split
    · exact ⟨⟨.none rfl, rfl, rfl, rfl, rfl, rfl, id, id⟩, .none rfl, rfl⟩
    · exact .refl t

theorem bides_refusePayload (s : Inbound.Segment) : t.Bides (t.refusePayload s) :=
  bides_write (by decide) (still_write (Sent.ofDraft?_ack _ _ _ _) rfl)

theorem bides_resendAck : t.Bides t.resendAck := by
  unfold resendAck
  split
  · exact .refl t
  · exact bides_write (by decide) (still_write (Sent.ofDraft?_withTimestamps? _ _ _ []) rfl)

theorem bides_resetPeer : t.Bides t.resetPeer := by
  unfold resetPeer
  split
  · exact .refl t
  · exact bides_write (by decide) (still_reset _ _ 0 .reset)

theorem bides_classify (classifier : Classifier) (direction : Direction) (payload : Bytes) :
    t.Bides (t.classify classifier direction payload) := by
  obtain ⟨_, _, _, frame⟩ := t.classify_frame classifier direction payload
  have told := t.adds_classify classifier direction payload
  have idle := told.imp (q := Effect.Idle) fun e ⟨flow, same⟩ => same ▸ idle_flowUpdated flow
  have still := told.imp (q := Effect.Still) fun e ⟨flow, same⟩ => same ▸ still_flowUpdated flow
  refine ⟨⟨idle, ?_, ?_, ?_, ?_, ?_, ?_, ?_⟩, still, ?_⟩ <;> unfold state <;> rw [frame] <;>
    first | rfl | exact id

theorem bides_leave : t.Bides t.report.shut := by
  have shut := t.report.adds_shut
  have idle := shut.imp (q := Effect.Idle) fun e ⟨number, same⟩ => same ▸ ⟨rfl, rfl, rfl⟩
  have still := shut.imp (q := Effect.Still) fun e ⟨number, same⟩ =>
    same ▸ ⟨rfl, fun _ none => by cases none⟩
  refine bides_of_state (Adds.trans (.one rfl (idle_flowUpdated _)) idle)
    (Adds.trans (.one rfl (still_flowUpdated _)) still) ?_
  unfold Turn.shut
  split <;> rfl

theorem bides_takePayload (s : Inbound.Segment) (classifier : Classifier) (now : Nat) :
    (t.queue s).Bides (t.takePayload s classifier now) ∧
      (t.takePayload s classifier now).state.dataReady = true := by
  have classified : (t.queue s).Bides ((t.queue s).classify classifier .egress s.payload) :=
    bides_classify classifier .egress s.payload
  rw [takePayload_eq]
  exact ⟨(classified.trans (bides_stamp s now)).trans
    (bides_write (by decide) (still_write (Sent.ofDraft?_ack _ _ _ _) rfl)), rfl⟩

theorem keeps_deliver (bytes : Bytes) (classifier : Classifier) (now : Nat) :
    t.Keeps (t.deliver bytes classifier true now) := by
  have told : (t.emit (.receive bytes)).Bides
      ((t.emit (.receive bytes)).classify classifier .ingress bytes) := bides_classify _ _ _
  obtain ⟨_, _, _, _, _, frame⟩ := t.deliver_frame now bytes classifier true
  have received : Adds Effect.Idle t (t.emit (.receive bytes)) := .one rfl ⟨rfl, rfl, rfl⟩
  have effects : Adds Effect.Idle t (t.deliver bytes classifier true now) := by
    rw [deliver_eq, if_pos rfl]
    refine (received.trans told.effects).trans (Adds.trans ?_ (.none rfl))
    unfold handOn
    split
    · split
      · exact (adds_sendSegments _ _ _ bytes).imp fun e ⟨draft, same⟩ =>
          same ▸ idle_write (by decide) draft
      · exact .none rfl
    · split
      · exact .one rfl (idle_write (by decide) _)
      · exact .none rfl
  refine ⟨effects, ?_, ?_, ?_, ?_, ?_, ?_, ?_⟩ <;> unfold state <;> rw [frame] <;>
    first | rfl | exact id

/-- Nothing changes on the way to the peer. -/
structure Stays (t u : Turn) : Prop where
  still : Adds Effect.Still t u
  fins : ownFins u.effects = ownFins t.effects
  unacknowledged : u.state.sendUnacknowledged = t.state.sendUnacknowledged
  next : u.state.sendNext = t.state.sendNext
  closing : u.state.closing = t.state.closing
  ackedToFin : u.state.ackedToFin = t.state.ackedToFin

theorem Stays.trans (first : t.Stays u) (second : u.Stays v) : t.Stays v where
  still := first.still.trans second.still
  fins := second.fins.trans first.fins
  unacknowledged := second.unacknowledged.trans first.unacknowledged
  next := second.next.trans first.next
  closing := second.closing.trans first.closing
  ackedToFin := second.ackedToFin.trans first.ackedToFin

theorem Stays.received (stays : t.Stays u) : received u.effects = received t.effects := by
  obtain ⟨new, added, still⟩ := stays.still
  rw [added, received_append, received_silent fun e member => (still e member).payload,
    List.append_nil]

theorem Stays.data (stays : t.Stays u) : dataSegments u.effects = dataSegments t.effects := by
  obtain ⟨new, added, still⟩ := stays.still
  rw [added, dataSegments_append, dataSegments_still still, List.append_nil]

theorem Bides.stays (bides : t.Bides u) : t.Stays u where
  still := bides.still
  fins := bides.fins
  unacknowledged := bides.unacknowledged
  next := bides.next
  closing := bides.closing
  ackedToFin := bides.ackedToFin

theorem stays_queue (s : Inbound.Segment) : t.Stays (t.queue s) :=
  ⟨.one rfl ⟨rfl, fun _ none => by cases none⟩, rfl, rfl, rfl, rfl, rfl⟩

theorem stays_flush : t.Stays t.flush.1 := by
  have sent := t.adds_flush
  have still := sent.imp (q := Effect.Still) fun e ⟨socket, bytes, same⟩ =>
    same ▸ ⟨rfl, fun _ none => by cases none⟩
  obtain ⟨new, added, kind⟩ := sent
  have none_fin : ∀ e ∈ new, e.isOwnFin = false := by
    intro e member
    obtain ⟨socket, bytes, rfl⟩ := kind e member
    rfl
  have fins : ownFins t.flush.1.effects = ownFins t.effects := by
    rw [added, ownFins_append, ownFins_of_none none_fin, List.append_nil]
  cases opened : t.session.socket with
  | none =>
    rw [flush_none t opened]
    exact (Bides.refl t).stays
  | some socket =>
    refine ⟨still, fins, ?_, ?_, ?_, ?_⟩ <;> unfold state <;> rw [flush_some t opened rfl] <;> rfl

theorem expected_flush : t.flush.1.state.recvNext = t.state.recvNext := by
  cases opened : t.session.socket with
  | none => rw [flush_none t opened]
  | some socket => rw [flush_some t opened rfl]; rfl

/-- How a stream goes on in one move. -/
inductive Course (settings : Relay.Settings) (outside : Outside) (t : Turn) : Turn → Prop
  | bides (u : Turn) (bides : t.Bides u) : Course settings outside t u
  | takePayload (u : Turn) (s : Inbound.Segment) (answers : t.Answers outside s)
      (payload : s.payload ≠ []) (accepts : t.state.acceptsData s.tcp.seq = true)
      (bides : (t.queue s).Bides u) (ready : u.state.dataReady = true) : Course settings outside t u
  | takeAck (s : Inbound.Segment) (now : Nat) (answers : t.Answers outside s)
      (bare : s.payload = []) : Course settings outside t (t.takeAck s now)
  | flush (connected : t.state.connected = true) : Course settings outside t t.flush.1
  | deliver (bytes : Bytes) (after : Socket) (now : Nat) (reads : t.Reads (.ok bytes) after)
      (payload : bytes ≠ []) : Course settings outside t
        ((t.withSocket after).deliver bytes settings.ingressClassifier true now)
  | remoteClose (after : Socket) (reads : t.Reads (.ok []) after) :
      Course settings outside t (t.withSocket after).remoteClose

theorem Move.course (stream : t.session.key.protocol = .tcp) (move : Move settings outside t u) :
    Course settings outside t u := by
  cases move with
  | takePayload s now answers payload accepts =>
    obtain ⟨bides, ready⟩ := bides_takePayload (t := t) s settings.egressClassifier now
    exact .takePayload _ s answers payload accepts bides ready
  | takeAck s now answers bare => exact .takeAck s now answers bare
  | flush connected => exact .flush connected
  | deliver bytes after now reads payload =>
    refine .deliver bytes after now reads (payload.resolve_right ?_)
    rw [stream]
    exact fun none => by cases none
  | remoteClose after reads => exact .remoteClose after reads
  | takeDatagram d _ own =>
    rw [← own] at stream
    cases stream
  | resendAck => exact .bides _ bides_resendAck
  | remember s => exact .bides _ (bides_remember s.ip s.tcp)
  | refusePayload s => exact .bides _ (bides_refusePayload s)
  | takePush s now => exact .bides _ (bides_takePush s now)
  | takeEnd s inOrder => exact .bides _ (bides_takeEnd s inOrder)
  | cancel | refresh =>
    exact .bides _ (bides_emit ⟨rfl, rfl, rfl⟩ ⟨rfl, fun _ none => by cases none⟩)
  | touch => exact .bides _ (bides_of_state (.none rfl) (.none rfl) rfl)
  | abandon => exact .bides _ ⟨⟨.none rfl, rfl, rfl, rfl, rfl, rfl, id, id⟩, .none rfl, rfl⟩
  | check _ after | readNothing _ after => exact .bides _ (bides_withSocket after)
  | connect after =>
    exact .bides _ ⟨⟨.none rfl, rfl, rfl, rfl, rfl, rfl, (fun none => by cases none), id⟩,
      .none rfl, rfl⟩
  | resetPeer => exact .bides _ bides_resetPeer
  | leave => exact .bides _ bides_leave
  | network outlook => exact .bides _ (bides_of_state (.none rfl) (.none rfl) rfl)

theorem receiveAck_cases (t : Turn) (s : Inbound.Segment) (classifier : Classifier) (now : Nat) :
    let u := t.update fun st => st.rememberTcp s.ip s.tcp
    (s.payload = [] ∧ (u.takeAck s now).Bides (t.receiveAck s classifier now).1) ∨
    (s.payload ≠ [] ∧ t.state.acceptsData s.tcp.seq = true ∧
      (u.queue s).Bides (t.receiveAck s classifier now).1 ∧
      (t.receiveAck s classifier now).1.state.dataReady = true) ∨
    (s.payload ≠ [] ∧ t.state.acceptsData s.tcp.seq = false ∧
      u.Bides (t.receiveAck s classifier now).1) := by
  intro u
  have ends : ∀ (v : Turn) (inOrder : Bool), v.Bides ((v.takePush s now).takeEnd s inOrder) :=
    fun v inOrder => (bides_takePush s now).trans (bides_takeEnd s inOrder)
  have same : u.state.acceptsData s.tcp.seq = t.state.acceptsData s.tcp.seq := rfl
  unfold receiveAck
  simp only
  by_cases bare : s.payload = []
  · rw [if_pos (by rw [bare]; rfl)]
    exact .inl ⟨bare, ends _ _⟩
  · have some_payload : s.payload.isEmpty = false := by simpa using bare
    rw [some_payload, if_neg Bool.false_ne_true]
    cases accepts : t.state.acceptsData s.tcp.seq with
    | true =>
      obtain ⟨queued, ready⟩ := bides_takePayload (t := u) s classifier now
      refine .inr (.inl ⟨bare, rfl, ?_⟩)
      rw [accepts] at same
      simp only [u] at same
      simp only [same, Bool.not_false, Bool.true_and, if_true]
      refine ⟨queued.trans (ends _ _), ?_⟩
      by_contra unready
      have := (ends (u.takePayload s classifier now) (false || true)).ready (by simpa using unready)
      rw [ready] at this
      cases this
    | false =>
      refine .inr (.inr ⟨bare, rfl, ?_⟩)
      rw [accepts] at same
      simp only [u] at same
      simp only [same, Bool.not_false, Bool.true_and, Bool.false_eq_true, if_false]
      exact (bides_refusePayload s).trans (ends _ _)

/-- Noting an acknowledgment sends nothing and ends nothing. -/
structure Noted (t u : Turn) : Prop where
  effects : u.effects = t.effects
  last : u.state.lastSegment? = t.state.lastSegment?
  next : u.state.sendNext = t.state.sendNext
  closing : u.state.closing = t.state.closing
  ackedToFin : u.state.ackedToFin = t.state.ackedToFin
  outbound : u.state.outbound = t.state.outbound
  connected : u.state.connected = t.state.connected
  ready : u.state.dataReady = t.state.dataReady

theorem noted_noteAck (t : Turn) (s : Inbound.Segment) (now : Nat) : Noted t (t.noteAck s now) := by
  obtain ⟨_, _, _, _, _, frame⟩ := t.noteAck_frame now s
  refine ⟨rfl, ?_, ?_, ?_, ?_, ?_, ?_, ?_⟩ <;> unfold state <;> rw [frame] <;> rfl

/-- Our FIN waits no longer: the acknowledgment is noted, and nothing is left to acknowledge. -/
def FinDue (t : Turn) : Prop :=
  t.state.closing = true ∧ t.state.acked = true ∧ t.state.unacknowledged = 0

theorem takeAck_cases (t : Turn) (s : Inbound.Segment) (now : Nat) :
    (¬ (t.noteAck s now).FinDue ∧ t.takeAck s now = t.noteAck s now) ∨
    ((t.noteAck s now).FinDue ∧ t.takeAck s now = (t.noteAck s now).endStream (s.tcp.ack + 1)) := by
  rw [takeAck_eq]
  by_cases due : (t.noteAck s now).FinDue
  · have ⟨closing, acked, nothing_left⟩ := due
    refine .inr ⟨due, if_pos ?_⟩
    rw [closing, acked, nothing_left]
    rfl
  · refine .inl ⟨due, if_neg fun all => due ?_⟩
    rw [Bool.and_eq_true, Bool.and_eq_true, beq_iff_eq] at all
    exact ⟨all.1.1, all.1.2, all.2⟩

theorem remoteClose_cases (t : Turn) :
    (t.state.unacknowledged ≠ 0 ∧ t.remoteClose = t.update fun st => { st with closing := true }) ∨
    (t.state.unacknowledged = 0 ∧ t.remoteClose = t.endStream (t.state.sendNext + 1)) := by
  rw [remoteClose_eq]
  by_cases nothing_left : t.state.unacknowledged = 0
  · refine .inr ⟨nothing_left, if_neg ?_⟩
    rw [nothing_left]
    decide
  · exact .inl ⟨nothing_left, if_pos (UInt32.pos_iff_ne_zero.2 nothing_left)⟩

theorem endStream_eq {ip : Ip.Header} {tcp : Tcp.Header}
    (last : t.state.lastSegment? = some (ip, tcp)) (next : UInt32) :
    t.endStream next =
      (t.write .ownFin (.finAck ip tcp t.state.sendNext t.state.recvNext)).update fun st =>
        { st with closing := false, ackedToFin := true, sendNext := next } := by
  unfold endStream sendFin
  rw [last]
  rfl

theorem ownFins_endStream (heard : t.state.lastSegment?.isSome = true) (next : UInt32) :
    ownFins (t.endStream next).effects =
      ownFins t.effects ++ [⟨.fin ∪ .ack, t.state.sendNext, t.state.recvNext, []⟩] := by
  obtain ⟨⟨ip, tcp⟩, last⟩ := Option.isSome_iff_exists.1 heard
  rw [endStream_eq last]
  exact ownFins_append [_] t.effects

end Session.Turn
end PacketRelay
