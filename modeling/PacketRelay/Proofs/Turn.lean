import PacketRelay.Session.Service

/-!
Turns on top of what happened before.

A turn does not look at the effects so far. Done on top of earlier effects it gives the same
session, and its effects come on top of them: so all that happens to a session can be told as one
long turn.
-/

set_option autoImplicit false

namespace PacketRelay.Session

def FlushEnd.failure? : FlushEnd → Option Errno
  | failed e => some e
  | _ => none

namespace State

private theorem classifyOnce_frame (s : State) (classifier : Classifier) (direction : Direction)
    (payload : Bytes) : ∃ egress ingress flow,
      (s.classifyOnce classifier direction payload).1 =
        { s with classifiedEgress := egress, classifiedIngress := ingress, flow := flow } := by
  unfold classifyOnce
  split
  · exact ⟨_, _, _, rfl⟩
  · cases direction <;> cases classifier payload <;> exact ⟨_, _, _, rfl⟩

theorem classified_claim (s : State) (direction d : Direction) :
    (s.claim direction).classified d = if d = direction then true else s.classified d := by
  cases d <;> cases direction <;> rfl

private theorem acceptAck_frame (s : State) (ack seq : UInt32) (peer : Option Tcp.Timestamps)
    (now : Nat) : ∃ unacknowledged expected replyTo sender acked, s.acceptAck ack seq peer now =
      { s with
        sendUnacknowledged := unacknowledged
        recvNext := expected
        timestampReplyTo := replyTo
        timestampSender := sender
        acked := acked } := by
  unfold acceptAck
  split
  · exact ⟨_, _, _, _, _, rfl⟩
  · exact ⟨_, _, _, _, _, rfl⟩

/-- The payload of a segment is queued. It counts from where the last one ended. -/
def enqueue (st : State) (s : Inbound.Segment) : State :=
  let base := if st.recvNext == 0 then s.tcp.seq else st.recvNext
  ({ st with recvNext := base + UInt32.ofNat s.payload.length }.appendOutbound s.payload).record
    .egress
    s.ip.totalLength

def enqueueDatagram (st : State) (d : Inbound.Datagram) (opened : Bool) : State :=
  let st := st.rememberUdp d.ip d.udp
  let st := if opened then st else st.record .egress d.ip.totalLength
  st.appendOutbound d.payload

end State

namespace Turn

def touch (t : Turn) (now : Nat) : Turn := { t with session := t.session.touch now }

/-- The socket is shut down. -/
def shut (t : Turn) : Turn :=
  match t.session.socket with
  | some socket =>
    { session := { t.session with socket := none }
      effects := .shutdown socket.number :: t.effects }
  | none => t

def queue (t : Turn) (s : Inbound.Segment) : Turn :=
  (t.update (·.enqueue s)).emit (.accept s.payload s.ip.totalLength)

def queueDatagram (t : Turn) (d : Inbound.Datagram) (opened : Bool) : Turn :=
  (t.update (·.enqueueDatagram d opened)).emit (.accept d.payload d.ip.totalLength)

/-- The peer's clock is noted, and the socket is due for a flush. -/
def stamp (t : Turn) (s : Inbound.Segment) (now : Nat) : Turn :=
  t.update fun st => { st.stampTimestamps s.tcp.timestamps? now with dataReady := true }

/-- What has been taken is acknowledged. -/
def acknowledge (t : Turn) (s : Inbound.Segment) : Turn :=
  t.write .acknowledgment (.ack s.ip s.tcp t.state.recvNext t.state.replyTimestamps)

def noteAck (t : Turn) (s : Inbound.Segment) (now : Nat) : Turn :=
  t.update fun st =>
    { st with corrupted := s.isCorrupted }.acceptAck s.tcp.ack s.tcp.seq s.tcp.timestamps? now

/-- Our FIN goes out, and `next` comes after it. -/
def endStream (t : Turn) (next : UInt32) : Turn :=
  t.sendFin.update fun st => { st with sendNext := next }

/-- A turn on top of earlier effects. -/
def on (t : Turn) (past : List Effect) : Turn := { t with effects := t.effects ++ past }

variable (t : Turn) (past : List Effect) (now : Nat)

theorem flush_none (closed : t.session.socket = none) : t.flush = (t, none) := by
  unfold flush
  rw [closed]

theorem flush_some {socket : Socket} {flushed : Flushed} (opened : t.session.socket = some socket)
    (eq : t.state.outbound.flush socket [] = flushed) :
    t.flush =
      (⟨{ t.session with
          socket := some flushed.socket
          state := { t.state with
            outbound := flushed.queue
            dataReady := t.state.dataReady && flushed.finish != .drained } },
        flushed.sent.map (.send socket.number) ++ t.effects⟩, flushed.finish.failure?) := by
  unfold flush
  rw [opened]
  simp only [eq]
  cases h : flushed.finish <;> simp [FlushEnd.failure?, update, withSocket, Session.update, state]

theorem takePayload_eq (s : Inbound.Segment) (classifier : Classifier) :
    t.takePayload s classifier now =
      (((t.queue s).classify classifier .egress s.payload).stamp s now).acknowledge s := rfl

theorem takePush_eq (s : Inbound.Segment) :
    t.takePush s now = if s.tcp.isPsh then t.stamp s now else t := rfl

theorem takeAck_eq (s : Inbound.Segment) :
    t.takeAck s now =
      if (t.noteAck s now).state.closing && (t.noteAck s now).state.acked &&
          (t.noteAck s now).state.unacknowledged == 0 then
        (t.noteAck s now).endStream (s.tcp.ack + 1)
      else t.noteAck s now := rfl

theorem remoteClose_eq :
    t.remoteClose =
      if 0 < t.state.unacknowledged then t.update fun st => { st with closing := true }
      else t.endStream (t.state.sendNext + 1) := rfl

theorem noteAck_frame (s : Inbound.Segment) : ∃ unacknowledged expected replyTo sender acked,
    (t.noteAck s now).session = t.session.update fun st =>
      { st with
        corrupted := s.isCorrupted
        sendUnacknowledged := unacknowledged
        recvNext := expected
        timestampReplyTo := replyTo
        timestampSender := sender
        acked := acked } := by
  obtain ⟨unacknowledged, expected, replyTo, sender, acked, frame⟩ :=
    Session.State.acceptAck_frame { t.state with corrupted := s.isCorrupted } s.tcp.ack s.tcp.seq
      s.tcp.timestamps? now
  exact ⟨unacknowledged, expected, replyTo, sender, acked,
    congrArg (fun state => { t.session with state := state }) frame⟩

theorem takeDatagram_eq (d : Inbound.Datagram) (opened : Bool) (classifier : Classifier) :
    t.takeDatagram d opened classifier =
      ((t.queueDatagram d opened).classify classifier .egress d.payload).update fun st =>
        { st with dataReady := true } := rfl

theorem on_start (s : Session) : (start s).on past = ⟨s, past⟩ := rfl

@[simp] theorem on_session : (t.on past).session = t.session := rfl

@[simp] theorem on_state : (t.on past).state = t.state := rfl

@[simp] theorem on_emit (e : Effect) : (t.on past).emit e = (t.emit e).on past := rfl

@[simp] theorem on_update (f : State → State) :
    (t.on past).update f = (t.update f).on past := rfl

@[simp] theorem on_write (purpose : Purpose) (draft : Draft) :
    (t.on past).write purpose draft = (t.write purpose draft).on past := rfl

@[simp] theorem on_withSocket (socket : Socket) :
    (t.on past).withSocket socket = (t.withSocket socket).on past := rfl

theorem on_ite (c : Prop) [Decidable c] (t u : Turn) :
    (if c then t.on past else u.on past) = (if c then t else u).on past := by
  split <;> rfl

@[simp] theorem on_report : (t.on past).report = t.report.on past := rfl

@[simp] theorem on_classify (classifier : Classifier) (direction : Direction) (payload : Bytes) :
    (t.on past).classify classifier direction payload =
      (t.classify classifier direction payload).on past := by
  rcases h : t.state.classifyOnce classifier direction payload with ⟨state, _ | _⟩ <;>
    simp [classify, h]

private theorem on_flush : (t.on past).flush = (t.flush.1.on past, t.flush.2) := by
  cases h : t.session.socket with
  | none => rw [flush_none t h, flush_none (t.on past) h]
  | some socket =>
    rw [flush_some t h rfl, flush_some (t.on past) h rfl]
    simp only [on, List.append_assoc]
    rfl

@[simp] theorem on_sendFin : (t.on past).sendFin = t.sendFin.on past := by
  unfold sendFin
  rw [on_state]
  split <;> rfl

@[simp] theorem on_resendAck : (t.on past).resendAck = t.resendAck.on past := by
  unfold resendAck
  rw [on_state]
  split <;> rfl

@[simp] theorem on_resetPeer : (t.on past).resetPeer = t.resetPeer.on past := by
  unfold resetPeer
  rw [on_state]
  split <;> rfl

@[simp] theorem on_takePayload (s : Inbound.Segment) (classifier : Classifier) :
    (t.on past).takePayload s classifier now = (t.takePayload s classifier now).on past := by
  simp [takePayload]

@[simp] theorem on_refusePayload (s : Inbound.Segment) :
    (t.on past).refusePayload s = (t.refusePayload s).on past := rfl

@[simp] theorem on_takeAck (s : Inbound.Segment) :
    (t.on past).takeAck s now = (t.takeAck s now).on past := by
  simp only [takeAck, on_update, on_state, on_sendFin]
  split <;> rfl

@[simp] theorem on_takePush (s : Inbound.Segment) :
    (t.on past).takePush s now = (t.takePush s now).on past := by
  unfold takePush
  split <;> rfl

@[simp] theorem on_takeEnd (s : Inbound.Segment) (inOrder : Bool) :
    (t.on past).takeEnd s inOrder = (t.takeEnd s inOrder).on past := by
  unfold takeEnd
  split
  · split <;> rfl
  · split <;> rfl

theorem on_receiveAck (s : Inbound.Segment) (classifier : Classifier) :
    (t.on past).receiveAck s classifier now =
      ((t.receiveAck s classifier now).1.on past, (t.receiveAck s classifier now).2) := by
  simp only [receiveAck, on_update, on_state, on_takeAck, on_takePayload, on_refusePayload]
  split
  · simp
  · split <;> simp

@[simp] theorem on_finish : (t.on past).finish = t.finish.on past := by
  simp only [finish, on_session, on_emit, on_state, on_flush]
  exact congrArg report (on_ite past _ _ _)

@[simp] theorem on_takeDatagram (d : Inbound.Datagram) (opened : Bool) (classifier : Classifier) :
    (t.on past).takeDatagram d opened classifier =
      (t.takeDatagram d opened classifier).on past := by
  simp [takeDatagram]

@[simp] theorem on_sendSegment (ip : Ip.Header) (tcp : Tcp.Header) (chunk : Bytes) :
    (t.on past).sendSegment ip tcp chunk = (t.sendSegment ip tcp chunk).on past := rfl

@[simp] theorem on_sendSegments (ip : Ip.Header) (tcp : Tcp.Header) (bytes : Bytes) :
    (t.on past).sendSegments ip tcp bytes = (t.sendSegments ip tcp bytes).on past := by
  fun_induction sendSegments t ip tcp bytes with
  | case1 t => rw [sendSegments]
  | case2 t first rest more ih =>
    rw [sendSegments, on_sendSegment]
    exact ih

@[simp] theorem on_sendResponse (ip : Ip.Header) (udp : Udp.Header) (payload : Bytes) :
    (t.on past).sendResponse ip udp payload = (t.sendResponse ip udp payload).on past := rfl

@[simp] theorem on_deliver (bytes : Bytes) (classifier : Classifier) (current : Bool) :
    (t.on past).deliver bytes classifier current now =
      (t.deliver bytes classifier current now).on past := by
  unfold deliver
  rw [on_emit, on_classify]
  generalize (t.emit (.receive bytes)).classify classifier .ingress bytes = t
  simp only [on_session, on_state]
  cases t.session.key.protocol with
  | tcp => cases t.state.lastSegment? <;> cases current <;> simp <;> rfl
  | udp => cases t.state.lastDatagram? <;> cases current <;> simp <;> rfl

private theorem on_readAll (classifier : Classifier) (current : Bool) (n : Nat) :
    readAll classifier current now n (t.on past) =
      ((readAll classifier current now n t).1.on past, (readAll classifier current now n t).2) := by
  induction n generalizing t with
  | zero => rfl
  | succ n ih =>
    cases h : t.session.socket with
    | none => simp [readAll, h]
    | some socket =>
      rcases r : socket.read with ⟨e | bytes, after⟩
      · cases e <;> simp [readAll, h, r, ih]
      · simp only [readAll, on_session, h, r, on_withSocket, on_deliver, ih]
        split <;> rfl

private theorem on_exchange (classifier : Classifier) (current : Bool) :
    (t.on past).exchange classifier current now =
      ((t.exchange classifier current now).1.on past, (t.exchange classifier current now).2) := by
  have flushed :
      (if 0 < t.state.outbound.size || t.state.dataReady then (t.on past).flush
        else (t.on past, none)) =
      ((if 0 < t.state.outbound.size || t.state.dataReady then t.flush else (t, none)).1.on past,
        (if 0 < t.state.outbound.size || t.state.dataReady then t.flush else (t, none)).2) := by
    rw [on_flush]
    split <;> rfl
  unfold exchange
  rw [on_state, flushed]
  rcases (if 0 < t.state.outbound.size || t.state.dataReady then t.flush else (t, none)) with
    ⟨t, _ | e⟩
  · simp only [on_state, on_readAll]
    split <;> rfl
  · rfl

theorem on_pump (classifier : Classifier) (current : Bool) :
    (t.on past).pump classifier current now =
      ((t.pump classifier current now).1.on past, (t.pump classifier current now).2) := by
  cases h : t.session.socket with
  | none => simp [pump, h]
  | some socket =>
    cases connected : t.state.connected with
    | true =>
      simp only [pump, on_session, h, on_state, connected, if_true]
      exact on_exchange t past now classifier current
    | false =>
      rcases checked : socket.checkConnected with ⟨e | _ | _, after⟩
      · simp [pump, h, connected, checked]
      · simp [pump, h, connected, checked]
      · simp [pump, h, connected, checked, on_exchange]

theorem pump_start (classifier : Classifier) (current : Bool) :
    ((start t.session).pump classifier current now).2 = (t.pump classifier current now).2 := by
  have past := on_pump (start t.session) t.effects now classifier current
  rw [on_start] at past
  exact (congrArg Prod.snd past).symm

@[simp] theorem on_remoteClose : (t.on past).remoteClose = t.remoteClose.on past := by
  simp only [remoteClose, on_state, on_update, on_sendFin]
  split <;> rfl

theorem classify_frame (classifier : Classifier) (direction : Direction) (payload : Bytes) :
    ∃ egress ingress flow, (t.classify classifier direction payload).session =
      t.session.update fun s =>
        { s with classifiedEgress := egress, classifiedIngress := ingress, flow := flow } := by
  obtain ⟨egress, ingress, flow, h⟩ := t.state.classifyOnce_frame classifier direction payload
  refine ⟨egress, ingress, flow, ?_⟩
  unfold classify
  rcases hit : t.state.classifyOnce classifier direction payload with ⟨state, _ | _⟩ <;>
    rw [hit] at h <;> subst h <;> rfl

theorem classify_again (classifier : Classifier) {direction : Direction} {payload : Bytes}
    (again : payload = [] ∨ t.state.classified direction = true) :
    t.classify classifier direction payload = t := by
  have known : (payload.isEmpty || t.state.classified direction) = true := by
    simpa [List.isEmpty_iff] using again
  unfold classify State.classifyOnce
  rw [if_pos known]
  rfl

theorem classify_first (classifier : Classifier) {direction : Direction} {payload : Bytes}
    (some_payload : payload ≠ []) (fresh : t.state.classified direction = false) :
    t.classify classifier direction payload =
      match classifier payload with
      | none => t.update (·.claim direction)
      | some hit =>
        (t.update fun s => { s.claim direction with
          flow := { s.flow with classification := some hit } }).emit
            (.flowUpdated { t.state.flow with classification := some hit }) := by
  have unknown : (payload.isEmpty || t.state.classified direction) = false := by
    simpa [fresh] using some_payload
  unfold classify State.classifyOnce
  rw [unknown]
  cases direction <;> cases classifier payload <;> rfl

theorem takeDatagram_frame (d : Inbound.Datagram) (opened : Bool) (classifier : Classifier) :
    ∃ state, (t.takeDatagram d opened classifier).session = { t.session with state := state } := by
  obtain ⟨egress, ingress, flow, classified⟩ :=
    (t.queueDatagram d opened).classify_frame classifier .egress d.payload
  rw [takeDatagram_eq]
  unfold update
  simp only
  rw [classified]
  exact ⟨_, rfl⟩

private theorem sendSegments_frame (ip : Ip.Header) (tcp : Tcp.Header) (bytes : Bytes) :
    ∃ next flow, (t.sendSegments ip tcp bytes).session =
      t.session.update fun s => { s with sendNext := next, flow := flow } := by
  fun_induction sendSegments t ip tcp bytes with
  | case1 t => exact ⟨_, _, rfl⟩
  | case2 t first rest more ih =>
    obtain ⟨next, flow, h⟩ := ih
    exact ⟨next, flow, h⟩

/-- Writes bytes from the socket to the peer. -/
def handOn (t : Turn) (bytes : Bytes) : Turn :=
  match t.session.key.protocol with
  | .tcp => match t.state.lastSegment? with
    | some (ip, tcp) => t.sendSegments ip tcp bytes
    | none => t
  | .udp => match t.state.lastDatagram? with
    | some (ip, udp) => t.sendResponse ip udp bytes
    | none => t

theorem deliver_eq (bytes : Bytes) (classifier : Classifier) (current : Bool) :
    t.deliver bytes classifier current now =
      if current then
        (((t.emit (.receive bytes)).classify classifier .ingress bytes).handOn bytes).touch now
      else ((t.emit (.receive bytes)).classify classifier .ingress bytes).handOn bytes := rfl

theorem handOn_frame (bytes : Bytes) : ∃ next flow, (t.handOn bytes).session =
    t.session.update fun s => { s with sendNext := next, flow := flow } := by
  unfold handOn
  split
  · split
    · exact t.sendSegments_frame _ _ bytes
    · exact ⟨_, _, rfl⟩
  · split
    · exact ⟨t.state.sendNext, _, rfl⟩
    · exact ⟨_, _, rfl⟩

theorem deliver_frame (bytes : Bytes) (classifier : Classifier) (current : Bool) :
    ∃ seen next egress ingress flow, (t.deliver bytes classifier current now).session =
      { t.session.update fun s =>
          { s with
            sendNext := next
            classifiedEgress := egress
            classifiedIngress := ingress
            flow := flow } with lastSeen := seen } := by
  obtain ⟨egress, ingress, _, classified⟩ :=
    (t.emit (.receive bytes)).classify_frame classifier .ingress bytes
  obtain ⟨next, flow, handed⟩ :=
    ((t.emit (.receive bytes)).classify classifier .ingress bytes).handOn_frame bytes
  rw [classified] at handed
  rw [deliver_eq]
  cases current with
  | true =>
    exact ⟨t.session.age now / millisecond, next, egress, ingress, flow,
      congrArg (·.touch now) handed⟩
  | false => exact ⟨t.session.lastSeen, next, egress, ingress, flow, handed⟩

/-- Effects of one kind are added. -/
def Adds (p : Effect → Prop) (t u : Turn) : Prop :=
  ∃ new, u.effects = new ++ t.effects ∧ ∀ e ∈ new, p e

section Adds

variable {p q : Effect → Prop} {t u v : Turn}

theorem Adds.none (same : u.effects = t.effects) : Adds p t u :=
  ⟨[], by rw [same, List.nil_append], fun _ member => by cases member⟩

theorem Adds.one {e : Effect} (added : u.effects = e :: t.effects) (kind : p e) : Adds p t u :=
  ⟨[e], added, fun _ member => by rw [List.mem_singleton.1 member]; exact kind⟩

theorem Adds.trans (first : Adds p t u) (second : Adds p u v) : Adds p t v := by
  obtain ⟨new, added, kind⟩ := first
  obtain ⟨newer, later, also⟩ := second
  refine ⟨newer ++ new, by rw [later, added, List.append_assoc], fun e member => ?_⟩
  exact (List.mem_append.1 member).elim (also e) (kind e)

theorem Adds.imp (adds : Adds p t u) (imp : ∀ e, p e → q e) : Adds q t u := by
  obtain ⟨new, added, kind⟩ := adds
  exact ⟨new, added, fun e member => imp e (kind e member)⟩

theorem Adds.mem (adds : Adds p t u) {e : Effect} (before : e ∈ t.effects) : e ∈ u.effects := by
  obtain ⟨new, added, -⟩ := adds
  rw [added]
  exact List.mem_append_right new before

theorem Adds.forall (adds : Adds p t u) (before : ∀ e ∈ t.effects, p e) : ∀ e ∈ u.effects, p e := by
  obtain ⟨new, added, kind⟩ := adds
  intro e member
  rw [added] at member
  exact (List.mem_append.1 member).elim (kind e) (before e)

variable (t)

theorem adds_classify (classifier : Classifier) (direction : Direction) (payload : Bytes) :
    Adds (fun e => ∃ flow, e = .flowUpdated flow) t (t.classify classifier direction payload) := by
  unfold classify
  simp only
  split
  · exact .one rfl ⟨_, rfl⟩
  · exact .none rfl

theorem adds_flush : Adds (fun e => ∃ socket bytes, e = .send socket bytes) t t.flush.1 := by
  cases opened : t.session.socket with
  | none =>
    rw [flush_none t opened]
    exact .none rfl
  | some socket =>
    rw [flush_some t opened rfl]
    refine ⟨_, rfl, fun e member => ?_⟩
    obtain ⟨bytes, -, rfl⟩ := List.mem_map.1 member
    exact ⟨_, bytes, rfl⟩

theorem adds_sendSegments (ip : Ip.Header) (tcp : Tcp.Header) (bytes : Bytes) :
    Adds (fun e => ∃ draft, e = .write .data draft) t (t.sendSegments ip tcp bytes) := by
  fun_induction sendSegments t ip tcp bytes with
  | case1 t => exact .none rfl
  | case2 t first rest more ih => exact Adds.trans (.one rfl ⟨_, rfl⟩) ih

theorem adds_handOn (bytes : Bytes) :
    Adds (fun e => ∃ purpose draft, e = .write purpose draft) t (t.handOn bytes) := by
  unfold handOn
  split
  · split
    · exact (t.adds_sendSegments _ _ bytes).imp fun e ⟨draft, same⟩ => ⟨_, draft, same⟩
    · exact .none rfl
  · split
    · exact .one rfl ⟨_, _, rfl⟩
    · exact .none rfl

theorem adds_shut : Adds (fun e => ∃ number, e = .shutdown number) t t.shut := by
  unfold shut
  split
  · exact .one rfl ⟨_, rfl⟩
  · exact .none rfl

end Adds

end Turn
end PacketRelay.Session
