import PacketRelay.Proofs.Sent

/-!
What the socket of a stream delivers reaches the peer as it is.

The segments that carry it follow one another from the number behind our initial one, and `Streams`
says that their payload is what was delivered. Only a delivery adds to either; the next sequence
number stays where the last one ended until the end of the stream has been seen, after which nothing
is delivered.
-/

set_option autoImplicit false

namespace PacketRelay

open Session (Turn State)

/-- What the socket has delivered, in order. -/
def received (effects : List Effect) : Bytes :=
  (effects.reverse.filterMap (·.payload? .ingress)).flatten

/-- The segments among effects that carry payload, earliest first. -/
def dataSegments (effects : List Effect) : List Sent := (segments effects).filter (·.isData)

def payloads (sent : List Sent) : Bytes := (sent.map (·.payload)).flatten

/-- Segments that follow one another from a sequence number on. -/
def Follow (seq : UInt32) : List Sent → Prop
  | [] => True
  | first :: rest => first.seq = seq ∧ Follow (seq + UInt32.ofNat first.payload.length) rest

section Segments

variable {seq : UInt32} {sent more : List Sent}

@[simp] theorem payloads_append : payloads (sent ++ more) = payloads sent ++ payloads more := by
  simp [payloads]

theorem follow_append : Follow seq (sent ++ more) ↔
    Follow seq sent ∧ Follow (seq + UInt32.ofNat (payloads sent).length) more := by
  induction sent generalizing seq with
  | nil => simp [Follow, payloads]
  | cons first rest ih =>
    have : seq + UInt32.ofNat first.payload.length + UInt32.ofNat (payloads rest).length =
        seq + UInt32.ofNat (payloads (first :: rest)).length := by
      simp [payloads, UInt32.add_assoc]
    simp only [List.cons_append, Follow, ih, this, and_assoc]

private theorem Follow.seq_at (follow : Follow seq sent) {i : Nat} {s : Sent}
    (at_i : sent[i]? = some s) : s.seq = seq + UInt32.ofNat (payloads (sent.take i)).length := by
  obtain ⟨within, eq⟩ := List.getElem?_eq_some_iff.1 at_i
  rw [← List.take_append_drop i sent, follow_append, List.drop_eq_getElem_cons within, eq] at follow
  exact follow.2.1

end Segments

section Effects

variable {new : List Effect}

/-- An effect that neither delivers nor carries anything to the peer. -/
structure Effect.Still (e : Effect) : Prop where
  payload : e.payload? .ingress = none
  sent : ∀ s, Sent.ofEffect? e = some s → s.isData = false

theorem dataSegments_append (new effects : List Effect) :
    dataSegments (new ++ effects) = dataSegments effects ++ dataSegments new := by
  simp [dataSegments, segments_append]

theorem received_append (new effects : List Effect) :
    received (new ++ effects) = received effects ++ received new := by
  simp [received]

theorem dataSegments_still (still : ∀ e ∈ new, e.Still) : dataSegments new = [] := by
  unfold dataSegments segments
  refine List.filter_eq_nil_iff.2 fun s member => ?_
  obtain ⟨e, member, same⟩ := List.mem_filterMap.1 member
  have := (still e (List.mem_reverse.1 member)).sent s same
  simp [this]

theorem received_silent (silent : ∀ e ∈ new, e.payload? .ingress = none) : received new = [] := by
  unfold received
  have : new.reverse.filterMap (·.payload? .ingress) = [] :=
    List.filterMap_eq_nil_iff.2 fun e member => silent e (List.mem_reverse.1 member)
  rw [this, List.flatten_nil]

theorem received_receive (bytes : Bytes) (effects : List Effect) :
    received (.receive bytes :: effects) = received effects ++ bytes :=
  (received_append [_] _).trans (congrArg (received effects ++ ·) (List.append_nil bytes))

end Effects

namespace Session.Turn

variable {settings : Relay.Settings} {outside : Outside} {t u v : Turn} {isn : UInt32}

/-- What the socket has still to deliver, and whether it is one of a stream. -/
def inflow (t : Turn) : Option (Bytes × Bool) := t.session.socket.map fun s => (s.unread, s.stream)

/-- Nothing moves in the stream to the peer, and nothing is read for it. -/
structure Rests (t u : Turn) : Prop where
  effects : Adds Effect.Still t u
  inflow : ∀ flow, u.inflow = some flow → t.inflow = some flow
  heard : t.state.lastSegment?.isSome = true → u.state.lastSegment?.isSome = true
  size : u.state.maxSegmentSize = t.state.maxSegmentSize
  next : u.state.closing = false → u.state.ackedToFin = false →
    t.state.closing = false ∧ t.state.ackedToFin = false ∧ u.state.sendNext = t.state.sendNext

theorem Rests.data (rests : t.Rests u) : dataSegments u.effects = dataSegments t.effects := by
  obtain ⟨new, added, still⟩ := rests.effects
  rw [added, dataSegments_append, dataSegments_still still, List.append_nil]

theorem Rests.received (rests : t.Rests u) : received u.effects = received t.effects := by
  obtain ⟨new, added, still⟩ := rests.effects
  rw [added, received_append, received_silent fun e member => (still e member).payload,
    List.append_nil]

private theorem Rests.refl (t : Turn) : t.Rests t :=
  ⟨.none rfl, fun _ same => same, id, rfl, fun closing acked => ⟨closing, acked, rfl⟩⟩

private theorem Rests.trans (first : t.Rests u) (second : u.Rests v) : t.Rests v where
  effects := first.effects.trans second.effects
  inflow flow same := first.inflow flow (second.inflow flow same)
  heard := second.heard ∘ first.heard
  size := second.size.trans first.size
  next closing acked := by
    obtain ⟨closing, acked, same⟩ := second.next closing acked
    obtain ⟨closing, acked, before⟩ := first.next closing acked
    exact ⟨closing, acked, same.trans before⟩

private theorem rests_of_state (effects : Adds Effect.Still t u) (same : u.state = t.state)
    (inflow : ∀ flow, u.inflow = some flow → t.inflow = some flow) : t.Rests u where
  effects := effects
  inflow := inflow
  heard := by rw [same]; exact id
  size := by rw [same]
  next := by rw [same]; exact fun closing acked => ⟨closing, acked, rfl⟩

private theorem rests_emit {e : Effect} (still : e.Still) : t.Rests (t.emit e) :=
  rests_of_state (.one rfl still) rfl fun _ same => same

private theorem rests_withSocket {socket after : Socket} (opened : t.session.socket = some socket)
    (unread : after.unread = socket.unread) (stream : after.stream = socket.stream) :
    t.Rests (t.withSocket after) := by
  refine rests_of_state (.none rfl) rfl fun flow same => ?_
  have same : some (after.unread, after.stream) = some flow := same
  rw [← same, unread, stream]
  unfold Turn.inflow
  rw [opened]
  rfl

theorem still_write {purpose : Purpose} {draft : Draft} {s : Sent}
    (drafts : Sent.ofDraft? draft = some s)
    (still : s.isData = false) : Effect.Still (.write purpose draft) where
  payload := rfl
  sent s same := by
    obtain rfl := Option.some.inj (drafts.symm.trans same)
    exact still

theorem still_reset (ip : Ip.Header) (tcp : Tcp.Header) (n : Nat) (purpose : Purpose) :
    Effect.Still (.write purpose (.reset ip tcp n)) := by
  obtain ⟨flags, seq, ack, drafts, rfl | rfl⟩ := Sent.ofDraft?_reset ip tcp n
  · exact still_write drafts rfl
  · exact still_write drafts rfl

private theorem rests_classify (classifier : Classifier) (direction : Direction) (payload : Bytes) :
    t.Rests (t.classify classifier direction payload) := by
  obtain ⟨_, _, _, frame⟩ := t.classify_frame classifier direction payload
  have told := (t.adds_classify classifier direction payload).imp (q := Effect.Still)
    fun e ⟨flow, same⟩ => by
      subst same
      exact ⟨rfl, fun _ none => by cases none⟩
  constructor
  · exact told
  · unfold Turn.inflow
    rw [frame]
    exact fun _ same => same
  · unfold state
    rw [frame]
    exact id
  · unfold state
    rw [frame]
    rfl
  · unfold state
    rw [frame]
    exact fun closing acked => ⟨closing, acked, rfl⟩

private theorem rests_resendAck : t.Rests t.resendAck := by
  unfold resendAck
  split
  · exact .refl t
  · exact rests_emit (still_write (Sent.ofDraft?_withTimestamps? _ _ _ []) rfl)

private theorem rests_resetPeer : t.Rests t.resetPeer := by
  unfold resetPeer
  split
  · exact .refl t
  · exact rests_emit (still_reset _ _ 0 .reset)

private theorem rests_stamp (s : Inbound.Segment) (now : Nat) : t.Rests (t.stamp s now) :=
  ⟨.none rfl, fun _ same => same, id, rfl, fun closing acked => ⟨closing, acked, rfl⟩⟩

private theorem rests_takePayload (s : Inbound.Segment) (classifier : Classifier) (now : Nat) :
    t.Rests (t.takePayload s classifier now) := by
  have accepted : Effect.Still (.accept s.payload s.ip.totalLength) :=
    ⟨rfl, fun _ none => by cases none⟩
  have queued : t.Rests (t.queue s) :=
    ⟨.one rfl accepted, fun _ same => same, id, rfl, fun closing acked => ⟨closing, acked, rfl⟩⟩
  have classified := queued.trans (rests_classify classifier .egress s.payload)
  rw [takePayload_eq]
  exact (classified.trans (rests_stamp s now)).trans
    (rests_emit (still_write (Sent.ofDraft?_ack _ _ _ _) rfl))

private theorem rests_takePush (s : Inbound.Segment) (now : Nat) : t.Rests (t.takePush s now) := by
  rw [takePush_eq]
  split
  · exact rests_stamp s now
  · exact .refl t

private theorem rests_takeEnd (s : Inbound.Segment) (inOrder : Bool) :
    t.Rests (t.takeEnd s inOrder) := by
  unfold takeEnd
  split
  · split
    · exact rests_emit (still_write (Sent.ofDraft?_finAck _ _ _ _) rfl)
    · exact .refl t
  · split
    · exact ⟨.none rfl, fun _ same => same, id, rfl, fun closing acked => ⟨closing, acked, rfl⟩⟩
    · exact .refl t

private theorem rests_flush : t.Rests t.flush.1 := by
  have sent := t.adds_flush.imp (q := Effect.Still) fun e ⟨socket, bytes, same⟩ => by
    subst same
    exact ⟨rfl, fun _ none => by cases none⟩
  cases opened : t.session.socket with
  | none =>
    rw [flush_none t opened]
    exact .refl t
  | some socket =>
    obtain ⟨room, frame⟩ := Socket.flush_frame t.state.outbound socket []
    rw [flush_some t opened rfl, frame] at sent ⊢
    refine ⟨sent, fun flow same => ?_, id, rfl, fun closing acked => ⟨closing, acked, rfl⟩⟩
    unfold Turn.inflow
    rw [opened]
    exact same

private theorem rests_leave : t.Rests t.report.shut := by
  have reported : Effect.Still (.flowUpdated t.state.flow) := ⟨rfl, fun _ none => by cases none⟩
  have shut := t.report.adds_shut.imp (q := Effect.Still) fun e ⟨number, same⟩ => by
    subst same
    exact ⟨rfl, fun _ none => by cases none⟩
  refine rests_of_state (Adds.trans (.one rfl reported) shut) ?_ ?_
  · unfold Turn.shut
    split <;> rfl
  · unfold Turn.shut
    split
    · exact fun _ none => by cases none
    · exact fun _ same => same

theorem rests_endStream (heard : t.state.lastSegment?.isSome = true) (next : UInt32) :
    t.Rests (t.endStream next) := by
  obtain ⟨⟨ip, tcp⟩, last⟩ := Option.isSome_iff_exists.1 heard
  unfold endStream sendFin
  rw [last]
  exact ⟨.one rfl (still_write (Sent.ofDraft?_finAck _ _ _ _) rfl), fun _ same => same, id, rfl,
    fun _ acked => by cases acked⟩

private theorem rests_noteAck (s : Inbound.Segment) (now : Nat) : t.Rests (t.noteAck s now) := by
  obtain ⟨_, _, _, _, _, frame⟩ := t.noteAck_frame now s
  refine ⟨.none rfl, fun _ same => same, ?_, ?_, ?_⟩
  · unfold state
    rw [frame]
    exact id
  · unfold state
    rw [frame]
    rfl
  · unfold state
    rw [frame]
    exact fun closing acked => ⟨closing, acked, rfl⟩

theorem rests_takeAck (heard : t.state.lastSegment?.isSome = true) (s : Inbound.Segment)
    (now : Nat) :
    t.Rests (t.takeAck s now) := by
  have noted : t.Rests (t.noteAck s now) := rests_noteAck s now
  rw [takeAck_eq]
  split
  · exact noted.trans (rests_endStream (noted.heard heard) _)
  · exact noted

theorem rests_remoteClose (heard : t.state.lastSegment?.isSome = true) : t.Rests t.remoteClose := by
  rw [remoteClose_eq]
  split
  · exact ⟨.none rfl, fun _ same => same, id, rfl, fun closing _ => by cases closing⟩
  · exact rests_endStream heard _

private theorem received_handOn (bytes : Bytes) :
    received (t.handOn bytes).effects = received t.effects := by
  obtain ⟨new, added, silent⟩ := (t.adds_handOn bytes).imp
    (q := fun e => e.payload? .ingress = none) fun e ⟨purpose, draft, same⟩ => by subst same; rfl
  rw [added, received_append, received_silent silent, List.append_nil]

theorem received_deliver (bytes : Bytes) (classifier : Classifier) (now : Nat) :
    received (t.deliver bytes classifier true now).effects = received t.effects ++ bytes := by
  have told : (t.emit (.receive bytes)).Rests
      ((t.emit (.receive bytes)).classify classifier .ingress bytes) := rests_classify _ _ _
  have handed :=
    ((t.emit (.receive bytes)).classify classifier .ingress bytes).received_handOn bytes
  exact handed.trans (told.received.trans (received_receive bytes t.effects))

/-- Bytes go to the peer in segments that follow one another. -/
structure Carries (bytes : Bytes) (t u : Turn) (sent : List Sent) : Prop where
  data : dataSegments u.effects = dataSegments t.effects ++ sent
  whole : payloads sent = bytes
  follow : Follow t.state.sendNext sent
  sized : ∀ s ∈ sent, s.payload ≠ [] ∧ s.payload.length ≤ t.state.maxSegmentSize.toNat
  next : u.state.sendNext = t.state.sendNext + UInt32.ofNat bytes.length

private theorem sendSegment_carries (ip : Ip.Header) (tcp : Tcp.Header) {chunk : Bytes}
    (some_payload : chunk ≠ []) (short : chunk.length ≤ t.state.maxSegmentSize.toNat) :
    ∃ s, t.Carries chunk (t.sendSegment ip tcp chunk) [s] := by
  have drafts :=
    Sent.ofDraft?_data ip tcp t.state.sendNext t.state.recvNext t.state.replyTimestamps chunk
  refine ⟨⟨.psh ∪ .ack, t.state.sendNext, t.state.recvNext, chunk⟩, ?_, ?_, ?_, ?_, rfl⟩
  · have one : segments [.write .data (.data ip tcp t.state.sendNext t.state.recvNext chunk
        t.state.replyTimestamps)] =
        [⟨.psh ∪ .ack, t.state.sendNext, t.state.recvNext, chunk⟩] := by
      simp [segments, Sent.ofEffect?, drafts]
    refine (dataSegments_append [_] _).trans (congrArg (dataSegments t.effects ++ ·) ?_)
    unfold dataSegments
    rw [one]
    rfl
  · simp [payloads]
  · exact ⟨rfl, trivial⟩
  · intro s member
    rw [List.mem_singleton.1 member]
    exact ⟨some_payload, short⟩

private theorem sendSegments_carries (ip : Ip.Header) (tcp : Tcp.Header) (bytes : Bytes)
    (some_size : 1 ≤ t.state.maxSegmentSize.toNat) :
    ∃ sent, t.Carries bytes (t.sendSegments ip tcp bytes) sent := by
  fun_induction sendSegments t ip tcp bytes with
  | case1 t => exact ⟨[], by simp, rfl, trivial, by simp, by simp⟩
  | case2 t first rest more ih =>
    have short : (first :: rest.take more).length ≤ t.state.maxSegmentSize.toNat := by
      simp only [List.length_cons, List.length_take]
      omega
    obtain ⟨s, one⟩ := t.sendSegment_carries ip tcp (List.cons_ne_nil first _) short
    obtain ⟨later, others⟩ := ih some_size
    have whole : first :: rest.take more ++ rest.drop more = first :: rest := by simp
    have payload : s.payload = first :: rest.take more := by
      rw [← one.whole]
      simp [payloads]
    refine ⟨s :: later, ?_, ?_, ?_, ?_, ?_⟩
    · rw [others.data, one.data, List.append_assoc, List.singleton_append]
    · rw [← List.singleton_append, payloads_append, one.whole, others.whole, whole]
    · refine ⟨one.follow.1, ?_⟩
      rw [payload, ← one.next]
      exact others.follow
    · exact List.forall_mem_cons.2 ⟨one.sized s (List.mem_singleton_self s), others.sized⟩
    · rw [others.next, one.next, UInt32.add_assoc, ← UInt32.ofNat_add, ← List.length_append, whole]

private theorem carries_handOn (headed : t.Headed) (heard : t.state.lastSegment?.isSome = true)
    (stream : t.session.key.protocol = .tcp) (bytes : Bytes) :
    ∃ sent, t.Carries bytes (t.handOn bytes) sent := by
  obtain ⟨⟨ip, tcp⟩, last⟩ := Option.isSome_iff_exists.1 heard
  unfold handOn
  rw [stream, last]
  exact t.sendSegments_carries ip tcp bytes headed.some_size

private theorem size_handOn (bytes : Bytes) :
    (t.handOn bytes).state.maxSegmentSize = t.state.maxSegmentSize := by
  obtain ⟨_, _, handed⟩ := t.handOn_frame bytes
  unfold state
  rw [handed]
  rfl

theorem inflow_reads {bytes : Bytes} {after : Socket} (reads : t.Reads (.ok bytes) after)
    (plugged : ∀ flow, t.inflow = some flow → flow.2 = true) :
    t.inflow = some (bytes ++ after.unread, true) ∧ after.stream = true := by
  obtain ⟨socket, opened, read⟩ := reads.read
  have inflow : t.inflow = some (socket.unread, socket.stream) := by
    unfold Turn.inflow
    rw [opened]
    rfl
  have stream : socket.stream = true := plugged _ inflow
  rw [inflow, Socket.unread_read stream read, stream]
  obtain ⟨_, rfl⟩ := Socket.read_frame read
  exact ⟨rfl, stream⟩

/-- What a move does to a stream. It rests, the network changes what its socket meets, or bytes are
read and delivered. -/
theorem Move.rests (heard : t.state.lastSegment?.isSome = true)
    (plugged : ∀ flow, t.inflow = some flow → flow.2 = true)
    (stream : t.session.key.protocol = .tcp)
    (move : Move settings outside t u) :
    t.Rests u ∨ (outside.changes ∧ ∃ outlook, u = t.meet outlook) ∨
      ∃ bytes after now, t.Reads (.ok bytes) after ∧
        u = (t.withSocket after).deliver bytes settings.ingressClassifier true now := by
  cases move with
  | resendAck => exact .inl rests_resendAck
  | remember s =>
    exact .inl ⟨.none rfl, fun _ same => same, fun _ => rfl, rfl,
      fun closing acked => ⟨closing, acked, rfl⟩⟩
  | takePayload s now => exact .inl (rests_takePayload s _ now)
  | refusePayload s => exact .inl (rests_emit (still_write (Sent.ofDraft?_ack _ _ _ _) rfl))
  | takeAck s now => exact .inl (rests_takeAck heard s now)
  | takePush s now => exact .inl (rests_takePush s now)
  | takeEnd s inOrder => exact .inl (rests_takeEnd s inOrder)
  | cancel | refresh => exact .inl (rests_emit ⟨rfl, fun _ none => by cases none⟩)
  | touch | abandon =>
    exact .inl ⟨.none rfl, fun _ same => same, id, rfl, fun closing acked => ⟨closing, acked, rfl⟩⟩
  | takeDatagram d _ own =>
    rw [← own] at stream
    cases stream
  | check result after checks =>
    obtain ⟨socket, opened, checked⟩ := checks.check
    obtain ⟨_, rfl⟩ := Socket.checkConnected_frame checked
    exact .inl (rests_withSocket opened rfl rfl)
  | connect after checks =>
    obtain ⟨socket, opened, checked⟩ := checks.check
    obtain ⟨_, rfl⟩ := Socket.checkConnected_frame checked
    exact .inl ((rests_withSocket opened rfl rfl).trans
      ⟨.none rfl, fun _ same => same, id, rfl, fun closing acked => ⟨closing, acked, rfl⟩⟩)
  | flush => exact .inl rests_flush
  | readNothing e after reads =>
    obtain ⟨socket, opened, read⟩ := reads.read
    have unread := Socket.unread_failure read
    obtain ⟨_, rfl⟩ := Socket.read_frame read
    exact .inl (rests_withSocket opened unread rfl)
  | deliver bytes after now reads => exact .inr (.inr ⟨bytes, after, now, reads, rfl⟩)
  | remoteClose after reads =>
    obtain ⟨inflow, stream⟩ := inflow_reads reads plugged
    have ended : t.Rests (t.withSocket after) := by
      refine rests_of_state (.none rfl) rfl fun flow same => ?_
      rw [inflow, ← same]
      exact congrArg (fun kind => some (after.unread, kind)) stream.symm
    exact .inl (ended.trans (rests_remoteClose heard))
  | resetPeer => exact .inl rests_resetPeer
  | leave => exact .inl rests_leave
  | network outlook allowed => exact .inr (.inl ⟨allowed, outlook, rfl⟩)

/-- The stream to the peer of a session that began at `isn`. -/
structure Streams (isn : UInt32) (t : Turn) : Prop where
  heard : t.state.lastSegment?.isSome = true
  plugged : ∀ flow, t.inflow = some flow → flow.2 = true
  begun : ∃ ack, (segments t.effects).head? = some ⟨.syn ∪ .ack, isn, ack, []⟩
  whole : payloads (dataSegments t.effects) = received t.effects
  follow : Follow (isn + 1) (dataSegments t.effects)
  sized : ∀ s ∈ dataSegments t.effects, s.payload ≠ [] ∧
    s.payload.length ≤ t.state.maxSegmentSize.toNat
  next : t.state.closing = false → t.state.ackedToFin = false →
    t.state.sendNext = isn + 1 + UInt32.ofNat (received t.effects).length

theorem begun_of_grows {first : Sent} (grows : Adds (fun _ => True) t u)
    (begun : (segments t.effects).head? = some first) :
    (segments u.effects).head? = some first := by
  obtain ⟨new, added, -⟩ := grows
  rw [added, segments_append, List.head?_append, begun]
  rfl

private theorem Streams.rests (h : Streams isn t) (rests : t.Rests u) : Streams isn u := by
  refine ⟨rests.heard h.heard, fun flow same => h.plugged flow (rests.inflow flow same),
    ?_, ?_, ?_, ?_, fun closing acked => ?_⟩
  · obtain ⟨ack, begun⟩ := h.begun
    exact ⟨ack, begun_of_grows (rests.effects.imp fun _ _ => trivial) begun⟩
  · rw [rests.data, rests.received, h.whole]
  · rw [rests.data]
    exact h.follow
  · rw [rests.data, rests.size]
    exact h.sized
  · obtain ⟨closing, acked, same⟩ := rests.next closing acked
    rw [same, rests.received]
    exact h.next closing acked

/-- A stream to the peer that lacks the bytes its socket has just delivered. -/
structure Owes (isn : UInt32) (bytes : Bytes) (t : Turn) : Prop where
  heard : t.state.lastSegment?.isSome = true
  plugged : ∀ flow, t.inflow = some flow → flow.2 = true
  begun : ∃ ack, (segments t.effects).head? = some ⟨.syn ∪ .ack, isn, ack, []⟩
  whole : payloads (dataSegments t.effects) ++ bytes = received t.effects
  follow : Follow (isn + 1) (dataSegments t.effects)
  sized : ∀ s ∈ dataSegments t.effects, s.payload ≠ [] ∧
    s.payload.length ≤ t.state.maxSegmentSize.toNat
  next : t.state.sendNext = isn + 1 + UInt32.ofNat (payloads (dataSegments t.effects)).length

private theorem Streams.owes (h : Streams isn t) (readable : t.Readable) (bytes : Bytes)
    (classifier : Classifier) :
    Owes isn bytes ((t.emit (.receive bytes)).classify classifier .ingress bytes) := by
  have told : (t.emit (.receive bytes)).Rests
      ((t.emit (.receive bytes)).classify classifier .ingress bytes) := rests_classify _ _ _
  have data : dataSegments ((t.emit (.receive bytes)).classify classifier .ingress bytes).effects =
      dataSegments t.effects :=
    told.data.trans ((dataSegments_append [_] _).trans (List.append_nil _))
  have grows : Adds (fun _ => True) t (t.emit (.receive bytes)) := .one rfl trivial
  refine ⟨told.heard h.heard, fun flow same => h.plugged flow (told.inflow flow same),
    ?_, ?_, ?_, ?_, ?_⟩
  · obtain ⟨ack, begun⟩ := h.begun
    exact ⟨ack, begun_of_grows (grows.trans (told.effects.imp fun _ _ => trivial)) begun⟩
  · rw [data, h.whole, told.received]
    exact (received_receive bytes t.effects).symm
  · rw [data]
    exact h.follow
  · rw [data, told.size]
    exact h.sized
  -- `Rests` tells of the number only where our FIN is not out afterwards; the frame tells it at once.
  · obtain ⟨_, _, _, frame⟩ := (t.emit (.receive bytes)).classify_frame classifier .ingress bytes
    have unmoved : ((t.emit (.receive bytes)).classify classifier .ingress bytes).state.sendNext =
        t.state.sendNext := by
      unfold state
      rw [frame]
      rfl
    rw [data, h.whole, unmoved]
    exact h.next readable.notClosing readable.notAcked

private theorem Owes.handOn {bytes : Bytes} (h : Owes isn bytes t) (headed : t.Headed)
    (stream : t.session.key.protocol = .tcp) : Streams isn (t.handOn bytes) := by
  obtain ⟨sent, carries⟩ := carries_handOn headed h.heard stream bytes
  obtain ⟨_, _, handed⟩ := t.handOn_frame bytes
  have arrived : received (t.handOn bytes).effects = received t.effects := received_handOn bytes
  refine ⟨?_, fun flow same => h.plugged flow ?_, ?_, ?_, ?_, ?_, fun _ _ => ?_⟩
  · unfold state
    rw [handed]
    exact h.heard
  · rw [← same]
    unfold Turn.inflow
    rw [handed]
    rfl
  · obtain ⟨ack, begun⟩ := h.begun
    exact ⟨ack, begun_of_grows ((t.adds_handOn bytes).imp fun _ _ => trivial) begun⟩
  · rw [carries.data, payloads_append, carries.whole, h.whole, arrived]
  · rw [carries.data, follow_append, ← h.next]
    exact ⟨h.follow, carries.follow⟩
  · rw [size_handOn, carries.data]
    exact fun s member => (List.mem_append.1 member).elim (h.sized s) (carries.sized s)
  · rw [carries.next, h.next, arrived, ← h.whole, List.length_append, UInt32.ofNat_add,
      ← UInt32.add_assoc]

private theorem Streams.deliver (h : Streams isn t) (headed : t.Headed)
    (stream : t.session.key.protocol = .tcp) (readable : t.Readable) (bytes : Bytes)
    (classifier : Classifier) (now : Nat) :
    Streams isn (t.deliver bytes classifier true now) := by
  have key : ((t.emit (.receive bytes)).classify classifier .ingress bytes).session.key =
      t.session.key :=
    (alike_classify classifier .ingress bytes).key
  have headed : ((t.emit (.receive bytes)).classify classifier .ingress bytes).Headed :=
    headed.of_heads (heads_classify classifier .ingress bytes)
  have handed := (h.owes readable bytes classifier).handOn headed (key ▸ stream)
  rw [deliver_eq, if_pos rfl]
  exact ⟨handed.heard, handed.plugged, handed.begun, handed.whole, handed.follow, handed.sized,
    handed.next⟩

theorem Streams.move (h : Streams isn t) (headed : t.Headed)
    (stream : t.session.key.protocol = .tcp) (move : Move settings outside t u) :
    Streams isn u := by
  obtain rests | ⟨-, outlook, rfl⟩ | ⟨bytes, after, now, reads, rfl⟩ :=
    move.rests h.heard h.plugged stream
  · exact h.rests rests
  · refine ⟨h.heard, fun flow same => ?_, h.begun, h.whole, h.follow, h.sized, h.next⟩
    obtain ⟨after, met, rfl⟩ := Option.map_eq_some_iff.1 same
    obtain ⟨socket, opened, rfl⟩ := Option.map_eq_some_iff.1 met
    refine h.plugged (socket.unread, socket.stream) ?_
    unfold Turn.inflow
    rw [opened]
    rfl
  · obtain ⟨-, plugged⟩ := inflow_reads reads h.plugged
    refine Streams.deliver (t := t.withSocket after)
      ⟨h.heard, fun flow same => ?_, h.begun, h.whole, h.follow, h.sized, h.next⟩
      (headed.of_heads rfl) stream
      ⟨reads.connected, reads.notClosing, reads.notAcked⟩ bytes _ now
    obtain rfl := Option.some.inj same
    exact plugged

theorem streams_opened (opened : Opened settings t) (stream : t.session.key.protocol = .tcp) :
    ∃ isn, Streams isn t := by
  obtain ⟨s, isn, prospect, number, connected, now, -, -, rfl⟩ := opened.syn stream
  have sent := segments_begun settings s isn prospect number connected now
  have nothing :
      dataSegments (begun settings s isn prospect number connected now).effects = [] := by
    unfold dataSegments
    rw [sent]
    rfl
  refine ⟨isn, rfl, fun flow same => ?_, ⟨s.tcp.seq + 1, by rw [sent]; rfl⟩,
    ?_, ?_, ?_, fun _ _ => ?_⟩
  · obtain rfl := Option.some.inj same
    rfl
  · rw [nothing]
    rfl
  · rw [nothing]
    trivial
  · rw [nothing]
    simp
  · exact (UInt32.add_zero (isn + 1)).symm

/-- In every life of a stream, what its socket delivered has reached the peer as it is. -/
theorem Lives.streams (lives : Lives settings t) (stream : t.session.key.protocol = .tcp) :
    ∃ isn, Streams isn t := by
  refine lives.stream_induction stream (fun t opened stream => streams_opened opened stream) ?_
  intro t u lives stream ⟨isn, streams⟩ move
  exact ⟨isn, streams.move lives.headed stream move⟩

theorem Lives.along {P : Turn → Prop} (lives : Lives settings t)
    (stream : t.session.key.protocol = .tcp) (moves : Moves settings outside t u) (first : P t)
    (step : ∀ {isn : UInt32} {v w : Turn}, Moves settings outside t v →
      v.session.key = t.session.key → v.session.key.protocol = .tcp → Streams isn v →
      Move settings outside v w → P v → P w) : P u := by
  induction moves with
  | refl => exact first
  | @tail v w before move ih =>
    have key := Moves.key before
    have stream_here : v.session.key.protocol = .tcp := by rw [key, stream]
    obtain ⟨isn, streams⟩ := (lives.moves before).streams stream_here
    exact step before key stream_here streams move ih

/-- While nothing changes what a socket meets, bytes are taken from it in their order: some are
taken, and the others are left to it as long as it is open. -/
structure Draws (taken left : Bytes) (t u : Turn) : Prop where
  received : received u.effects = received t.effects ++ taken
  whole : ∀ flow, t.inflow = some flow → flow.1 = taken ++ left
  rest : ∀ flow, u.inflow = some flow → t.inflow.isSome = true ∧ flow.1 = left

private theorem Lives.draws (lives : Lives settings t) (stream : t.session.key.protocol = .tcp)
    (undisturbed : ¬ outside.changes) (moves : Moves settings outside t u) :
    ∃ taken left, Draws taken left t u := by
  refine lives.along (P := fun u => ∃ taken left, Draws taken left t u) stream moves ?_ ?_
  · refine ⟨[], (t.inflow.map (·.1)).getD [], (List.append_nil _).symm, fun flow same => ?_,
      fun flow same => ⟨?_, ?_⟩⟩ <;> rw [same] <;> rfl
  · intro isn v u _ _ stream streams move ⟨taken, left, draws⟩
    obtain rests | ⟨disturbed, -⟩ | ⟨bytes, after, now, reads, rfl⟩ :=
      move.rests streams.heard streams.plugged stream
    · refine ⟨taken, left, rests.received.trans draws.received, draws.whole, fun flow same => ?_⟩
      exact draws.rest flow (rests.inflow flow same)
    · exact absurd disturbed undisturbed
    · obtain ⟨inflow, -⟩ := inflow_reads reads streams.plugged
      obtain ⟨opened, rest⟩ := draws.rest _ inflow
      refine ⟨taken ++ bytes, after.unread, ?_, fun flow same => ?_, fun flow same => ⟨opened, ?_⟩⟩
      · rw [received_deliver]
        exact (congrArg (· ++ bytes) draws.received).trans (List.append_assoc _ _ _)
      · rw [draws.whole flow same, ← rest, List.append_assoc]
      · unfold Turn.inflow at same
        rw [socket_deliver] at same
        obtain rfl := Option.some.inj same
        rfl

end Session.Turn

namespace Relay

/-- What the sockets of streams deliver reaches the peers: in every run, the payloads of the
segments that carry a stream are what its socket has delivered, each segment has the number of its
offset behind the initial one, and none is empty or longer than the session's segment size. And as
long as nothing changes what the socket meets, what it delivers is taken from it in order, and
nothing is lost. -/
theorem run_streams (settings : Settings) (now coreWorkers maxWorkers : Nat) (events : List Event)
    {id : SessionId} {session : Session}
    (at_id : ((start settings now coreWorkers maxWorkers).run events).sessions[id]? = some session)
    (stream : session.key.protocol = .tcp) :
    let r := (start settings now coreWorkers maxWorkers).run events
    let data := (r.sentBy id).filter (·.isData)
    let delivered := received (r.effectsOf (some id))
    (∃ isn ack, (r.sentBy id).head? = some ⟨.syn ∪ .ack, isn, ack, []⟩ ∧
      ∀ i s, data[i]? = some s →
        s.seq = isn + 1 + UInt32.ofNat (payloads (data.take i)).length ∧
        s.payload ≠ [] ∧ s.payload.length ≤ session.state.maxSegmentSize.toNat) ∧
    payloads data = delivered ∧
    ∀ later : List Event, (∀ e ∈ later, ¬ e.disturbs id) →
      ∃ after taken left, (r.run later).sessions[id]? = some after ∧
        received ((r.run later).effectsOf (some id)) = delivered ++ taken ∧
        (∀ socket, session.socket = some socket → socket.unread = taken ++ left) ∧
        ∀ socket, after.socket = some socket → session.socket.isSome ∧ socket.unread = left := by
  intro r data delivered
  have traced : Traced r := traced_run settings now coreWorkers maxWorkers events
  have known : r.history id = some ⟨session, r.effectsOf (some id)⟩ := history_of_session at_id
  have lives := traced.lives id _ known
  obtain ⟨isn, streams⟩ := lives.streams stream
  have sent : r.sentBy id = segments (r.effectsOf (some id)) := traced.sentBy at_id stream
  have carried : data = dataSegments (r.effectsOf (some id)) :=
    congrArg (List.filter (·.isData)) sent
  obtain ⟨ack, begun⟩ := streams.begun
  refine ⟨⟨isn, ack, by rw [sent, begun], fun i s at_i => ?_⟩, by rw [carried, streams.whole],
    fun later undisturbed => ?_⟩
  · rw [carried] at at_i ⊢
    exact ⟨streams.follow.seq_at at_i, streams.sized s (List.mem_of_getElem? at_i)⟩
  · have changes := (consistent_run settings now coreWorkers maxWorkers events).run later
    obtain ⟨u, after, moves⟩ := Changes.history changes known
    have still : ¬ ∃ e ∈ later, e.disturbs id := fun ⟨e, member, disturbs⟩ =>
      undisturbed e member disturbs
    obtain ⟨taken, left, draws⟩ := lives.draws stream still moves
    obtain ⟨at_id, effects⟩ := history_eq_some.1 after
    refine ⟨u.session, taken, left, at_id, ?_, fun socket opened => ?_, fun socket opened => ?_⟩
    · rw [effects]
      exact draws.received
    · exact draws.whole (socket.unread, socket.stream) (by
        unfold Turn.inflow
        rw [opened]
        rfl)
    · obtain ⟨opened, rest⟩ := draws.rest (socket.unread, socket.stream) (by
        unfold Turn.inflow
        rw [opened]
        rfl)
      unfold Turn.inflow at opened
      rw [Option.isSome_map] at opened
      exact ⟨opened, rest⟩

/-- Three bytes go to the peer in segments of two at most. -/
theorem run_streams_segments :
    let settings : Settings := { Settings.plain with mssLimit := 2 }
    let syn : Event := .packet (sampleSegment 2 1000 0 []) 500 (.smooth [.data [1, 2, 3]])
    let r := (start settings 0 1 1).run [syn, .pass (fun _ => 0) (fun _ => 0)]
    let data := (r.sentBy 0).filter (·.isData)
    r.sessions[0]?.map (·.key.protocol) = some .tcp ∧
      data.map (fun s => (s.seq, s.payload)) = [(501, [1, 2]), (503, [3])] ∧
      payloads data = received (r.effectsOf (some 0)) := by
  intro settings syn r data
  have opened : r.sessions[0]?.map (·.key.protocol) = some .tcp := by decide +kernel
  obtain ⟨session, at_id, stream⟩ := Option.map_eq_some_iff.1 opened
  exact ⟨opened, by decide +kernel, (run_streams settings 0 1 1 _ at_id stream).2.1⟩

end Relay
end PacketRelay
