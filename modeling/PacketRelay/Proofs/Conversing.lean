import PacketRelay.Proofs.Closing
import PacketRelay.Proofs.Delivery
import PacketRelay.Proofs.Isolation

/-!
A conversation in order, from the SYN to the FIN.

As long as the segments of the peer come one behind the other, the session expects the end of what
it has accepted, so it accepts the next one and acknowledges it: `Conversing` is kept by every event
but a pass that removes the session. The FIN finds it like that, and is answered after all else.
-/

set_option autoImplicit false

namespace PacketRelay

open Session (Key Turn Classifier)

/-- A segment that carries data from a number on, and nothing but data. -/
structure Inbound.Segment.Continues (s : Inbound.Segment) (seq : UInt32) : Prop where
  at_seq : s.tcp.seq = seq
  carries : s.payload ≠ []
  isAck : s.tcp.isAck = true
  notSyn : s.tcp.isSyn = false
  notFin : s.tcp.isFin = false

/-- A FIN with ACK at a number, with or without data. -/
structure Inbound.Segment.Ends (s : Inbound.Segment) (seq : UInt32) : Prop where
  at_seq : s.tcp.seq = seq
  isAck : s.tcp.isAck = true
  notSyn : s.tcp.isSyn = false
  isFin : s.tcp.isFin = true

instance (s : Inbound.Segment) (seq : UInt32) : Decidable (s.Continues seq) :=
  decidable_of_iff (s.tcp.seq = seq ∧ s.payload ≠ [] ∧ s.tcp.isAck = true ∧ s.tcp.isSyn = false ∧
    s.tcp.isFin = false)
    ⟨fun ⟨a, b, c, d, e⟩ => ⟨a, b, c, d, e⟩, fun ⟨a, b, c, d, e⟩ => ⟨a, b, c, d, e⟩⟩

instance (s : Inbound.Segment) (seq : UInt32) : Decidable (s.Ends seq) :=
  decidable_of_iff (s.tcp.seq = seq ∧ s.tcp.isAck = true ∧ s.tcp.isSyn = false ∧ s.tcp.isFin = true)
    ⟨fun ⟨a, b, c, d⟩ => ⟨a, b, c, d⟩, fun ⟨a, b, c, d⟩ => ⟨a, b, c, d⟩⟩

/-- Segments of a stream that come one behind the other, from an offset of the stream on. -/
def Consecutive (base : UInt32) : Nat → List Inbound.Segment → Prop
  | _, [] => True
  | n, s :: rest =>
    s.Continues (base + UInt32.ofNat n) ∧ Consecutive base (n + s.payload.length) rest

instance (base : UInt32) : ∀ n segments, Decidable (Consecutive base n segments)
  | _, [] => inferInstanceAs (Decidable True)
  | n, s :: rest =>
    have := instDecidableConsecutive base (n + s.payload.length) rest
    inferInstanceAs (Decidable (_ ∧ _))

private theorem behind_append (base : UInt32) (sofar payload : Bytes) :
    base + UInt32.ofNat (sofar ++ payload).length =
      base + UInt32.ofNat sofar.length + UInt32.ofNat payload.length := by
  rw [List.length_append, UInt32.ofNat_add, UInt32.add_assoc]

namespace Session.State

variable {st : State} {s : Inbound.Segment}

private theorem acceptsData_of_at (at_seq : s.tcp.seq = st.recvNext) :
    st.acceptsData s.tcp.seq = true := by
  rw [acceptsData, at_seq, Serial.atOrAfter_self, Bool.or_true]

private theorem expected_of_at (at_seq : s.tcp.seq = st.recvNext) :
    (st.enqueue s).recvNext = s.nextSeq := by
  show (if st.recvNext == 0 then s.tcp.seq else st.recvNext) + _ = s.tcp.seq + _
  rw [at_seq, ite_self]

end Session.State

namespace Session.Turn

variable {settings : Relay.Settings} {outside : Outside} {t u : Turn} {s : Inbound.Segment}
  {base : UInt32} {key : Key} {sofar : Bytes}

section Answers

private theorem drafts_classify (classifier : Classifier) (direction : Direction)
    (payload : Bytes) :
    drafts (t.classify classifier direction payload).effects = drafts t.effects :=
  drafts_of_adds ((t.adds_classify classifier direction payload).imp fun _ ⟨_, same⟩ => same ▸ rfl)

private theorem drafts_flush : drafts t.flush.1.effects = drafts t.effects :=
  drafts_of_adds (t.adds_flush.imp fun _ ⟨_, _, same⟩ => same ▸ rfl)

private theorem drafts_shut : drafts t.shut.effects = drafts t.effects :=
  drafts_of_adds (t.adds_shut.imp fun _ ⟨_, same⟩ => same ▸ rfl)

private theorem drafts_finish : drafts t.finish.effects = drafts t.effects := by
  show drafts (if _ then (t.emit (.cancel t.session.key)).flush.1
    else t.emit (.cancel t.session.key)).effects = drafts t.effects
  split
  · exact drafts_flush
  · rfl

theorem drafts_conclude (now : Nat) (verdict : Verdict) :
    drafts (t.conclude now verdict).effects = drafts t.effects := by
  cases verdict with
  | close => exact drafts_shut.trans drafts_finish
  | stay refresh =>
    have told : drafts (t.tell refresh).effects = drafts t.effects := by cases refresh <;> rfl
    simp only [conclude]
    split <;> exact told

private theorem drafts_takePayload (s : Inbound.Segment) (classifier : Classifier) (now : Nat) :
    ∃ timestamps, drafts (t.takePayload s classifier now).effects =
      .ack s.ip s.tcp (t.state.enqueue s).recvNext timestamps :: drafts t.effects := by
  have expected := (bides_classify (t := t.queue s) classifier .egress s.payload).expected
  have classified := drafts_classify (t := t.queue s) classifier .egress s.payload
  rw [takePayload_eq]
  exact ⟨_, congrArg₂ List.cons (congrArg₂ (Draft.ack s.ip s.tcp) expected rfl) classified⟩

theorem drafts_takePush (s : Inbound.Segment) (now : Nat) :
    drafts (t.takePush s now).effects = drafts t.effects := by
  rw [takePush_eq]
  split <;> rfl

theorem drafts_takeEnd (s : Inbound.Segment) : drafts (t.takeEnd s true).effects =
    (if s.tcp.isFin then [.finAck s.ip s.tcp s.tcp.ack (s.nextSeq + 1)] else []) ++
      drafts t.effects := by
  unfold takeEnd
  split
  · rfl
  · split <;> rfl

theorem verdict_receiveAck (t : Turn) (s : Inbound.Segment) (classifier : Classifier) (now : Nat) :
    (t.receiveAck s classifier now).2 =
      if s.payload.isEmpty && !t.state.closing && t.state.ackedToFin && !s.tcp.isFin ||
          s.tcp.isFin &&
            (s.payload.isEmpty || !s.payload.isEmpty && t.state.acceptsData s.tcp.seq) then .close
      else .stay (!s.payload.isEmpty && t.state.acceptsData s.tcp.seq || s.tcp.isPsh) := rfl

theorem receiveAck_inOrder (inOrder : s.payload = [] ∨ t.state.acceptsData s.tcp.seq = true)
    (classifier : Classifier) (now : Nat) :
    let u := t.update fun st => st.rememberTcp s.ip s.tcp
    let v := if s.payload.isEmpty then u.takeAck s now else u.takePayload s classifier now
    (t.receiveAck s classifier now).1 = (v.takePush s now).takeEnd s true ∧
      (s.tcp.isFin = true → (t.receiveAck s classifier now).2 = .close) ∧
      (s.payload ≠ [] → s.tcp.isFin = false →
        ∃ refresh, (t.receiveAck s classifier now).2 = .stay refresh) := by
  intro u v
  have taken : (s.payload.isEmpty || !s.payload.isEmpty && u.state.acceptsData s.tcp.seq) =
      true := by
    cases bare : s.payload.isEmpty with
    | true => rfl
    | false =>
      exact inOrder.resolve_left fun none_there => by
        rw [none_there] at bare
        cases bare
  have verdict := t.verdict_receiveAck s classifier now
  have same : u.state.acceptsData s.tcp.seq = t.state.acceptsData s.tcp.seq := rfl
  rw [← same, taken] at verdict
  refine ⟨?_, fun isFin => ?_, fun carries notFin => ?_⟩
  · have order : (t.receiveAck s classifier now).1 =
        ((if s.payload.isEmpty then u.takeAck s now
          else if !s.payload.isEmpty && u.state.acceptsData s.tcp.seq then
            u.takePayload s classifier now
          else u.refusePayload s).takePush s now).takeEnd s
            (s.payload.isEmpty || !s.payload.isEmpty && u.state.acceptsData s.tcp.seq) := rfl
    rw [order, taken]
    cases bare : s.payload.isEmpty with
    | true => simp only [v, bare, if_true]
    | false =>
      rw [bare, Bool.false_or] at taken
      simp only [v, bare, taken, if_true, Bool.false_eq_true, if_false]
  · rw [verdict, isFin]
    exact if_pos (Bool.or_true _)
  · rw [verdict, List.isEmpty_eq_false_iff.2 carries, notFin]
    exact ⟨_, if_neg Bool.false_ne_true⟩

private theorem drafts_continues (continues : s.Continues t.state.recvNext)
    (classifier : Classifier) (now : Nat) :
    (∃ timestamps, drafts (t.hear s classifier now).effects =
      .ack s.ip s.tcp s.nextSeq timestamps :: drafts t.effects) ∧
    (t.hear s classifier now).session.socket = t.session.socket := by
  obtain ⟨same, -, stays⟩ := receiveAck_inOrder
    (.inr (Session.State.acceptsData_of_at continues.at_seq)) classifier now
  obtain ⟨refresh, stays⟩ := stays continues.carries continues.notFin
  have some_payload : s.payload.isEmpty = false := by simpa using continues.carries
  obtain ⟨timestamps, acknowledged⟩ := drafts_takePayload
    (t := t.update fun st => st.rememberTcp s.ip s.tcp) s classifier now
  refine ⟨⟨timestamps, ?_⟩, by rw [hear, stays, socket_conclude, socket_receiveAck]⟩
  unfold hear
  rw [drafts_conclude, same, drafts_takeEnd, drafts_takePush, continues.notFin, some_payload]
  have next : ((t.update fun st => st.rememberTcp s.ip s.tcp).state.enqueue s).recvNext =
      s.nextSeq :=
    Session.State.expected_of_at continues.at_seq
  rw [next] at acknowledged
  exact acknowledged

theorem drafts_fin (inOrder : s.payload = [] ∨ t.state.acceptsData s.tcp.seq = true)
    (isFin : s.tcp.isFin = true) (classifier : Classifier) (now : Nat) :
    (∃ others, drafts (t.hear s classifier now).effects =
      .finAck s.ip s.tcp s.tcp.ack (s.nextSeq + 1) :: others ++ drafts t.effects) ∧
    (t.hear s classifier now).session.socket = none := by
  obtain ⟨same, closes, -⟩ := receiveAck_inOrder inOrder classifier now
  refine ⟨?_, ?_⟩
  · unfold hear
    rw [drafts_conclude, same, drafts_takeEnd, drafts_takePush, if_pos isFin]
    split
    · obtain ⟨new, added, -⟩ :=
        (leaves_takeAck (t := t.update fun st => st.rememberTcp s.ip s.tcp) s now).unsent
      refine ⟨drafts new, ?_⟩
      rw [added, drafts_append]
      rfl
    · obtain ⟨timestamps, acknowledged⟩ := drafts_takePayload
        (t := t.update fun st => st.rememberTcp s.ip s.tcp) s classifier now
      rw [acknowledged]
      exact ⟨[_], rfl⟩
  · unfold hear
    rw [closes isFin]
    exact socket_shut

private theorem drafts_ends (ends : s.Ends t.state.recvNext) (classifier : Classifier) (now : Nat) :
    (∃ others, drafts (t.hear s classifier now).effects =
      .finAck s.ip s.tcp s.tcp.ack (s.nextSeq + 1) :: others ++ drafts t.effects) ∧
    (t.hear s classifier now).session.socket = none :=
  drafts_fin (.inr (Session.State.acceptsData_of_at ends.at_seq)) ends.isFin classifier now

end Answers

/-- What has come in order has been accepted, and its end is expected. -/
structure Conversing (base : UInt32) (key : Key) (sofar : Bytes) (t : Turn) : Prop where
  own : t.session.key = key
  expected : t.state.recvNext = base + UInt32.ofNat sofar.length
  accepted : accepted t.effects = sofar

private theorem conversing_begun (isn : UInt32) (prospect : Socket.Prospect) (number : Nat)
    (connected : Bool) (now : Nat) :
    Conversing (s.tcp.seq + 1) s.key [] (begun settings s isn prospect number connected now) :=
  ⟨rfl, (UInt32.add_zero (s.tcp.seq + 1)).symm, rfl⟩

private theorem Conversing.receiveAck (h : Conversing base key sofar t)
    (at_seq : s.tcp.seq = base + UInt32.ofNat sofar.length) (carries : s.payload ≠ [])
    (classifier : Classifier) (now : Nat) :
    Conversing base key (sofar ++ s.payload) (t.receiveAck s classifier now).1 := by
  have at_seq : s.tcp.seq = t.state.recvNext := at_seq.trans h.expected.symm
  have accepts := Session.State.acceptsData_of_at at_seq
  refine ⟨(t.key_receiveAck s classifier now).trans h.own, ?_, ?_⟩
  · obtain ⟨bare, -⟩ | ⟨-, -, bides, -⟩ | ⟨-, refuses, -⟩ := t.receiveAck_cases s classifier now
    · exact absurd bare carries
    · refine bides.expected.trans ((Session.State.expected_of_at at_seq).trans ?_)
      rw [Inbound.Segment.nextSeq, at_seq, h.expected, behind_append]
    · rw [accepts] at refuses
      cases refuses
  · rw [accepted_receiveAck, if_pos accepts, h.accepted]

private theorem Conversing.moves (h : Conversing base key sofar t) (lives : Lives settings t)
    (stream : key.protocol = .tcp) (deaf : outside.Deaf key) (moves : Moves settings outside t u) :
    Conversing base key sofar u := by
  have stream : t.session.key.protocol = .tcp := h.own ▸ stream
  have deaf : outside.Deaf t.session.key := h.own ▸ deaf
  obtain ⟨expected, -⟩ := lives.acknowledges stream deaf moves
  exact ⟨moves.key.trans h.own, expected.trans h.expected,
    (Moves.accepted stream deaf moves).trans h.accepted⟩

end Session.Turn

theorem Draft.Replies.read_back {d : Draft} {key : Key} (replies : d.Replies key fun _ => False)
    (identification : UInt16) :
    Sent.ofBytes? (d.toBytes identification) = Sent.ofDraft? d ∧
      Key.ofPacket? (d.toBytes identification) = some key.back := by
  obtain ⟨legible, own⟩ := replies.addressed
  exact ⟨Sent.ofBytes?_toBytes (replies.sound fun _ _ => False.elim) identification,
    (legible.ofPacket? identification).trans own⟩

namespace Relay

variable {r after : Relay} {id : SessionId} {t : Turn} {e : Event} {s : Inbound.Segment}
  {base : UInt32} {key : Key} {sofar : Bytes}

theorem Writes.latest {d : Draft} {ds : List Draft} (writes : Writes (d :: ds) r after) :
    ∃ identification others, after.written = d.toBytes identification :: others ++ r.written ∧
      others.length = ds.length := by
  obtain ⟨packets, written, sent⟩ := writes
  cases sent with
  | @cons _ _ others _ same rest =>
    obtain ⟨identification, rfl⟩ := same
    exact ⟨identification, others, written, rest.length_eq⟩

private theorem Consistent.hear_writes (h : Consistent r) (known : r.history id = some t)
    (reaches : Reaches e t s) :
    Writes (drafts ((Turn.start t.session).hear s r.settings.egressClassifier r.now).effects) r
      (r.step e) := by
  obtain ⟨stands, -⟩ := h.hear known reaches.opened reaches.own.symm
  rw [step_handleAck reaches.brings reaches.isAck reaches.notSyn]
  rw [t.hear_start] at stands
  exact (stands.enters known rfl).writes

private theorem Consistent.opened_of_lookup (h : Consistent r) (current : r.lookup key = some id)
    (known : r.history id = some t) : t.session.socket.isSome = true := by
  obtain ⟨u, there, -, opened⟩ := h.found key id current
  rwa [Option.some.inj (known.symm.trans there)]

section Events

variable (h : Consistent r) (known : r.history id = some t)
  (conversing : t.Conversing base key sofar)

include h known conversing

private theorem Consistent.converses_other (traced : Traced r) (stream : key.protocol = .tcp)
    (other : ∀ s, e.segment? = some s → s.key ≠ key) :
    ∃ u, (r.step e).history id = some u ∧ u.Conversing base key sofar := by
  obtain ⟨u, outside, later, deaf, -, moves⟩ := h.unheard known fun s reaches =>
    other s reaches.brings (reaches.own.trans conversing.own)
  rw [conversing.own] at deaf
  exact ⟨u, later, conversing.moves (traced.lives id t known) stream deaf moves⟩

variable (opened : t.session.socket.isSome = true) (brings : e.segment? = some s)
  (own : s.key = key)

include opened brings own

private theorem Consistent.converses_next (traced : Traced r)
    (continues : s.Continues (base + UInt32.ofNat sofar.length)) :
    (r.step e).lookup key = some id ∧
    (∃ u, (r.step e).history id = some u ∧ u.Conversing base key (sofar ++ s.payload)) ∧
    ∃ answer, (r.step e).written = answer :: r.written ∧ Key.ofPacket? answer = some key.back ∧
      Sent.ofBytes? answer = some ⟨.ack, s.tcp.ack,
        base + UInt32.ofNat (sofar ++ s.payload).length, []⟩ := by
  have reaches : Reaches e t s :=
    ⟨brings, own.trans conversing.own.symm, continues.isAck, continues.notSyn, opened⟩
  refine ⟨?_, ?_, ?_⟩
  · rw [← conversing.expected] at continues
    obtain ⟨-, stays⟩ := Session.Turn.drafts_continues continues r.settings.egressClassifier r.now
    obtain ⟨-, scene⟩ := h.hear known opened reaches.own.symm
    rw [← step_handleAck reaches.brings reaches.isAck reaches.notSyn, stays, if_pos opened] at scene
    have found := h.listed id t known opened
    rw [conversing.own] at found
    exact (lookup_scene (congrArg (·.table) scene) key).trans found
  · obtain ⟨u, later, moves⟩ := h.heard known reaches
    have heard := conversing.receiveAck continues.at_seq continues.carries
      r.settings.egressClassifier r.now
    exact ⟨u, later, heard.moves (traced.answered known reaches) (by rw [← own]; rfl)
      (Outside.deaf_nothing key) moves⟩
  · rw [← conversing.expected] at continues
    obtain ⟨⟨timestamps, acknowledged⟩, -⟩ := Session.Turn.drafts_continues (t := .start t.session)
      continues r.settings.egressClassifier r.now
    have writes := h.hear_writes known reaches
    rw [acknowledged] at writes
    obtain ⟨identification, others, written, none_other⟩ := writes.latest
    obtain rfl := List.length_eq_zero_iff.1 none_other
    obtain ⟨sent, addressed⟩ :=
      (Draft.replies_ack reaches.hears.read own s.nextSeq timestamps).read_back identification
    refine ⟨_, written, addressed, sent.trans ((Sent.ofDraft?_ack ..).trans ?_)⟩
    rw [Inbound.Segment.nextSeq, continues.at_seq, conversing.expected, behind_append]

private theorem Consistent.converses_last (ends : s.Ends (base + UInt32.ofNat sofar.length)) :
    (∃ last others, (r.step e).written = last :: others ++ r.written ∧
      Key.ofPacket? last = some key.back ∧
      Sent.ofBytes? last = some ⟨.fin ∪ .ack, s.tcp.ack,
        base + UInt32.ofNat (sofar ++ s.payload).length + 1, []⟩) ∧
    (r.step e).lookup key = none ∧
    ∃ u, (r.step e).history id = some u ∧ u.session.key = key ∧ u.session.socket = none ∧
      accepted u.effects = sofar ++ s.payload := by
  have reaches : Reaches e t s :=
    ⟨brings, own.trans conversing.own.symm, ends.isAck, ends.notSyn, opened⟩
  rw [← conversing.expected] at ends
  refine ⟨?_, ?_⟩
  · obtain ⟨⟨others, answered⟩, -⟩ := Session.Turn.drafts_ends (t := .start t.session) ends
      r.settings.egressClassifier r.now
    have writes := h.hear_writes known reaches
    rw [answered] at writes
    obtain ⟨identification, others, written, -⟩ := writes.latest
    obtain ⟨sent, addressed⟩ := (Draft.replies_finAck reaches.hears.read own s.tcp.ack
      (s.nextSeq + 1)).read_back identification
    refine ⟨_, others, written, addressed, sent.trans ((Sent.ofDraft?_finAck ..).trans ?_)⟩
    rw [Inbound.Segment.nextSeq, ends.at_seq, conversing.expected, behind_append]
  · obtain ⟨-, closed⟩ := Session.Turn.drafts_ends ends r.settings.egressClassifier r.now
    obtain ⟨stands, scene⟩ := h.hear known opened reaches.own.symm
    rw [← step_handleAck reaches.brings reaches.isAck reaches.notSyn] at stands scene
    rw [closed] at scene
    have scene : (r.step e).scene = r.scene.without s.key := scene
    have moves : Turn.Moves r.settings .nothing _ _ :=
      Turn.hear_moves opened s r.settings.egressClassifier r.now
    have same := t.key_receiveAck s r.settings.egressClassifier r.now
    refine ⟨?_, _, stands.history, ?_, closed, ?_⟩
    · rw [lookup_scene (congrArg (·.table) scene)]
      exact (Table.find?_erase r.table s.key key).trans (if_pos own.symm)
    · rw [moves.key, same, conversing.own]
    · rw [Turn.Moves.accepted (by rw [same, ← reaches.own]; rfl) (Outside.deaf_nothing _) moves,
        Turn.accepted_receiveAck, if_pos (Session.State.acceptsData_of_at ends.at_seq),
        conversing.accepted]

end Events

/-- No pass of a run removes the session of a flow. -/
def Spared (key : Key) (id : SessionId) : Relay → List Event → Prop
  | _, [] => True
  | r, e :: rest =>
    (e.isPass = true → (r.step e).lookup key = some id) ∧ Spared key id (r.step e) rest

instance (key : Key) (id : SessionId) : ∀ r events, Decidable (Spared key id r events)
  | _, [] => inferInstanceAs (Decidable True)
  | r, e :: rest =>
    have := instDecidableSpared key id (r.step e) rest
    inferInstanceAs (Decidable (_ ∧ _))

private theorem Event.key?_ne (stream : key.protocol = .tcp)
    (other : ∀ s, e.segment? = some s → s.key ≠ key) : e.key? ≠ some key := by
  intro same
  cases e with
  | packet buffer isn prospect =>
    simp only [Event.key?, Event.segment?] at other same
    split at same
    case h_1 packet parsed =>
      rw [parsed] at other
      cases packet with
      | segment s => exact other s rfl (Option.some.inj same)
      | datagram d =>
        obtain rfl := Option.some.inj same
        cases stream
      | echoRequest | ignored => cases same
    case h_2 => cases same
  | _ => cases same

/-- A conversation goes on as long as no pass removes its session. -/
private theorem Consistent.converses (h : Consistent r) (traced : Traced r)
    (current : r.lookup key = some id) (known : r.history id = some t)
    (conversing : t.Conversing base key sofar)
    (stream : key.protocol = .tcp) {earlier rest : List Event}
    (consecutive : Consecutive base sofar.length (flow key (earlier ++ rest)))
    (spared : Spared key id r (earlier ++ rest)) :
    (r.run earlier).lookup key = some id ∧ ∃ u, (r.run earlier).history id = some u ∧
      u.Conversing base key (sofar ++ (flow key earlier).flatMap (·.payload)) ∧
      Consecutive base (sofar ++ (flow key earlier).flatMap (·.payload)).length (flow key rest) := by
  -- The segments are used up one by one as they come; other events leave the conversation alone.
  induction earlier generalizing r t sofar with
  | nil =>
    have nothing : sofar ++ (flow key []).flatMap (·.payload) = sofar := List.append_nil sofar
    rw [nothing]
    exact ⟨current, t, known, conversing, consecutive⟩
  | cons e earlier ih =>
    have after := Changes.consistent h (h.step e)
    have traced_after := Changes.traced traced (h.step e)
    rw [List.cons_append] at consecutive spared
    by_cases own : ∃ s, e.segment? = some s ∧ s.key = key
    · obtain ⟨s, brings, own⟩ := own
      rw [flow_own brings own] at consecutive ⊢
      obtain ⟨continues, consecutive⟩ := consecutive
      have opened := h.opened_of_lookup current known
      obtain ⟨current, ⟨u, known, conversing⟩, -⟩ :=
        h.converses_next known conversing opened brings own traced continues
      rw [← List.length_append] at consecutive
      have goes_on := ih after traced_after current known conversing consecutive spared.2
      rw [List.append_assoc] at goes_on
      exact goes_on
    · have other : ∀ s, e.segment? = some s → s.key ≠ key :=
        fun s brings same => own ⟨s, brings, same⟩
      rw [flow_other other] at consecutive ⊢
      have current : (r.step e).lookup key = some id := by
        cases pass : e.isPass with
        | true => exact spared.1 pass
        | false =>
          rw [h.lookup_step_other (Event.key?_ne stream other) pass]
          exact current
      obtain ⟨u, known, conversing⟩ := h.converses_other known conversing traced stream other
      exact ih after traced_after current known conversing consecutive spared.2

private theorem Consistent.converses_begun (h : Consistent r) (brings : e.segment? = some s)
    (isSyn : s.tcp.isSyn = true) (fresh : r.lookup s.key = none)
    (opened : (r.step e).lookup s.key = some id) :
    ∃ t, (r.step e).history id = some t ∧ t.Conversing (s.tcp.seq + 1) s.key [] := by
  obtain ⟨buffer, isn, prospect, rfl, parsed⟩ := Event.segment?_eq_some brings
  have handled : r.step (.packet buffer isn prospect) = r.handleSyn s isn prospect := by
    rw [step_segment _ parsed, handleSegment, if_pos isSyn]
  rw [handled] at opened ⊢
  obtain ⟨connected, known⟩ := h.begun_handleSyn isSyn isn prospect fresh opened
  exact ⟨_, known, Session.Turn.conversing_begun isn prospect _ connected _⟩

private theorem Traced.handed (traced : Traced r) (known : r.history id = some t)
    (stream : t.session.key.protocol = .tcp) :
    ∃ session, r.sessions[id]? = some session ∧ session.socket = t.session.socket ∧
      relayed (r.effectsOf (some id)) ++ session.state.outbound.bytes = accepted t.effects := by
  obtain ⟨at_id, effects⟩ := history_eq_some.1 known
  rw [effects]
  exact ⟨t.session, at_id, rfl, ((traced.lives id t known).delivers stream).whole⟩

/-- A conversation in order, from end to end: whatever else happens, as long as no pass removes the
session, each segment is answered by one acknowledgment of all up to its end, the socket is handed
what the segments carry, and a FIN at the end is answered last and removes the session. -/
theorem run_converses (settings : Settings) (now coreWorkers maxWorkers : Nat)
    (before later : List Event) {opening : Event} {syn : Inbound.Segment} {id : SessionId}
    (brings : opening.segment? = some syn) (isSyn : syn.tcp.isSyn = true)
    (fresh : ((start settings now coreWorkers maxWorkers).run before).lookup syn.key = none)
    (opened : ((start settings now coreWorkers maxWorkers).run
      (before ++ [opening])).lookup syn.key = some id)
    (consecutive : Consecutive (syn.tcp.seq + 1) 0 (flow syn.key later))
    (spared : Spared syn.key id ((start settings now coreWorkers maxWorkers).run
      (before ++ [opening])) later) :
    let after (events : List Event) : Relay :=
      (start settings now coreWorkers maxWorkers).run (before ++ opening :: events)
    let carried (events : List Event) : Bytes := (flow syn.key events).flatMap (·.payload)
    let behind (bytes : Bytes) : UInt32 := syn.tcp.seq + 1 + UInt32.ofNat bytes.length
    (∀ earlier e rest s, later = earlier ++ e :: rest → e.segment? = some s → s.key = syn.key →
      ∃ answer, ((after earlier).step e).written = answer :: (after earlier).written ∧
        Key.ofPacket? answer = some syn.key.back ∧
        Sent.ofBytes? answer =
          some ⟨.ack, s.tcp.ack, behind (carried earlier ++ s.payload), []⟩) ∧
    ((after later).lookup syn.key = some id ∧
      ∃ session, (after later).sessions[id]? = some session ∧
        relayed ((after later).effectsOf (some id)) ++ session.state.outbound.bytes =
          carried later) ∧
    ∀ e fin, e.segment? = some fin → fin.key = syn.key → fin.Ends (behind (carried later)) →
      let final := (after later).step e
      (∃ last others, final.written = last :: others ++ (after later).written ∧
        Key.ofPacket? last = some syn.key.back ∧
        Sent.ofBytes? last =
          some ⟨.fin ∪ .ack, fin.tcp.ack, behind (carried later ++ fin.payload) + 1, []⟩) ∧
      final.lookup syn.key = none ∧
      ∃ session, final.sessions[id]? = some session ∧ session.socket = none ∧
        relayed (final.effectsOf (some id)) ++ session.state.outbound.bytes =
          carried later ++ fin.payload := by
  intro after carried behind
  have consistent : ∀ events, Consistent (after events) := fun events =>
    consistent_run settings now coreWorkers maxWorkers _
  have traced : ∀ events, Traced (after events) := fun events =>
    traced_run settings now coreWorkers maxWorkers _
  have goes_on : ∀ earlier rest, (after earlier).run rest = after (earlier ++ rest) := by
    intro earlier rest
    rw [← run_append, List.append_assoc, List.cons_append]
  have begins : after [] = ((start settings now coreWorkers maxWorkers).run before).step opening :=
    run_append _ before [opening]
  have opened : (after []).lookup syn.key = some id := opened
  obtain ⟨t, known, conversing⟩ :=
    (consistent_run settings now coreWorkers maxWorkers before).converses_begun brings isSyn fresh
      (begins ▸ opened)
  rw [← begins] at known
  have spared : Spared syn.key id (after []) later := spared
  -- How the session stands at each point of the conversation.
  have stands : ∀ earlier rest, later = earlier ++ rest →
      (after earlier).lookup syn.key = some id ∧ ∃ u, (after earlier).history id = some u ∧
      u.Conversing (syn.tcp.seq + 1) syn.key (carried earlier) ∧
      Consecutive (syn.tcp.seq + 1) (carried earlier).length (flow syn.key rest) := by
    intro earlier rest split
    rw [split] at consecutive spared
    exact goes_on [] earlier ▸ (consistent []).converses (traced []) opened known conversing rfl
      consecutive spared
  refine ⟨fun earlier e rest s split brings own => ?_, ?_, fun e fin brings own ends => ?_⟩
  · obtain ⟨current, u, known, conversing, coming⟩ := stands earlier (e :: rest) split
    rw [flow_own brings own] at coming
    obtain ⟨-, -, answered⟩ := (consistent earlier).converses_next known conversing
      ((consistent earlier).opened_of_lookup current known) brings own (traced earlier) coming.1
    exact answered
  · obtain ⟨current, u, known, conversing, -⟩ := stands later [] (List.append_nil later).symm
    obtain ⟨session, at_id, -, bytes⟩ := (traced later).handed known (by rw [conversing.own]; rfl)
    exact ⟨current, session, at_id, bytes.trans conversing.accepted⟩
  · intro final
    obtain ⟨current, u, known, conversing, -⟩ := stands later [] (List.append_nil later).symm
    have opened := (consistent later).opened_of_lookup current known
    obtain ⟨answered, gone, v, known, same, closed, bytes⟩ :=
      (consistent later).converses_last known conversing opened brings own ends
    have traced_final : Traced final :=
      Changes.traced (traced later) ((consistent later).step e)
    obtain ⟨session, at_id, socket, whole⟩ := traced_final.handed known (by rw [same]; rfl)
    exact ⟨answered, gone, session, at_id, socket.trans closed, whole.trans bytes⟩

/-- Three bytes arrive across the largest sequence number, while the socket's own stream ends, and
the FIN brings a fourth. -/
theorem run_converses_across :
    let packet (flags : UInt8) (seq : UInt32) (payload : Bytes) : Event := .packet
      (sampleSegment flags seq 501 payload) 500 (.smooth [.data [1, 2], .data []])
    let pass : Event := .pass (fun _ => 0) (fun _ => 0)
    let first := packet 16 0xffffffff [97]
    let second := packet 24 0 [98, 99]
    let fin := packet 17 2 [100]
    let after (events : List Event) : Relay :=
      (start .plain 0 1 1).run (packet 2 0xfffffffe [] :: events)
    let later := after [first, pass, second]
    (∃ answer, ((after [first, pass]).step second).written =
        answer :: (after [first, pass]).written ∧
      Sent.ofBytes? answer = some ⟨.ack, 501, 2, []⟩) ∧
    (∃ session, later.sessions[0]? = some session ∧
      relayed (later.effectsOf (some 0)) ++ session.state.outbound.bytes = [97, 98, 99]) ∧
    (∃ last others, (later.step fin).written = last :: others ++ later.written ∧
      Sent.ofBytes? last = some ⟨.fin ∪ .ack, 501, 4, []⟩) ∧
    ∃ session, (later.step fin).sessions[0]? = some session ∧ session.socket = none := by
  intro packet pass first second fin after later
  let syn := (packet 2 0xfffffffe []).segment?.get (by decide +kernel)
  let events := [first, pass, second]
  have brings : (packet 2 0xfffffffe []).segment? = some syn := (Option.some_get _).symm
  have brings_second : second.segment? = some (second.segment?.get (by decide +kernel)) :=
    (Option.some_get _).symm
  have brings_fin : fin.segment? = some (fin.segment?.get (by decide +kernel)) :=
    (Option.some_get _).symm
  have opened : ((start .plain 0 1 1).run ([] ++ [packet 2 0xfffffffe []])).lookup syn.key =
      some 0 := by decide +kernel
  have consecutive : Consecutive (syn.tcp.seq + 1) 0 (flow syn.key events) := by decide +kernel
  have spared : Spared syn.key 0 ((start .plain 0 1 1).run ([] ++ [packet 2 0xfffffffe []]))
      events := by decide +kernel
  have ends : (fin.segment?.get (by decide +kernel)).Ends (syn.tcp.seq + 1 +
      UInt32.ofNat ((flow syn.key events).flatMap (·.payload)).length) := by decide +kernel
  obtain ⟨segments, ⟨-, session, at_zero, handed⟩, fins⟩ := run_converses .plain 0 1 1 [] events
    brings (by decide +kernel) rfl opened consecutive spared
  obtain ⟨answer, written, -, sent⟩ := segments [first, pass] second [] _ rfl brings_second
    (by decide +kernel)
  obtain ⟨⟨last, others, more, -, told⟩, -, gone, at_end, closed, -⟩ :=
    fins fin _ brings_fin (by decide +kernel) ends
  exact ⟨⟨answer, written, sent.trans (by decide +kernel)⟩,
    ⟨session, at_zero, handed.trans (by decide +kernel)⟩,
    ⟨last, others, more, told.trans (by decide +kernel)⟩, gone, at_end, closed⟩

end Relay
end PacketRelay
