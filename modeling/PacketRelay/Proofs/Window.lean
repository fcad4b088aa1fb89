import PacketRelay.Proofs.Closing

/-!
The sequence numbers of a stream on both sides.

What is expected from the peer moves on only, except that zero also stands for a peer that has not
been heard of: there any number is taken. Towards the peer, what is sent next stays ahead of what is
acknowledged as long as the data in between spans less than half the circle. Then an acknowledgment
moves what is acknowledged forward, up to what has been sent, and so does one of data that never
was.
-/

set_option autoImplicit false

namespace PacketRelay

open Session (Turn State Classifier)

namespace Serial

variable {a b una ack next : UInt32}

private theorem atOrAfter_iff : atOrAfter a b = true ↔ (a - b).toNat < 2 ^ 31 := by
  unfold atOrAfter
  rw [decide_eq_true_iff, UInt32.lt_iff_toNat_lt]
  rfl

private theorem after_iff : after a b = true ↔ 0 < (a - b).toNat ∧ (a - b).toNat < 2 ^ 31 := by
  unfold after
  rw [Bool.and_eq_true, decide_eq_true_iff, decide_eq_true_iff, UInt32.lt_iff_toNat_lt,
    UInt32.lt_iff_toNat_lt]
  rfl

private theorem atOrAfter_of_after (ahead : after a b = true) : atOrAfter a b = true :=
  atOrAfter_iff.2 (after_iff.1 ahead).2

private theorem atOrAfter_add (a : UInt32) {n : Nat} (short : n < 2 ^ 31) :
    atOrAfter (a + UInt32.ofNat n) a = true := by
  have := a.toNat_lt
  rw [atOrAfter_iff, UInt32.toNat_sub, UInt32.toNat_add, UInt32.toNat_ofNat']
  omega

private theorem earlier_of_accepted (window : atOrAfter next una = true)
    (accepts : after ack una = true ∨ ack = next) :
    (earlier ack next = ack ∨ earlier ack next = next) ∧ atOrAfter (earlier ack next) una = true ∧
      atOrAfter ack (earlier ack next) = true ∧ atOrAfter next (earlier ack next) = true := by
  have ack_lt := ack.toNat_lt
  have una_lt := una.toNat_lt
  have next_lt := next.toNat_lt
  rw [atOrAfter_iff, UInt32.toNat_sub] at window
  unfold earlier
  rcases accepts with ahead | rfl
  · rw [after_iff, UInt32.toNat_sub] at ahead
    cases beyond : after ack next with
    | true =>
      refine ⟨.inr rfl, ?_, atOrAfter_of_after beyond, atOrAfter_self next⟩
      rw [if_pos rfl, atOrAfter_iff, UInt32.toNat_sub]
      exact window
    | false =>
      have short : ¬ (0 < (ack - next).toNat ∧ (ack - next).toNat < 2 ^ 31) := by
        rw [← after_iff, beyond]
        exact Bool.false_ne_true
      rw [UInt32.toNat_sub] at short
      refine ⟨.inl rfl, ?_, atOrAfter_self ack, ?_⟩
      · rw [if_neg Bool.false_ne_true, atOrAfter_iff, UInt32.toNat_sub]
        omega
      · rw [if_neg Bool.false_ne_true, atOrAfter_iff, UInt32.toNat_sub]
        omega
  · rw [after_self, if_neg Bool.false_ne_true]
    exact ⟨.inl rfl, atOrAfter_iff.2 (by rw [UInt32.toNat_sub]; exact window),
      atOrAfter_self ack, atOrAfter_self ack⟩

private theorem atOrAfter_next_of_accepted (window : atOrAfter next una = true)
    (accepts : after ack una = true ∨ ack = next) (apart : next ≠ una)
    (reached : earlier ack next = next) : atOrAfter (ack + 1) next = true := by
  have ack_lt := ack.toNat_lt
  have una_lt := una.toNat_lt
  have next_lt := next.toNat_lt
  have apart : next.toNat ≠ una.toNat := fun same => apart (UInt32.toNat.inj same)
  rw [atOrAfter_iff, UInt32.toNat_sub] at window
  rw [atOrAfter_iff, UInt32.toNat_sub, UInt32.toNat_add, UInt32.toNat_one]
  rcases accepts with ahead | rfl
  · rw [after_iff, UInt32.toNat_sub] at ahead
    unfold earlier at reached
    split at reached
    -- Beyond what is sent next by less than half the circle, of which `una` takes at least one.
    case isTrue beyond =>
      rw [after_iff, UInt32.toNat_sub] at beyond
      omega
    case isFalse =>
      subst reached
      omega
  · omega

end Serial

namespace Session.State

variable {st : State} {ack seq : UInt32} {peer : Option Tcp.Timestamps} {now : Nat}

theorem unacknowledged_eq_zero :
    st.unacknowledged = 0 ↔ st.sendNext = st.sendUnacknowledged := by
  unfold unacknowledged
  rw [UInt32.sub_eq_iff_eq_add, UInt32.zero_add]

theorem acked_acceptAck : (st.acceptAck ack seq peer now).acked = true ↔
    Serial.after ack st.sendUnacknowledged = true ∨ ack = st.sendNext := by
  have accepts : st.acceptsAck ack = true ↔
      Serial.after ack st.sendUnacknowledged = true ∨ ack = st.sendNext := by
    unfold acceptsAck
    rw [Bool.or_eq_true, beq_iff_eq]
  rw [← accepts]
  unfold acceptAck
  split
  case isTrue yes => exact ⟨fun _ => yes, fun _ => rfl⟩
  case isFalse no => exact ⟨(fun none => by cases none), fun yes => absurd yes no⟩

private theorem expected_acceptAck :
    Serial.atOrAfter (st.acceptAck ack seq peer now).recvNext st.recvNext =
      true ∨ (st.recvNext = 0 ∧ (st.acceptAck ack seq peer now).recvNext = seq) := by
  cases acked : (st.acceptAck ack seq peer now).acked with
  | false =>
    rw [acceptAck_of_refused acked]
    exact .inl (Serial.atOrAfter_self st.recvNext)
  | true =>
    rw [acceptAck_of_acked acked]
    unfold applyAck
    simp only
    split
    case isTrue moves =>
      rw [Bool.or_eq_true, beq_iff_eq] at moves
      exact moves.symm.imp Serial.atOrAfter_of_after fun zero => ⟨zero, rfl⟩
    case isFalse => exact .inl (Serial.atOrAfter_self st.recvNext)

private theorem expected_enqueue {s : Inbound.Segment} (short : s.payload.length < 2 ^ 31) :
    Serial.atOrAfter (st.enqueue s).recvNext st.recvNext = true ∨
      (st.recvNext = 0 ∧ (st.enqueue s).recvNext = s.nextSeq) := by
  have next : (st.enqueue s).recvNext =
      (if st.recvNext == 0 then s.tcp.seq else st.recvNext) + UInt32.ofNat s.payload.length := rfl
  by_cases zero : st.recvNext = 0
  · rw [next, zero]
    exact .inr ⟨rfl, rfl⟩
  · rw [next, if_neg (by simpa using zero)]
    exact .inl (Serial.atOrAfter_add st.recvNext short)

end Session.State

private theorem Inbound.Segment.Read.short {s : Inbound.Segment} (read : s.Read) :
    s.payload.length < 2 ^ 31 := by
  obtain ⟨buffer, -, -, bytes, -⟩ := read.parts
  have within : (Inbound.body s.ip buffer).length ≤ s.ip.room := Draft.length_body_le read.fits
  have := Draft.room_le s.ip
  have : s.payload.length ≤ s.bytes.length := by
    unfold Inbound.Segment.payload
    rw [List.length_drop]
    omega
  rw [← bytes] at within
  omega

namespace Session.Turn

variable {settings : Relay.Settings} {outside : Outside} {t u v : Turn} {isn : UInt32}
  {s : Inbound.Segment}

private theorem expected_takeAck (heard : t.state.lastSegment?.isSome = true) (s : Inbound.Segment)
    (now : Nat) : (t.takeAck s now).state.recvNext = (t.noteAck s now).state.recvNext := by
  obtain ⟨-, same⟩ | ⟨-, same⟩ := t.takeAck_cases s now
  · rw [same]
  · rw [same]
    exact (endStream_acknowledges ((t.noted_noteAck s now).last ▸ heard) _).1

private theorem expected_receiveAck (read : s.Read) (t : Turn) (classifier : Classifier)
    (now : Nat) :
    Serial.atOrAfter (t.receiveAck s classifier now).1.state.recvNext t.state.recvNext = true ∨
      (t.state.recvNext = 0 ∧ (t.receiveAck s classifier now).1.state.recvNext = s.nextSeq) := by
  obtain ⟨bare, bides⟩ | ⟨-, -, bides, -⟩ | ⟨-, -, bides⟩ := t.receiveAck_cases s classifier now
  · have next : s.nextSeq = s.tcp.seq := by
      unfold Inbound.Segment.nextSeq
      rw [bare]
      exact UInt32.add_zero s.tcp.seq
    rw [bides.expected, expected_takeAck rfl, next]
    exact Session.State.expected_acceptAck
  · rw [bides.expected]
    exact Session.State.expected_enqueue read.short
  · rw [bides.expected]
    exact .inl (Serial.atOrAfter_self _)

/-- What is sent next is ahead of what is acknowledged by less than half the circle. -/
def InWindow (t : Turn) : Prop :=
  Serial.atOrAfter t.state.sendNext t.state.sendUnacknowledged = true

private theorem inWindow_of_same (next : u.state.sendNext = t.state.sendNext)
    (unacknowledged : u.state.sendUnacknowledged = t.state.sendUnacknowledged)
    (window : t.InWindow) : u.InWindow := by
  rw [InWindow, next, unacknowledged]
  exact window

private theorem Streams.last_data (h : Streams isn t) (notClosing : t.state.closing = false)
    (notAcked : t.state.ackedToFin = false) {before : List Sent} {last : Sent}
    (data : dataSegments t.effects = before ++ [last]) :
    last.seq + UInt32.ofNat last.payload.length = t.state.sendNext := by
  have follow := h.follow
  rw [data, follow_append] at follow
  obtain ⟨-, at_end, -⟩ := follow
  have whole : received t.effects = payloads before ++ last.payload := by
    rw [← h.whole, data, payloads_append]
    simp [payloads]
  rw [h.next notClosing notAcked, whole, at_end, List.length_append, UInt32.ofNat_add,
    UInt32.add_assoc]

theorem Streams.carried (h : Streams isn t) (later : Streams isn u)
    (grows : Adds (fun _ => True) t u) {bytes : Bytes}
    (arrived : received u.effects = received t.effects ++ bytes) (payload : bytes ≠ []) :
    ∃ before last, dataSegments u.effects = dataSegments t.effects ++ before ++ [last] := by
  obtain ⟨new, added, -⟩ := grows
  have data := dataSegments_append new t.effects
  rw [← added] at data
  have some_new : dataSegments new ≠ [] := by
    intro nothing
    have whole := later.whole
    rw [data, nothing, List.append_nil, h.whole, arrived] at whole
    exact payload (List.self_eq_append_right.1 whole)
  obtain ⟨before, last, split⟩ := (List.eq_nil_or_concat' (dataSegments new)).resolve_left some_new
  exact ⟨before, last, by rw [data, split, List.append_assoc]⟩

private theorem endStream_unacknowledged (heard : t.state.lastSegment?.isSome = true)
    (next : UInt32) : (t.endStream next).state.sendUnacknowledged = t.state.sendUnacknowledged ∧
      (t.endStream next).state.sendNext = next := by
  obtain ⟨⟨ip, tcp⟩, last⟩ := Option.isSome_iff_exists.1 heard
  rw [endStream_eq last]
  exact ⟨rfl, rfl⟩

private theorem Course.unacknowledged (heard : t.state.lastSegment?.isSome = true)
    (deaf : outside.Deaf t.session.key) (course : Course settings outside t u) :
    u.state.sendUnacknowledged = t.state.sendUnacknowledged := by
  cases course with
  | bides _ bides => exact bides.unacknowledged
  | takePayload _ _ answers | takeAck _ _ answers => exact absurd answers.toHears deaf.silent
  | flush => exact stays_flush.unacknowledged
  | deliver bytes after now =>
    exact (keeps_deliver (t := t.withSocket after) bytes settings.ingressClassifier
      now).unacknowledged
  | remoteClose after =>
    obtain ⟨-, same⟩ | ⟨-, same⟩ := (t.withSocket after).remoteClose_cases
    · rw [same]
      rfl
    · rw [same]
      exact (endStream_unacknowledged (t := t.withSocket after) heard _).1

/-- The data that is sent on the way ends within half the circle of what is acknowledged. -/
def Restrained (t u : Turn) : Prop :=
  ∀ s ∈ (dataSegments u.effects).drop (dataSegments t.effects).length,
    Serial.atOrAfter (s.seq + UInt32.ofNat s.payload.length) u.state.sendUnacknowledged = true

private theorem Move.window (lives : Lives settings t) (stream : t.session.key.protocol = .tcp)
    (deaf : outside.Deaf t.session.key) (move : Move settings outside t u) (window : t.InWindow)
    (restrained : t.Restrained u) : u.InWindow := by
  obtain ⟨isn, streams⟩ := lives.streams stream
  have later : Streams isn u := streams.move lives.headed stream move
  have grows := move.grows
  have same := (move.course stream).unacknowledged streams.heard deaf
  cases move.course stream with
  | bides _ bides => exact inWindow_of_same bides.next same window
  | takePayload _ _ answers | takeAck _ _ answers => exact absurd answers.toHears deaf.silent
  | flush => exact inWindow_of_same stays_flush.next same window
  | deliver bytes after now reads payload =>
    have keeps := keeps_deliver (t := t.withSocket after) bytes
      settings.ingressClassifier now
    have arrived := received_deliver (t := t.withSocket after) bytes settings.ingressClassifier now
    -- The last of the segments that carry what was delivered is new and bounds what is next.
    obtain ⟨before, last, data⟩ := streams.carried later grows arrived payload
    have ends := later.last_data (keeps.closing.trans reads.notClosing)
      (keeps.ackedToFin.trans reads.notAcked) data
    have bound := restrained last (by rw [data, List.append_assoc, List.drop_left]; simp)
    rw [ends] at bound
    exact bound
  | remoteClose after =>
    obtain ⟨-, closed⟩ | ⟨nothing_left, closed⟩ := (t.withSocket after).remoteClose_cases
    · rw [closed] at same ⊢
      exact window
    · obtain ⟨unacknowledged, next⟩ :=
        endStream_unacknowledged (t := t.withSocket after) streams.heard
          ((t.withSocket after).state.sendNext + 1)
      rw [closed, InWindow, next, unacknowledged, ← State.unacknowledged_eq_zero.1 nothing_left]
      exact Serial.atOrAfter_add _ (by decide : 1 < 2 ^ 31)

private theorem Lives.unacknowledged (lives : Lives settings t)
    (stream : t.session.key.protocol = .tcp) (deaf : outside.Deaf t.session.key)
    (moves : Moves settings outside t u) :
    u.state.sendUnacknowledged = t.state.sendUnacknowledged := by
  refine lives.along (P := fun u => u.state.sendUnacknowledged = t.state.sendUnacknowledged)
    stream moves rfl ?_
  intro isn v w _ key stream streams move same
  exact ((move.course stream).unacknowledged streams.heard (by rw [key]; exact deaf)).trans
    same

private theorem Lives.window (lives : Lives settings t) (stream : t.session.key.protocol = .tcp)
    (deaf : outside.Deaf t.session.key) (moves : Moves settings outside t u)
    (window : t.InWindow) (restrained : t.Restrained u) : u.InWindow := by
  refine lives.along (P := fun u => t.Restrained u → u.InWindow) stream moves (fun _ => window) ?_
    restrained
  intro isn v w before key stream_here streams move ih restrained
  have deaf_here : outside.Deaf v.session.key := by rw [key]; exact deaf
  have same := (move.course stream_here).unacknowledged streams.heard deaf_here
  obtain ⟨new, added, -⟩ := Moves.grows before
  obtain ⟨newer, later, -⟩ := move.grows
  have first := dataSegments_append new t.effects
  have second := dataSegments_append newer v.effects
  rw [← added] at first
  rw [← later] at second
  -- What is sent on the whole way is what is sent up to here, and what is sent by the last move.
  have whole : ∀ s, s ∈ dataSegments new ∨ s ∈ dataSegments newer →
      Serial.atOrAfter (s.seq + UInt32.ofNat s.payload.length) w.state.sendUnacknowledged = true := by
    intro s member
    refine restrained s ?_
    rw [second, first, List.append_assoc, List.drop_left]
    exact List.mem_append.2 member
  refine move.window (lives.moves before) stream_here deaf_here (ih fun s member => ?_)
    fun s member => ?_
  · rw [first, List.drop_left] at member
    rw [← same]
    exact whole s (.inl member)
  · rw [second, List.drop_left] at member
    exact whole s (.inr member)

theorem noteAck_accepted {now : Nat} (acked : (t.noteAck s now).state.acked = true) :
    (Serial.after s.tcp.ack t.state.sendUnacknowledged = true ∨ s.tcp.ack = t.state.sendNext) ∧
      (t.noteAck s now).state.sendUnacknowledged = Serial.earlier s.tcp.ack t.state.sendNext := by
  let st : State := { t.state with corrupted := s.isCorrupted }
  have acked : (st.acceptAck s.tcp.ack s.tcp.seq s.tcp.timestamps? now).acked = true := acked
  have accepts : Serial.after s.tcp.ack st.sendUnacknowledged = true ∨ s.tcp.ack = st.sendNext :=
    State.acked_acceptAck.1 acked
  refine ⟨accepts, ?_⟩
  show (st.acceptAck s.tcp.ack s.tcp.seq s.tcp.timestamps? now).sendUnacknowledged = _
  rw [State.acceptAck_of_acked acked]
  rfl

private theorem noteAck_window (window : t.InWindow) (s : Inbound.Segment) (now : Nat) :
    (t.noteAck s now).InWindow ∧
      Serial.atOrAfter (t.noteAck s now).state.sendUnacknowledged t.state.sendUnacknowledged =
        true := by
  have next := (t.noted_noteAck s now).next
  cases acked : (t.noteAck s now).state.acked with
  | false =>
    have same := noteAck_refused acked
    rw [same]
    exact ⟨inWindow_of_same next same window, Serial.atOrAfter_self _⟩
  | true =>
    obtain ⟨accepts, counts⟩ := noteAck_accepted acked
    obtain ⟨-, ahead, -, room⟩ := Serial.earlier_of_accepted window accepts
    rw [InWindow, next, counts]
    exact ⟨room, ahead⟩

/-- Our FIN goes out with an acknowledgment beyond what was acknowledged before. Although the number
behind it is taken from the peer, it stays within the window. -/
private theorem finDue_window (pending : t.state.closing = true → t.state.unacknowledged ≠ 0)
    (window : t.InWindow) {now : Nat} (due : (t.noteAck s now).FinDue) :
    Serial.atOrAfter (s.tcp.ack + 1) (t.noteAck s now).state.sendUnacknowledged = true := by
  obtain ⟨closing, acked, nothing_left⟩ := due
  have noted := t.noted_noteAck s now
  have outstanding := pending (noted.closing ▸ closing)
  obtain ⟨accepts, counts⟩ := noteAck_accepted acked
  have reached : Serial.earlier s.tcp.ack t.state.sendNext = t.state.sendNext := by
    rw [← counts, ← State.unacknowledged_eq_zero.1 nothing_left, noted.next]
  rw [counts, reached]
  exact Serial.atOrAfter_next_of_accepted window accepts
    (fun same => outstanding (State.unacknowledged_eq_zero.2 same)) reached

private theorem takeAck_window (heard : t.state.lastSegment?.isSome = true)
    (pending : t.state.closing = true → t.state.unacknowledged ≠ 0) (window : t.InWindow)
    (s : Inbound.Segment) (now : Nat) : (t.takeAck s now).InWindow ∧
      Serial.atOrAfter (t.takeAck s now).state.sendUnacknowledged t.state.sendUnacknowledged =
        true := by
  obtain ⟨inside, ahead⟩ := noteAck_window window s now
  obtain ⟨-, same⟩ | ⟨due, same⟩ := t.takeAck_cases s now
  · rw [same]
    exact ⟨inside, ahead⟩
  · have heard := (t.noted_noteAck s now).last ▸ heard
    obtain ⟨unacknowledged, next⟩ := endStream_unacknowledged heard (s.tcp.ack + 1)
    rw [same, InWindow, unacknowledged, next]
    exact ⟨finDue_window pending window due, ahead⟩

private theorem receiveAck_window (pending : t.state.closing = true → t.state.unacknowledged ≠ 0)
    (window : t.InWindow) (s : Inbound.Segment) (classifier : Classifier) (now : Nat) :
    (t.receiveAck s classifier now).1.InWindow ∧
      Serial.atOrAfter (t.receiveAck s classifier now).1.state.sendUnacknowledged
        t.state.sendUnacknowledged = true := by
  have stay : ∀ {v w : Turn}, v.Stays w → v.InWindow ∧
      Serial.atOrAfter v.state.sendUnacknowledged t.state.sendUnacknowledged = true →
      w.InWindow ∧ Serial.atOrAfter w.state.sendUnacknowledged t.state.sendUnacknowledged = true := by
    intro v w stays ⟨inside, ahead⟩
    refine ⟨inWindow_of_same stays.next stays.unacknowledged inside, ?_⟩
    rw [stays.unacknowledged]
    exact ahead
  have remembered : (t.update fun st => st.rememberTcp s.ip s.tcp).InWindow ∧ _ :=
    ⟨window, Serial.atOrAfter_self t.state.sendUnacknowledged⟩
  obtain ⟨-, bides⟩ | ⟨-, -, bides, -⟩ | ⟨-, -, bides⟩ := t.receiveAck_cases s classifier now
  · have answered :=
      takeAck_window (t := t.update fun st => st.rememberTcp s.ip s.tcp) rfl pending window s now
    exact stay bides.stays answered
  · exact stay ((stays_queue s).trans bides.stays) remembered
  · exact stay bides.stays remembered

private theorem data_receiveAck (s : Inbound.Segment) (classifier : Classifier) (now : Nat) :
    dataSegments (t.receiveAck s classifier now).1.effects = dataSegments t.effects := by
  obtain ⟨-, bides⟩ | ⟨-, -, bides, -⟩ | ⟨-, -, bides⟩ := t.receiveAck_cases s classifier now
  · rw [bides.stays.data, (rests_takeAck rfl s now).data]
    rfl
  · exact ((stays_queue s).trans bides.stays).data
  · exact bides.stays.data

private theorem inWindow_opened (opened : Opened settings t)
    (stream : t.session.key.protocol = .tcp) : t.InWindow := by
  obtain ⟨s, isn, prospect, number, connected, now, -, -, rfl⟩ := opened.syn stream
  exact Serial.atOrAfter_add isn (by decide : 1 < 2 ^ 31)

private theorem mem_drop_data (grows : Adds (fun _ => True) t u) {s : Sent}
    (member : s ∈ (dataSegments u.effects).drop (dataSegments t.effects).length) :
    s ∈ (segments u.effects).drop (segments t.effects).length ∧ s.isData = true := by
  obtain ⟨new, added, -⟩ := grows
  rw [added, dataSegments_append, List.drop_left] at member
  rw [added, segments_append, List.drop_left]
  exact List.mem_filter.1 member

end Session.Turn

namespace Relay

variable {r : Relay} {id : SessionId} {session : Session} {t u : Turn} {e : Event}

private theorem Consistent.expects (h : Consistent r) (traced : Traced r)
    (known : r.history id = some t) (stream : t.session.key.protocol = .tcp) (e : Event) :
    ∃ u, (r.step e).history id = some u ∧
      (Serial.atOrAfter u.state.recvNext t.state.recvNext = true ∨
        t.state.recvNext = 0 ∧ ∃ s, Reaches e t s ∧ u.state.recvNext = s.nextSeq) := by
  obtain ⟨u, later, ⟨s, reaches, moves⟩ | ⟨-, outside, deaf, -, moves⟩⟩ := h.goes_on e known
  · have key := t.key_receiveAck s r.settings.egressClassifier r.now
    obtain ⟨same, -⟩ := (traced.answered known reaches).acknowledges (by rw [key, stream])
      (Outside.deaf_nothing _) moves
    refine ⟨u, later, ?_⟩
    rw [same]
    exact (Session.Turn.expected_receiveAck reaches.hears.read t _ r.now).imp_right
      fun ⟨zero, next⟩ => ⟨zero, s, reaches, next⟩
  · obtain ⟨same, -⟩ := (traced.lives id t known).acknowledges stream deaf moves
    refine ⟨u, later, .inl ?_⟩
    rw [same]
    exact Serial.atOrAfter_self _

/-- What is expected from the peer of a stream never moves back, except from zero: zero stands for a
peer that has not been heard of, but a stream comes past it as well. -/
theorem run_expects (settings : Settings) (now coreWorkers maxWorkers : Nat) (events : List Event)
    {id : SessionId} {session : Session}
    (at_id : ((start settings now coreWorkers maxWorkers).run events).sessions[id]? = some session)
    (stream : session.key.protocol = .tcp) (e : Event) :
    let r := (start settings now coreWorkers maxWorkers).run events
    ∃ after, (r.step e).sessions[id]? = some after ∧
      (Serial.atOrAfter after.state.recvNext session.state.recvNext = true ∨
        session.state.recvNext = 0 ∧ ∃ s, e.segment? = some s ∧ s.key = session.key ∧
          s.tcp.isAck = true ∧ s.tcp.isSyn = false ∧ after.state.recvNext = s.nextSeq) := by
  intro r
  have consistent : Consistent r := consistent_run settings now coreWorkers maxWorkers events
  have traced : Traced r := traced_run settings now coreWorkers maxWorkers events
  obtain ⟨u, later, ahead | ⟨zero, s, reaches, next⟩⟩ :=
    consistent.expects traced (history_of_session at_id) stream e
  · exact ⟨u.session, (history_eq_some.1 later).1, .inl ahead⟩
  · exact ⟨u.session, (history_eq_some.1 later).1,
      .inr ⟨zero, s, reaches.brings, reaches.own, reaches.isAck, reaches.notSyn, next⟩⟩

/-- A stream that starts behind the largest number expects zero, and forgets it for an old
acknowledgment or for old data. -/
theorem expected_goes_back :
    let packet (flags : UInt8) (seq : UInt32) (payload : Bytes) : Event := .packet
      (sampleSegment flags seq 501 payload) 500 (.smooth [])
    let expected (events : List Event) : Option UInt32 :=
      ((start .plain 0 1 1).run events).sessions[0]?.map (·.state.recvNext)
    expected [packet 2 0xffffffff []] = some 0 ∧
      expected [packet 2 0xffffffff [], packet 16 0xfffffff0 []] = some 0xfffffff0 ∧
      expected [packet 2 0xffffffff [], packet 16 0xfffffff0 [97]] = some 0xfffffff1 ∧
      Serial.atOrAfter 0xfffffff0 0 = false ∧ Serial.atOrAfter 0xfffffff1 0 = false := by
  intro packet expected
  decide +kernel

/-- Data in order moves ahead what is expected, from zero as well. -/
theorem run_expects_first :
    let packet (flags : UInt8) (seq : UInt32) (payload : Bytes) : Event := .packet
      (sampleSegment flags seq 501 payload) 500 (.smooth [])
    let r := (start .plain 0 1 1).run [packet 2 0xffffffff []]
    r.sessions[0]?.map (·.state.recvNext) = some 0 ∧
      ∃ after, (r.step (packet 16 0 [97, 98])).sessions[0]? = some after ∧
        after.state.recvNext = 2 := by
  intro packet r
  have opened : r.sessions[0]?.map (fun s => (s.key.protocol, s.state.recvNext)) =
      some (.tcp, 0) := by decide +kernel
  have next : (r.step (packet 16 0 [97, 98])).sessions[0]?.map (·.state.recvNext) = some 2 := by
    decide +kernel
  obtain ⟨session, at_id, same⟩ := Option.map_eq_some_iff.1 opened
  simp only [Prod.mk.injEq] at same
  obtain ⟨after, later, -⟩ := run_expects .plain 0 1 1 _ at_id same.1 (packet 16 0 [97, 98])
  have later : (r.step (packet 16 0 [97, 98])).sessions[0]? = some after := later
  rw [later] at next
  exact ⟨by rw [at_id, Option.map_some, same.2], after, later, Option.some.inj next⟩

/-- With every data segment that goes to the peer of a session in an event, what is unacknowledged
stays less than half the circle. What is acknowledged does not move behind the data of an event. -/
def Restrains (r : Relay) (id : SessionId) (e : Event) : Prop :=
  ∀ session ∈ (r.step e).sessions[id]?,
    ∀ s ∈ ((r.step e).sentBy id).drop (r.sentBy id).length, s.isData = true →
      s.seq + UInt32.ofNat s.payload.length - session.state.sendUnacknowledged < 0x80000000

/-- All events of a run restrain the data that goes to the peer of a session. -/
def Restrained (id : SessionId) : Relay → List Event → Prop
  | _, [] => True
  | r, e :: rest => r.Restrains id e ∧ Restrained id (r.step e) rest

instance (r : Relay) (id : SessionId) (e : Event) : Decidable (r.Restrains id e) := by
  unfold Restrains
  infer_instance

instance (id : SessionId) : (r : Relay) → (events : List Event) → Decidable (Restrained id r events)
  | _, [] => .isTrue trivial
  | r, e :: rest =>
    have := instDecidableRestrained id (r.step e) rest
    inferInstanceAs (Decidable (_ ∧ _))

private theorem Consistent.sentBy_unborn (h : Consistent r) (unborn : r.history id = none) :
    r.sentBy id = [] := by
  have none_yet := h.effects_unborn unborn
  unfold effectsOf at none_yet
  rw [List.map_eq_nil_iff] at none_yet
  unfold sentBy writtenBy
  rw [none_yet]
  rfl

/-- Restrained data leaves a stream within its window, whatever else happens to it in an event. -/
private theorem Consistent.window (h : Consistent r) (traced : Traced r)
    (known : (r.step e).history id = some u) (stream : u.session.key.protocol = .tcp)
    (restrains : r.Restrains id e) (before : ∀ t, r.history id = some t → t.InWindow) :
    u.InWindow := by
  have sent : (r.step e).sentBy id = segments u.effects :=
    (Changes.traced traced (h.step e)).sentBy_of_history known stream
  have bound : ∀ s ∈ (segments u.effects).drop (r.sentBy id).length, s.isData = true →
      Serial.atOrAfter (s.seq + UInt32.ofNat s.payload.length) u.state.sendUnacknowledged = true := by
    intro s member data
    rw [← sent] at member
    exact decide_eq_true (restrains u.session (history_eq_some.1 known).1 s member data)
  obtain ⟨t, s, was, reaches, moves⟩ | ⟨t, outside, first, deaf, -, moves⟩ := h.moment e known
  · have answered : Turn.Moves r.settings .anything t _ :=
      Turn.receiveAck_moves reaches.hears r.now
    have key := t.key_receiveAck s r.settings.egressClassifier r.now
    have stream_answered := Turn.Moves.key moves ▸ stream
    obtain ⟨isn, closes⟩ := (traced.lives id t was).closes (key ▸ stream_answered)
    obtain ⟨inside, -⟩ := Session.Turn.receiveAck_window closes.pending (before t was) s
      r.settings.egressClassifier r.now
    refine (traced.answered was reaches).window stream_answered (Outside.deaf_nothing _) moves inside
      fun s member => ?_
    -- The answer carries no data, so all new data is sent behind the acknowledgment.
    rw [Session.Turn.data_receiveAck] at member
    obtain ⟨member, data⟩ :=
      Session.Turn.mem_drop_data (answered.grows.trans (Turn.Moves.grows moves)) member
    rw [← traced.sentBy_of_history was (key ▸ stream_answered)] at member
    exact bound s member data
  · have stream_first := Turn.Moves.key moves ▸ stream
    have grows := Turn.Moves.grows moves
    obtain ⟨was, -⟩ | ⟨unborn, opened⟩ := first
    · refine (traced.lives id t was).window stream_first deaf moves (before t was)
        fun s member => ?_
      obtain ⟨member, data⟩ := Session.Turn.mem_drop_data grows member
      rw [← traced.sentBy_of_history was stream_first] at member
      exact bound s member data
    · refine opened.lives.window stream_first deaf moves
        (Session.Turn.inWindow_opened opened stream_first) fun s member => ?_
      obtain ⟨member, data⟩ := Session.Turn.mem_drop_data grows member
      refine bound s ?_ data
      rw [h.sentBy_unborn unborn]
      exact List.mem_of_mem_drop member

private theorem window_run (h : Consistent r) (traced : Traced r) (events : List Event)
    (restrained : Restrained id r events)
    (before : ∀ t, r.history id = some t → t.session.key.protocol = .tcp → t.InWindow) :
    ∀ t, (r.run events).history id = some t → t.session.key.protocol = .tcp → t.InWindow := by
  induction events generalizing r with
  | nil => exact before
  | cons e rest ih =>
    obtain ⟨restrains, restrained⟩ := restrained
    have changes := h.step e
    refine ih (Changes.consistent h changes) (Changes.traced traced changes) restrained
      fun u known stream => h.window traced known stream restrains fun t was => ?_
    obtain ⟨v, later, moves⟩ := Changes.history changes was
    obtain rfl : u = v := Option.some.inj (known.symm.trans later)
    exact before t was (by rw [← Turn.Moves.key moves, stream])

private theorem Consistent.acknowledged (h : Consistent r) (traced : Traced r)
    (known : r.history id = some t) (stream : t.session.key.protocol = .tcp)
    (window : t.InWindow) (e : Event) : ∃ u, (r.step e).history id = some u ∧
      Serial.atOrAfter u.state.sendUnacknowledged t.state.sendUnacknowledged = true := by
  have lives := traced.lives id t known
  obtain ⟨u, later, ⟨s, reaches, moves⟩ | ⟨-, outside, deaf, -, moves⟩⟩ := h.goes_on e known
  · have key := t.key_receiveAck s r.settings.egressClassifier r.now
    obtain ⟨isn, closes⟩ := lives.closes stream
    obtain ⟨-, ahead⟩ := Session.Turn.receiveAck_window closes.pending window s
      r.settings.egressClassifier r.now
    refine ⟨u, later, ?_⟩
    rw [(traced.answered known reaches).unacknowledged (by rw [key, stream])
      (Outside.deaf_nothing _) moves]
    exact ahead
  · refine ⟨u, later, ?_⟩
    rw [lives.unacknowledged stream deaf moves]
    exact Serial.atOrAfter_self _

/-- The window towards the peer: in a run that restrains the data of a stream, what is sent next is
at or ahead of what is acknowledged, by less than half the circle, and what is acknowledged does not
move back. An acknowledgment counts if it lies ahead of what is acknowledged or is what is sent
next, and then what is acknowledged is the smaller of it and what is sent next. Nothing is assumed
of the peer: it may acknowledge what was never sent, and have our FIN set what is sent next behind
that. -/
theorem run_window (settings : Settings) (now coreWorkers maxWorkers : Nat) (events : List Event)
    {id : SessionId} {session : Session}
    (at_id : ((start settings now coreWorkers maxWorkers).run events).sessions[id]? = some session)
    (stream : session.key.protocol = .tcp)
    (restrained : Restrained id (start settings now coreWorkers maxWorkers) events) :
    let r := (start settings now coreWorkers maxWorkers).run events
    let st := session.state
    Serial.atOrAfter st.sendNext st.sendUnacknowledged = true ∧
    (∀ e, ∃ after, (r.step e).sessions[id]? = some after ∧
      Serial.atOrAfter after.state.sendUnacknowledged st.sendUnacknowledged = true) ∧
    ∀ ack seq peer clock, let after := st.acceptAck ack seq peer clock
      (after.acked = true ↔
        Serial.after ack st.sendUnacknowledged = true ∨ ack = st.sendNext) ∧
      (after.acked = true →
        (after.sendUnacknowledged = ack ∨ after.sendUnacknowledged = st.sendNext) ∧
        Serial.atOrAfter ack after.sendUnacknowledged = true ∧
        Serial.atOrAfter st.sendNext after.sendUnacknowledged = true) ∧
      (after.acked = false → after.sendUnacknowledged = st.sendUnacknowledged) := by
  intro r st
  have consistent : Consistent r := consistent_run settings now coreWorkers maxWorkers events
  have traced : Traced r := traced_run settings now coreWorkers maxWorkers events
  have known : r.history id = some ⟨session, r.effectsOf (some id)⟩ := history_of_session at_id
  have begun := consistent_start settings now coreWorkers maxWorkers
  have traced_begun := traced_start settings now coreWorkers maxWorkers
  have none_yet : ∀ t, (start settings now coreWorkers maxWorkers).history id = some t →
      t.session.key.protocol = .tcp → t.InWindow :=
    fun t there => absurd (length_of_history there) (Nat.not_lt_zero id)
  have inside := window_run begun traced_begun events restrained none_yet
  have window : Turn.InWindow ⟨session, r.effectsOf (some id)⟩ := inside _ known stream
  refine ⟨window, fun e => ?_, fun ack seq peer clock => ?_⟩
  · obtain ⟨u, later, ahead⟩ := consistent.acknowledged traced known stream window e
    exact ⟨u.session, (history_eq_some.1 later).1, ahead⟩
  · intro after
    refine ⟨Session.State.acked_acceptAck, fun acked => ?_, fun refused => ?_⟩
    · have counts : after.sendUnacknowledged = Serial.earlier ack st.sendNext :=
        congrArg (·.sendUnacknowledged) (Session.State.acceptAck_of_acked acked)
      obtain ⟨smaller, -, below, room⟩ :=
        Serial.earlier_of_accepted window (Session.State.acked_acceptAck.1 acked)
      rw [counts]
      exact ⟨smaller, below, room⟩
    · exact congrArg (·.sendUnacknowledged) (Session.State.acceptAck_of_refused refused)

/-- Our FIN waits for three bytes, and the peer acknowledges more than was ever sent. -/
theorem run_window_beyond :
    let packet (flags : UInt8) (ack : UInt32) : Event := .packet
      (sampleSegment flags (if flags = 2 then 1000 else 1001) ack []) 500
      (.smooth [.data [1, 2, 3], .data []])
    let events : List Event := [packet 2 0, .pass (fun _ => 0) (fun _ => 0),
      packet 16 (500 + 0x7fffffff)]
    let r := (start .plain 0 1 1).run events
    ∃ session, r.sessions[0]? = some session ∧ session.state.sendUnacknowledged = 504 ∧
      session.state.sendNext = 500 + 0x80000000 ∧
      Serial.atOrAfter session.state.sendNext session.state.sendUnacknowledged = true := by
  intro packet events r
  have opened : r.sessions[0]?.map (fun s =>
      (s.key.protocol, s.state.sendUnacknowledged, s.state.sendNext)) =
      some (.tcp, 504, 500 + 0x80000000) := by decide +kernel
  have restrained : Restrained 0 (start .plain 0 1 1) events := by decide +kernel
  obtain ⟨session, at_id, same⟩ := Option.map_eq_some_iff.1 opened
  simp only [Prod.mk.injEq] at same
  obtain ⟨stream, unacknowledged, next⟩ := same
  obtain ⟨window, -⟩ := run_window .plain 0 1 1 events at_id stream restrained
  exact ⟨session, at_id, unacknowledged, next, window⟩

end Relay
end PacketRelay
