import PacketRelay.Proofs.Window

/-!
When our FIN goes out at once.

Once the peer has acknowledged all with a segment that carries nothing, our FIN does not have to
wait as long as no more data is sent: it goes out in the pass in which the socket reports the end of
its stream. Only such segments count. What the peer acknowledges along with data is not noted, nor
is what it acknowledges before it has been sent, and then the FIN waits for another acknowledgment.
-/

set_option autoImplicit false

namespace PacketRelay

open Session (Turn State Classifier)

namespace Session.Turn

variable {settings : Relay.Settings} {outside : Outside} {t u v : Turn} {isn : UInt32} {n : Nat}
  {s : Inbound.Segment}

/-- All was acknowledged when `n` data segments had been sent. As long as there are no more, the FIN
does not wait, and all is acknowledged unless it is out. -/
structure Clear (n : Nat) (t : Turn) : Prop where
  sent : n ≤ (dataSegments t.effects).length
  notClosing : (dataSegments t.effects).length = n → t.state.closing = false
  acknowledged : (dataSegments t.effects).length = n → t.state.ackedToFin = false →
    t.state.sendUnacknowledged = t.state.sendNext

private theorem Clear.stays (h : Clear n t) (stays : t.Stays u) : Clear n u := by
  refine ⟨?_, ?_, ?_⟩
  · rw [stays.data]
    exact h.sent
  · rw [stays.data, stays.closing]
    exact h.notClosing
  · rw [stays.data, stays.ackedToFin, stays.unacknowledged, stays.next]
    exact h.acknowledged

private theorem clear_beyond (beyond : n < (dataSegments t.effects).length) : Clear n t where
  sent := Nat.le_of_lt beyond
  notClosing same := absurd same (Nat.ne_of_gt beyond)
  acknowledged same := absurd same (Nat.ne_of_gt beyond)

private theorem noteAck_all (all : s.tcp.ack = t.state.sendNext) (now : Nat) :
    (t.noteAck s now).state.acked = true ∧
      (t.noteAck s now).state.sendUnacknowledged = (t.noteAck s now).state.sendNext := by
  have acked : (t.noteAck s now).state.acked = true := State.acked_acceptAck.2 (.inr all)
  obtain ⟨-, counts⟩ := noteAck_accepted acked
  refine ⟨acked, ?_⟩
  rw [(t.noted_noteAck s now).next, counts, all, Serial.earlier, Serial.after_self,
    if_neg Bool.false_ne_true]

private theorem noteAck_clear (acknowledged : t.state.sendUnacknowledged = t.state.sendNext)
    (s : Inbound.Segment) (now : Nat) :
    (t.noteAck s now).state.sendUnacknowledged = (t.noteAck s now).state.sendNext := by
  cases acked : (t.noteAck s now).state.acked with
  | false => rw [noteAck_refused acked, acknowledged, (t.noted_noteAck s now).next]
  | true =>
    obtain ⟨ahead | same, counts⟩ := noteAck_accepted acked
    · rw [acknowledged] at ahead
      rw [counts, Serial.earlier, if_pos ahead, (t.noted_noteAck s now).next]
    · exact (noteAck_all same now).2

private theorem clear_takeAck (heard : t.state.lastSegment?.isSome = true)
    (all : s.tcp.ack = t.state.sendNext) (now : Nat) :
    Clear (dataSegments t.effects).length (t.takeAck s now) := by
  have noted := t.noted_noteAck s now
  obtain ⟨acked, acknowledged⟩ := noteAck_all all now
  have data := (rests_takeAck heard s now).data
  refine ⟨Nat.le_of_eq (congrArg List.length data).symm, fun _ => ?_, fun _ unsent => ?_⟩
  · obtain ⟨notDue, same⟩ | ⟨-, same⟩ := t.takeAck_cases s now
    · rw [same]
      refine Bool.eq_false_iff.2 fun closing => notDue ⟨closing, acked, ?_⟩
      exact State.unacknowledged_eq_zero.2 acknowledged.symm
    · rw [same]
      exact (ended_endStream (noted.last ▸ heard) _).2
  · obtain ⟨-, same⟩ | ⟨-, same⟩ := t.takeAck_cases s now
    · rw [same]
      exact acknowledged
    · rw [same, (ended_endStream (noted.last ▸ heard) _).1] at unsent
      cases unsent

private theorem Clear.takeAck (h : Clear n t) (heard : t.state.lastSegment?.isSome = true)
    (s : Inbound.Segment) (now : Nat) : Clear n (t.takeAck s now) := by
  have noted := t.noted_noteAck s now
  have data := (rests_takeAck heard s now).data
  rcases Nat.lt_or_eq_of_le h.sent with beyond | same
  · exact clear_beyond (data ▸ beyond)
  · have notClosing := h.notClosing same.symm
    obtain ⟨-, only_noted⟩ | ⟨⟨closing, -⟩, -⟩ := t.takeAck_cases s now
    · rw [only_noted] at data ⊢
      refine ⟨data ▸ h.sent, fun _ => noted.closing.trans notClosing, fun _ unsent => ?_⟩
      exact noteAck_clear (h.acknowledged same.symm (noted.ackedToFin ▸ unsent)) s now
    · rw [noted.closing, notClosing] at closing
      cases closing

private theorem Clear.remoteClose (h : Clear n t) (heard : t.state.lastSegment?.isSome = true)
    (notAcked : t.state.ackedToFin = false) : Clear n t.remoteClose := by
  have data := (rests_remoteClose heard).data
  rcases Nat.lt_or_eq_of_le h.sent with beyond | same
  · exact clear_beyond (data ▸ beyond)
  · have nothing_left : t.state.unacknowledged = 0 :=
      State.unacknowledged_eq_zero.2 (h.acknowledged same.symm notAcked).symm
    obtain ⟨outstanding, -⟩ | ⟨-, finished⟩ := t.remoteClose_cases
    · exact absurd nothing_left outstanding
    · obtain ⟨out, notClosing⟩ := ended_endStream heard (t.state.sendNext + 1)
      rw [finished] at data ⊢
      refine ⟨data ▸ h.sent, fun _ => notClosing, fun _ unsent => ?_⟩
      rw [out] at unsent
      cases unsent

private theorem Clear.move (h : Clear n t) (lives : Lives settings t)
    (stream : t.session.key.protocol = .tcp) (move : Move settings outside t u) : Clear n u := by
  obtain ⟨isn, streams⟩ := lives.streams stream
  have later : Streams isn u := streams.move lives.headed stream move
  have grows := move.grows
  cases move.course stream with
  | bides _ bides => exact h.stays bides.stays
  | takePayload _ s _ _ _ bides => exact h.stays ((stays_queue s).trans bides.stays)
  | takeAck s now => exact h.takeAck streams.heard s now
  | flush => exact h.stays stays_flush
  | deliver bytes after now _ payload =>
    have arrived := received_deliver (t := t.withSocket after) bytes settings.ingressClassifier now
    obtain ⟨before, last, data⟩ := streams.carried later grows arrived payload
    refine clear_beyond (Nat.lt_of_le_of_lt h.sent ?_)
    rw [data]
    simp only [List.length_append, List.length_singleton]
    omega
  | remoteClose after reads =>
    have read : Clear n (t.withSocket after) := h.stays (bides_withSocket after).stays
    exact read.remoteClose streams.heard reads.notAcked

private theorem Lives.clear (lives : Lives settings t) (stream : t.session.key.protocol = .tcp)
    (moves : Moves settings outside t u) (h : Clear n t) : Clear n u :=
  lives.along stream moves h fun before _ stream_here _ move clear =>
    clear.move (lives.moves before) stream_here move

private theorem clear_receiveAck (bare : s.payload = []) (all : s.tcp.ack = t.state.sendNext)
    (classifier : Classifier) (now : Nat) :
    Clear (dataSegments t.effects).length (t.receiveAck s classifier now).1 := by
  obtain ⟨-, bides⟩ | ⟨carries, -⟩ | ⟨carries, -⟩ := t.receiveAck_cases s classifier now
  · exact (clear_takeAck (t := t.update fun st => st.rememberTcp s.ip s.tcp) rfl all now).stays
      bides.stays
  · exact absurd bare carries
  · exact absurd bare carries

private theorem Streams.streamEnd_eq (h : Streams isn t) {isn_later : UInt32}
    (later : Streams isn_later u) (grows : Adds (fun _ => True) t u)
    (same : dataSegments u.effects = dataSegments t.effects) :
    u.streamEnd isn_later = t.streamEnd isn := by
  obtain ⟨ack, begun⟩ := h.begun
  obtain ⟨_, begun_later⟩ := later.begun
  have first := begun_later.symm.trans (begun_of_grows grows begun)
  obtain rfl : isn_later = isn := congrArg Sent.seq (Option.some.inj first)
  unfold streamEnd
  rw [← h.whole, ← later.whole, same]

private theorem Lives.finishes (lives : Lives settings t) (stream : t.session.key.protocol = .tcp)
    (before : Moves settings outside t u) (running : ¬ u.Ended) (moves : Moves settings .nothing u v)
    (ended : v.Ended) (notClosing : v.state.closing = false)
    (same : dataSegments v.effects = dataSegments t.effects) :
    v.state.ackedToFin = true ∧ ownFins u.effects = [] ∧
      ownFins v.effects = [⟨.fin ∪ .ack, t.state.sendNext, u.state.recvNext, []⟩] := by
  have stream_u : u.session.key.protocol = .tcp := by rw [Moves.key before, stream]
  have lives_u := lives.moves before
  obtain ⟨isn, closes⟩ := lives.closes stream
  obtain ⟨_, closes_u⟩ := lives_u.closes stream_u
  obtain ⟨_, closes_v⟩ := (lives_u.moves moves).closes (by rw [Moves.key moves, stream_u])
  have finished : v.state.ackedToFin = true := by
    refine ended.resolve_left fun closing => ?_
    rw [notClosing] at closing
    cases closing
  have unsent : ownFins u.effects = [] :=
    closes_u.unsent (Bool.eq_false_iff.2 fun finished => running (.inr finished))
  refine ⟨finished, unsent, ?_⟩
  obtain ⟨ack, fins⟩ := closes_v.sent finished
  obtain ⟨expected, new⟩ := lives_u.acknowledges stream_u (Outside.deaf_nothing _) moves
  have acknowledged : ack = u.state.recvNext := by
    have member := new ⟨.fin ∪ .ack, _, ack, []⟩ (by rw [fins]; exact List.mem_singleton_self _)
    rw [unsent] at member
    exact (member.resolve_left List.not_mem_nil).trans expected
  have forward := lives.forward stream before
  have at_end : t.state.sendNext = t.streamEnd isn :=
    closes.next (Bool.eq_false_iff.2 fun closing => running (forward.ended (.inl closing)))
      (Bool.eq_false_iff.2 fun finished => running (forward.ended (.inr finished)))
  have same_end := closes.toStreams.streamEnd_eq closes_v.toStreams
    ((Moves.grows before).trans (Moves.grows moves)) same
  rw [fins, same_end, at_end, acknowledged]

end Session.Turn

namespace Relay

variable {r after : Relay} {id : SessionId} {t u : Turn} {e : Event} {s : Inbound.Segment}

private theorem Consistent.clears (h : Consistent r) (traced : Traced r)
    (known : r.history id = some t) (reaches : Reaches e t s) (bare : s.payload = [])
    (all : s.tcp.ack = t.state.sendNext)
    (later : List Event) : ∃ u, ((r.step e).run later).history id = some u ∧
      Turn.Clear (dataSegments t.effects).length u := by
  obtain ⟨u, heard, moves⟩ := h.heard known reaches
  have changes := h.step e
  obtain ⟨v, known_later, moves_later⟩ :=
    Changes.history ((Changes.consistent h changes).run later) heard
  have answered := traced.answered known reaches
  have stream : (t.receiveAck s r.settings.egressClassifier r.now).1.session.key.protocol =
      .tcp := by
    rw [t.key_receiveAck, ← reaches.own]
    rfl
  have clear := answered.clear stream moves (Session.Turn.clear_receiveAck bare all _ r.now)
  rw [Changes.settings changes] at moves_later
  exact ⟨v, known_later,
    (answered.moves moves).clear (by rw [Turn.Moves.key moves, stream]) moves_later clear⟩

/-- Once the peer has acknowledged all with a segment without payload, a stream that ends before
there is new data sends its FIN in the pass that ends it. -/
private theorem Consistent.finishes (h : Consistent r) (traced : Traced r)
    (known : r.history id = some t) (reaches : Reaches e t s) (bare : s.payload = [])
    (all : s.tcp.ack = t.state.sendNext)
    {later : List Event} (runs : r.run (e :: later) = after) (known_later : after.history id = some u)
    (opened : u.session.socket.isSome = true) (going : u.state.aborting = false)
    (first second : SessionId → Nat)
    (ended : (u.pump after.settings.ingressClassifier true after.now).2 = .remoteClosed) :
    ∃ v, (after.step (.pass first second)).history id = some v ∧
      v.session.key = t.session.key ∧ u.session.key = t.session.key ∧
      (dataSegments v.effects = dataSegments t.effects →
        v.state.closing = false ∧ v.state.ackedToFin = true ∧ ownFins u.effects = [] ∧
        ownFins v.effects = [⟨.fin ∪ .ack, t.state.sendNext, u.state.recvNext, []⟩]) := by
  have changes := h.run (e :: later)
  rw [runs] at changes
  have stream : t.session.key.protocol = .tcp := by rw [← reaches.own]; rfl
  have settings := Changes.settings changes
  obtain ⟨w, known_w, moves⟩ := Changes.history changes known
  obtain rfl : u = w := Option.some.inj (known_later.symm.trans known_w)
  obtain ⟨w, known_w, clear⟩ := h.clears traced known reaches bare all later
  rw [← run_cons, runs] at known_w
  obtain rfl : u = w := Option.some.inj (known_later.symm.trans known_w)
  have key_u := Turn.Moves.key moves
  have stream_u : u.session.key.protocol = .tcp := by rw [key_u, stream]
  have traced_later := Changes.traced traced changes
  have lives_u := traced_later.lives id u known_later
  obtain ⟨w, v, served, past, known_v, passes⟩ := (Changes.consistent h changes).pass_ended
    traced_later first second known_later stream_u opened going ended
  have running := Turn.pump_ended after.settings.ingressClassifier true after.now ended
  have forward :=
    (lives_u.moves served).forward (by rw [Turn.Moves.key served, stream_u]) passes
  have passes := served.trans passes
  have clear := lives_u.clear stream_u passes clear
  refine ⟨v, known_v, (Turn.Moves.key passes).trans key_u, key_u, fun same => ?_⟩
  have notClosing := clear.notClosing (congrArg List.length same)
  rw [settings] at passes
  exact ⟨notClosing,
    (traced.lives id t known).finishes stream moves running passes (forward.ended past) notClosing
      same⟩

/-- When our FIN does not wait: if the peer of a stream has acknowledged all that was sent with a
segment without payload, and nothing is sent since, then our FIN goes out in the pass in which the
socket reports the end of the stream. It has the number that the peer acknowledged. -/
theorem run_finishes (settings : Settings) (now coreWorkers maxWorkers : Nat)
    (events later : List Event) {e : Event} {s : Inbound.Segment} {id : SessionId}
    {session last : Session}
    (at_id : ((start settings now coreWorkers maxWorkers).run events).sessions[id]? = some session)
    (brings : e.segment? = some s) (own : s.key = session.key) (isAck : s.tcp.isAck = true)
    (notSyn : s.tcp.isSyn = false) (bare : s.payload = [])
    (all : s.tcp.ack = session.state.sendNext)
    (there : ((start settings now coreWorkers maxWorkers).run (events ++ e :: later)).sessions[id]? =
      some last) (opened : last.socket.isSome = true) (going : last.state.aborting = false)
    (first second : SessionId → Nat) :
    let before := (start settings now coreWorkers maxWorkers).run events
    let r := (start settings now coreWorkers maxWorkers).run (events ++ e :: later)
    let after := r.step (.pass first second)
    let data (r : Relay) := (r.sentBy id).filter (·.isData)
    ((Turn.start last).pump r.settings.ingressClassifier true r.now).2 = .remoteClosed →
    data after = data before →
    (∃ final, after.sessions[id]? = some final ∧ final.state.closing = false ∧
      final.state.ackedToFin = true) ∧
    r.finsBy id = [] ∧
    after.finsBy id = [⟨.fin ∪ .ack, s.tcp.ack, last.state.recvNext, []⟩] := by
  intro before r after data ended same
  have consistent : Consistent before := consistent_run settings now coreWorkers maxWorkers events
  have traced : Traced before := traced_run settings now coreWorkers maxWorkers events
  have changes := consistent.run (e :: later)
  have runs : before.run (e :: later) = r := (run_append _ events (e :: later)).symm
  rw [runs] at changes
  have known := history_of_session at_id
  have known_later := history_of_session there
  have opened_before : session.socket.isSome = true :=
    Changes.opened consistent changes known known_later opened
  have ended : (Turn.pump ⟨last, r.effectsOf (some id)⟩ r.settings.ingressClassifier true
      r.now).2 = .remoteClosed := by
    rw [← Turn.pump_start]
    exact ended
  obtain ⟨v, known_v, key_v, key_u, fin⟩ := consistent.finishes traced known
    ⟨brings, own, isAck, notSyn, opened_before⟩ bare all runs known_later opened going first second
    ended
  have stream : session.key.protocol = .tcp := by rw [← own]; rfl
  have traced_later : Traced r := traced_run settings now coreWorkers maxWorkers _
  have passes := (Changes.consistent consistent changes).step (.pass first second)
  have traced_after : Traced after := Changes.traced traced_later passes
  have stream_v : v.session.key.protocol = .tcp := by rw [key_v, stream]
  have sent : data before = dataSegments (before.effectsOf (some id)) :=
    traced.dataBy known stream
  have sent_after : data after = dataSegments v.effects := traced_after.dataBy known_v stream_v
  obtain ⟨notClosing, finished, unsent, out⟩ := fin (sent_after.symm.trans (same.trans sent))
  refine ⟨⟨v.session, (history_eq_some.1 known_v).1, notClosing, finished⟩, ?_, ?_⟩
  · exact (traced_later.finsBy known_later (key_u ▸ stream)).trans unsent
  · rw [all]
    exact (traced_after.finsBy known_v stream_v).trans out

/-- The handshake is acknowledged, and the socket ends without having sent anything. -/
theorem run_finishes_bare :
    let packet (flags : UInt8) (ack : UInt32) : Event := .packet
      (sampleSegment flags (if flags = 2 then 1000 else 1001) ack []) 500 (.smooth [.data []])
    let before := (start .plain 0 1 1).run [packet 2 0]
    let after := ((start .plain 0 1 1).run [packet 2 0, packet 16 501]).step
      (.pass (fun _ => 0) (fun _ => 0))
    before.sessions[0]?.map (fun s => s.state.sendNext) = some 501 ∧
      (∃ final, after.sessions[0]? = some final ∧ final.state.closing = false ∧
        final.state.ackedToFin = true) ∧
      after.finsBy 0 = [⟨.fin ∪ .ack, 501, 1001, []⟩] := by
  intro packet before after
  let middle := (start .plain 0 1 1).run [packet 2 0, packet 16 501]
  have waits : before.sessions[0]?.map (fun s => (s.key, s.state.sendNext)) =
      some (sampleFlow, 501) := by decide +kernel
  have ends : middle.sessions[0]?.map (fun s => (s.socket.isSome, s.state.aborting,
      s.state.recvNext, ((Turn.start s).pump middle.settings.ingressClassifier true
        middle.now).2 == .remoteClosed)) = some (true, false, 1001, true) := by decide +kernel
  obtain ⟨session, at_zero, same⟩ := Option.map_eq_some_iff.1 waits
  obtain ⟨last, there, same_last⟩ := Option.map_eq_some_iff.1 ends
  simp only [Prod.mk.injEq] at same same_last
  obtain ⟨key, sent⟩ := same
  obtain ⟨opened, going, expected, ended⟩ := same_last
  have brings : (packet 16 501).segment? = some ((packet 16 501).segment?.get (by decide +kernel)) :=
    (Option.some_get _).symm
  obtain ⟨final, -, fins⟩ := run_finishes .plain 0 1 1 [packet 2 0] [] at_zero brings
    (key.symm ▸ by decide +kernel) (by decide +kernel) (by decide +kernel) (by decide +kernel)
    (sent.symm ▸ by decide +kernel) there opened going (fun _ => 0) (fun _ => 0)
    (eq_of_beq ended) (by decide +kernel)
  have number : ((packet 16 501).segment?.get (by decide +kernel)).tcp.ack = 501 := by
    decide +kernel
  rw [number, expected] at fins
  refine ⟨?_, final, fins⟩
  rw [at_zero, Option.map_some, sent]

/-- The peer has acknowledged all, but together with data, and our FIN waits. -/
theorem fin_waits_for_bare_ack :
    let packet (flags : UInt8) (ack : UInt32) (payload : Bytes) : Event := .packet
      (sampleSegment flags (if flags = 2 then 1000 else 1001) ack payload) 500 (.smooth [.data []])
    let data := packet 16 501 [97]
    let r := (start .plain 0 1 1).run [packet 2 0 [], data]
    let after := r.step (.pass (fun _ => 0) (fun _ => 0))
    data.segment?.map (fun s => (s.tcp.flags, s.tcp.ack, s.payload)) = some (.ack, 501, [97]) ∧
      r.sessions[0]?.map (fun s => (s.state.sendNext, ((Turn.start s).pump
        r.settings.ingressClassifier true r.now).2 == .remoteClosed)) = some (501, true) ∧
      after.sessions[0]?.map (fun s => (s.state.sendNext, s.state.closing)) = some (501, true) ∧
      after.sentBy 0 = r.sentBy 0 ∧ after.finsBy 0 = [] := by
  decide +kernel

end Relay
end PacketRelay
