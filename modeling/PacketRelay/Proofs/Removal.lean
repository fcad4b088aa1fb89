import PacketRelay.Proofs.Conversing

/-!
Which segments remove a session.

A segment with ACK finishes the session of its flow in two cases: it brings a FIN in order, or it
has no payload and our FIN is out. What it acknowledges does not matter, and without payload a FIN
counts as in order wherever it stands. So an old acknowledgment is taken for that of our FIN, and an
old FIN is honoured if it comes bare.
-/

set_option autoImplicit false

namespace PacketRelay

open Session (Key Turn State Classifier)

namespace Session.Turn

variable {settings : Relay.Settings} {outside : Outside} {t u : Turn} {s : Inbound.Segment}

/-- What makes a segment with ACK finish a session. -/
def Finishes (t : Turn) (s : Inbound.Segment) : Prop :=
  if s.tcp.isFin then s.payload = [] ∨ t.state.acceptsData s.tcp.seq = true
  else s.payload = [] ∧ t.state.closing = false ∧ t.state.ackedToFin = true

private theorem receiveAck_close_iff (t : Turn) (s : Inbound.Segment) (classifier : Classifier)
    (now : Nat) : (t.receiveAck s classifier now).2 = .close ↔ t.Finishes s := by
  rw [verdict_receiveAck, ite_eq_left_iff]
  unfold Finishes
  cases s.tcp.isFin <;> cases s.payload <;> simp

private theorem socket_hear (t : Turn) (s : Inbound.Segment) (classifier : Classifier) (now : Nat) :
    (t.Finishes s → (t.hear s classifier now).session.socket = none) ∧
    (¬ t.Finishes s → (t.hear s classifier now).session.socket = t.session.socket) := by
  have verdict := t.receiveAck_close_iff s classifier now
  unfold hear
  cases same : (t.receiveAck s classifier now).2 with
  | close => exact ⟨fun _ => socket_shut, fun goes_on => absurd (verdict.1 same) goes_on⟩
  | stay refresh =>
    refine ⟨fun finishes => ?_, fun _ => ?_⟩
    · rw [verdict.2 finishes] at same
      cases same
    · rw [socket_conclude, socket_receiveAck]

private theorem drafts_acknowledged (bare : s.payload = []) (notFin : s.tcp.isFin = false)
    (notClosing : t.state.closing = false) (classifier : Classifier) (now : Nat) :
    drafts (t.hear s classifier now).effects = drafts t.effects := by
  let u := t.update fun st => st.rememberTcp s.ip s.tcp
  obtain ⟨same, -⟩ := receiveAck_inOrder (t := t) (.inl bare) classifier now
  have noted := u.noted_noteAck s now
  have unanswered : drafts (u.takeAck s now).effects = drafts t.effects := by
    obtain ⟨-, only_noted⟩ | ⟨⟨closing, -⟩, -⟩ := u.takeAck_cases s now
    · rw [only_noted, noted.effects]
      rfl
    · rw [noted.closing] at closing
      exact absurd closing (by rw [show u.state.closing = false from notClosing]; decide)
  unfold hear
  rw [drafts_conclude, same, drafts_takeEnd, drafts_takePush, notFin, bare]
  exact unanswered

private theorem drafts_refused (carries : s.payload ≠ [])
    (refuses : t.state.acceptsData s.tcp.seq = false) (isFin : s.tcp.isFin = true)
    (classifier : Classifier) (now : Nat) :
    ∃ timestamps, drafts (t.hear s classifier now).effects =
      .ack s.ip s.tcp s.nextSeq timestamps :: drafts t.effects := by
  let u := t.update fun st => st.rememberTcp s.ip s.tcp
  have some_payload : s.payload.isEmpty = false := by simpa using carries
  have order : (t.receiveAck s classifier now).1 =
      ((if s.payload.isEmpty then u.takeAck s now
        else if !s.payload.isEmpty && t.state.acceptsData s.tcp.seq then
          u.takePayload s classifier now
        else u.refusePayload s).takePush s now).takeEnd s
          (s.payload.isEmpty || !s.payload.isEmpty && t.state.acceptsData s.tcp.seq) := rfl
  -- The FIN of a payload that is refused counts for nothing.
  have ignored : ∀ v : Turn, v.takeEnd s false = v := fun v => if_pos isFin
  rw [some_payload, refuses] at order
  simp only [Bool.false_eq_true, if_false, Bool.not_false, Bool.and_false, Bool.or_false,
    ignored] at order
  refine ⟨u.state.replyTimestamps, ?_⟩
  unfold hear
  rw [drafts_conclude, order, drafts_takePush]
  rfl

private theorem socket_resendAck : t.resendAck.session.socket = t.session.socket := by
  unfold resendAck
  split <;> rfl

private theorem drafts_resendAck (headed : t.Headed) (stream : t.session.key.protocol = .tcp)
    (heard : t.state.lastSegment?.isSome = true) :
    ∃ d, drafts t.resendAck.effects = d :: drafts t.effects ∧
      d.Replies t.session.key (fun _ => False) ∧
      Sent.ofDraft? d = some ⟨.ack, t.state.sendNext, t.state.recvNext, []⟩ := by
  obtain ⟨⟨ip, tcp⟩, last⟩ := Option.isSome_iff_exists.1 heard
  obtain ⟨s, read, own, rfl, rfl⟩ := headed.last stream last
  unfold resendAck
  rw [last]
  exact ⟨_, rfl, .segment s read own _ (Tcp.Header.answeredBy_withTimestamps? ..) []
    (Nat.zero_le _), Sent.ofDraft?_withTimestamps? ..⟩

end Session.Turn

namespace Relay

variable {r after : Relay} {id : SessionId} {t : Turn} {e : Event} {s : Inbound.Segment} {key : Key}

/-- The session of a flow is open, and a pass looks at it. -/
structure Retains (r : Relay) (key : Key) (id : SessionId) : Prop where
  listed : r.lookup key = some id
  registered : r.registered.find? key = some id
  opened : ∃ session, r.sessions[id]? = some session ∧ session.socket.isSome = true

/-- A flow has no session any more, and the one that it had is closed. -/
structure Removed (r : Relay) (key : Key) (id : SessionId) : Prop where
  unlisted : r.lookup key = none
  unregistered : r.registered.find? key = none
  closed : ∃ session, r.sessions[id]? = some session ∧ session.socket = none

/-- One packet goes to the peer of a flow, who reads a segment in it. -/
def Responds (key : Key) (sent : Sent) (r after : Relay) : Prop :=
  ∃ packet, after.written = packet :: r.written ∧ Key.ofPacket? packet = some key.back ∧
    Sent.ofBytes? packet = some sent

theorem Writes.nothing (writes : Writes [] r after) : after.written = r.written := by
  obtain ⟨packets, written, none_sent⟩ := writes
  cases none_sent
  exact written

theorem Writes.responds {d : Draft} {sent : Sent} (writes : Writes [d] r after)
    (replies : d.Replies key fun _ => False) (drafted : Sent.ofDraft? d = some sent) :
    Responds key sent r after := by
  obtain ⟨identification, others, written, none_other⟩ := writes.latest
  obtain rfl := List.length_eq_zero_iff.1 none_other
  obtain ⟨reads, addressed⟩ := replies.read_back identification
  exact ⟨_, written, addressed, reads.trans drafted⟩

theorem step_handle (brings : e.segment? = some s) :
    ∃ isn prospect, r.step e = r.handle (.segment s) isn prospect := by
  obtain ⟨buffer, isn, prospect, rfl, parsed⟩ := Event.segment?_eq_some brings
  exact ⟨isn, prospect, r.step_segment parsed isn prospect⟩

section Own

variable (h : Consistent r) (known : r.history id = some t)
  (opened : t.session.socket.isSome = true) (brings : e.segment? = some s)
  (own : s.key = t.session.key)

include h known opened brings own

/-- An open session is removed if the segment takes its socket, and only then. -/
private theorem Consistent.fate :
    ((t.handle r.settings.egressClassifier r.now (.segment s)).session.socket.isSome = true →
      (r.step e).Retains t.session.key id) ∧
    ((t.handle r.settings.egressClassifier r.now (.segment s)).session.socket = none →
      (r.step e).Removed t.session.key id) := by
  obtain ⟨isn, prospect, same⟩ := step_handle (r := r) brings
  have flow : (Inbound.segment s).key? = some t.session.key := congrArg some own
  obtain ⟨stands, scene⟩ := h.handle_found known opened flow isn prospect
  have found := h.listed id t known opened
  have agree : (r.step e).registered = (r.step e).table :=
    (Changes.consistent h (h.step e)).registered
  rw [← same] at stands scene
  refine ⟨fun stays => ?_, fun closed => ?_⟩
  · rw [if_pos stays] at scene
    have listed := (lookup_scene (congrArg (·.table) scene) t.session.key).trans found
    exact ⟨listed, agree ▸ listed, _, stands.session, stays⟩
  · rw [closed] at scene
    have scene : (r.step e).scene = r.scene.without t.session.key := scene
    have unlisted : (r.step e).lookup t.session.key = none :=
      (lookup_scene (congrArg (·.table) scene) t.session.key).trans
        ((Table.find?_erase ..).trans (if_pos rfl))
    exact ⟨unlisted, agree ▸ unlisted, _, stands.session, closed⟩

private theorem Consistent.own_writes : Writes (drafts ((Turn.start t.session).handle
    r.settings.egressClassifier r.now (.segment s)).effects) r (r.step e) := by
  obtain ⟨isn, prospect, same⟩ := step_handle (r := r) brings
  have flow : (Inbound.segment s).key? = some t.session.key := congrArg some own
  obtain ⟨stands, -⟩ := h.handle_found known opened flow isn prospect
  rw [t.handle_start, ← same] at stands
  exact (stands.enters known rfl).writes

end Own

/-- What an acknowledgment does to an open session is told by whether our FIN is out, not by what is
acknowledged: without payload, FIN and SYN it removes the session silently if our FIN is out, and
leaves it open otherwise. -/
theorem run_removes (settings : Settings) (now coreWorkers maxWorkers : Nat) (events : List Event)
    {e : Event} {s : Inbound.Segment} {id : SessionId} {session : Session}
    (at_id : ((start settings now coreWorkers maxWorkers).run events).sessions[id]? = some session)
    (opened : session.socket.isSome = true) (brings : e.segment? = some s)
    (own : s.key = session.key) (isAck : s.tcp.isAck = true) (notSyn : s.tcp.isSyn = false)
    (notFin : s.tcp.isFin = false) (bare : s.payload = []) :
    let r := (start settings now coreWorkers maxWorkers).run events
    (session.state.ackedToFin = true →
      (r.step e).Removed session.key id ∧ (r.step e).written = r.written) ∧
    (session.state.ackedToFin = false → (r.step e).Retains session.key id) := by
  intro r
  let t : Turn := ⟨session, r.effectsOf (some id)⟩
  have h : Consistent r := consistent_run settings now coreWorkers maxWorkers events
  have known : r.history id = some t := history_of_session at_id
  have stream : t.session.key.protocol = .tcp := by rw [← own]; rfl
  have lives := (traced_run settings now coreWorkers maxWorkers events).lives id t known
  obtain ⟨isn, closes⟩ := lives.closes stream
  obtain ⟨stays, gone⟩ := h.fate known opened brings own
  have writes := h.own_writes known opened brings own
  rw [Turn.handle_hear _ notSyn isAck] at stays gone writes
  obtain ⟨finished, unfinished⟩ := t.socket_hear s r.settings.egressClassifier r.now
  have finishes : t.Finishes s ↔
      s.payload = [] ∧ t.state.closing = false ∧ t.state.ackedToFin = true := by
    unfold Turn.Finishes
    rw [notFin]
    exact Iff.rfl
  refine ⟨fun out => ?_, fun waiting => stays ?_⟩
  · have out : t.state.ackedToFin = true := out
    have notClosing : t.state.closing = false := by
      refine Bool.eq_false_iff.2 fun closing => ?_
      have waiting := closes.apart closing
      rw [out] at waiting
      cases waiting
    refine ⟨gone (finished (finishes.2 ⟨bare, notClosing, out⟩)), ?_⟩
    rw [Session.Turn.drafts_acknowledged (t := .start session) bare notFin notClosing] at writes
    exact writes.nothing
  · have waiting : t.state.ackedToFin = false := waiting
    rw [unfinished fun finishes_now => ?_]
    · exact opened
    · rw [(finishes.1 finishes_now).2.2] at waiting
      cases waiting

/-- Our FIN is out, and an acknowledgment of what came before it removes the session. -/
theorem run_removes_early :
    let packet (flags : UInt8) (ack : UInt32) : Event := .packet
      (sampleSegment flags (if flags = 2 then 1000 else 1001) ack []) 500 (.smooth [.data []])
    let key := sampleFlow
    let r := (start .plain 0 1 1).run [packet 2 0, packet 16 501, .pass (fun _ => 0) (fun _ => 0)]
    r.finsBy 0 = [⟨.fin ∪ .ack, 501, 1001, []⟩] ∧ r.lookup key = some 0 ∧
      (r.step (packet 16 501)).Removed key 0 ∧ (r.step (packet 16 501)).written = r.written := by
  intro packet key r
  have out : r.finsBy 0 = [⟨.fin ∪ .ack, 501, 1001, []⟩] ∧ r.lookup key = some 0 := by
    decide +kernel
  have there : r.sessions[0]?.map (fun s => (s.key, s.socket.isSome, s.state.ackedToFin)) =
      some (key, true, true) := by decide +kernel
  obtain ⟨session, at_zero, same⟩ := Option.map_eq_some_iff.1 there
  simp only [Prod.mk.injEq] at same
  obtain ⟨own, opened, finished⟩ := same
  have brings : (packet 16 501).segment? = some ((packet 16 501).segment?.get (by decide +kernel)) :=
    (Option.some_get _).symm
  obtain ⟨removes, -⟩ := run_removes .plain 0 1 1 _ at_zero opened brings
    (own.symm ▸ by decide +kernel) (by decide +kernel) (by decide +kernel) (by decide +kernel)
    (by decide +kernel)
  obtain ⟨removed, silent⟩ := removes finished
  exact ⟨out.1, out.2, own ▸ removed, silent⟩

/-- What is sent next is 502, behind our FIN, but an acknowledgment of 501 removes the session. -/
theorem early_ack_removes :
    let packet (flags : UInt8) (ack : UInt32) : Event := .packet
      (sampleSegment flags (if flags = 2 then 1000 else 1001) ack []) 500 (.smooth [.data []])
    let r := (start .plain 0 1 1).run [packet 2 0, packet 16 501, .pass (fun _ => 0) (fun _ => 0)]
    r.sessions[0]?.map (fun s => (s.state.ackedToFin, s.state.sendNext)) = some (true, 502) ∧
      (packet 16 501).segment?.map (fun s => (s.tcp.flags, s.tcp.ack, s.payload)) =
        some (.ack, 501, []) ∧
      r.table.ids = [0] ∧ (r.step (packet 16 501)).table.ids = [] := by
  decide +kernel

/-- What a FIN does that lies before what is expected: behind payload it is ignored, and so it is on
a SYN; either way one acknowledgment is written. On a segment without payload it is honoured: it is
answered with a FIN, and removes the session. -/
theorem run_lateFin (settings : Settings) (now coreWorkers maxWorkers : Nat) (events : List Event)
    {e : Event} {s : Inbound.Segment} {id : SessionId} {session : Session}
    (at_id : ((start settings now coreWorkers maxWorkers).run events).sessions[id]? = some session)
    (opened : session.socket.isSome = true) (brings : e.segment? = some s)
    (own : s.key = session.key) (isAck : s.tcp.isAck = true) (isFin : s.tcp.isFin = true)
    (heard : session.state.recvNext ≠ 0)
    (stale : Serial.atOrAfter s.tcp.seq session.state.recvNext = false) :
    let r := (start settings now coreWorkers maxWorkers).run events
    let after := r.step e
    (s.tcp.isSyn = true → after.Retains session.key id ∧ Responds session.key
      ⟨.ack, session.state.sendNext, session.state.recvNext, []⟩ r after) ∧
    (s.tcp.isSyn = false → s.payload ≠ [] → after.Retains session.key id ∧
      Responds session.key ⟨.ack, s.tcp.ack, s.nextSeq, []⟩ r after) ∧
    (s.tcp.isSyn = false → s.payload = [] → after.Removed session.key id ∧
      ∃ last others, after.written = last :: others ++ r.written ∧
        Key.ofPacket? last = some session.key.back ∧
        Sent.ofBytes? last = some ⟨.fin ∪ .ack, s.tcp.ack, s.nextSeq + 1, []⟩) := by
  intro r after
  let t : Turn := ⟨session, r.effectsOf (some id)⟩
  have h : Consistent r := consistent_run settings now coreWorkers maxWorkers events
  have known : r.history id = some t := history_of_session at_id
  have stream : t.session.key.protocol = .tcp := by rw [← own]; rfl
  have lives := (traced_run settings now coreWorkers maxWorkers events).lives id t known
  have refuses : t.state.acceptsData s.tcp.seq = false := by
    unfold Session.State.acceptsData
    rw [show t.state.recvNext = session.state.recvNext from rfl, stale, Bool.or_false]
    simpa using heard
  obtain ⟨buffer, _, _, -, parsed⟩ := Event.segment?_eq_some brings
  obtain ⟨stays, gone⟩ := h.fate known opened brings own
  have writes := h.own_writes known opened brings own
  refine ⟨fun isSyn => ?_, fun notSyn carries => ?_, fun notSyn bare => ?_⟩
  · have repeats : ∀ u : Turn, u.handle r.settings.egressClassifier r.now (.segment s) =
        u.resendAck := fun u => if_pos isSyn
    rw [repeats] at stays writes
    obtain ⟨isn, closes⟩ := lives.closes stream
    have headed : (Turn.start session).Headed := lives.headed.of_heads rfl
    obtain ⟨d, acknowledged, replies, drafted⟩ :=
      Session.Turn.drafts_resendAck headed stream closes.heard
    rw [acknowledged] at writes
    exact ⟨stays (Session.Turn.socket_resendAck.symm ▸ opened), writes.responds replies drafted⟩
  · rw [Turn.handle_hear _ notSyn isAck] at stays writes
    obtain ⟨-, unfinished⟩ := t.socket_hear s r.settings.egressClassifier r.now
    obtain ⟨timestamps, acknowledged⟩ := Session.Turn.drafts_refused (t := .start session) carries
      refuses isFin r.settings.egressClassifier r.now
    rw [acknowledged] at writes
    refine ⟨stays ?_, writes.responds (Draft.replies_ack ⟨buffer, parsed⟩ own _ _)
      (Sent.ofDraft?_ack ..)⟩
    rw [unfinished fun finishes => ?_]
    · exact opened
    · unfold Turn.Finishes at finishes
      rw [if_pos isFin, refuses] at finishes
      exact finishes.elim carries (by decide)
  · rw [Turn.handle_hear _ notSyn isAck] at gone writes
    obtain ⟨-, closed⟩ := Turn.drafts_fin (t := t) (.inl bare) isFin r.settings.egressClassifier
      r.now
    obtain ⟨⟨others, answered⟩, -⟩ := Turn.drafts_fin (t := .start session) (.inl bare) isFin
      r.settings.egressClassifier r.now
    rw [answered] at writes
    obtain ⟨identification, others, written, -⟩ := writes.latest
    obtain ⟨reads, addressed⟩ := (Draft.replies_finAck ⟨buffer, parsed⟩ own s.tcp.ack
      (s.nextSeq + 1)).read_back identification
    exact ⟨gone closed, _, others, written, addressed, reads.trans (Sent.ofDraft?_finAck ..)⟩

/-- The peer's SYN was 1000. A FIN at 990 behind a byte is ignored, and a bare one removes the
session. -/
theorem run_lateFin_bare :
    let packet (flags : UInt8) (seq : UInt32) (payload : Bytes) : Event := .packet
      (sampleSegment flags seq 501 payload) 500 (.smooth [])
    let key := sampleFlow
    let r := (start .plain 0 1 1).run [packet 2 1000 []]
    (r.step (packet 17 990 [97])).Retains key 0 ∧
      Responds key ⟨.ack, 501, 991, []⟩ r (r.step (packet 17 990 [97])) ∧
      (r.step (packet 17 990 [])).Removed key 0 ∧
      ∃ last others, (r.step (packet 17 990 [])).written = last :: others ++ r.written ∧
        Sent.ofBytes? last = some ⟨.fin ∪ .ack, 501, 991, []⟩ := by
  intro packet key r
  have there : r.sessions[0]?.map (fun s => (s.key, s.socket.isSome, s.state.recvNext)) =
      some (key, true, 1001) := by decide +kernel
  obtain ⟨session, at_zero, same⟩ := Option.map_eq_some_iff.1 there
  simp only [Prod.mk.injEq] at same
  obtain ⟨own, opened, expected⟩ := same
  have heard : session.state.recvNext ≠ 0 := by rw [expected]; decide
  have full : (packet 17 990 [97]).segment? =
      some ((packet 17 990 [97]).segment?.get (by decide +kernel)) := (Option.some_get _).symm
  have empty : (packet 17 990 []).segment? =
      some ((packet 17 990 []).segment?.get (by decide +kernel)) := (Option.some_get _).symm
  obtain ⟨-, ignored, -⟩ := run_lateFin .plain 0 1 1 _ at_zero opened full
    (own.symm ▸ by decide +kernel) (by decide +kernel) (by decide +kernel) heard
    (expected.symm ▸ by decide +kernel)
  obtain ⟨-, -, honoured⟩ := run_lateFin .plain 0 1 1 _ at_zero opened empty
    (own.symm ▸ by decide +kernel) (by decide +kernel) (by decide +kernel) heard
    (expected.symm ▸ by decide +kernel)
  obtain ⟨retains, responds⟩ := ignored (by decide +kernel) (by decide +kernel)
  obtain ⟨removed, last, others, written, -, sent⟩ := honoured (by decide +kernel) (by decide +kernel)
  rw [own] at retains responds removed
  exact ⟨retains, responds, removed, last, others, written, sent.trans (by decide +kernel)⟩

/-- A FIN at 990, before the SYN at 1000, closes the session and is answered with a FIN that
acknowledges 991. -/
theorem late_fin_closes :
    let packet (flags : UInt8) (seq : UInt32) : Event := .packet
      (sampleSegment flags seq 501 []) 500 (.smooth [])
    let r := (start .plain 0 1 1).run [packet 2 1000]
    r.sessions[0]?.map (fun s => (s.socket.isSome, s.state.recvNext)) = some (true, 1001) ∧
      Serial.after 1001 990 = true ∧
      (packet 17 990).segment?.map (fun s => (s.tcp.flags, s.tcp.seq, s.payload)) =
        some (.fin ∪ .ack, 990, []) ∧
      (r.step (packet 17 990)).sentBy 0 =
        r.sentBy 0 ++ [⟨.fin ∪ .ack, 501, 991, []⟩] ∧
      (r.step (packet 17 990)).table.ids = [] ∧
      (r.step (packet 17 990)).sessions[0]?.map (·.socket.isSome) = some false := by
  decide +kernel

end Relay
end PacketRelay
