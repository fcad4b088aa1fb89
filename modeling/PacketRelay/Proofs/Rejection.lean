import PacketRelay.Proofs.Removal

/-!
Segments that are rejected.

A segment with ACK is rejected if its payload is not accepted, or if it brings neither payload nor a
FIN and acknowledges nothing of interest. It is remembered as the peer's last segment, and a push is
honoured all the same. The connection is left as it was.
-/

set_option autoImplicit false

namespace PacketRelay

open Session (Key State Turn Classifier)

namespace Session.State

variable (st : State) (s : Inbound.Segment) (now : Nat)

/-- A segment of which nothing is taken: not its payload, or not its acknowledgment, and our FIN is
not out. -/
def Rejects : Prop :=
  (s.payload ≠ [] ∧ st.acceptsData s.tcp.seq = false) ∨
  (s.payload = [] ∧ s.tcp.isFin = false ∧ st.acceptsAck s.tcp.ack = false ∧ st.ackedToFin = false)

/-- The headers of a segment are remembered, and of one without payload whether it was damaged. -/
def dismiss : State :=
  if s.payload.isEmpty then
    { st.rememberTcp s.ip s.tcp with corrupted := s.isCorrupted, acked := false }
  else st.rememberTcp s.ip s.tcp

/-- A push is honoured. -/
def push : State :=
  if s.tcp.isPsh then { st.stampTimestamps s.tcp.timestamps? now with dataReady := true } else st

/-- The connection is as it was, and so is the record of its flow. -/
structure Keeps (st after : State) : Prop where
  sendNext : after.sendNext = st.sendNext
  sendUnacknowledged : after.sendUnacknowledged = st.sendUnacknowledged
  recvNext : after.recvNext = st.recvNext
  outbound : after.outbound = st.outbound
  flow : after.flow = st.flow
  claims : after.classified = st.classified
  closing : after.closing = st.closing
  aborting : after.aborting = st.aborting
  ackedToFin : after.ackedToFin = st.ackedToFin
  connected : after.connected = st.connected

/-- Neither clock of the timestamps has been set, and no flush has fallen due. -/
structure Unpushed (st after : State) : Prop where
  sender : after.timestampSender = st.timestampSender
  replyTo : after.timestampReplyTo = st.timestampReplyTo
  ready : after.dataReady = st.dataReady

private theorem keeps_dismiss : st.Keeps (st.dismiss s) := by
  unfold dismiss
  split <;> exact ⟨rfl, rfl, rfl, rfl, rfl, rfl, rfl, rfl, rfl, rfl⟩

private theorem unpushed_dismiss : st.Unpushed (st.dismiss s) := by
  unfold dismiss
  split <;> exact ⟨rfl, rfl, rfl⟩

variable {st} {earlier : State}

private theorem Keeps.push (keeps : earlier.Keeps st) : earlier.Keeps (st.push s now) := by
  unfold State.push
  split
  · exact ⟨keeps.sendNext, keeps.sendUnacknowledged, keeps.recvNext, keeps.outbound, keeps.flow,
      keeps.claims, keeps.closing, keeps.aborting, keeps.ackedToFin, keeps.connected⟩
  · exact keeps

end Session.State

namespace Session.Turn

variable {t : Turn} {s : Inbound.Segment} {classifier : Classifier} {now : Nat}

private theorem takeEnd_ignored (notRst : s.tcp.isRst = false) : t.takeEnd s false = t := by
  unfold takeEnd
  rw [notRst]
  split <;> rfl

private theorem takeEnd_endless (notFin : s.tcp.isFin = false) (notRst : s.tcp.isRst = false)
    (inOrder : Bool) : t.takeEnd s inOrder = t := by
  unfold takeEnd
  rw [notFin, notRst]
  rfl

private theorem session_takePush :
    (t.takePush s now).session = t.session.update (·.push s now) := by
  rw [takePush_eq]
  unfold State.push
  cases s.tcp.isPsh <;> rfl

private theorem takeAck_unaccepted (unaccepted : t.state.acceptsAck s.tcp.ack = false) :
    t.takeAck s now = t.update fun st => { st with corrupted := s.isCorrupted, acked := false } := by
  have noted : t.noteAck s now =
      t.update fun st => { st with corrupted := s.isCorrupted, acked := false } := by
    have refused : { t.state with corrupted := s.isCorrupted }.acceptAck s.tcp.ack s.tcp.seq
        s.tcp.timestamps? now = { t.state with corrupted := s.isCorrupted, acked := false } :=
      if_neg (ne_true_of_eq_false unaccepted)
    exact congrArg (fun st => { t with session := { t.session with state := st } }) refused
  obtain ⟨-, same⟩ | ⟨⟨-, acked, -⟩, -⟩ := t.takeAck_cases s now
  · rw [same, noted]
  · rw [noted] at acked
    cases acked

private theorem receiveAck_rejected (rejects : t.state.Rejects s) (notRst : s.tcp.isRst = false) :
    (t.receiveAck s classifier now).1.session =
        t.session.update (fun st => (st.dismiss s).push s now) ∧
      (t.receiveAck s classifier now).2 = .stay s.tcp.isPsh := by
  let u := t.update fun st => st.rememberTcp s.ip s.tcp
  have verdict := t.verdict_receiveAck s classifier now
  have order : (t.receiveAck s classifier now).1 =
      ((if s.payload.isEmpty then u.takeAck s now
        else if !s.payload.isEmpty && t.state.acceptsData s.tcp.seq then
          u.takePayload s classifier now
        else u.refusePayload s).takePush s now).takeEnd s
          (s.payload.isEmpty || !s.payload.isEmpty && t.state.acceptsData s.tcp.seq) := rfl
  unfold State.dismiss
  obtain ⟨carries, refuses⟩ | ⟨bare, notFin, unaccepted, notOut⟩ := rejects
  · have some_payload : s.payload.isEmpty = false := by simpa using carries
    simp only [some_payload, refuses, Bool.false_and, Bool.and_false, Bool.or_false, Bool.false_or,
      Bool.false_eq_true, if_false, takeEnd_ignored notRst] at order verdict ⊢
    rw [order, session_takePush]
    exact ⟨rfl, verdict⟩
  · have noted : u.takeAck s now = _ := takeAck_unaccepted unaccepted
    simp only [bare, List.isEmpty_nil, notFin, notOut, Bool.and_false, Bool.false_and,
      Bool.or_false, Bool.false_or, Bool.false_eq_true, Bool.not_true, if_false, if_true,
      takeEnd_endless notFin notRst] at order verdict ⊢
    rw [order, session_takePush, noted]
    exact ⟨rfl, verdict⟩

private theorem session_hear_rejected (rejects : t.state.Rejects s) (notRst : s.tcp.isRst = false) :
    ∃ lastSeen, (t.hear s classifier now).session =
      { t.session.update fun st => (st.dismiss s).push s now with lastSeen := lastSeen } := by
  have received : (t.receiveAck s classifier now).1.session = _ ∧ _ :=
    receiveAck_rejected rejects notRst
  obtain ⟨session, verdict⟩ := received
  unfold hear conclude
  rw [verdict]
  simp only
  split
  · rw [session_tell, session]
    exact ⟨_, rfl⟩
  · show ∃ lastSeen, (Turn.tell _ _).session.touch now = _
    rw [session_tell, session]
    exact ⟨_, rfl⟩

end Session.Turn

namespace Relay

/-- A segment that is rejected leaves the connection, the record of its flow and the tables as they
were. Without a push it leaves the timestamps alone, too, and asks for no flush. -/
theorem run_rejects (settings : Settings) (now coreWorkers maxWorkers : Nat) (events : List Event)
    {e : Event} {s : Inbound.Segment} {id : SessionId} {session : Session}
    (found : ((start settings now coreWorkers maxWorkers).run events).lookup s.key = some id)
    (at_id : ((start settings now coreWorkers maxWorkers).run events).sessions[id]? = some session)
    (brings : e.segment? = some s) (isAck : s.tcp.isAck = true) (notSyn : s.tcp.isSyn = false)
    (notRst : s.tcp.isRst = false) (rejects : session.state.Rejects s) :
    let r := (start settings now coreWorkers maxWorkers).run events
    let after := r.step e
    after.table = r.table ∧ after.registered = r.registered ∧
      ∃ u, after.sessions = r.sessions.set id u ∧ u.key = session.key ∧
        u.socket = session.socket ∧ session.state.Keeps u.state ∧
        (s.tcp.isPsh = false → session.state.Unpushed u.state) := by
  intro r after
  have h : Consistent r := consistent_run settings now coreWorkers maxWorkers events
  obtain ⟨t, known, own, opened⟩ := h.found s.key id found
  obtain rfl : t.session = session := Option.some.inj ((Stands.refl known).session.symm.trans at_id)
  obtain ⟨isn, prospect, same⟩ := step_handle (r := r) brings
  have flow : (Inbound.segment s).key? = some t.session.key := congrArg some own.symm
  obtain ⟨stands, scene⟩ := h.handle_found known opened flow isn prospect
  rw [← same, Turn.handle_hear _ notSyn isAck] at stands scene
  have hears : ∃ lastSeen, (t.hear s r.settings.egressClassifier r.now).session = _ :=
    Session.Turn.session_hear_rejected rejects notRst
  obtain ⟨lastSeen, heard⟩ := hears
  have open_still : (t.hear s r.settings.egressClassifier r.now).session.socket.isSome = true := by
    rw [heard]
    exact opened
  rw [if_pos open_still] at scene
  refine ⟨congrArg (·.table) scene, congrArg (·.registered) scene, _,
    congrArg (·.sessions) stands.histories, ?_⟩
  rw [heard]
  refine ⟨rfl, rfl, (t.state.keeps_dismiss s).push s r.now, fun notPsh => ?_⟩
  have unpushed : (t.state.dismiss s).push s r.now = t.state.dismiss s := by
    unfold State.push
    rw [notPsh]
    rfl
  show t.state.Unpushed ((t.state.dismiss s).push s r.now)
  rw [unpushed]
  exact t.state.unpushed_dismiss s

/-- The peer's SYN was 1000, and nothing was sent to it but the handshake from 500. A byte at 990
with PSH and FIN is rejected, and so is an acknowledgment of 400. -/
theorem run_rejects_stale :
    let packet (flags : UInt8) (seq ack : UInt32) (payload : Bytes) : Event := .packet
      (sampleSegment flags seq ack payload) 500 (.smooth [])
    let r := (start .plain 0 1 1).run [packet 2 1000 0 []]
    ∃ session u v, r.sessions = [session] ∧
      (r.step (packet 25 990 501 [97])).sessions = [u] ∧ session.state.Keeps u.state ∧
      (r.step (packet 25 990 501 [97])).table = r.table ∧
      (r.step (packet 16 1001 400 [])).sessions = [v] ∧ session.state.Keeps v.state ∧
      session.state.Unpushed v.state := by
  intro packet r
  have one : r.sessions.length = 1 := by decide +kernel
  obtain ⟨session, only⟩ := List.length_eq_one_iff.1 one
  have at_zero : r.sessions[0]? = some session := by rw [only]; rfl
  have found : r.lookup sampleFlow = some 0 := by
    decide +kernel
  have there : r.sessions[0]?.map (fun s =>
      (s.state.acceptsData 990, s.state.acceptsAck 400, s.state.ackedToFin)) =
        some (false, false, false) := by decide +kernel
  rw [at_zero] at there
  simp only [Option.map_some, Option.some.injEq, Prod.mk.injEq] at there
  obtain ⟨behind, unaccepted, notOut⟩ := there
  have late : (packet 25 990 501 [97]).segment? =
      some ((packet 25 990 501 [97]).segment?.get (by decide +kernel)) := (Option.some_get _).symm
  have stray : (packet 16 1001 400 []).segment? =
      some ((packet 16 1001 400 []).segment?.get (by decide +kernel)) := (Option.some_get _).symm
  obtain ⟨table, -, u, first, -, -, kept, -⟩ := run_rejects .plain 0 1 1 _ found
    at_zero late (by decide +kernel) (by decide +kernel) (by decide +kernel)
    (.inl ⟨by decide +kernel, behind⟩)
  obtain ⟨-, -, v, second, -, -, also, unpushed⟩ := run_rejects .plain 0 1 1 _ found
    at_zero stray (by decide +kernel) (by decide +kernel) (by decide +kernel)
    (.inr ⟨by decide +kernel, by decide +kernel, unaccepted, notOut⟩)
  have first : (r.step (packet 25 990 501 [97])).sessions = r.sessions.set 0 u := first
  have second : (r.step (packet 16 1001 400 [])).sessions = r.sessions.set 0 v := second
  rw [only] at first second
  exact ⟨session, u, v, only, first, kept, table, second, also, unpushed (by decide +kernel)⟩

end Relay
end PacketRelay
