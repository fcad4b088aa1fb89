import PacketRelay.Proofs.Acceptance
import PacketRelay.Proofs.Removal

/-!
Results of a socket that are no end of its session.

A service of a connected session sends what is queued and then reads. What either transfers ends
nothing, and neither does a result that stands for nothing yet: a read that would block or is
interrupted, a send that would block. An interrupted send alone is not repeated: it counts as a
failure of the socket, and ends the session.
-/

set_option autoImplicit false

namespace PacketRelay

open Session (Key Turn State Classifier Outbound Pass FlushEnd)

namespace Socket

/-- Something was transferred, nothing can be now, or a signal came first. -/
def Transient {α : Type} (size : α → Nat) : Except Errno α → Prop
  | .ok transferred => 0 < size transferred
  | .error e => e = .wouldBlock ∨ e = .interrupted

instance {α : Type} (size : α → Nat) : DecidablePred (Transient size)
  | .ok transferred => inferInstanceAs (Decidable (0 < size transferred))
  | .error e => inferInstanceAs (Decidable (e = .wouldBlock ∨ e = .interrupted))

/-- The results of up to `n` reads, each made unless the one before would block or fails. -/
def reads : Nat → Socket → List (Except Errno Bytes)
  | 0, _ => []
  | n + 1, s =>
    match s.read with
    | (.ok bytes, after) => .ok bytes :: reads n after
    | (.error .interrupted, after) => .error .interrupted :: reads n after
    | (.error e, _) => [.error e]

private theorem reads_room (n : Nat) (s : Socket) (room : List Room) :
    reads n { s with room := room } = reads n s := by
  induction n generalizing s with
  | zero => rfl
  | succ n ih =>
    have same : ({ s with room := room } : Socket).read = (s.read.1, { s.read.2 with room := room }) := by
      obtain ⟨_, _, _, _, _, _, arrivals, _⟩ := s
      rcases arrivals with _ | ⟨_ | _, _⟩ <;> rfl
    unfold reads
    rw [same]
    rcases s.read with ⟨e | bytes, after⟩
    · cases e <;> first | rfl | exact congrArg (_ :: ·) (ih after)
    · exact congrArg (_ :: ·) (ih after)

end Socket

/-- An effect that resets the peer of a session or takes its socket. -/
def Effect.Ends : Effect → Prop
  | write .reset _ => True
  | shutdown _ => True
  | _ => False

namespace Session

/-- The results of the sends of a flush, in order. -/
def Outbound.sends (q : Outbound) (socket : Socket) : List (Except Errno Nat) :=
  match _ : q.chunks with
  | [] => []
  | chunk :: _ =>
    match _ : socket.send chunk with
    | (.error e, _) => [.error e]
    | (.ok n, after) => .ok n :: if _ : n = 0 then [] else (q.consume n).sends after
termination_by q.sendsLeft socket
decreasing_by exact sendsLeft_consume ‹_› ‹_› ‹_›

section Sends

variable {q : Outbound} {socket after : Socket} {chunk : Bytes} {rest : List Bytes}

private theorem Outbound.sends_empty (empty : q.chunks = []) (socket : Socket) : q.sends socket =
    [] := by
  rw [Outbound.sends]
  split <;> simp_all

private theorem Outbound.sends_error {e : Errno} (chunks : q.chunks = chunk :: rest)
    (refused : socket.send chunk = (.error e, after)) : q.sends socket = [.error e] := by
  rw [Outbound.sends]
  split
  · simp_all
  · split <;> simp_all

private theorem Outbound.sends_ok {n : Nat} (chunks : q.chunks = chunk :: rest)
    (taken : socket.send chunk = (.ok n, after)) :
    q.sends socket = .ok n :: if n = 0 then [] else (q.consume n).sends after := by
  rw [Outbound.sends]
  split
  · simp_all
  · split <;> simp_all

private theorem Outbound.flush_failed_iff (q : Outbound) (socket : Socket) (sent : List Bytes)
    {e : Errno} :
    (q.flush socket sent).finish = .failed e ↔ e ≠ .wouldBlock ∧ .error e ∈ q.sends socket := by
  fun_induction Outbound.flush q socket sent with
  | case1 q socket sent chunks => simp [sends_empty chunks]
  | case2 q socket sent chunk rest chunks after refused => simp [sends_error chunks refused]
  | case3 q socket sent chunk rest chunks other after differ failed =>
    rw [sends_error chunks failed, List.mem_singleton, FlushEnd.failed.injEq, Except.error.injEq]
    exact ⟨fun same => ⟨same ▸ differ, same.symm⟩, fun both => both.2.symm⟩
  | case4 q socket sent chunk rest chunks after taken => simp [sends_ok chunks taken]
  | case5 q socket sent chunk rest chunks n after taken some_taken ih =>
    simpa [sends_ok chunks taken, some_taken] using ih

end Sends

/-- The results of the sends in a service of a session. -/
def sends (s : Session) : List (Except Errno Nat) :=
  match s.socket with
  | some socket =>
    if 0 < s.state.outbound.size || s.state.dataReady then s.state.outbound.sends socket else []
  | none => []

/-- The results of its reads. There are none once our FIN is out or pending. -/
def reads (s : Session) : List (Except Errno Bytes) :=
  match s.socket with
  | some socket => if s.state.ackedToFin || s.state.closing then [] else socket.reads readsPerPass
  | none => []

namespace Turn

variable {t u : Turn} (classifier : Classifier) (now : Nat)

/-- Neither a reset nor a shutdown is added. -/
abbrev Spares (t u : Turn) : Prop := Adds (fun e => ¬ e.Ends) t u

section Spares

private theorem spares_deliver (bytes : Bytes) (current : Bool) :
    t.Spares (t.deliver bytes classifier current now) := by
  have received : t.Spares (t.emit (.receive bytes)) := .one rfl id
  have heard : t.Spares ((t.emit (.receive bytes)).classify classifier .ingress bytes) :=
    received.trans ((adds_classify _ classifier .ingress bytes).imp
      fun e ⟨flow, same⟩ => by subst same; exact id)
  rw [deliver_eq]
  generalize (t.emit (.receive bytes)).classify classifier .ingress bytes = v at heard
  have handed : v.Spares (v.handOn bytes) := by
    unfold handOn
    split
    · split
      · exact (adds_sendSegments v _ _ bytes).imp fun e ⟨draft, same⟩ => by subst same; exact id
      · exact .none rfl
    · split
      · exact .one rfl id
      · exact .none rfl
  split
  · exact (heard.trans handed).trans (.none rfl)
  · exact heard.trans handed

private theorem spares_readAll (current : Bool) (n : Nat) (t : Turn) :
    t.Spares (readAll classifier current now n t).1 := by
  induction n generalizing t with
  | zero => exact .none rfl
  | succ n ih =>
    cases opened : t.session.socket with
    | none =>
      simp only [readAll, opened]
      exact .none rfl
    | some socket =>
      rcases read : socket.read with ⟨e | bytes, after⟩
      · have idle : t.Spares (t.withSocket after) := .none rfl
        cases e <;> simp only [readAll, opened, read] <;>
          first | exact idle | exact idle.trans (ih _)
      · have idle : t.Spares (t.withSocket after) := .none rfl
        simp only [readAll, opened, read]
        split
        · exact idle
        · exact (idle.trans (spares_deliver classifier now bytes current)).trans (ih _)

private theorem spares_exchange (current : Bool) (t : Turn) :
    t.Spares (t.exchange classifier current now).1 := by
  have flushed : t.Spares (if 0 < t.state.outbound.size || t.state.dataReady then t.flush
      else (t, none)).1 := by
    split
    · exact t.adds_flush.imp fun e ⟨socket, bytes, same⟩ => by subst same; exact id
    · exact .none rfl
  unfold exchange
  generalize (if 0 < t.state.outbound.size || t.state.dataReady then t.flush else (t, none)) =
    result at flushed
  rcases result with ⟨v, _ | e⟩
  · simp only
    split
    · exact flushed
    · exact flushed.trans (spares_readAll classifier now current _ v)
  · exact flushed

end Spares

section Results

variable {socket : Socket}

private theorem failure_flush_iff (opened : t.session.socket = some socket) {e : Errno} :
    t.flush.2 = some e ↔ e ≠ .wouldBlock ∧ .error e ∈ t.state.outbound.sends socket := by
  rw [flush_some t opened rfl, ← Outbound.flush_failed_iff _ socket []]
  cases (t.state.outbound.flush socket []).finish <;> simp [FlushEnd.failure?]

private theorem exchange_fails {e : Errno} (other : e ≠ .wouldBlock)
    (met : .error e ∈ t.session.sends) (current : Bool) :
    (t.exchange classifier current now).2 = .failed e := by
  unfold Session.sends at met
  split at met
  case h_1 socket opened =>
    split at met
    case isTrue due =>
      -- The queue is flushed first, so nothing is read any more.
      have failed : t.flush.2 = some e := (failure_flush_iff opened).2 ⟨other, met⟩
      unfold exchange
      rw [show (if 0 < t.state.outbound.size || t.state.dataReady then t.flush else (t, none)) =
        t.flush from if_pos due]
      rcases flushed : t.flush with ⟨v, failure⟩
      rw [flushed] at failed
      obtain rfl : failure = some e := failed
      rfl
    case isFalse => cases met
  case h_2 => cases met

private theorem readAll_keep (n : Nat) (current : Bool) {t : Turn}
    (opened : t.session.socket = some socket)
    (transient : ∀ result ∈ socket.reads n, Socket.Transient List.length result) :
    (readAll classifier current now n t).2 = .keep := by
  induction n generalizing t socket with
  | zero => rfl
  | succ n ih =>
    unfold Socket.reads at transient
    rcases read : socket.read with ⟨e | bytes, after⟩ <;> rw [read] at transient
    · by_cases interrupted : e = .interrupted
      · subst interrupted
        obtain ⟨-, later⟩ := List.forall_mem_cons.1 transient
        simp only [readAll, opened, read]
        exact ih rfl later
      · have last : e = .wouldBlock ∨ e = .interrupted := by
          cases e <;>
            first | exact transient _ (List.mem_singleton_self _) | exact absurd rfl interrupted
        obtain rfl : e = .wouldBlock := last.resolve_right interrupted
        simp only [readAll, opened, read]
    · obtain ⟨some_bytes, later⟩ := List.forall_mem_cons.1 transient
      have nonempty : bytes.isEmpty = false := by
        cases bytes with
        | nil => exact absurd some_bytes (Nat.lt_irrefl 0)
        | cons => rfl
      simp only [readAll, opened, read, nonempty, Bool.false_and, Bool.false_eq_true, if_false]
      exact ih (socket_deliver ..) later

/-- An exchange ends nothing if all results are transient and no send is interrupted. -/
private theorem exchange_keep (current : Bool) (opened : t.session.socket = some socket)
    (sends : ∀ result ∈ t.session.sends, Socket.Transient (fun n => n) result)
    (uninterrupted : .error .interrupted ∉ t.session.sends)
    (reads : ∀ result ∈ t.session.reads, Socket.Transient List.length result) :
    (t.exchange classifier current now).2 = .keep := by
  obtain ⟨v, flushed, room, same, closing, acked⟩ : ∃ v,
      (if 0 < t.state.outbound.size || t.state.dataReady then t.flush else (t, none)) = (v, none) ∧
      ∃ room, v.session.socket = some { socket with room := room } ∧
        v.state.closing = t.state.closing ∧ v.state.ackedToFin = t.state.ackedToFin := by
    split
    case isTrue due =>
      unfold Session.sends at sends uninterrupted
      rw [opened] at sends uninterrupted
      simp only [show (0 < t.session.state.outbound.size || t.session.state.dataReady) = true from due,
        if_true] at sends uninterrupted
      have unfailed : t.flush.2 = none := by
        by_contra failed
        obtain ⟨e, failed⟩ := Option.ne_none_iff_exists'.1 failed
        obtain ⟨other, met⟩ := (failure_flush_iff opened).1 failed
        obtain rfl := (sends _ met).resolve_left other
        exact uninterrupted met
      obtain ⟨room, frame⟩ := Socket.flush_frame t.state.outbound socket []
      rw [flush_some t opened rfl] at unfailed ⊢
      exact ⟨_, Prod.ext rfl unfailed, room, congrArg some frame, rfl, rfl⟩
    case isFalse => exact ⟨t, rfl, socket.room, opened, rfl, rfl⟩
  unfold exchange
  rw [flushed]
  simp only [closing, acked]
  split
  case isTrue => rfl
  case isFalse going =>
    unfold Session.reads at reads
    rw [opened] at reads
    simp only [show (t.session.state.ackedToFin || t.session.state.closing) = false from
      Bool.eq_false_iff.2 going, Bool.false_eq_true, if_false] at reads
    exact readAll_keep classifier now _ current same (by rw [Socket.reads_room]; exact reads)

end Results

private theorem relayed_flush
    (t : Turn) : relayed t.flush.1.effects ++ t.flush.1.state.outbound.bytes =
    relayed t.effects ++ t.state.outbound.bytes := by
  cases opened : t.session.socket with
  | none => rw [flush_none t opened]
  | some socket =>
    have kept := flush_bytes t.state.outbound socket []
    rw [flush_some t opened rfl, relayed_append, relayed_sends, List.append_assoc]
    exact congrArg (relayed t.effects ++ ·) kept

private theorem Flushes.relayed
    (flushes : t.Flushes u) : relayed u.effects ++ u.state.outbound.bytes =
    PacketRelay.relayed t.effects ++ t.state.outbound.bytes := by
  obtain ⟨v, w, before, flushed, leaves⟩ := flushes
  have first : PacketRelay.relayed v.effects ++ v.state.outbound.bytes =
      PacketRelay.relayed t.effects ++ t.state.outbound.bytes := by
    rcases before with rfl | ⟨-, before⟩
    · rfl
    · rw [before.relayed, before.outbound]
  have second : PacketRelay.relayed w.effects ++ w.state.outbound.bytes =
      PacketRelay.relayed v.effects ++ v.state.outbound.bytes := by
    rcases flushed with rfl | rfl
    · rfl
    · exact v.relayed_flush
  rw [leaves.relayed, leaves.outbound, second, first]

section Serve

variable (connected : t.state.connected = true) (calm : t.state.aborting = false)

include connected calm

private theorem serve_exchange {socket : Socket} (opened : t.session.socket = some socket) :
    t.serve classifier now = match t.exchange classifier true now with
      | (v, .remoteClosed) => v.remoteClose
      | (v, .failed _) => v.abort
      | (v, _) => v := by
  unfold serve pump
  rcases t.exchange classifier true now with ⟨v, _ | _ | _ | _⟩ <;> simp [calm, opened, connected]

end Serve

private theorem abort_resets (stream : t.session.key.protocol = .tcp)
    (heard : t.state.lastSegment?.isSome = true) :
    ∃ new, t.abort.effects = new ++ t.effects ∧ ∃ draft, .write .reset draft ∈ new := by
  obtain ⟨⟨ip, tcp⟩, last⟩ := Option.isSome_iff_exists.1 heard
  have reset : t.resetStream = t.write .reset (.reset ip tcp 0) := by
    unfold resetStream resetPeer
    rw [stream, last]
  obtain ⟨new, added, -⟩ := t.resetStream.report.adds_shut
  have whole : t.abort.effects =
      (new ++ [.flowUpdated t.state.flow, .write .reset (.reset ip tcp 0)]) ++ t.effects := by
    rw [reset] at added
    unfold abort
    rw [reset, added, List.append_assoc]
    rfl
  exact ⟨_, whole, .reset ip tcp 0, List.mem_append_right _ (.tail _ (.head _))⟩

end Turn

end Session

namespace Relay

variable {r : Relay} {id : SessionId} {t : Turn}

private theorem Consistent.fate_served (h : Consistent r) (known : r.history id = some t)
    (opened : t.session.socket.isSome = true) (order : SessionId → Nat) :
    let served := t.serve r.settings.ingressClassifier r.now
    (served.session.socket.isSome = true → (r.serviceBy order).Retains t.session.key id) ∧
    (served.session.socket = none → (r.serviceBy order).Removed t.session.key id) := by
  intro served
  have changes : Changes (fun _ => .nothing) r (r.serviceBy order) := h.serviceBy order
  have later : Consistent (r.serviceBy order) := changes.consistent h
  have there : (r.serviceBy order).history id = some served := h.serviced order known opened
  have moves : Turn.Moves r.settings .nothing t served := Turn.serve_moves r.now opened
  have key : served.session.key = t.session.key := moves.key
  have at_id := (history_eq_some.1 there).1
  refine ⟨fun stays => ?_, fun closed => ?_⟩
  · have listed := key ▸ later.listed id served there stays
    exact ⟨listed, later.registered ▸ listed, _, at_id, stays⟩
  · -- A session that is open after the services was open before, and a flow has one of these.
    have unlisted : (r.serviceBy order).lookup t.session.key = none := by
      by_contra found
      obtain ⟨other, found⟩ := Option.ne_none_iff_exists'.1 found
      obtain ⟨v, known_other, own, stays⟩ := later.found _ other found
      have same : r.lookup t.session.key = some other := by
        by_cases member : other ∈ r.table.ids
        · obtain ⟨before, found_before⟩ := (Table.mem_ids h.differ).1 member
          obtain ⟨w, known_before, own_before, -⟩ := h.found before other found_before
          obtain ⟨v', same, moves⟩ := Changes.history changes known_before
          obtain rfl := Option.some.inj (known_other.symm.trans same)
          rw [← own, moves.key, own_before]
          exact found_before
        · have untouched : (r.serviceBy order).history other = r.history other := by
            unfold Relay.serviceBy
            rw [h.registered]
            exact h.history_visits visits_service order member
          exact own ▸ h.listed other v (untouched.symm.trans known_other) stays
      obtain rfl : id = other := Option.some.inj ((h.listed id t known opened).symm.trans same)
      obtain rfl := Option.some.inj (known_other.symm.trans there)
      rw [closed] at stays
      cases stays
    exact ⟨unlisted, later.registered ▸ unlisted, _, at_id, closed⟩

/-- A service of a connected session loses no byte of its queue. While no result is worse than
transient, it ends nothing, with one exception: an interrupted send resets the peer and removes the
session. -/
theorem run_endures (settings : Settings) (now coreWorkers maxWorkers : Nat) (events : List Event)
    {id : SessionId} {session : Session}
    (at_id : ((start settings now coreWorkers maxWorkers).run events).sessions[id]? = some session)
    (opened : session.socket.isSome = true) (connected : session.state.connected = true)
    (calm : session.state.aborting = false) (order : SessionId → Nat)
    (sends : ∀ result ∈ session.sends, Socket.Transient (fun n => n) result) :
    let r := (start settings now coreWorkers maxWorkers).run events
    let after := r.serviceBy order
    ∃ new later, after.effectsOf (some id) = new ++ r.effectsOf (some id) ∧
      after.sessions[id]? = some later ∧
      relayed new ++ later.state.outbound.bytes = session.state.outbound.bytes ∧
      (.error .interrupted ∉ session.sends →
        (∀ result ∈ session.reads, Socket.Transient List.length result) →
          after.Retains session.key id ∧ ∀ e ∈ new, ¬ e.Ends) ∧
      (.error .interrupted ∈ session.sends → after.Removed session.key id ∧
        (session.key.protocol = .tcp → ∃ draft, .write .reset draft ∈ new)) := by
  intro r after
  let t : Turn := ⟨session, r.effectsOf (some id)⟩
  have h : Consistent r := consistent_run settings now coreWorkers maxWorkers events
  have known : r.history id = some t := history_of_session at_id
  have lives := (traced_run settings now coreWorkers maxWorkers events).lives id t known
  obtain ⟨socket, at_socket⟩ := Option.isSome_iff_exists.1 opened
  obtain ⟨later, effects⟩ := history_eq_some.1 (h.serviced order known opened)
  obtain ⟨stays, gone⟩ := h.fate_served known opened order
  have served := t.serve_exchange r.settings.ingressClassifier r.now connected calm at_socket
  have passed : t.Passed r.settings .nothing _ _ := Turn.exchange_passed r.now connected opened
  obtain ⟨spared, exchanged, harmless⟩ := t.spares_exchange r.settings.ingressClassifier r.now true
  have whole := (t.serve_flushes r.settings.ingressClassifier r.now).relayed
  have moves : Turn.Moves r.settings .nothing t _ := Turn.serve_moves r.now opened
  obtain ⟨new, grown, -⟩ := moves.grows
  have kept : relayed new ++
      (t.serve r.settings.ingressClassifier r.now).state.outbound.bytes = t.state.outbound.bytes := by
    rw [grown, relayed_append, List.append_assoc] at whole
    exact List.append_cancel_left whole
  refine ⟨new, _, effects.trans grown, later, kept, fun uninterrupted reads => ?_,
    fun interrupted => ?_⟩
  · have keep := t.exchange_keep r.settings.ingressClassifier r.now true at_socket sends
      uninterrupted reads
    rcases result : t.exchange r.settings.ingressClassifier true r.now with ⟨v, pass⟩
    rw [result] at served passed exchanged keep
    obtain rfl : pass = .keep := keep
    have served : t.serve r.settings.ingressClassifier r.now = v := served
    rw [served] at grown stays
    obtain rfl : new = spared := List.append_cancel_right (grown.symm.trans exchanged)
    exact ⟨stays passed.opened, harmless⟩
  · have failed := t.exchange_fails r.settings.ingressClassifier r.now (by decide) interrupted true
    rcases result : t.exchange r.settings.ingressClassifier true r.now with ⟨v, pass⟩
    rw [result] at served passed exchanged failed
    obtain rfl : pass = .failed .interrupted := failed
    have served : t.serve r.settings.ingressClassifier r.now = v.abort := served
    rw [served] at grown gone
    refine ⟨gone Turn.socket_shut, fun stream => ?_⟩
    have reached : Turn.Moves r.settings .nothing t v := passed.moves
    have stream_v : v.session.key.protocol = .tcp := by rw [reached.key]; exact stream
    obtain ⟨isn, streams⟩ := (lives.moves reached).streams stream_v
    obtain ⟨ended, aborted, draft, reset⟩ := v.abort_resets stream_v streams.heard
    rw [exchanged, ← List.append_assoc] at aborted
    obtain rfl : new = ended ++ spared := List.append_cancel_right (grown.symm.trans aborted)
    exact ⟨draft, List.mem_append_left _ reset⟩

/-- Two bytes are queued. The socket takes one of them and would then block, and is interrupted as
it is read. -/
theorem run_endures_interrupted_read :
    let packet (flags : UInt8) (seq : UInt32) (payload : Bytes) : Event := .packet
      (sampleSegment flags seq 501 payload) 500 (.smooth [])
    let key := sampleFlow
    let outlook : Socket := ⟨0, true, true, none, none, none,
      [.failure .interrupted, .data [7]], [.upTo 1, .failure .wouldBlock]⟩
    let r := (start .plain 0 1 1).run [packet 2 1000 [], packet 16 1001 [1, 2], .network 0 outlook]
    ∃ session later, r.sessions[0]? = some session ∧
      session.sends = [.ok 1, .error .wouldBlock] ∧
      session.reads = [.error .interrupted, .ok [7], .error .wouldBlock] ∧
      (r.serviceBy fun _ => 0).Retains key 0 ∧
      (r.serviceBy fun _ => 0).sessions[0]? = some later ∧ later.state.outbound.bytes = [2] := by
  intro packet key outlook r
  have there : r.sessions[0]?.map (fun s => (s.key, s.socket.isSome, s.state.connected,
      s.state.aborting)) = some (key, true, true, false) := by
    decide +kernel
  obtain ⟨session, at_zero, same⟩ := Option.map_eq_some_iff.1 there
  simp only [Prod.mk.injEq] at same
  obtain ⟨own, opened, connected, calm⟩ := same
  have met : r.sessions[0]?.map (fun s => (s.sends, s.reads)) =
      some ([.ok 1, .error .wouldBlock], [.error .interrupted, .ok [7], .error .wouldBlock]) := by
    decide +kernel
  rw [at_zero] at met
  obtain ⟨sends, reads⟩ := Prod.mk.inj (Option.some.inj met)
  have left : (r.serviceBy fun _ => 0).sessions[0]?.map (·.state.outbound.bytes) = some [2] := by
    decide +kernel
  obtain ⟨new, later, -, found, -, endures, -⟩ := run_endures .plain 0 1 1 _ at_zero opened connected
    calm (fun _ => 0) (by rw [sends]; decide)
  obtain ⟨retains, -⟩ := endures (by rw [sends]; decide) (by rw [reads]; decide)
  obtain ⟨last, at_last, queued⟩ := Option.map_eq_some_iff.1 left
  obtain rfl : later = last := Option.some.inj (found.symm.trans at_last)
  exact ⟨session, later, at_zero, sends, reads, own ▸ retains, found, queued⟩

/-- One byte is queued, and its send is interrupted: the peer is reset and the session is gone, with
the byte still in its queue. -/
theorem interrupted_send_removes :
    let packet (flags : UInt8) (seq : UInt32) (payload : Bytes) : Event := .packet
      (sampleSegment flags seq 501 payload) 500 (.smooth [])
    let outlook : Socket := ⟨0, true, true, none, none, none, [], [.failure .interrupted]⟩
    let r := (start .plain 0 1 1).run [packet 2 1000 [], packet 16 1001 [0x61], .network 0 outlook]
    let after := r.serviceBy fun _ => 0
    r.sessions[0]?.map (fun s => (s.sends, s.state.connected, s.state.aborting)) =
        some ([.error .interrupted], true, false) ∧
      r.table.ids = [0] ∧ r.registered.ids = [0] ∧
      after.table.ids = [] ∧ after.registered.ids = [] ∧
      after.sessions[0]?.map (fun s => (s.socket, s.state.outbound.bytes)) = some (none, [0x61]) ∧
      (after.effectsOf (some 0)).filter (· matches .write .reset _) ≠ [] := by
  decide +kernel

end Relay
end PacketRelay
