import Mathlib.Algebra.GroupWithZero.Nat
import PacketRelay.Proofs.Course

/-!
What is accepted from the peer of a stream reaches the socket as it is.

What is accepted is queued, and a flush hands on as much of the queue as the socket takes:
`Delivers` says that what the socket has taken, followed by what is queued, is what has been
accepted. The queue holds no empty chunk, so each send of a flush takes something or is the last
one.
-/

set_option autoImplicit false

namespace PacketRelay

open Session (Turn State Classifier)

namespace Session

variable {q : Outbound}

private theorem Outbound.flush_empty (empty : q.chunks = []) (socket : Socket) (sent : List Bytes) :
    q.flush socket sent = ⟨q, socket, sent, .drained⟩ := by
  unfold Outbound.flush
  split
  · rfl
  case h_2 chunks =>
    rw [empty] at chunks
    cases chunks

/-- A flush of a queue ends: every send but the last takes something, so there are no more of them
than bytes. It drains the queue exactly if nothing is left. -/
private theorem Outbound.WellFormed.flush (h : q.WellFormed) (socket : Socket) (sent : List Bytes) :
    (q.flush socket sent).queue.WellFormed ∧
      (∀ piece ∈ (q.flush socket sent).sent, piece ∈ sent ∨ piece ≠ []) ∧
      (q.flush socket sent).sent.length + (q.flush socket sent).queue.size ≤ sent.length + q.size ∧
      ((q.flush socket sent).finish = .drained ↔ (q.flush socket sent).queue.chunks = []) := by
  fun_induction Outbound.flush q socket sent with
  | case1 q socket sent chunks =>
    exact ⟨h, fun _ => .inl, Nat.le_refl _, fun _ => chunks, fun _ => rfl⟩
  | case2 q socket sent chunk rest chunks | case3 q socket sent chunk rest chunks
  | case4 q socket sent chunk rest chunks =>
    refine ⟨h, fun _ => .inl, Nat.le_refl _, (fun none => by cases none), fun empty => ?_⟩
    rw [chunks] at empty
    cases empty
  | case5 q socket sent chunk rest chunks n after taken some_taken ih =>
    obtain ⟨wellFormed, pieces, fewer, drained⟩ := ih (h.consume n)
    -- The loop goes on only after a send that took something, so the queue has become shorter.
    have within : n ≤ chunk.length := Socket.send_le taken
    have some_piece : chunk.take n ≠ [] := by
      intro nothing
      have := congrArg List.length nothing
      rw [List.length_take, List.length_nil] at this
      omega
    have smaller : (q.consume n).size + 1 ≤ q.size := by
      have size : (q.consume n).size = q.size - min n chunk.length := by
        unfold Outbound.consume
        rw [chunks]
      have total := h.size_eq
      rw [chunks, List.flatten_cons, List.length_append] at total
      omega
    refine ⟨wellFormed, fun piece member => ?_, ?_, drained⟩
    · rcases pieces piece member with before | other
      · rcases List.mem_cons.1 before with rfl | before
        · exact .inr some_piece
        · exact .inl before
      · exact .inr other
    · rw [List.length_cons] at fewer
      omega

namespace Turn

variable {settings : Relay.Settings} {outside : Outside} {t u v : Turn} {s : Inbound.Segment}

/-- Nothing is accepted from the peer. -/
abbrev Silent (t u : Turn) : Prop := Adds (fun e => e.payload? .egress = none) t u

/-- Nothing changes on the way to the socket. -/
structure Leaves (t u : Turn) : Prop where
  silent : t.Silent u
  unsent : Adds (fun e => e.sent? = none) t u
  outbound : u.state.outbound = t.state.outbound
  connected : u.state.connected = false → t.state.connected = false
  ready : u.state.dataReady = false → t.state.dataReady = false

private theorem accepted_of_silent
    (silent : t.Silent u) : accepted u.effects = accepted t.effects := by
  obtain ⟨new, added, silent⟩ := silent
  rw [added, accepted_append, accepted_of_none silent, List.append_nil]

theorem Leaves.relayed (leaves : t.Leaves u) : relayed u.effects = relayed t.effects := by
  obtain ⟨new, added, unsent⟩ := leaves.unsent
  rw [added, relayed_append, relayed_of_none unsent, List.append_nil]

theorem Leaves.refl (t : Turn) : t.Leaves t := ⟨.none rfl, .none rfl, rfl, id, id⟩

theorem Leaves.trans (first : t.Leaves u) (second : u.Leaves v) : t.Leaves v where
  silent := first.silent.trans second.silent
  unsent := first.unsent.trans second.unsent
  outbound := second.outbound.trans first.outbound
  connected := first.connected ∘ second.connected
  ready := first.ready ∘ second.ready

theorem Keeps.leaves (keeps : t.Keeps u) : t.Leaves u where
  silent := keeps.effects.imp fun _ idle => idle.payload
  unsent := keeps.effects.imp fun _ idle => idle.sent
  outbound := keeps.outbound
  connected := keeps.connected
  ready := keeps.ready

private theorem leaves_endStream (next : UInt32) : t.Leaves (t.endStream next) := by
  unfold endStream sendFin
  split
  · exact ⟨.none rfl, .none rfl, rfl, id, id⟩
  · exact ⟨.one rfl rfl, .one rfl rfl, rfl, id, id⟩

theorem leaves_remoteClose : t.Leaves t.remoteClose := by
  obtain ⟨-, same⟩ | ⟨-, same⟩ := t.remoteClose_cases
  · rw [same]
    exact ⟨.none rfl, .none rfl, rfl, id, id⟩
  · rw [same]
    exact leaves_endStream _

theorem leaves_takeAck (s : Inbound.Segment) (now : Nat) : t.Leaves (t.takeAck s now) := by
  have noted := t.noted_noteAck s now
  have waits : t.Leaves (t.noteAck s now) :=
    ⟨.none noted.effects, .none noted.effects, noted.outbound, by rw [noted.connected]; exact id,
      by rw [noted.ready]; exact id⟩
  obtain ⟨-, same⟩ | ⟨-, same⟩ := t.takeAck_cases s now
  · rw [same]
    exact waits
  · rw [same]
    exact waits.trans (leaves_endStream (s.tcp.ack + 1))

/-- What has been accepted is with the socket or queued for it. -/
structure Delivers (t : Turn) : Prop where
  wellFormed : t.state.outbound.WellFormed
  whole : t.taken = accepted t.effects
  waits : t.state.connected = false → ∀ e ∈ t.effects, e.sent? = none
  due : t.state.dataReady = false → t.state.outbound.chunks = []

private theorem Delivers.leaves (h : t.Delivers) (leaves : t.Leaves u) : u.Delivers where
  wellFormed := by
    rw [leaves.outbound]
    exact h.wellFormed
  whole := by
    rw [accepted_of_silent leaves.silent, ← h.whole, taken, taken, leaves.relayed, leaves.outbound]
  waits unconnected := leaves.unsent.forall (h.waits (leaves.connected unconnected))
  due unready := by
    rw [leaves.outbound]
    exact h.due (leaves.ready unready)

private theorem accepted_queue (s : Inbound.Segment) :
    accepted (t.queue s).effects = accepted t.effects ++ s.payload :=
  (accepted_append [_] t.effects).trans
    (congrArg (accepted t.effects ++ ·) (List.append_nil s.payload))

private theorem Delivers.queue (h : t.Delivers) (bides : (t.queue s).Bides u)
    (ready : u.state.dataReady = true) : u.Delivers where
  wellFormed := by
    rw [bides.outbound]
    exact h.wellFormed.push s.payload
  whole := by
    have unsent : relayed (t.queue s).effects = relayed t.effects := by
      rw [show (t.queue s).effects = [.accept s.payload s.ip.totalLength] ++ t.effects from rfl,
        relayed_append]
      exact List.append_nil _
    rw [bides.accepted, accepted_queue, ← h.whole, taken, taken, bides.relayed, bides.outbound, unsent,
      List.append_assoc]
    exact congrArg (relayed t.effects ++ ·) (Outbound.bytes_push t.state.outbound s.payload)
  waits unconnected := by
    have unsent : ∀ e ∈ (t.queue s).effects, e.sent? = none :=
      List.forall_mem_cons.2 ⟨rfl, h.waits (bides.connected unconnected)⟩
    exact (bides.effects.imp fun _ idle => idle.sent).forall unsent
  due unready := by
    rw [ready] at unready
    cases unready

private theorem accepted_sends (socket : Nat) (sent : List Bytes) :
    accepted (sent.map (.send socket)) = [] := by
  refine accepted_of_none fun e member => ?_
  obtain ⟨bytes, -, rfl⟩ := List.mem_map.1 member
  rfl

private theorem Delivers.flush (h : t.Delivers) (connected : t.state.connected = true) :
    t.flush.1.Delivers := by
  cases opened : t.session.socket with
  | none =>
    rw [flush_none t opened]
    exact h
  | some socket =>
    have kept := flush_bytes t.state.outbound socket []
    obtain ⟨wellFormed, -, -, drained⟩ := h.wellFormed.flush socket []
    have left_empty : t.state.outbound.chunks = [] →
        (t.state.outbound.flush socket []).queue.chunks = [] := by
      intro empty
      rw [Outbound.flush_empty empty]
      exact empty
    rw [flush_some t opened rfl]
    generalize t.state.outbound.flush socket [] = flushed at kept wellFormed drained left_empty
    refine ⟨wellFormed, ?_, fun unconnected => ?_, fun unready => ?_⟩
    · rw [taken, relayed_append, relayed_sends, accepted_append, accepted_sends, List.append_nil,
        List.append_assoc, ← h.whole]
      exact congrArg (relayed t.effects ++ ·) kept
    · have unconnected : t.state.connected = false := unconnected
      rw [connected] at unconnected
      cases unconnected
    · have unready : (t.state.dataReady && flushed.finish != .drained) = false := unready
      rcases Bool.and_eq_false_iff.1 unready with before | finished
      · exact left_empty (h.due before)
      · exact drained.1 (by simpa using finished)

private theorem Delivers.move (h : t.Delivers) (stream : t.session.key.protocol = .tcp)
    (move : Move settings outside t u) : u.Delivers := by
  cases move.course stream with
  | bides _ bides => exact h.leaves bides.toKeeps.leaves
  | takePayload _ s _ _ _ bides ready => exact h.queue bides ready
  | takeAck s now => exact h.leaves (leaves_takeAck s now)
  | flush connected => exact h.flush connected
  | deliver bytes after now =>
    have keeps := keeps_deliver (t := t.withSocket after) bytes
      settings.ingressClassifier now
    exact h.leaves ((bides_withSocket after).toKeeps.trans keeps).leaves
  | remoteClose after =>
    have read := h.leaves (bides_withSocket after).toKeeps.leaves
    exact read.leaves leaves_remoteClose

private theorem delivers_opened (opened : Opened settings t)
    (stream : t.session.key.protocol = .tcp) : t.Delivers := by
  obtain ⟨s, isn, prospect, number, connected, now, -, -, rfl⟩ := opened.syn stream
  have none_sent : ∀ e ∈ (begun settings s isn prospect number connected now).effects,
      e.sent? = none := by
    intro e member
    simp only [begun, List.mem_cons, List.not_mem_nil, or_false] at member
    rcases member with rfl | rfl | rfl <;> rfl
  exact ⟨Outbound.wellFormed_empty, rfl, fun _ => none_sent, fun _ => rfl⟩

theorem Lives.delivers (lives : Lives settings t) (stream : t.session.key.protocol = .tcp) :
    t.Delivers := by
  refine lives.stream_induction stream (fun t opened stream => delivers_opened opened stream) ?_
  intro t u _ stream delivers move
  exact delivers.move stream move

theorem silent_flush : t.Silent t.flush.1 :=
  t.adds_flush.imp fun e ⟨socket, bytes, same⟩ => by subst same; rfl

private theorem Course.accepted (deaf : outside.Deaf t.session.key)
    (course : Course settings outside t u) : accepted u.effects = accepted t.effects := by
  cases course with
  | bides _ bides => exact bides.accepted
  | takePayload _ _ answers | takeAck _ _ answers => exact absurd answers.toHears deaf.silent
  | flush =>
    exact accepted_of_silent silent_flush
  | deliver bytes after now =>
    exact (keeps_deliver (t := t.withSocket after) bytes settings.ingressClassifier
      now).accepted
  | remoteClose after => exact accepted_of_silent (leaves_remoteClose (t := t.withSocket after)).silent

theorem Moves.accepted (stream : t.session.key.protocol = .tcp)
    (deaf : outside.Deaf t.session.key) (moves : Moves settings outside t u) :
    accepted u.effects = accepted t.effects := by
  induction moves with
  | refl => rfl
  | @tail v u before move ih =>
    have key := Moves.key before
    have stream : v.session.key.protocol = .tcp := by rw [key, stream]
    exact ((move.course stream).accepted (by rw [key]; exact deaf)).trans ih

theorem accepted_receiveAck (t : Turn) (s : Inbound.Segment) (classifier : Classifier) (now : Nat) :
    accepted (t.receiveAck s classifier now).1.effects = accepted t.effects ++
      if t.state.acceptsData s.tcp.seq = true then s.payload else [] := by
  obtain ⟨bare, bides⟩ | ⟨-, accepts, bides, -⟩ | ⟨-, refuses, bides⟩ :=
    t.receiveAck_cases s classifier now
  · rw [bides.accepted, accepted_of_silent (leaves_takeAck s now).silent, bare, ite_self, List.append_nil]
    rfl
  · rw [bides.accepted, if_pos accepts]
    exact accepted_queue s
  · rw [bides.accepted, refuses, if_neg Bool.false_ne_true, List.append_nil]
    rfl

end Turn
end Session

namespace Relay

variable {r : Relay} {id : SessionId} {session : Session} {t u : Turn} {e : Event}

/-- The payload that a session accepts in an event: that of a segment of its own flow that is not
behind what it expects. -/
def accepts (r : Relay) (id : SessionId) (e : Event) : Bytes :=
  match e.segment?, r.sessions[id]? with
  | some s, some session =>
    if r.lookup s.key = some id ∧ s.tcp.isAck = true ∧ s.tcp.isSyn = false ∧
      session.state.acceptsData s.tcp.seq = true then s.payload else []
  | _, _ => []

/-- The payloads that a session accepts in a run, in order. -/
def acceptedIn (id : SessionId) : Relay → List Event → Bytes
  | _, [] => []
  | r, e :: rest => r.accepts id e ++ acceptedIn id (r.step e) rest

theorem Consistent.accepts_reached (h : Consistent r) (known : r.history id = some t)
    {s : Inbound.Segment} (reaches : Reaches e t s) :
    r.accepts id e = if t.state.acceptsData s.tcp.seq = true then s.payload else [] := by
  have current : r.lookup s.key = some id := by
    rw [reaches.own]
    exact h.listed id t known reaches.opened
  have at_id := (history_eq_some.1 known).1
  unfold accepts
  rw [reaches.brings, at_id]
  simp only [current, reaches.isAck, reaches.notSyn, true_and]
  rfl

theorem Consistent.accepts_unreached (h : Consistent r)
    (unreached : ∀ t s, r.history id = some t → ¬ Reaches e t s) : r.accepts id e = [] := by
  unfold accepts
  split
  case h_1 s session brings at_id =>
    refine if_neg fun ⟨current, isAck, notSyn, _⟩ => ?_
    obtain ⟨t, known, own, opened⟩ := h.found s.key id current
    exact unreached t s known ⟨brings, own.symm, isAck, notSyn, opened⟩
  case h_2 => rfl

private theorem Consistent.accepted_step (h : Consistent r) (e : Event)
    (known : (r.step e).history id = some u) (stream : u.session.key.protocol = .tcp) :
    accepted u.effects = accepted (r.effectsOf (some id)) ++ r.accepts id e := by
  obtain ⟨t, s, was, reaches, moves⟩ | ⟨t, outside, first, deaf, -, moves⟩ := h.moment e known
  · have stream := Turn.Moves.key moves ▸ stream
    rw [Turn.Moves.accepted stream (Outside.deaf_nothing _) moves, Turn.accepted_receiveAck,
      h.accepts_reached was reaches, (history_eq_some.1 was).2]
  · have stream := Turn.Moves.key moves ▸ stream
    rw [Turn.Moves.accepted stream deaf moves]
    obtain ⟨was, unreached⟩ | ⟨unborn, opened⟩ := first
    · have nothing : r.accepts id e = [] := by
        refine h.accepts_unreached fun v s there => ?_
        obtain rfl : t = v := Option.some.inj (was.symm.trans there)
        exact unreached s
      rw [nothing, List.append_nil, (history_eq_some.1 was).2]
    · have nothing : r.accepts id e = [] := by
        refine h.accepts_unreached fun v s there => ?_
        rw [unborn] at there
        cases there
      obtain ⟨s, isn, prospect, number, connected, now, -, -, rfl⟩ := opened.syn stream
      rw [nothing, h.effects_unborn unborn]
      rfl

private theorem accepted_run (h : Consistent r) (events : List Event)
    (known : (r.run events).history id = some u) (stream : u.session.key.protocol = .tcp) :
    accepted u.effects = accepted (r.effectsOf (some id)) ++ acceptedIn id r events := by
  induction events generalizing r with
  | nil =>
    rw [run_nil] at known
    rw [acceptedIn, List.append_nil, (history_eq_some.1 known).2]
  | cons e rest ih =>
    have changes := h.step e
    have later := Changes.consistent h changes
    rw [acceptedIn, ih later known, ← List.append_assoc]
    congr 1
    cases there : (r.step e).history id with
    | some v =>
      obtain ⟨w, known_later, moves⟩ := Changes.history (later.run rest) there
      obtain rfl : u = w := Option.some.inj (known.symm.trans known_later)
      rw [(history_eq_some.1 there).2]
      exact h.accepted_step e there (by rw [← Turn.Moves.key moves, stream])
    | none =>
      -- A session stays once it is there, so it was not there before either.
      have unborn : r.history id = none := by
        by_contra known
        obtain ⟨t, known⟩ := Option.ne_none_iff_exists'.1 known
        obtain ⟨v, known_later, -⟩ := Changes.history changes known
        rw [there] at known_later
        cases known_later
      have nothing : r.accepts id e = [] := by
        refine h.accepts_unreached fun v s there => ?_
        rw [unborn] at there
        cases there
      rw [nothing, later.effects_unborn there, h.effects_unborn unborn]
      rfl

/-- No byte of a peer is lost, repeated or put out of order on its way to the socket: in every run,
what the socket of a stream has taken, followed by what is queued for it, is what has been accepted,
in order. The queue counts its bytes and holds no empty chunk, nothing has been sent before the
socket is connected, and what is queued is due for a flush. A flush ends for every socket, as every
send but the last takes something of what is queued, and drains the queue exactly if nothing is left
in it. -/
theorem run_delivers (settings : Settings) (now coreWorkers maxWorkers : Nat) (events : List Event)
    {id : SessionId} {session : Session}
    (at_id : ((start settings now coreWorkers maxWorkers).run events).sessions[id]? = some session)
    (stream : session.key.protocol = .tcp) :
    let start := start settings now coreWorkers maxWorkers
    let effects := (start.run events).effectsOf (some id)
    let queue := session.state.outbound
    relayed effects ++ queue.bytes = acceptedIn id start events ∧
    queue.size = (queue.chunks.map List.length).sum ∧ (∀ chunk ∈ queue.chunks, chunk ≠ []) ∧
    (session.state.connected = false → ∀ e ∈ effects, e.sent? = none) ∧
    (session.state.dataReady = false → queue.chunks = []) ∧
    ∀ socket : Socket, let flushed := queue.flush socket []
      flushed.sent.reverse.flatten ++ flushed.queue.bytes = queue.bytes ∧
      (∀ piece ∈ flushed.sent, piece ≠ []) ∧ flushed.sent.length ≤ queue.size ∧
      (flushed.finish = .drained ↔ flushed.queue.chunks = []) := by
  intro start effects queue
  have consistent : Consistent start := consistent_start settings now coreWorkers maxWorkers
  have traced := traced_run settings now coreWorkers maxWorkers events
  have known := history_of_session at_id
  have delivers := (traced.lives id _ known).delivers stream
  have all : accepted effects = accepted (start.effectsOf (some id)) ++ acceptedIn id start events :=
    accepted_run consistent events known stream
  refine ⟨delivers.whole.trans all, ?_, delivers.wellFormed.nonempty, delivers.waits, delivers.due,
    fun socket => ?_⟩
  · exact delivers.wellFormed.size_eq.trans List.length_flatten
  · obtain ⟨-, pieces, fewer, drained⟩ := delivers.wellFormed.flush socket []
    refine ⟨flush_bytes queue socket [], fun piece member => ?_, ?_, drained⟩
    · exact (pieces piece member).resolve_left (List.not_mem_nil)
    · exact Nat.le_trans (Nat.le_add_right _ _) (fewer.trans (Nat.le_of_eq (Nat.zero_add _)))

/-- A socket that connects late takes five bytes in pieces, after it took none. -/
theorem run_delivers_pieces :
    let packet (flags : UInt8) (seq : UInt32) (payload : Bytes) : Event := .packet
      (sampleSegment flags seq 501 payload) 500
      { Socket.Prospect.smooth [] with connection := some .inProgress }
    let pass : Event := .pass (fun _ => 0) (fun _ => 0)
    let socket : Socket := ⟨0, true, true, none, none, none, [], [.upTo 0, .upTo 2]⟩
    let events := [packet 2 1000 [], packet 16 1001 [1, 2, 3], packet 16 1004 [4, 5],
      .network 0 socket, pass, pass]
    let r := (start .plain 0 1 1).run events
    acceptedIn 0 (start .plain 0 1 1) events = [1, 2, 3, 4, 5] ∧
      (r.effectsOf (some 0)).reverse.filterMap (·.sent?) = [[1, 2], [3], [4, 5]] ∧
      ∃ session, r.sessions[0]? = some session ∧
        relayed (r.effectsOf (some 0)) ++ session.state.outbound.bytes = [1, 2, 3, 4, 5] := by
  intro packet pass socket events r
  have all : acceptedIn 0 (start .plain 0 1 1) events = [1, 2, 3, 4, 5] := by decide +kernel
  have pieces : (r.effectsOf (some 0)).reverse.filterMap (·.sent?) = [[1, 2], [3], [4, 5]] := by
    decide +kernel
  have opened : r.sessions[0]?.map (·.key.protocol) = some .tcp := by decide +kernel
  obtain ⟨session, at_id, stream⟩ := Option.map_eq_some_iff.1 opened
  obtain ⟨whole, -⟩ := run_delivers .plain 0 1 1 events at_id stream
  exact ⟨all, pieces, session, at_id, whole.trans all⟩

end Relay
end PacketRelay
