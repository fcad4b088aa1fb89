import PacketRelay.Proofs.Course

/-!
How a stream ends when its socket does.

Once the socket has reported the end of its stream, our FIN goes out as soon as the peer has
acknowledged all data, and `Closes` is what holds meanwhile. The end only goes forward, through the
phases of `Phase`: nothing is read and no data is sent behind it, and the one FIN that is sent comes
next after the data.
-/

set_option autoImplicit false

namespace PacketRelay

open Session (Turn State Classifier)
open Relation (ReflTransGen)

/-- How far the end of a stream has come. -/
inductive Session.Phase
  | streaming
  /-- The socket has ended, and our FIN waits. -/
  | closing
  /-- Our FIN is out. -/
  | finished
  | removed
  deriving DecidableEq

def Session.Phase.rank : Phase → Nat
  | streaming => 0
  | closing => 1
  | finished => 2
  | removed => 3

def Session.phase (s : Session) : Phase :=
  if s.socket.isNone then .removed
  else if s.state.ackedToFin then .finished
  else if s.state.closing then .closing
  else .streaming

namespace Session.State

variable {st : State} {ack seq : UInt32} {peer : Option Tcp.Timestamps} {now : Nat}

theorem acceptAck_of_acked (acked : (st.acceptAck ack seq peer now).acked = true) :
    st.acceptAck ack seq peer now = st.applyAck ack seq peer now := by
  unfold acceptAck at acked ⊢
  split at acked
  case isTrue yes => rw [if_pos yes]
  case isFalse => cases acked

theorem acceptAck_of_refused (refused : (st.acceptAck ack seq peer now).acked = false) :
    st.acceptAck ack seq peer now = { st with acked := false } := by
  unfold acceptAck at refused ⊢
  split at refused
  case isTrue => cases refused
  case isFalse no => rw [if_neg no]

end Session.State

namespace Session.Turn

variable {settings : Relay.Settings} {outside : Outside} {t u v : Turn} {isn : UInt32}

/-- The socket of a stream has ended. -/
def Ended (t : Turn) : Prop := t.state.closing = true ∨ t.state.ackedToFin = true

/-- The end of a stream is not taken back. -/
structure Forward (t u : Turn) : Prop where
  closing : t.state.closing = true → u.Ended
  finished : t.state.ackedToFin = true → u.state.ackedToFin = true

theorem Forward.ended (forward : t.Forward u) (ended : t.Ended) : u.Ended :=
  ended.elim forward.closing fun finished => .inr (forward.finished finished)

private theorem Forward.trans (first : t.Forward u) (second : u.Forward v) : t.Forward v where
  closing := second.ended ∘ first.closing
  finished := second.finished ∘ first.finished

private theorem forward_of_same (closing : u.state.closing = t.state.closing)
    (finished : u.state.ackedToFin = t.state.ackedToFin) : t.Forward u where
  closing set := .inl (closing.trans set)
  finished set := finished.trans set

theorem ended_endStream (heard : t.state.lastSegment?.isSome = true) (next : UInt32) :
    (t.endStream next).state.ackedToFin = true ∧ (t.endStream next).state.closing = false := by
  obtain ⟨⟨ip, tcp⟩, last⟩ := Option.isSome_iff_exists.1 heard
  rw [endStream_eq last]
  exact ⟨rfl, rfl⟩

private theorem ended_remoteClose
    (heard : t.state.lastSegment?.isSome = true) : t.remoteClose.Ended := by
  obtain ⟨-, same⟩ | ⟨-, same⟩ := t.remoteClose_cases
  · rw [same]
    exact .inl rfl
  · rw [same]
    exact .inr (ended_endStream heard _).1

private theorem Course.forward (heard : t.state.lastSegment?.isSome = true)
    (course : Course settings outside t u) : t.Forward u := by
  cases course with
  | bides _ bides => exact forward_of_same bides.closing bides.ackedToFin
  | takePayload _ s _ _ _ bides =>
    have stays := (stays_queue s).trans bides.stays
    exact forward_of_same stays.closing stays.ackedToFin
  | takeAck s now =>
    have noted := t.noted_noteAck s now
    obtain ⟨-, same⟩ | ⟨-, same⟩ := t.takeAck_cases s now
    · rw [same]
      exact forward_of_same noted.closing noted.ackedToFin
    · rw [same]
      have ended := ended_endStream (noted.last ▸ heard) (s.tcp.ack + 1)
      exact ⟨fun _ => .inr ended.1, fun _ => ended.1⟩
  | flush => exact forward_of_same stays_flush.closing stays_flush.ackedToFin
  | deliver _ _ _ reads | remoteClose _ reads =>
    refine ⟨fun set => ?_, fun set => ?_⟩
    · rw [reads.notClosing] at set
      cases set
    · rw [reads.notAcked] at set
      cases set

/-- The number behind what the socket of a stream has delivered. -/
def streamEnd (isn : UInt32) (t : Turn) : UInt32 := isn + 1 + UInt32.ofNat (received t.effects).length

/-- The stream to the peer of a session that began at `isn`, with its end. -/
structure Closes (isn : UInt32) (t : Turn) : Prop extends Streams isn t where
  pending : t.state.closing = true → t.state.unacknowledged ≠ 0
  apart : t.state.closing = true → t.state.ackedToFin = false
  waits : t.state.closing = true → t.state.sendNext = t.streamEnd isn
  unsent : t.state.ackedToFin = false → ownFins t.effects = []
  sent : t.state.ackedToFin = true →
    ∃ ack, ownFins t.effects = [⟨.fin ∪ .ack, t.streamEnd isn, ack, []⟩]

private theorem Streams.closes (h : Streams isn t) (notClosing : t.state.closing = false)
    (unsent : t.state.ackedToFin = false → ownFins t.effects = [])
    (sent : t.state.ackedToFin = true →
      ∃ ack, ownFins t.effects = [⟨.fin ∪ .ack, t.streamEnd isn, ack, []⟩]) : Closes isn t := by
  have never {p : Prop} : t.state.closing = true → p := by
    rw [notClosing]
    exact fun none => by cases none
  exact { h with pending := never, apart := never, waits := never, unsent := unsent, sent := sent }

private theorem Closes.stays (h : Closes isn t) (streams : Streams isn u) (stays : t.Stays u) :
    Closes isn u := by
  have same : u.streamEnd isn = t.streamEnd isn := by
    unfold streamEnd
    rw [stays.received]
  have unacknowledged : u.state.unacknowledged = t.state.unacknowledged := by
    unfold State.unacknowledged
    rw [stays.next, stays.unacknowledged]
  refine { streams with pending := ?_, apart := ?_, waits := ?_, unsent := ?_, sent := ?_ }
  · rw [stays.closing, unacknowledged]
    exact h.pending
  · rw [stays.closing, stays.ackedToFin]
    exact h.apart
  · rw [stays.closing, stays.next, same]
    exact h.waits
  · rw [stays.ackedToFin, stays.fins]
    exact h.unsent
  · rw [stays.ackedToFin, stays.fins, same]
    exact h.sent

private theorem closes_endStream (heard : t.state.lastSegment?.isSome = true)
    (unsent : ownFins t.effects = []) (at_end : t.state.sendNext = t.streamEnd isn) (next : UInt32)
    (streams : Streams isn (t.endStream next)) : Closes isn (t.endStream next) := by
  obtain ⟨finished, notClosing⟩ := ended_endStream heard next
  have same : (t.endStream next).streamEnd isn = t.streamEnd isn := by
    unfold streamEnd
    rw [(rests_endStream heard next).received]
  have fins := ownFins_endStream heard next
  rw [unsent, at_end, List.nil_append, ← same] at fins
  refine streams.closes notClosing ?_ fun _ => ⟨_, fins⟩
  rw [finished]
  exact fun none => by cases none

theorem noteAck_refused {s : Inbound.Segment} {now : Nat}
    (refused : (t.noteAck s now).state.acked = false) :
    (t.noteAck s now).state.sendUnacknowledged = t.state.sendUnacknowledged := by
  have noted : (t.noteAck s now).state = State.acceptAck { t.state with corrupted := s.isCorrupted }
      s.tcp.ack s.tcp.seq s.tcp.timestamps? now := rfl
  rw [noted] at refused ⊢
  rw [State.acceptAck_of_refused refused]

private theorem streamEnd_noteAck (s : Inbound.Segment) (now : Nat) :
    (t.noteAck s now).streamEnd isn = t.streamEnd isn := rfl

private theorem Closes.takeAck (h : Closes isn t) (s : Inbound.Segment) (now : Nat)
    (streams : Streams isn (t.takeAck s now)) : Closes isn (t.takeAck s now) := by
  have noted := t.noted_noteAck s now
  obtain ⟨notDue, same⟩ | ⟨⟨closing, -, -⟩, same⟩ := t.takeAck_cases s now
  · rw [same] at streams ⊢
    refine { streams with
      pending := fun closing => ?_, apart := ?_, waits := ?_, unsent := ?_, sent := ?_ }
    -- An acknowledgment of all that is outstanding would have made the FIN due.
    · cases acked : (t.noteAck s now).state.acked with
      | true => exact fun nothing_left => notDue ⟨closing, acked, nothing_left⟩
      | false =>
        unfold State.unacknowledged
        rw [noted.next, noteAck_refused acked]
        exact h.pending (noted.closing ▸ closing)
    · rw [noted.closing, noted.ackedToFin]
      exact h.apart
    · rw [noted.closing, noted.next, streamEnd_noteAck]
      exact h.waits
    · rw [noted.ackedToFin, noted.effects]
      exact h.unsent
    · rw [noted.ackedToFin, noted.effects, streamEnd_noteAck]
      exact h.sent
  · have waiting : t.state.closing = true := noted.closing ▸ closing
    rw [same] at streams ⊢
    refine closes_endStream ?_ ?_ ?_ _ streams
    · rw [noted.last]
      exact h.heard
    · rw [noted.effects]
      exact h.unsent (h.apart waiting)
    · rw [noted.next, streamEnd_noteAck]
      exact h.waits waiting

private theorem Closes.remoteClose (h : Closes isn t) (notClosing : t.state.closing = false)
    (notAcked : t.state.ackedToFin = false) (streams : Streams isn t.remoteClose) :
    Closes isn t.remoteClose := by
  obtain ⟨outstanding, same⟩ | ⟨-, same⟩ := t.remoteClose_cases
  · rw [same] at streams ⊢
    exact { streams with
      pending := fun _ => outstanding
      apart := fun _ => notAcked
      waits := fun _ => h.next notClosing notAcked
      unsent := h.unsent
      sent := h.sent }
  · rw [same] at streams ⊢
    exact closes_endStream h.heard (h.unsent notAcked) (h.next notClosing notAcked) _ streams

private theorem Closes.read (h : Closes isn t) {bytes : Bytes} {after : Socket}
    (reads : t.Reads (.ok bytes) after) : Closes isn (t.withSocket after) := by
  obtain ⟨-, plugged⟩ := inflow_reads reads h.plugged
  refine h.stays ⟨h.heard, fun flow same => ?_, h.begun, h.whole, h.follow, h.sized, h.next⟩
    (bides_withSocket after).stays
  obtain rfl := Option.some.inj same
  exact plugged

/-- No move breaks the stream to the peer or its end. -/
private theorem Closes.move (h : Closes isn t) (headed : t.Headed)
    (stream : t.session.key.protocol = .tcp) (move : Move settings outside t u) : Closes isn u := by
  have streams : Streams isn u := h.toStreams.move headed stream move
  cases move.course stream with
  | bides _ bides => exact h.stays streams bides.stays
  | takePayload _ s _ _ _ bides => exact h.stays streams ((stays_queue s).trans bides.stays)
  | takeAck s now => exact h.takeAck s now streams
  | flush => exact h.stays streams stays_flush
  | deliver bytes after now reads =>
    have keeps := keeps_deliver (t := t.withSocket after) bytes
      settings.ingressClassifier now
    -- A socket is read before its end only, so here no FIN waits and none has been sent.
    have notClosing := keeps.closing.trans reads.notClosing
    have notAcked := keeps.ackedToFin.trans reads.notAcked
    refine streams.closes notClosing ?_ ?_
    · rw [keeps.fins]
      exact fun _ => h.unsent reads.notAcked
    · rw [notAcked]
      exact fun none => by cases none
  | remoteClose after reads =>
    exact (h.read reads).remoteClose reads.notClosing reads.notAcked streams

private theorem opened_unended (opened : Opened settings t)
    (stream : t.session.key.protocol = .tcp) :
    t.state.closing = false ∧ t.state.ackedToFin = false ∧ ownFins t.effects = [] := by
  obtain ⟨s, isn, prospect, number, connected, now, -, -, rfl⟩ := opened.syn stream
  exact ⟨rfl, rfl, rfl⟩

private theorem closes_opened (opened : Opened settings t)
    (stream : t.session.key.protocol = .tcp) : ∃ isn, Closes isn t := by
  obtain ⟨isn, streams⟩ := streams_opened opened stream
  obtain ⟨notClosing, notAcked, none_sent⟩ := opened_unended opened stream
  refine ⟨isn, streams.closes notClosing (fun _ => none_sent) ?_⟩
  rw [notAcked]
  exact fun none => by cases none

theorem Lives.closes (lives : Lives settings t) (stream : t.session.key.protocol = .tcp) :
    ∃ isn, Closes isn t := by
  refine lives.stream_induction stream (fun t opened stream => closes_opened opened stream) ?_
  intro t u lives stream ⟨isn, closes⟩ move
  exact ⟨isn, closes.move lives.headed stream move⟩

/-- Nothing more is read from the socket, and no more data goes to the peer. -/
structure Settled (t u : Turn) : Prop where
  received : received u.effects = received t.effects
  data : dataSegments u.effects = dataSegments t.effects

/-- What reads would meet, unless the socket has been closed. -/
def Unread (t u : Turn) : Prop :=
  ∀ socket, u.session.socket = some socket →
    ∃ before, t.session.socket = some before ∧ socket.arrivals = before.arrivals

private theorem unread_of_same (same : u.session.socket = t.session.socket) : Unread t u :=
  fun socket opened => ⟨socket, same ▸ opened, rfl⟩

private theorem Unread.trans (first : Unread t u) (second : Unread u v) : Unread t v := by
  intro socket opened
  obtain ⟨between, opened, same⟩ := second socket opened
  obtain ⟨before, opened, first⟩ := first between opened
  exact ⟨before, opened, same.trans first⟩

private theorem unread_flush : Unread t t.flush.1 := by
  cases opened : t.session.socket with
  | none =>
    rw [flush_none t opened]
    exact unread_of_same rfl
  | some socket =>
    obtain ⟨room, frame⟩ := Socket.flush_frame t.state.outbound socket []
    rw [flush_some t opened rfl, frame]
    intro after same
    obtain rfl := Option.some.inj same
    exact ⟨socket, opened, rfl⟩

private theorem unread_check {result : Except Errno Bool} {after : Socket}
    (checks : t.Checks result after) : Unread t (t.withSocket after) := by
  obtain ⟨before, opened, checked⟩ := checks.check
  obtain ⟨_, rfl⟩ := Socket.checkConnected_frame checked
  intro socket same
  obtain rfl := Option.some.inj same
  exact ⟨before, opened, rfl⟩

private theorem not_reads (ended : t.Ended) {result : Except Errno Bytes} {after : Socket} :
    ¬ t.Reads result after := by
  intro reads
  rcases ended with closing | finished
  · rw [reads.notClosing] at closing
    cases closing
  · rw [reads.notAcked] at finished
    cases finished

private theorem Move.settled (ended : t.Ended) (heard : t.state.lastSegment?.isSome = true)
    (plugged : ∀ flow, t.inflow = some flow → flow.2 = true)
    (stream : t.session.key.protocol = .tcp) (move : Move settings outside t u) :
    t.Settled u := by
  obtain rests | ⟨-, outlook, rfl⟩ | ⟨bytes, after, now, reads, -⟩ := move.rests heard plugged stream
  · exact ⟨rests.received, rests.data⟩
  · exact ⟨rfl, rfl⟩
  · exact absurd reads (not_reads ended)

/-- Nothing is read, and the stream does not come to its end. -/
structure Calm (t u : Turn) : Prop where
  unread : Unread t u
  received : received u.effects = received t.effects
  streaming : ¬ t.Ended → ¬ u.Ended

private theorem calm_of_stays (stays : t.Stays u) (unread : Unread t u) : t.Calm u where
  unread := unread
  received := stays.received
  streaming running past :=
    running (past.imp stays.closing.symm.trans stays.ackedToFin.symm.trans)

private theorem Bides.calm (bides : t.Bides u) (unread : Unread t u) : t.Calm u :=
  calm_of_stays bides.stays unread

private theorem calm_takeAck (heard : t.state.lastSegment?.isSome = true) (s : Inbound.Segment)
    (now : Nat) : t.Calm (t.takeAck s now) := by
  have noted := t.noted_noteAck s now
  refine ⟨unread_of_same (alike_takeAck s now).socket, (rests_takeAck heard s now).received,
    fun running past => running ?_⟩
  obtain ⟨-, same⟩ | ⟨⟨closing, -, -⟩, -⟩ := t.takeAck_cases s now
  · rw [same] at past
    exact past.imp noted.closing.symm.trans noted.ackedToFin.symm.trans
  · exact .inl (noted.closing.symm.trans closing)

/-- A move of a stream reads nothing, or it reads once, and a read of no bytes ends the stream. -/
private theorem Move.calm_or_reads (heard : t.state.lastSegment?.isSome = true)
    (stream : t.session.key.protocol = .tcp) (undisturbed : ¬ outside.changes)
    (move : Move settings outside t u) :
    t.Calm u ∨ ∃ result after, t.Reads result after ∧ u.session.socket = some after ∧
      received u.effects = received t.effects ++ result.toOption.getD [] ∧
      (u.Ended ↔ result = .ok []) := by
  cases move with
  | resendAck =>
    refine .inl (bides_resendAck.calm (unread_of_same ?_))
    unfold Turn.resendAck
    split <;> rfl
  | remember s => exact .inl ((bides_remember s.ip s.tcp).calm (unread_of_same rfl))
  | takePayload s now =>
    have stays := (stays_queue (t := t) s).trans
      (bides_takePayload s settings.egressClassifier now).1.stays
    exact .inl (calm_of_stays stays (unread_of_same (alike_takePayload s _ now).socket))
  | refusePayload s => exact .inl ((bides_refusePayload s).calm (unread_of_same rfl))
  | takeAck s now => exact .inl (calm_takeAck heard s now)
  | takePush s now =>
    exact .inl ((bides_takePush s now).calm (unread_of_same (alike_takePush s now).socket))
  | takeEnd s inOrder =>
    exact .inl ((bides_takeEnd s inOrder).calm (unread_of_same (alike_takeEnd s inOrder).socket))
  | cancel | refresh =>
    refine .inl (calm_of_stays (Bides.stays ?_) (unread_of_same rfl))
    exact bides_emit ⟨rfl, rfl, rfl⟩ ⟨rfl, fun _ none => by cases none⟩
  | touch => exact .inl ⟨unread_of_same rfl, rfl, id⟩
  | abandon => exact .inl ⟨unread_of_same rfl, rfl, id⟩
  | takeDatagram d _ own =>
    rw [← own] at stream
    cases stream
  | check result after checks => exact .inl ⟨unread_check checks, rfl, id⟩
  | connect after checks =>
    exact .inl ⟨(unread_check checks).trans (unread_of_same rfl), rfl, id⟩
  | flush => exact .inl (calm_of_stays stays_flush unread_flush)
  | readNothing e after reads =>
    refine .inr ⟨_, after, reads, rfl, (List.append_nil _).symm, fun past => ?_, fun none => ?_⟩
    · have past : t.Ended := past
      exact absurd reads (not_reads past)
    · cases none
  | deliver bytes after now reads payload =>
    have keeps := keeps_deliver (t := t.withSocket after) bytes settings.ingressClassifier now
    have some_bytes : bytes ≠ [] := payload.resolve_right (by rw [stream]; decide)
    obtain ⟨_, _, _, _, _, frame⟩ :=
      (t.withSocket after).deliver_frame now bytes settings.ingressClassifier true
    refine .inr ⟨_, after, reads, by rw [frame]; rfl, received_deliver bytes _ now,
      fun past => ?_, fun none => absurd (Except.ok.inj none) some_bytes⟩
    have past : t.Ended := past.imp keeps.closing.symm.trans keeps.ackedToFin.symm.trans
    exact absurd reads (not_reads past)
  | remoteClose after reads =>
    refine .inr ⟨_, after, reads, alike_remoteClose.socket, ?_,
      iff_of_true (ended_remoteClose heard) rfl⟩
    have received := (rests_remoteClose (t := t.withSocket after) heard).received
    exact received.trans (List.append_nil _).symm
  | resetPeer =>
    refine .inl (bides_resetPeer.calm (unread_of_same ?_))
    unfold Turn.resetPeer
    split <;> rfl
  | leave opened =>
    obtain ⟨socket, opened⟩ := Option.isSome_iff_exists.1 opened
    refine .inl (bides_leave.calm fun after same => ?_)
    unfold shut at same
    rw [show t.report.session.socket = some socket from opened] at same
    cases same
  | network outlook allowed => exact absurd allowed undisturbed

theorem Lives.forward (lives : Lives settings t) (stream : t.session.key.protocol = .tcp)
    (moves : Moves settings outside t u) : t.Forward u := by
  refine lives.along stream moves (forward_of_same rfl rfl) ?_
  intro isn v w _ _ stream streams move forward
  exact forward.trans ((move.course stream).forward streams.heard)

private theorem Lives.settled (lives : Lives settings t) (stream : t.session.key.protocol = .tcp)
    (ended : t.Ended) (moves : Moves settings outside t u) :
    t.Settled u ∧ (¬ outside.changes → Unread t u) := by
  refine lives.along (P := fun u => t.Settled u ∧ (¬ outside.changes → Unread t u)) stream moves
    ⟨⟨rfl, rfl⟩, fun _ => unread_of_same rfl⟩ ?_
  intro isn v w before _ stream_here streams move ⟨settled, unread⟩
  have ended : v.Ended := (lives.forward stream before).ended ended
  have next := move.settled ended streams.heard streams.plugged stream_here
  refine ⟨⟨next.received.trans settled.received, next.data.trans settled.data⟩,
    fun undisturbed => (unread undisturbed).trans ?_⟩
  obtain calm | ⟨_, _, reads, -⟩ := move.calm_or_reads streams.heard stream_here undisturbed
  · exact calm.unread
  · exact absurd reads (not_reads ended)

/-- A stream since `t`, when its socket was to deliver `before`, then the end, and then `rest`: so
far `taken` has been read. The socket has the others still to deliver, or it has come to the end. -/
structure Approaches (before rest : List Socket.Arrival) (taken : Bytes) (t u : Turn) : Prop where
  received : received u.effects = received t.effects ++ taken
  within : taken <+: Socket.arrived before
  left : ∀ socket, u.session.socket = some socket →
    (¬ u.Ended ∧ ∃ ahead, .data [] ∉ ahead ∧ socket.arrivals = ahead ++ .data [] :: rest ∧
      taken ++ Socket.arrived ahead = Socket.arrived before) ∨
    (u.Ended ∧ socket.arrivals = rest ∧ taken = Socket.arrived before)

variable {before rest : List Socket.Arrival} {taken : Bytes}

private theorem Approaches.calm (h : Approaches before rest taken t u) (calm : u.Calm v)
    (forward : u.Forward v) : Approaches before rest taken t v where
  received := calm.received.trans h.received
  within := h.within
  left socket still := by
    obtain ⟨earlier, opened, same⟩ := calm.unread socket still
    rw [same]
    exact (h.left earlier opened).imp (And.imp_left calm.streaming) (And.imp_left forward.ended)

private theorem Approaches.reads (h : Approaches before rest taken t u)
    (plugged : ∀ flow, u.inflow = some flow → flow.2 = true) {result : Except Errno Bytes}
    {after : Socket} (reads : u.Reads result after) (drawn : v.session.socket = some after)
    (grown : PacketRelay.received v.effects =
      PacketRelay.received u.effects ++ result.toOption.getD [])
    (ended : v.Ended ↔ result = .ok []) :
    Approaches before rest (taken ++ result.toOption.getD []) t v := by
  obtain ⟨socket, opened, read⟩ := reads.read
  have stream : socket.stream = true := by
    refine plugged (socket.unread, socket.stream) ?_
    unfold Turn.inflow
    rw [opened]
    rfl
  obtain ⟨-, ahead, first, arrivals, whole⟩ :=
    (h.left socket opened).resolve_right fun past => not_reads past.1 reads
  have received := grown.trans (congrArg (· ++ result.toOption.getD []) h.received)
  rw [List.append_assoc] at received
  obtain ⟨rfl, rfl, at_rest⟩ | ⟨some_bytes, left, open_ended, behind, more⟩ :=
    Socket.read_ahead stream arrivals first read
  · have all : taken ++ [] = Socket.arrived before := whole
    refine ⟨received, all ▸ List.prefix_rfl, fun final same => .inr ⟨ended.2 rfl, ?_, all⟩⟩
    obtain rfl : after = final := Option.some.inj (drawn.symm.trans same)
    exact at_rest
  · rw [← more, ← List.append_assoc] at whole
    refine ⟨received, whole ▸ List.prefix_append _ _, fun final same => .inl ⟨?_, left, ?_⟩⟩
    · exact fun past => some_bytes (ended.1 past)
    · obtain rfl : after = final := Option.some.inj (drawn.symm.trans same)
      exact ⟨open_ended, behind, whole⟩

private theorem Lives.approaches (lives : Lives settings t) (stream : t.session.key.protocol = .tcp)
    (undisturbed : ¬ outside.changes) (running : ¬ t.Ended) (first : .data [] ∉ before)
    (arrivals : ∀ socket, t.session.socket = some socket →
      socket.arrivals = before ++ .data [] :: rest) (moves : Moves settings outside t u) :
    ∃ taken, Approaches before rest taken t u := by
  refine lives.along (P := fun u => ∃ taken, Approaches before rest taken t u) stream moves ?_ ?_
  · refine ⟨[], (List.append_nil _).symm, List.nil_prefix, fun socket opened => .inl ?_⟩
    exact ⟨running, before, first, arrivals socket opened, rfl⟩
  · intro isn v w earlier _ stream_here streams move ⟨taken, approaches⟩
    obtain calm | ⟨result, after, reads, drawn, grown, ended⟩ :=
      move.calm_or_reads streams.heard stream_here undisturbed
    · exact ⟨taken, approaches.calm calm ((move.course stream_here).forward streams.heard)⟩
    · exact ⟨_, approaches.reads streams.plugged reads drawn grown ended⟩

/-- A FIN of ours that is new acknowledges what is expected from the peer. -/
def FinsAcknowledge (t u : Turn) : Prop :=
  ∀ fin ∈ ownFins u.effects, fin ∈ ownFins t.effects ∨ fin.ack = u.state.recvNext

private theorem finsAcknowledge_of_same (same : ownFins u.effects = ownFins t.effects) :
    FinsAcknowledge t u := fun _ member => .inl (same ▸ member)

private theorem FinsAcknowledge.trans (first : FinsAcknowledge t u) (second : FinsAcknowledge u v)
    (same : v.state.recvNext = u.state.recvNext) : FinsAcknowledge t v := by
  intro fin member
  rcases second fin member with old | new
  · rw [same]
    exact first fin old
  · exact .inr new

theorem endStream_acknowledges (heard : t.state.lastSegment?.isSome = true) (next : UInt32) :
    (t.endStream next).state.recvNext = t.state.recvNext ∧
      FinsAcknowledge t (t.endStream next) := by
  have expected : (t.endStream next).state.recvNext = t.state.recvNext := by
    obtain ⟨⟨ip, tcp⟩, last⟩ := Option.isSome_iff_exists.1 heard
    rw [endStream_eq last]
    rfl
  refine ⟨expected, fun fin member => ?_⟩
  rw [ownFins_endStream heard, List.mem_append, List.mem_singleton] at member
  rcases member with old | rfl
  · exact .inl old
  · exact .inr expected.symm

private theorem remoteClose_acknowledges (heard : t.state.lastSegment?.isSome = true) :
    t.remoteClose.state.recvNext = t.state.recvNext ∧ FinsAcknowledge t t.remoteClose := by
  obtain ⟨-, same⟩ | ⟨-, same⟩ := t.remoteClose_cases
  · rw [same]
    exact ⟨rfl, finsAcknowledge_of_same rfl⟩
  · rw [same]
    exact endStream_acknowledges heard _

private theorem Course.acknowledges (heard : t.state.lastSegment?.isSome = true)
    (deaf : outside.Deaf t.session.key) (course : Course settings outside t u) :
    u.state.recvNext = t.state.recvNext ∧ FinsAcknowledge t u := by
  cases course with
  | bides _ bides => exact ⟨bides.expected, finsAcknowledge_of_same bides.fins⟩
  | takePayload _ _ answers | takeAck _ _ answers => exact absurd answers.toHears deaf.silent
  | flush => exact ⟨expected_flush, finsAcknowledge_of_same stays_flush.fins⟩
  | deliver bytes after now reads =>
    have keeps := keeps_deliver (t := t.withSocket after) bytes
      settings.ingressClassifier now
    exact ⟨keeps.expected, finsAcknowledge_of_same keeps.fins⟩
  | remoteClose after reads => exact remoteClose_acknowledges (t := t.withSocket after) heard

theorem Lives.acknowledges (lives : Lives settings t) (stream : t.session.key.protocol = .tcp)
    (deaf : outside.Deaf t.session.key) (moves : Moves settings outside t u) :
    u.state.recvNext = t.state.recvNext ∧ FinsAcknowledge t u := by
  refine lives.along (P := fun u => u.state.recvNext = t.state.recvNext ∧ FinsAcknowledge t u)
    stream moves ⟨rfl, finsAcknowledge_of_same rfl⟩ ?_
  intro isn v w _ key stream streams move ⟨expected, fins⟩
  obtain ⟨same, newer⟩ :=
    (move.course stream).acknowledges streams.heard (by rw [key]; exact deaf)
  exact ⟨same.trans expected, fins.trans newer same⟩

private theorem receiveAck_acknowledges (t : Turn) (s : Inbound.Segment) (classifier : Classifier)
    (now : Nat) : FinsAcknowledge t (t.receiveAck s classifier now).1 := by
  obtain ⟨-, bides⟩ | ⟨-, -, bides, -⟩ | ⟨-, -, bides⟩ := t.receiveAck_cases s classifier now
  · refine FinsAcknowledge.trans ?_ (finsAcknowledge_of_same bides.fins) bides.expected
    obtain ⟨-, same⟩ | ⟨-, same⟩ := takeAck_cases (t.update fun st => st.rememberTcp s.ip s.tcp) s now
    · rw [same]
      exact finsAcknowledge_of_same rfl
    · rw [same]
      refine (endStream_acknowledges ?_ _).2
      rw [(noted_noteAck _ s now).last]
      rfl
  · exact finsAcknowledge_of_same bides.fins
  · exact finsAcknowledge_of_same bides.fins

private theorem phase_of_ended (ended : t.Ended) : t.session.phase ≠ .streaming := by
  unfold phase
  split_ifs with closed finished closing
  · decide
  · decide
  · decide
  · exact absurd ended (not_or.2 ⟨closing, finished⟩)

private theorem phase_of_running {socket : Socket} (opened : t.session.socket = some socket)
    (running : ¬ t.Ended) : t.session.phase = .streaming := by
  obtain ⟨notClosing, notAcked⟩ := not_or.1 running
  have still_open : ¬ t.session.socket.isNone = true := by
    rw [opened]
    exact Bool.false_ne_true
  unfold phase
  exact (if_neg still_open).trans ((if_neg notAcked).trans (if_neg notClosing))

private theorem ended_of_phase (past : t.session.phase ≠ .streaming) :
    t.session.socket = none ∨ t.Ended := by
  unfold phase at past
  split_ifs at past with closed finished closing
  · exact .inl (Option.isNone_iff_eq_none.1 closed)
  · exact .inr (.inr finished)
  · exact .inr (.inl closing)
  · exact absurd rfl past

private theorem rank_le (closed : t.session.socket = none → u.session.socket = none)
    (forward : t.Forward u) : t.session.phase.rank ≤ u.session.phase.rank := by
  have ranks : ∀ s : Session, s.phase.rank = if s.socket = none then 3
      else if s.state.ackedToFin = true then 2 else if s.state.closing = true then 1 else 0 := by
    intro s
    unfold phase
    simp only [Option.isNone_iff_eq_none]
    split_ifs <;> rfl
  have closing : t.session.state.closing = true →
      u.session.state.closing = true ∨ u.session.state.ackedToFin = true := forward.closing
  have finished : t.session.state.ackedToFin = true → u.session.state.ackedToFin = true :=
    forward.finished
  rw [ranks, ranks]
  split_ifs <;> first | omega | tauto

private theorem exchange_ended (classifier : Classifier) (current : Bool) (now : Nat)
    (ended : (t.exchange classifier current now).2 = .remoteClosed) : ¬ t.Ended := by
  intro past
  have flushed : (if 0 < t.state.outbound.size || t.state.dataReady then t.flush
      else (t, none)).1.Ended := by
    split
    · exact (forward_of_same stays_flush.closing stays_flush.ackedToFin).ended past
    · exact past
  unfold exchange at ended
  generalize (if 0 < t.state.outbound.size || t.state.dataReady then t.flush else (t, none)) =
    result at flushed ended
  obtain ⟨v, _ | e⟩ := result
  · simp only at ended
    split at ended
    case isTrue => cases ended
    case isFalse going => exact going (Bool.or_eq_true_iff.2 (Or.symm flushed))
  · cases ended

theorem pump_ended (classifier : Classifier) (current : Bool) (now : Nat)
    (ended : (t.pump classifier current now).2 = .remoteClosed) :
    ¬ t.Ended := by
  cases opened : t.session.socket with
  | none =>
    simp only [pump, opened] at ended
    cases ended
  | some socket =>
    cases connected : t.state.connected with
    | true =>
      simp only [pump, opened, connected, if_true] at ended
      exact exchange_ended classifier current now ended
    | false =>
      rcases checked : socket.checkConnected with ⟨e | _ | _, after⟩ <;>
        simp only [pump, opened, connected, checked, Bool.false_eq_true, if_false] at ended
      · cases ended
      · cases ended
      · exact exchange_ended (t := (t.withSocket after).update fun s => s.setConnected true)
          classifier current now ended

private theorem ended_serve (lives : Lives settings t) (stream : t.session.key.protocol = .tcp)
    (opened : t.session.socket.isSome = true) (going : t.state.aborting = false) (now : Nat)
    (ended : (t.pump settings.ingressClassifier true now).2 = .remoteClosed) :
    (t.serve settings.ingressClassifier now).Ended := by
  have served : t.serve settings.ingressClassifier now =
      (t.pump settings.ingressClassifier true now).1.remoteClose := by
    unfold serve
    rw [going, if_neg Bool.false_ne_true]
    generalize t.pump settings.ingressClassifier true now = result at ended ⊢
    obtain ⟨v, pass⟩ := result
    obtain rfl : pass = .remoteClosed := ended
    rfl
  have moves : Moves settings .nothing t (t.serve settings.ingressClassifier now) :=
    serve_moves now opened
  obtain ⟨isn, streams⟩ := (lives.moves moves).streams (by rw [Moves.key moves, stream])
  have heard := streams.heard
  rw [served] at heard ⊢
  rw [alike_remoteClose.last] at heard
  exact ended_remoteClose heard

end Session.Turn

namespace Relay

variable {r : Relay} {id : SessionId} {session : Session} {t u : Turn} {e : Event}
  {s : Inbound.Segment}

/-- Our FINs as the peer of a session reads them, earliest first. -/
def finsBy (r : Relay) (id : SessionId) : List Sent :=
  ((r.journal.filter fun entry => entry.session == some id).filter
    (·.effect.isOwnFin)).reverse.filterMap fun entry => entry.packet?.bind Sent.ofBytes?

theorem Traced.sentBy_of_history (traced : Traced r) (known : r.history id = some t)
    (stream : t.session.key.protocol = .tcp) : r.sentBy id = segments t.effects := by
  obtain ⟨at_id, effects⟩ := history_eq_some.1 known
  rw [← effects]
  exact traced.sentBy at_id stream

theorem Traced.dataBy (traced : Traced r) (known : r.history id = some t)
    (stream : t.session.key.protocol = .tcp) :
    (r.sentBy id).filter (·.isData) = dataSegments t.effects := by
  rw [traced.sentBy_of_history known stream]
  rfl

theorem Traced.finsBy (traced : Traced r) (known : r.history id = some t)
    (stream : t.session.key.protocol = .tcp) : r.finsBy id = ownFins t.effects := by
  obtain ⟨at_id, effects⟩ := history_eq_some.1 known
  rw [← effects]
  unfold Relay.finsBy ownFins segments effectsOf
  rw [List.filter_map, ← List.map_reverse, List.filterMap_map]
  refine List.filterMap_congr fun entry member => ?_
  obtain ⟨member, own⟩ :=
    List.mem_filter.1 (List.mem_of_mem_filter (List.mem_reverse.1 member))
  exact traced.reads at_id stream member (beq_iff_eq.1 own)

theorem Reaches.hears (reaches : Reaches e t s) : t.Hears .anything s := by
  obtain ⟨buffer, _, _, -, parsed⟩ := Event.segment?_eq_some reaches.brings
  exact ⟨⟨buffer, parsed⟩, trivial, reaches.own, reaches.isAck, reaches.notSyn⟩

theorem Traced.answered (traced : Traced r) (known : r.history id = some t)
    (reaches : Reaches e t s) :
    Turn.Lives r.settings (t.receiveAck s r.settings.egressClassifier r.now).1 :=
  (traced.lives id t known).moves (Turn.receiveAck_moves reaches.hears r.now)

private theorem Consistent.acknowledges (h : Consistent r) (traced : Traced r)
    (known : (r.step e).history id = some u) (stream : u.session.key.protocol = .tcp) :
    ∀ fin ∈ ownFins u.effects, fin ∈ r.finsBy id ∨ fin.ack = u.state.recvNext := by
  intro fin member
  obtain ⟨t, s, was, reaches, moves⟩ | ⟨t, outside, first, deaf, -, moves⟩ := h.moment e known
  · have key := t.key_receiveAck s r.settings.egressClassifier r.now
    have stream : (t.receiveAck s r.settings.egressClassifier r.now).1.session.key.protocol =
        .tcp := by rw [← Turn.Moves.key moves, stream]
    obtain ⟨expected, later⟩ :=
      (traced.answered was reaches).acknowledges stream (Outside.deaf_nothing _) moves
    have all := (t.receiveAck_acknowledges s r.settings.egressClassifier r.now).trans later expected
    rw [traced.finsBy was (key ▸ stream)]
    exact all fin member
  · have stream : t.session.key.protocol = .tcp := by rw [← Turn.Moves.key moves, stream]
    obtain ⟨was, -⟩ | ⟨-, opened⟩ := first
    · obtain ⟨-, all⟩ := (traced.lives id t was).acknowledges stream deaf moves
      rw [traced.finsBy was stream]
      exact all fin member
    · obtain ⟨-, all⟩ := opened.lives.acknowledges stream deaf moves
      obtain ⟨-, -, none_sent⟩ := Session.Turn.opened_unended opened stream
      have new := all fin member
      rw [none_sent] at new
      exact .inr (new.resolve_left (List.not_mem_nil))

private theorem Consistent.proceeds (h : Consistent r) (traced : Traced r)
    (known : r.history id = some t) (stream : t.session.key.protocol = .tcp) (later : List Event) :
    ∃ u, (r.run later).history id = some u ∧ u.session.key = t.session.key ∧
      t.session.phase.rank ≤ u.session.phase.rank ∧
      (t.session.phase ≠ .streaming →
        t.Settled u ∧ ((∀ e ∈ later, ¬ e.disturbs id) → Turn.Unread t u)) := by
  have changes := h.run later
  cases opened : t.session.socket with
  | none =>
    exact ⟨t, Changes.closed h changes known opened, rfl, Nat.le_refl _,
      fun _ => ⟨⟨rfl, rfl⟩, fun _ => Session.Turn.unread_of_same rfl⟩⟩
  | some socket =>
    obtain ⟨u, after, moves⟩ := Changes.history changes known
    have lives := traced.lives id t known
    refine ⟨u, after, Turn.Moves.key moves, Session.Turn.rank_le (fun none => ?_)
      (lives.forward stream moves), fun past => ?_⟩
    · rw [opened] at none
      cases none
    · have ended : t.Ended := (Session.Turn.ended_of_phase past).resolve_left fun none => by
        rw [opened] at none
        cases none
      obtain ⟨settled, unread⟩ := lives.settled stream ended moves
      refine ⟨settled, fun undisturbed => unread fun ⟨e, member, disturbs⟩ => ?_⟩
      exact undisturbed e member disturbs

/-- A pass in which the socket of a stream reports its end ends the stream, whatever happens to it
later in the pass. -/
theorem Consistent.pass_ended (h : Consistent r) (traced : Traced r) (first second : SessionId → Nat)
    (known : r.history id = some t) (stream : t.session.key.protocol = .tcp)
    (opened : t.session.socket.isSome = true) (going : t.state.aborting = false)
    (ended : (t.pump r.settings.ingressClassifier true r.now).2 = .remoteClosed) :
    ∃ u v, Turn.Moves r.settings .nothing t u ∧ u.Ended ∧
      (r.step (.pass first second)).history id = some v ∧ Turn.Moves r.settings .nothing u v := by
  obtain ⟨v, after, moves⟩ := h.pass first second known opened
  have past := Session.Turn.ended_serve (traced.lives id t known) stream opened going r.now ended
  exact ⟨_, v, Turn.serve_moves r.now opened, past, after, moves⟩

private theorem Consistent.approaches (h : Consistent r) (traced : Traced r)
    (known : r.history id = some t) (stream : t.session.key.protocol = .tcp)
    (running : t.session.phase = .streaming)
    {before rest : List Socket.Arrival} (first : .data [] ∉ before)
    (arrivals : ∀ socket, t.session.socket = some socket →
      socket.arrivals = before ++ .data [] :: rest)
    (later : List Event) (undisturbed : ∀ e ∈ later, ¬ e.disturbs id) :
    ∃ u more, (r.run later).history id = some u ∧ u.session.key = t.session.key ∧
      dataSegments u.effects = dataSegments t.effects ++ more ∧
      Turn.Approaches before rest (payloads more) t u := by
  have changes := h.run later
  obtain ⟨u, after, moves⟩ := Changes.history changes known
  have key := Turn.Moves.key moves
  have lives := traced.lives id t known
  have still : ¬ ∃ e ∈ later, e.disturbs id := fun ⟨e, member, disturbs⟩ =>
    undisturbed e member disturbs
  obtain ⟨taken, approaches⟩ := lives.approaches stream still
    (fun past => Session.Turn.phase_of_ended past running) first arrivals moves
  obtain ⟨new, added, -⟩ := Turn.Moves.grows moves
  have data : dataSegments u.effects = dataSegments t.effects ++ dataSegments new := by
    rw [added, dataSegments_append]
  obtain ⟨_, whole⟩ := lives.streams stream
  obtain ⟨_, whole_later⟩ := (lives.moves moves).streams (key ▸ stream)
  -- What has gone to the peer is what was received, before and after.
  have carried := whole_later.whole
  rw [data, payloads_append, whole.whole, approaches.received] at carried
  exact ⟨u, _, after, key, data, List.append_cancel_left carried ▸ approaches⟩

/-- How streams end: in every run, the end of a stream goes forward through its phases. Our FIN
waits only while something is unacknowledged; it is sent once, next after the data, and acknowledges
what is expected from the peer. Of a socket that is to deliver the end of the stream behind `ahead`
and in front of `rest`, no more than `ahead` ever goes to the peer. The stream is streaming for as
long as the end has not been read, and once it has, exactly `rest` is left to the socket. From then
on nothing is read and no data is sent. -/
theorem run_closes (settings : Settings) (now coreWorkers maxWorkers : Nat) (events : List Event)
    (last : Event) {id : SessionId} {session : Session}
    (at_id : ((start settings now coreWorkers maxWorkers).run
      (events ++ [last])).sessions[id]? = some session)
    (stream : session.key.protocol = .tcp) :
    let before := (start settings now coreWorkers maxWorkers).run events
    let r := (start settings now coreWorkers maxWorkers).run (events ++ [last])
    let data (r : Relay) := (r.sentBy id).filter (·.isData)
    (session.state.closing = true →
      session.state.ackedToFin = false ∧ session.state.unacknowledged ≠ 0) ∧
    (∃ isn ack, (r.sentBy id).head? = some ⟨.syn ∪ .ack, isn, ack, []⟩ ∧
      (r.finsBy id = [] ∨ ∃ ack, r.finsBy id =
        [⟨.fin ∪ .ack, isn + 1 + UInt32.ofNat (payloads (data r)).length, ack, []⟩])) ∧
    (∀ fin ∈ r.finsBy id, fin ∈ before.finsBy id ∨ fin.ack = session.state.recvNext) ∧
    (session.phase = .streaming → ∀ socket ahead rest, session.socket = some socket →
      socket.arrivals = ahead ++ .data [] :: rest → .data [] ∉ ahead →
      ∀ later : List Event, (∀ e ∈ later, ¬ e.disturbs id) →
        ∃ after more, (r.run later).sessions[id]? = some after ∧
          data (r.run later) = data r ++ more ∧ payloads more <+: Socket.arrived ahead ∧
          ∀ socket, after.socket = some socket →
            (after.phase = .streaming ∧ ∃ left, .data [] ∉ left ∧
              socket.arrivals = left ++ .data [] :: rest ∧
              payloads more ++ Socket.arrived left = Socket.arrived ahead) ∨
            (after.phase ≠ .streaming ∧ socket.arrivals = rest ∧
              payloads more = Socket.arrived ahead)) ∧
    ∀ later : List Event, ∃ after, (r.run later).sessions[id]? = some after ∧
      session.phase.rank ≤ after.phase.rank ∧
      (session.phase ≠ .streaming →
        data (r.run later) = data r ∧
        received ((r.run later).effectsOf (some id)) = received (r.effectsOf (some id)) ∧
        ((∀ e ∈ later, ¬ e.disturbs id) → ∀ socket, after.socket = some socket →
          ∃ now_open, session.socket = some now_open ∧ socket.arrivals = now_open.arrivals)) := by
  intro before r data
  have consistent : Consistent r := consistent_run settings now coreWorkers maxWorkers _
  have traced : Traced r := traced_run settings now coreWorkers maxWorkers _
  have earlier : Consistent before := consistent_run settings now coreWorkers maxWorkers events
  have traced_before : Traced before := traced_run settings now coreWorkers maxWorkers events
  have traced_later (later : List Event) : Traced (r.run later) :=
    Changes.traced traced (consistent.run later)
  have stepped : r = before.step last := run_append _ events [last]
  have known : r.history id = some ⟨session, r.effectsOf (some id)⟩ := history_of_session at_id
  have lives := traced.lives id _ known
  obtain ⟨isn, closes⟩ := lives.closes stream
  have sent : r.sentBy id = segments (r.effectsOf (some id)) := traced.sentBy_of_history known stream
  have fins : r.finsBy id = ownFins (r.effectsOf (some id)) := traced.finsBy known stream
  have carried : data r = dataSegments (r.effectsOf (some id)) := traced.dataBy known stream
  have at_end : isn + 1 + UInt32.ofNat (payloads (data r)).length =
      Turn.streamEnd isn ⟨session, r.effectsOf (some id)⟩ := by
    unfold Turn.streamEnd
    rw [carried, closes.whole]
  refine ⟨fun closing => ⟨closes.apart closing, closes.pending closing⟩, ?_, ?_,
    fun running socket ahead rest opened arrivals first later undisturbed => ?_, fun later => ?_⟩
  · obtain ⟨ack, begun⟩ := closes.begun
    refine ⟨isn, ack, by rw [sent, begun], ?_⟩
    rw [fins, at_end]
    cases finished : session.state.ackedToFin with
    | false => exact .inl (closes.unsent finished)
    | true => exact .inr (closes.sent finished)
  · rw [fins]
    intro fin member
    rw [stepped] at known
    exact earlier.acknowledges traced_before known stream fin (stepped ▸ member)
  · obtain ⟨u, more, after, key, more_data, approaches⟩ := consistent.approaches traced known stream
      running first (fun only same => Option.some.inj (opened.symm.trans same) ▸ arrivals) later
      undisturbed
    refine ⟨u.session, more, (history_eq_some.1 after).1, ?_, approaches.within,
      fun socket still => ?_⟩
    · rw [carried, ← more_data]
      exact (traced_later later).dataBy after (key ▸ stream)
    · exact (approaches.left socket still).imp
        (fun ⟨going, left, open_ended, ahead, whole⟩ =>
          ⟨Session.Turn.phase_of_running still going, left, open_ended, ahead, whole⟩)
        (And.imp_left Session.Turn.phase_of_ended)
  · obtain ⟨u, after, key, forward, past⟩ := consistent.proceeds traced known stream later
    obtain ⟨at_later, effects⟩ := history_eq_some.1 after
    refine ⟨u.session, at_later, forward, fun ended => ?_⟩
    obtain ⟨settled, unread⟩ := past ended
    refine ⟨?_, effects ▸ settled.received, unread⟩
    rw [carried, ← settled.data]
    exact (traced_later later).dataBy after (key ▸ stream)

/-- A socket ends behind three bytes, and our FIN waits until the peer has acknowledged them. What
the socket has behind the end is left to it, whatever happens. -/
theorem run_closes_waiting :
    let packet (flags : UInt8) (ack : UInt32) : Event := .packet
      (sampleSegment flags (if flags = 2 then 1000 else 1001) ack []) 500
      (.smooth [.data [1, 2, 3], .data [], .data [4]])
    let first := (start .plain 0 1 1).run [packet 2 0]
    let events : List Event := [packet 2 0, .pass (fun _ => 0) (fun _ => 0), packet 16 503]
    let before := (start .plain 0 1 1).run events
    let r := (start .plain 0 1 1).run (events ++ [packet 16 504])
    (∀ later : List Event, (∀ e ∈ later, ¬ e.disturbs 0) →
      ∃ after, (first.run later).sessions[0]? = some after ∧
        payloads (((first.run later).sentBy 0).filter (·.isData)) <+: [1, 2, 3] ∧
        ∀ socket, after.socket = some socket → after.phase ≠ .streaming →
          socket.arrivals = [.data [4]]) ∧
    before.sessions[0]?.map (·.phase) = some .closing ∧ before.finsBy 0 = [] ∧
      ∃ session, r.sessions[0]? = some session ∧ session.phase = .finished ∧
        r.finsBy 0 = [⟨.fin ∪ .ack, 504, 1001, []⟩] ∧ session.state.recvNext = 1001 ∧
        ∀ later : List Event, ∃ after, (r.run later).sessions[0]? = some after ∧
          Session.Phase.finished.rank ≤ after.phase.rank := by
  intro packet first events before r
  have streaming : first.sessions[0]?.map (fun s => (s.key.protocol, s.phase,
      s.socket.map (·.arrivals), ((first.sentBy 0).filter (·.isData)))) =
      some (.tcp, .streaming, some [.data [1, 2, 3], .data [], .data [4]], []) := by decide +kernel
  have waiting : before.sessions[0]?.map (·.phase) = some .closing ∧ before.finsBy 0 = [] := by
    decide +kernel
  have opened : r.sessions[0]?.map (fun s => (s.key.protocol, s.phase, s.state.recvNext)) =
      some (.tcp, .finished, 1001) := by decide +kernel
  have sent : r.finsBy 0 = [⟨.fin ∪ .ack, 504, 1001, []⟩] := by decide +kernel
  refine ⟨fun later undisturbed => ?_, waiting.1, waiting.2, ?_⟩
  · obtain ⟨session, at_id, same⟩ := Option.map_eq_some_iff.1 streaming
    simp only [Prod.mk.injEq, Option.map_eq_some_iff] at same
    obtain ⟨stream, phase, ⟨socket, still_open, arrivals⟩, nothing⟩ := same
    obtain ⟨-, -, -, approaches, -⟩ := run_closes .plain 0 1 1 [] (packet 2 0) at_id stream
    obtain ⟨after, more, at_later, data, within, left⟩ := approaches phase socket [.data [1, 2, 3]]
      [.data [4]] still_open arrivals (by decide) later undisturbed
    have data : ((first.run later).sentBy 0).filter (·.isData) = more := by
      refine Eq.trans data ?_
      exact congrArg (· ++ more) nothing
    refine ⟨after, at_later, data ▸ within, fun socket still past => ?_⟩
    obtain ⟨running, -⟩ | ⟨-, at_rest, -⟩ := left socket still
    · exact absurd running past
    · exact at_rest
  · obtain ⟨session, at_id, same⟩ := Option.map_eq_some_iff.1 opened
    simp only [Prod.mk.injEq] at same
    obtain ⟨stream, phase, expected⟩ := same
    obtain ⟨-, -, -, -, later⟩ := run_closes .plain 0 1 1 events (packet 16 504) at_id stream
    refine ⟨session, at_id, phase, sent, expected, fun more => ?_⟩
    obtain ⟨after, at_later, forward, -⟩ := later more
    rw [phase] at forward
    exact ⟨after, at_later, forward⟩

end Relay
end PacketRelay
