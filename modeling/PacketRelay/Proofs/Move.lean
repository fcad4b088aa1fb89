import Mathlib.Logic.Relation
import PacketRelay.Proofs.Run
import PacketRelay.Proofs.Turn

/-!
What can happen to a session.

`Opened` lists how a session comes into being and `Move` all that can happen to it later, each move
with what is known when it is made. What handlers and passes do to a session is a chain of moves, so
an invariant of a session needs to be looked at for each move once.
-/

set_option autoImplicit false

namespace PacketRelay

open Relation (ReflTransGen)

/-- A segment that came out of the tunnel. -/
def Inbound.Segment.Read (s : Inbound.Segment) : Prop :=
  ∃ buffer, Inbound.parse buffer = .ok (.segment s)

def Inbound.Datagram.Read (d : Inbound.Datagram) : Prop :=
  ∃ buffer, Inbound.parse buffer = .ok (.datagram d)

def Inbound.Echo.Read (e : Inbound.Echo) : Prop :=
  ∃ buffer, Inbound.parse buffer = .ok (.echoRequest e)

/-- What may reach a session from outside. -/
structure Outside where
  /-- The network changes what the socket of the session meets. -/
  changes : Prop
  /-- Segments that come out of the tunnel. -/
  brings : Inbound.Segment → Prop

namespace Outside

def anything : Outside := ⟨True, fun _ => True⟩

def nothing : Outside := ⟨False, fun _ => False⟩

/-- What may reach a session in one case may reach it in another. -/
structure Within (p q : Outside) : Prop where
  changes : p.changes → q.changes
  brings : ∀ s, p.brings s → q.brings s

theorem within_anything (p : Outside) : p.Within anything := ⟨fun _ => trivial, fun _ _ => trivial⟩

end Outside

namespace Session.Turn

def meet (t : Turn) (outlook : Socket) : Turn :=
  { t with session := { t.session with socket := t.session.socket.map (·.meet outlook) } }

/-- A segment of the session's own flow that it has to answer. -/
structure Hears (t : Turn) (outside : Outside) (s : Inbound.Segment) : Prop where
  read : s.Read
  brought : outside.brings s
  own : s.key = t.session.key
  isAck : s.tcp.isAck = true
  notSyn : s.tcp.isSyn = false

/-- The segment being answered, which every answer is drafted from. -/
structure Answers (t : Turn) (outside : Outside) (s : Inbound.Segment) : Prop
    extends Hears t outside s where
  last : t.state.lastSegment? = some (s.ip, s.tcp)

/-- A session may be read: it is connected, and the end of its stream has not been seen. -/
structure Readable (t : Turn) : Prop where
  connected : t.state.connected = true
  notClosing : t.state.closing = false
  notAcked : t.state.ackedToFin = false

/-- A read on the socket of a session. -/
structure Reads (t : Turn) (result : Except Errno Bytes) (after : Socket) : Prop
    extends Readable t where
  read : ∃ socket, t.session.socket = some socket ∧ socket.read = (result, after)

/-- A look at whether the connection of the socket stands by now. -/
structure Checks (t : Turn) (result : Except Errno Bool) (after : Socket) : Prop where
  check : ∃ socket, t.session.socket = some socket ∧ socket.checkConnected = (result, after)
  pending : t.state.connected = false

/-- The session that a SYN opens. -/
def begun (settings : Relay.Settings) (s : Inbound.Segment) (isn : UInt32)
    (prospect : Socket.Prospect) (number : Nat) (connected : Bool) (now : Nat) : Turn :=
  let session :=
    Relay.newSession s.key (prospect.begun number true connected) connected s.ip.totalLength now
  ⟨session.update fun state => state.begin s isn settings.mssLimit now,
    [.write .handshake (.synAck s.ip s.tcp isn (State.clock now)), .register s.key,
      .flowCreated session.state.flow]⟩

/-- A session that has just been opened. -/
inductive Opened (settings : Relay.Settings) : Turn → Prop
  | stream (s : Inbound.Segment) (read : s.Read) (isSyn : s.tcp.isSyn = true) (isn : UInt32)
      (prospect : Socket.Prospect) (number : Nat) (connected : Bool) (now : Nat) :
      Opened settings (.begun settings s isn prospect number connected now)
  | datagram (d : Inbound.Datagram) (read : d.Read) (prospect : Socket.Prospect) (number : Nat)
      (now : Nat) (session : Session)
      (fresh : session =
        Relay.newSession d.key (prospect.begun number false true) true d.ip.totalLength now) :
      Opened settings
        (((((Turn.mk session [.flowCreated session.state.flow]).takeDatagram d true
          settings.egressClassifier).emit (.register d.key)).emit (.refresh d.key)).touch now)

/-- What happens to a session that is open. Only what may reach it from `outside` does. -/
inductive Move (settings : Relay.Settings) (outside : Outside) : Turn → Turn → Prop
  | resendAck (t : Turn) (stream : t.session.key.protocol = .tcp) :
      Move settings outside t t.resendAck
  | remember (t : Turn) (s : Inbound.Segment) (hears : t.Hears outside s) :
      Move settings outside t (t.update fun st => st.rememberTcp s.ip s.tcp)
  | takePayload (t : Turn) (s : Inbound.Segment) (now : Nat) (answers : t.Answers outside s)
      (payload : s.payload ≠ []) (accepts : t.state.acceptsData s.tcp.seq = true) :
      Move settings outside t (t.takePayload s settings.egressClassifier now)
  | refusePayload (t : Turn) (s : Inbound.Segment) (answers : t.Answers outside s)
      (payload : s.payload ≠ []) (refuses : t.state.acceptsData s.tcp.seq = false) :
      Move settings outside t (t.refusePayload s)
  | takeAck (t : Turn) (s : Inbound.Segment) (now : Nat) (answers : t.Answers outside s)
      (bare : s.payload = []) : Move settings outside t (t.takeAck s now)
  | takePush (t : Turn) (s : Inbound.Segment) (now : Nat) (answers : t.Answers outside s) :
      Move settings outside t (t.takePush s now)
  | takeEnd (t : Turn) (s : Inbound.Segment) (inOrder : Bool) (answers : t.Answers outside s) :
      Move settings outside t (t.takeEnd s inOrder)
  | cancel (t : Turn) : Move settings outside t (t.emit (.cancel t.session.key))
  | refresh (t : Turn) : Move settings outside t (t.emit (.refresh t.session.key))
  | touch (t : Turn) (now : Nat) : Move settings outside t (t.touch now)
  | abandon (t : Turn) (stream : t.session.key.protocol = .tcp) :
      Move settings outside t (t.update fun st => { st with aborting := true })
  | takeDatagram (t : Turn) (d : Inbound.Datagram) (read : d.Read) (own : d.key = t.session.key) :
      Move settings outside t (t.takeDatagram d false settings.egressClassifier)
  | check (t : Turn) (result : Except Errno Bool) (after : Socket)
      (checks : t.Checks result after) : Move settings outside t (t.withSocket after)
  | connect (t : Turn) (after : Socket) (checks : t.Checks (.ok true) after) :
      Move settings outside t ((t.withSocket after).update fun st => st.setConnected true)
  | flush (t : Turn) (connected : t.state.connected = true) : Move settings outside t t.flush.1
  | readNothing (t : Turn) (e : Errno) (after : Socket) (reads : t.Reads (.error e) after) :
      Move settings outside t (t.withSocket after)
  | deliver (t : Turn) (bytes : Bytes) (after : Socket) (now : Nat)
      (reads : t.Reads (.ok bytes) after)
      (payload : bytes ≠ [] ∨ t.session.key.protocol = .udp) :
      Move settings outside t
        ((t.withSocket after).deliver bytes settings.ingressClassifier true now)
  | remoteClose (t : Turn) (after : Socket) (reads : t.Reads (.ok []) after)
      (stream : t.session.key.protocol = .tcp) :
      Move settings outside t (t.withSocket after).remoteClose
  | resetPeer (t : Turn) (stream : t.session.key.protocol = .tcp) :
      Move settings outside t t.resetPeer
  | leave (t : Turn) (opened : t.session.socket.isSome) : Move settings outside t t.report.shut
  | network (t : Turn) (outlook : Socket) (allowed : outside.changes) :
      Move settings outside t (t.meet outlook)

abbrev Moves (settings : Relay.Settings) (outside : Outside) : Turn → Turn → Prop :=
  ReflTransGen (Move settings outside)

private theorem Hears.mono {p q : Outside} {t : Turn} {s : Inbound.Segment} (within : p.Within q)
    (hears : t.Hears p s) : t.Hears q s :=
  { hears with brought := within.brings s hears.brought }

private theorem Answers.mono {p q : Outside} {t : Turn} {s : Inbound.Segment} (within : p.Within q)
    (answers : t.Answers p s) : t.Answers q s :=
  { answers.toHears.mono within with last := answers.last }

private theorem Move.mono {settings : Relay.Settings} {p q : Outside} {t u : Turn}
    (within : p.Within q) (move : Move settings p t u) : Move settings q t u := by
  cases move with
  | resendAck stream => exact .resendAck t stream
  | remember s hears => exact .remember t s (hears.mono within)
  | takePayload s now answers payload accepts =>
    exact .takePayload t s now (answers.mono within) payload accepts
  | refusePayload s answers payload refuses =>
    exact .refusePayload t s (answers.mono within) payload refuses
  | takeAck s now answers bare => exact .takeAck t s now (answers.mono within) bare
  | takePush s now answers => exact .takePush t s now (answers.mono within)
  | takeEnd s inOrder answers => exact .takeEnd t s inOrder (answers.mono within)
  | cancel => exact .cancel t
  | refresh => exact .refresh t
  | touch now => exact .touch t now
  | abandon stream => exact .abandon t stream
  | takeDatagram d read own => exact .takeDatagram t d read own
  | check result after checks => exact .check t result after checks
  | connect after checks => exact .connect t after checks
  | flush connected => exact .flush t connected
  | readNothing e after reads => exact .readNothing t e after reads
  | deliver bytes after now reads payload => exact .deliver t bytes after now reads payload
  | remoteClose after reads stream => exact .remoteClose t after reads stream
  | resetPeer stream => exact .resetPeer t stream
  | leave opened => exact .leave t opened
  | network outlook allowed => exact .network t outlook (within.changes allowed)

theorem Moves.mono {settings : Relay.Settings} {p q : Outside} {t u : Turn} (within : p.Within q)
    (moves : Moves settings p t u) : Moves settings q t u := by
  induction moves with
  | refl => exact .refl
  | tail _ move ih => exact ih.tail (move.mono within)

section Chains

variable {settings : Relay.Settings} {outside : Outside} {t u : Turn} {s : Inbound.Segment}

/-- The same flow and socket, and the same segment to answer. -/
structure Alike (t u : Turn) : Prop where
  key : u.session.key = t.session.key
  socket : u.session.socket = t.session.socket
  last : u.state.lastSegment? = t.state.lastSegment?

private theorem Alike.answers (alike : t.Alike u) (answers : t.Answers outside s) :
    u.Answers outside s where
  read := answers.read
  brought := answers.brought
  own := answers.own.trans alike.key.symm
  isAck := answers.isAck
  notSyn := answers.notSyn
  last := alike.last.trans answers.last

private theorem Alike.trans {v : Turn} (first : t.Alike u) (second : u.Alike v) : t.Alike v where
  key := second.key.trans first.key
  socket := second.socket.trans first.socket
  last := second.last.trans first.last

theorem alike_classify (classifier : Classifier) (direction : Direction) (payload : Bytes) :
    t.Alike (t.classify classifier direction payload) := by
  obtain ⟨_, _, _, frame⟩ := t.classify_frame classifier direction payload
  constructor
  · rw [frame]; rfl
  · rw [frame]; rfl
  · unfold Turn.state
    rw [frame]
    rfl

theorem alike_takePayload (s : Inbound.Segment) (classifier : Classifier) (now : Nat) :
    t.Alike (t.takePayload s classifier now) := by
  have queued : t.Alike (t.queue s) := ⟨rfl, rfl, rfl⟩
  have classified := queued.trans (alike_classify classifier .egress s.payload)
  rw [takePayload_eq]
  exact ⟨classified.key, classified.socket, classified.last⟩

private theorem alike_endStream (next : UInt32) : t.Alike (t.endStream next) := by
  unfold endStream sendFin
  split
  · exact ⟨rfl, rfl, rfl⟩
  · exact ⟨rfl, rfl, rfl⟩

theorem alike_takeAck (s : Inbound.Segment) (now : Nat) : t.Alike (t.takeAck s now) := by
  have noted : t.Alike (t.noteAck s now) := by
    obtain ⟨_, _, _, _, _, frame⟩ := t.noteAck_frame now s
    refine ⟨?_, ?_, ?_⟩
    · rw [frame]; rfl
    · rw [frame]; rfl
    · unfold state
      rw [frame]
      rfl
  rw [takeAck_eq]
  split
  · exact noted.trans (alike_endStream _)
  · exact noted

theorem alike_takePush (s : Inbound.Segment) (now : Nat) : t.Alike (t.takePush s now) := by
  rw [takePush_eq]
  split
  · exact ⟨rfl, rfl, rfl⟩
  · exact ⟨rfl, rfl, rfl⟩

theorem alike_takeEnd (s : Inbound.Segment) (inOrder : Bool) : t.Alike (t.takeEnd s inOrder) := by
  unfold takeEnd
  split
  · split <;> exact ⟨rfl, rfl, rfl⟩
  · split <;> exact ⟨rfl, rfl, rfl⟩

theorem key_takeDatagram (d : Inbound.Datagram) (opened : Bool) (classifier : Classifier) :
    (t.takeDatagram d opened classifier).session.key = t.session.key := by
  obtain ⟨_, frame⟩ := t.takeDatagram_frame d opened classifier
  rw [frame]

theorem Opened.syn (opened : Opened settings t) (stream : t.session.key.protocol = .tcp) :
    ∃ s isn prospect number connected now, s.Read ∧ s.tcp.isSyn = true ∧
      t = .begun settings s isn prospect number connected now := by
  cases opened with
  | stream s read isSyn isn prospect number connected now =>
    exact ⟨s, isn, prospect, number, connected, now, read, isSyn, rfl⟩
  | datagram d read prospect number now session fresh =>
    subst fresh
    have stream : ((Turn.mk (Relay.newSession d.key (prospect.begun number false true) true
        d.ip.totalLength now) _).takeDatagram d true _).session.key.protocol = .tcp := stream
    rw [key_takeDatagram] at stream
    cases stream

theorem socket_takeDatagram (d : Inbound.Datagram) (opened : Bool) (classifier : Classifier) :
    (t.takeDatagram d opened classifier).session.socket = t.session.socket := by
  obtain ⟨_, frame⟩ := t.takeDatagram_frame d opened classifier
  rw [frame]

theorem alike_remoteClose : t.Alike t.remoteClose := by
  rw [remoteClose_eq]
  split
  · exact ⟨rfl, rfl, rfl⟩
  · exact alike_endStream _

theorem receiveAck_moves (hears : t.Hears outside s) (now : Nat) :
    Moves settings outside t (t.receiveAck s settings.egressClassifier now).1 := by
  have remembered : Moves settings outside t (t.update fun st => st.rememberTcp s.ip s.tcp) :=
    .single (.remember t s hears)
  have answers : (t.update fun st => st.rememberTcp s.ip s.tcp).Answers outside s :=
    { hears with last := rfl }
  generalize eq : (t.update fun st => st.rememberTcp s.ip s.tcp) = u at remembered answers
  have handled : ∃ v, Move settings outside u v ∧ u.Alike v ∧
      (if s.payload.isEmpty then u.takeAck s now
        else if !s.payload.isEmpty && u.state.acceptsData s.tcp.seq then
          u.takePayload s settings.egressClassifier now
        else u.refusePayload s) = v := by
    by_cases bare : s.payload = []
    · refine ⟨u.takeAck s now, .takeAck u s now answers bare, alike_takeAck s now, ?_⟩
      simp [bare]
    · cases accepts : u.state.acceptsData s.tcp.seq with
      | true =>
        refine ⟨_, .takePayload u s now answers bare accepts, alike_takePayload s _ now, ?_⟩
        simp [bare]
      | false =>
        refine ⟨_, .refusePayload u s answers bare accepts, ⟨rfl, rfl, rfl⟩, ?_⟩
        simp [bare]
  obtain ⟨v, move, alike, handled⟩ := handled
  have answers := alike.answers answers
  have pushed := (alike_takePush (t := v) s now).answers answers
  have all := ((remembered.tail move).tail (.takePush v s now answers)).tail
    (.takeEnd _ s (s.payload.isEmpty || !s.payload.isEmpty && u.state.acceptsData s.tcp.seq) pushed)
  unfold receiveAck
  simp only [eq, handled]
  exact all

theorem socket_receiveAck (t : Turn) (s : Inbound.Segment) (classifier : Classifier) (now : Nat) :
    (t.receiveAck s classifier now).1.session.socket = t.session.socket := by
  unfold receiveAck
  simp only
  rw [(alike_takeEnd s _).socket, (alike_takePush s now).socket]
  split
  · exact (alike_takeAck s now).socket
  · split
    · exact (alike_takePayload s classifier now).socket
    · rfl

theorem key_receiveAck (t : Turn) (s : Inbound.Segment) (classifier : Classifier) (now : Nat) :
    (t.receiveAck s classifier now).1.session.key = t.session.key := by
  unfold receiveAck
  simp only
  rw [(alike_takeEnd s _).key, (alike_takePush s now).key]
  split
  · exact (alike_takeAck s now).key
  · split
    · exact (alike_takePayload s classifier now).key
    · rfl

private theorem socket_flush : t.flush.1.session.socket.isSome = t.session.socket.isSome := by
  cases h : t.session.socket with
  | none => rw [flush_none t h, h]
  | some socket => rw [flush_some t h rfl]; rfl

private theorem connected_flush : t.flush.1.state.connected = t.state.connected := by
  cases h : t.session.socket with
  | none => rw [flush_none t h]
  | some socket => rw [flush_some t h rfl]; rfl

theorem finish_moves (opened : t.session.socket.isSome) :
    Moves settings outside t t.finish.shut := by
  have cancelled : Moves settings outside t (t.emit (.cancel t.session.key)) := .single (.cancel t)
  unfold finish
  simp only
  split
  case isTrue due =>
    have connected : (t.emit (.cancel t.session.key)).state.connected = true := by
      simp only [Bool.and_eq_true] at due
      exact due.1
    have flushed := cancelled.tail (.flush _ connected)
    exact flushed.tail (.leave _ (by rw [socket_flush]; exact opened))
  case isFalse => exact cancelled.tail (.leave _ opened)

def resetStream (t : Turn) : Turn :=
  match t.session.key.protocol with
  | .tcp => t.resetPeer
  | .udp => t

/-- The session is taken out: its peer is reset, if it is a stream, it is reported and shut down. -/
def abort (t : Turn) : Turn := t.resetStream.report.shut

private theorem abort_moves
    (opened : t.session.socket.isSome) : Moves settings outside t t.abort := by
  unfold abort resetStream
  split
  case h_1 stream =>
    have reset : Moves settings outside t t.resetPeer := .single (.resetPeer t stream)
    refine reset.tail (.leave _ ?_)
    unfold resetPeer
    split <;> exact opened
  case h_2 => exact .single (.leave t opened)

private theorem readable_deliver (readable : t.Readable) (bytes : Bytes) (classifier : Classifier)
    (current : Bool) (now : Nat) : (t.deliver bytes classifier current now).Readable := by
  obtain ⟨_, _, _, _, _, frame⟩ := t.deliver_frame now bytes classifier current
  have connected := readable.connected
  have notClosing := readable.notClosing
  have notAcked := readable.notAcked
  constructor <;> unfold Turn.state <;> rw [frame] <;> assumption

theorem socket_deliver (bytes : Bytes) (classifier : Classifier) (current : Bool) (now : Nat) :
    (t.deliver bytes classifier current now).session.socket = t.session.socket := by
  obtain ⟨_, _, _, _, _, frame⟩ := t.deliver_frame now bytes classifier current
  rw [frame]
  rfl

/-- What a pass over a session has come to: the session is still open, and moves lead to it, or to
it with the end of its stream dealt with. -/
structure Passed (settings : Relay.Settings) (outside : Outside) (t v : Turn) (pass : Pass) :
    Prop where
  opened : v.session.socket.isSome
  notGone : pass ≠ .gone
  moves : Moves settings outside t (if pass = .remoteClosed then v.remoteClose else v)

private theorem Passed.after {v : Turn} {pass : Pass} (first : Moves settings outside t u)
    (passed : Passed settings outside u v pass) : Passed settings outside t v pass :=
  { passed with moves := first.trans passed.moves }

private theorem readAll_passed (now n : Nat) (readable : t.Readable)
    (opened : t.session.socket.isSome) :
    Passed settings outside t (readAll settings.ingressClassifier true now n t).1
      (readAll settings.ingressClassifier true now n t).2 := by
  -- Neither an interrupted read nor a delivery ends the pass, and the session may be read again.
  induction n generalizing t with
  | zero => exact ⟨opened, by simp [readAll], .refl⟩
  | succ n ih =>
    obtain ⟨socket, h⟩ := Option.isSome_iff_exists.1 opened
    rcases r : socket.read with ⟨e | bytes, after⟩
    · have idle : Moves settings outside t (t.withSocket after) :=
        .single (.readNothing t e after { readable with read := ⟨socket, h, r⟩ })
      have again :=
        (ih (t := t.withSocket after) ⟨readable.1, readable.2, readable.3⟩ rfl).after idle
      cases e <;> simp only [readAll, h, r] <;> first | exact again | exact ⟨rfl, by simp, idle⟩
    · have reads : t.Reads (.ok bytes) after := { readable with read := ⟨socket, h, r⟩ }
      simp only [readAll, h, r]
      split
      case isTrue ended =>
        simp only [Bool.and_eq_true, List.isEmpty_iff, beq_iff_eq] at ended
        obtain ⟨rfl, stream⟩ := ended
        exact ⟨rfl, by simp, .single (.remoteClose t after reads stream)⟩
      case isFalse more =>
        have payload : bytes ≠ [] ∨ t.session.key.protocol = .udp := by
          by_cases empty : bytes = []
          · refine .inr ?_
            cases protocol : t.session.key.protocol
            · simp [empty, Turn.withSocket, protocol] at more
            · rfl
          · exact .inl empty
        have delivered : Moves settings outside t
            ((t.withSocket after).deliver bytes settings.ingressClassifier true now) :=
          .single (.deliver t bytes after now reads payload)
        refine (ih (readable_deliver ?_ bytes _ _ now) ?_).after delivered
        · exact ⟨readable.1, readable.2, readable.3⟩
        · rw [socket_deliver]
          rfl

theorem exchange_passed (now : Nat) (connected : t.state.connected = true)
    (opened : t.session.socket.isSome) :
    Passed settings outside t (t.exchange settings.ingressClassifier true now).1
      (t.exchange settings.ingressClassifier true now).2 := by
  have flushed : ∃ u failure, (if 0 < t.state.outbound.size || t.state.dataReady then t.flush
      else (t, none)) = (u, failure) ∧ Moves settings outside t u ∧ u.state.connected = true ∧
        u.session.socket.isSome := by
    split
    · refine ⟨t.flush.1, t.flush.2, rfl, .single (.flush t connected), ?_, ?_⟩
      · rw [connected_flush, connected]
      · rw [socket_flush, opened]
    · exact ⟨t, none, rfl, .refl, connected, opened⟩
  obtain ⟨u, failure, eq, moves, connected, opened⟩ := flushed
  unfold exchange
  rw [eq]
  cases failure with
  | some e => exact ⟨opened, by simp, moves⟩
  | none =>
    simp only
    split
    case isTrue => exact ⟨opened, by simp, moves⟩
    case isFalse going =>
      simp only [Bool.or_eq_true, not_or, Bool.not_eq_true] at going
      exact (readAll_passed now _ ⟨connected, going.2, going.1⟩ opened).after moves

theorem pump_passed (now : Nat) (opened : t.session.socket.isSome) :
    Passed settings outside t (t.pump settings.ingressClassifier true now).1
      (t.pump settings.ingressClassifier true now).2 := by
  obtain ⟨socket, h⟩ := Option.isSome_iff_exists.1 opened
  cases connected : t.state.connected with
  | true =>
    simp only [pump, h, connected, if_true]
    exact exchange_passed now connected opened
  | false =>
    rcases checked : socket.checkConnected with ⟨result, after⟩
    have checks : t.Checks result after := ⟨⟨socket, h, checked⟩, connected⟩
    have looked : Moves settings outside t (t.withSocket after) :=
      .single (.check t result after checks)
    simp only [pump, h, connected, checked, Bool.false_eq_true, if_false]
    rcases result with e | _ | _
    · exact ⟨rfl, by simp, looked⟩
    · exact ⟨rfl, by simp, looked⟩
    · exact (exchange_passed now rfl rfl).after (.single (.connect t after checks))

def serve (t : Turn) (classifier : Classifier) (now : Nat) : Turn :=
  if t.state.aborting then t.abort
  else match t.pump classifier true now with
    | (v, .remoteClosed) => v.remoteClose
    | (v, .failed _) => v.abort
    | (v, _) => v

theorem serve_moves (now : Nat) (opened : t.session.socket.isSome) :
    Moves settings outside t (t.serve settings.ingressClassifier now) := by
  unfold serve
  split
  · exact abort_moves opened
  · have passed : Passed settings outside t _ _ := pump_passed now opened
    generalize t.pump settings.ingressClassifier true now = result at passed ⊢
    obtain ⟨v, _ | _ | _ | _⟩ := result
    · exact passed.moves
    · exact passed.moves
    · exact passed.moves.trans (abort_moves passed.opened)
    · exact absurd rfl passed.notGone

end Chains

section Growth

variable {settings : Relay.Settings} {outside : Outside} {t u : Turn}

private theorem grows_endStream (next : UInt32) : Adds (fun _ => True) t (t.endStream next) := by
  unfold endStream sendFin
  split
  · exact .none rfl
  · exact .one rfl trivial

private theorem grows_takeAck (s : Inbound.Segment) (now : Nat) :
    Adds (fun _ => True) t (t.takeAck s now) := by
  have noted : Adds (fun _ => True) t (t.noteAck s now) := .none rfl
  rw [takeAck_eq]
  split
  · exact noted.trans (grows_endStream _)
  · exact noted

private theorem grows_takeEnd (s : Inbound.Segment) (inOrder : Bool) :
    Adds (fun _ => True) t (t.takeEnd s inOrder) := by
  unfold takeEnd
  split
  · split
    · exact .one rfl trivial
    · exact .none rfl
  · split <;> exact .none rfl

private theorem grows_classify (classifier : Classifier) (direction : Direction) (payload : Bytes) :
    Adds (fun _ => True) t (t.classify classifier direction payload) :=
  (t.adds_classify classifier direction payload).imp fun _ _ => trivial

private theorem grows_takePayload (s : Inbound.Segment) (classifier : Classifier) (now : Nat) :
    Adds (fun _ => True) t (t.takePayload s classifier now) := by
  have queued : Adds (fun _ => True) t (t.queue s) := .one rfl trivial
  rw [takePayload_eq]
  exact (queued.trans (grows_classify classifier .egress s.payload)).trans (.one rfl trivial)

private theorem grows_takeDatagram (d : Inbound.Datagram) (opened : Bool)
    (classifier : Classifier) : Adds (fun _ => True) t (t.takeDatagram d opened classifier) := by
  have queued : Adds (fun _ => True) t (t.queueDatagram d opened) := .one rfl trivial
  rw [takeDatagram_eq]
  exact (queued.trans (grows_classify classifier .egress d.payload)).trans (.none rfl)

private theorem grows_deliver (bytes : Bytes) (classifier : Classifier) (now : Nat) :
    Adds (fun _ => True) t (t.deliver bytes classifier true now) := by
  have received : Adds (fun _ => True) t (t.emit (.receive bytes)) := .one rfl trivial
  have heard := received.trans (grows_classify classifier .ingress bytes)
  rw [deliver_eq, if_pos rfl]
  exact heard.trans ((adds_handOn _ bytes).imp fun _ _ => trivial)

private theorem grows_remoteClose : Adds (fun _ => True) t t.remoteClose := by
  rw [remoteClose_eq]
  split
  · exact .none rfl
  · exact grows_endStream _

theorem Move.grows (move : Move settings outside t u) : Adds (fun _ => True) t u := by
  cases move with
  | resendAck =>
    unfold Turn.resendAck
    split
    · exact .none rfl
    · exact .one rfl trivial
  | takePayload s now => exact grows_takePayload s _ now
  | refusePayload => exact .one rfl trivial
  | takeAck s now => exact grows_takeAck s now
  | takePush => unfold Turn.takePush; split <;> exact .none rfl
  | takeEnd s inOrder => exact grows_takeEnd s inOrder
  | takeDatagram d => exact grows_takeDatagram d false _
  | flush => exact t.adds_flush.imp fun _ _ => trivial
  | deliver bytes after now => exact (Adds.none rfl).trans (grows_deliver bytes _ now)
  | remoteClose => exact (Adds.none rfl).trans grows_remoteClose
  | resetPeer =>
    unfold Turn.resetPeer
    split
    · exact .none rfl
    · exact .one rfl trivial
  | leave => exact Adds.trans (.one rfl trivial) (t.report.adds_shut.imp fun _ _ => trivial)
  | cancel | refresh => exact .one rfl trivial
  | remember | touch | abandon | check | connect | readNothing | network => exact .none rfl

theorem Moves.grows (moves : Moves settings outside t u) : Adds (fun _ => True) t u := by
  induction moves with
  | refl => exact .none rfl
  | tail _ move ih => exact ih.trans move.grows

end Growth

end Session.Turn
end PacketRelay
