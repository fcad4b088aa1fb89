import PacketRelay.Proofs.Counting

/-!
Datagrams keep their boundaries both ways.

A datagram is one chunk of the queue, so a socket that takes each chunk whole or not at all sends it
as one: what was sent, followed by what is queued, is what has been accepted (`forwarded`). On the
way back each datagram is answered as it is read, before the next one: `Relays` says so of a
session, and `Traffic` lists what can happen to it in one move.
-/

set_option autoImplicit false

namespace PacketRelay

open Session (Turn Outbound Key Classifier Direction)

namespace Socket

/-- Whether each of some chunks that are sent in turn is taken whole or not at all. The first that
is not taken is the last to be sent. -/
def takesWhole (s : Socket) : List Bytes → Bool
  | [] => true
  | chunk :: rest =>
    match s.send chunk with
    | (.ok n, after) => n == 0 || n == chunk.length && after.takesWhole rest
    | (.error _, _) => true

/-- The datagram that a read finds. -/
def Arrival.datagram? : Arrival → Option Bytes
  | data bytes => some (bytes.take readLimit)
  | failure _ => none

private theorem arrivals_read {s after : Socket} {result : Except Errno Bytes}
    (datagrams : s.stream = false) (read : s.read = (result, after)) :
    ∃ used, s.arrivals = used ++ after.arrivals ∧
      used.filterMap (·.datagram?) = result.toOption.toList := by
  unfold Socket.read at read
  cases arrivals : s.arrivals with
  | nil =>
    simp only [arrivals, Prod.mk.injEq] at read
    obtain ⟨rfl, rfl⟩ := read
    exact ⟨[], arrivals.symm, rfl⟩
  | cons next rest =>
    cases next with
    | failure e =>
      simp only [arrivals, Prod.mk.injEq] at read
      obtain ⟨rfl, rfl⟩ := read
      exact ⟨[.failure e], rfl, rfl⟩
    | data bytes =>
      simp only [arrivals, datagrams, Bool.false_and, Bool.false_eq_true, if_false,
        Prod.mk.injEq] at read
      obtain ⟨rfl, rfl⟩ := read
      exact ⟨[.data bytes], rfl, rfl⟩

end Socket

/-- What has been sent to the socket, one datagram for each send, in order. -/
def dispatches (effects : List Effect) : List Bytes := effects.reverse.filterMap (·.sent?)

/-- What has been read from the socket, one datagram for each read, in order. -/
def deliveries (effects : List Effect) : List Bytes :=
  effects.reverse.filterMap (·.payload? .ingress)

section Effects

variable {new : List Effect}

private theorem dispatches_append (new effects : List Effect) :
    dispatches (new ++ effects) = dispatches effects ++ dispatches new := by
  simp [dispatches]

private theorem deliveries_append (new effects : List Effect) :
    deliveries (new ++ effects) = deliveries effects ++ deliveries new := by
  simp [deliveries]

private theorem dispatches_of_none (unsent : ∀ e ∈ new, e.sent? = none) : dispatches new = [] :=
  List.filterMap_eq_nil_iff.2 fun e member => unsent e (List.mem_reverse.1 member)

theorem deliveries_of_adds {t u : Turn} (unread : Turn.Adds (fun e => e.payload? .ingress = none) t u) :
    deliveries u.effects = deliveries t.effects := by
  obtain ⟨new, added, unread⟩ := unread
  have none_new : deliveries new = [] :=
    List.filterMap_eq_nil_iff.2 fun e member => unread e (List.mem_reverse.1 member)
  rw [added, deliveries_append, none_new, List.append_nil]

private theorem dispatches_sends (socket : Nat) (sent : List Bytes) :
    dispatches (sent.map (.send socket)) = sent.reverse := by
  unfold dispatches
  rw [← List.map_reverse, List.filterMap_map]
  exact List.filterMap_some

end Effects

namespace Session

private theorem Outbound.chunks_push (q : Outbound) (payload : Bytes) :
    (q.push payload).chunks = q.chunks ++ [payload].filter (· ≠ []) := by
  cases payload <;> simp [Outbound.push]

private theorem Outbound.flush_whole {q : Outbound} {socket : Socket}
    (whole : socket.takesWhole q.chunks = true) (sent : List Bytes) :
    (q.flush socket sent).sent.reverse ++ (q.flush socket sent).queue.chunks =
      sent.reverse ++ q.chunks := by
  fun_induction Outbound.flush q socket sent with
  | case1 | case2 | case3 | case4 => rfl
  | case5 q socket sent chunk rest chunks n after taken some_taken ih =>
    -- Something was taken, so all of the chunk was, and none of it stays in the queue.
    simp only [chunks, Socket.takesWhole, taken, Bool.or_eq_true, Bool.and_eq_true, beq_iff_eq] at whole
    obtain ⟨all, later⟩ := whole.resolve_left some_taken
    have left : (q.consume n).chunks = rest := by simp [Outbound.consume, chunks, all]
    have piece : chunk.take n = chunk := by rw [all, List.take_length]
    rw [ih (by rw [left]; exact later), left, chunks, piece, List.reverse_cons, List.append_assoc]
    rfl

namespace Turn

variable {settings : Relay.Settings} {outside : Outside} {t u v : Turn}

section Egress

/-- What has been taken from the peer, datagram by datagram: what the socket was sent, and then what
is queued for it. -/
def forwarded (t : Turn) : List Bytes := dispatches t.effects ++ t.state.outbound.chunks

private theorem Leaves.forwarded (leaves : t.Leaves u) : u.forwarded = t.forwarded := by
  obtain ⟨new, added, unsent⟩ := leaves.unsent
  unfold Turn.forwarded
  rw [added, dispatches_append, dispatches_of_none unsent, List.append_nil, leaves.outbound]

private theorem forwarded_flush (whole : ∀ socket, t.session.socket = some socket →
    socket.takesWhole t.state.outbound.chunks = true) : t.flush.1.forwarded = t.forwarded := by
  cases opened : t.session.socket with
  | none => rw [flush_none t opened]
  | some socket =>
    rw [flush_some t opened rfl]
    unfold Turn.forwarded
    rw [dispatches_append, dispatches_sends, List.append_assoc]
    exact congrArg (dispatches t.effects ++ ·) (Outbound.flush_whole (whole socket opened) [])

private theorem forwarded_serve (connected : t.state.connected = true)
    (whole : ∀ socket, t.session.socket = some socket →
      socket.takesWhole t.state.outbound.chunks = true) (classifier : Classifier) (now : Nat) :
    (t.serve classifier now).forwarded = t.forwarded := by
  obtain ⟨v, w, before, flushed, leaves⟩ := t.serve_flushes classifier now
  obtain rfl : v = t := before.resolve_right fun ⟨pending, _⟩ => by
    rw [connected] at pending
    cases pending
  rw [leaves.forwarded]
  rcases flushed with rfl | rfl
  · rfl
  · exact forwarded_flush whole

private theorem forwarded_takeDatagram (d : Inbound.Datagram) (opened : Bool)
    (classifier : Classifier) :
    (t.takeDatagram d opened classifier).forwarded = t.forwarded ++ [d.payload].filter (· ≠ []) := by
  have classified : (t.queueDatagram d opened).Leaves
      ((t.queueDatagram d opened).classify classifier .egress d.payload) :=
    (bides_classify classifier .egress d.payload).toKeeps.leaves
  have chunks : (t.queueDatagram d opened).state.outbound = t.state.outbound.push d.payload := by
    cases opened <;> rfl
  have sent : dispatches (t.queueDatagram d opened).effects = dispatches t.effects :=
    (dispatches_append [_] t.effects).trans (List.append_nil _)
  have queued : (t.queueDatagram d opened).forwarded =
      t.forwarded ++ [d.payload].filter (· ≠ []) := by
    unfold Turn.forwarded
    rw [chunks, sent, Outbound.chunks_push, List.append_assoc]
  rw [takeDatagram_eq, ← queued]
  exact classified.forwarded

private theorem forwarded_handle (d : Inbound.Datagram) (classifier : Classifier) (now : Nat) :
    (t.handle classifier now (.datagram d)).forwarded =
      t.forwarded ++ [d.payload].filter (· ≠ []) := by
  have told : (t.takeDatagram d false classifier).Leaves (t.handle classifier now (.datagram d)) :=
    ⟨.one (e := .refresh d.key) rfl rfl, .one (e := .refresh d.key) rfl rfl, rfl, id, id⟩
  rw [told.forwarded, forwarded_takeDatagram]

private theorem forwarded_started (settings : Relay.Settings) (d : Inbound.Datagram)
    (prospect : Socket.Prospect) (number now : Nat) :
    (started settings d prospect number now).forwarded = [d.payload].filter (· ≠ []) := by
  have registered : ∀ t : Turn, t.Leaves ((t.emit (.register d.key)).emit (.refresh d.key)) :=
    fun t => ⟨.trans (.one rfl rfl) (.one rfl rfl), .trans (.one rfl rfl) (.one rfl rfl), rfl, id, id⟩
  exact (registered _).forwarded.trans (forwarded_takeDatagram d true _)

end Egress

section Ingress

/-- What the socket has still to deliver, and whether it is one of a stream. -/
def supply (t : Turn) : Option (List Socket.Arrival × Bool) :=
  t.session.socket.map fun s => (s.arrivals, s.stream)

/-- The session of a flow of datagrams is connected, and each datagram that it has read is answered
by a packet that carries it. -/
structure Relays (t : Turn) : Prop where
  connected : t.state.connected = true
  plugged : ∀ supply, t.supply = some supply → supply.2 = false
  answered : (drafts t.effects).reverse.map (·.data?) = (deliveries t.effects).map some

/-- Nothing is read from the socket, and nothing goes to the peer. -/
structure Dwells (t u : Turn) : Prop where
  unread : Adds (fun e => e.payload? .ingress = none) t u
  unwritten : Adds (fun e => e.draft? = none) t u
  connected : t.state.connected = true → u.state.connected = true
  supply : ∀ supply, u.supply = some supply → t.supply = some supply

private theorem Dwells.refl (t : Turn) : t.Dwells t := ⟨.none rfl, .none rfl, id, fun _ => id⟩

private theorem Dwells.trans (first : t.Dwells u) (second : u.Dwells v) : t.Dwells v where
  unread := first.unread.trans second.unread
  unwritten := first.unwritten.trans second.unwritten
  connected := second.connected ∘ first.connected
  supply supply same := first.supply supply (second.supply supply same)

private theorem dwells_emit {e : Effect} (unread : e.payload? .ingress = none)
    (unwritten : e.draft? = none) : t.Dwells (t.emit e) :=
  ⟨.one rfl unread, .one rfl unwritten, id, fun _ => id⟩

theorem dwells_classify (classifier : Classifier) (direction : Direction) (payload : Bytes) :
    t.Dwells (t.classify classifier direction payload) := by
  have told := t.adds_classify classifier direction payload
  obtain ⟨_, _, _, frame⟩ := t.classify_frame classifier direction payload
  refine ⟨told.imp fun _ ⟨_, same⟩ => same ▸ rfl, told.imp fun _ ⟨_, same⟩ => same ▸ rfl, ?_, ?_⟩
  · unfold state
    rw [frame]
    exact id
  · unfold Turn.supply
    rw [frame]
    exact fun _ => id

theorem dwells_takeDatagram (d : Inbound.Datagram) (opened : Bool) (classifier : Classifier) :
    t.Dwells (t.takeDatagram d opened classifier) := by
  have queued : t.Dwells (t.queueDatagram d opened) := by
    cases opened <;> exact ⟨.one rfl rfl, .one rfl rfl, id, fun _ => id⟩
  rw [takeDatagram_eq]
  exact (queued.trans (dwells_classify classifier .egress d.payload)).trans
    ⟨.none rfl, .none rfl, id, fun _ => id⟩

theorem dwells_flush : t.Dwells t.flush.1 := by
  have unread := t.adds_flush.imp (q := fun e => e.payload? .ingress = none)
    fun _ ⟨_, _, same⟩ => same ▸ rfl
  have unwritten := t.adds_flush.imp (q := fun e => e.draft? = none)
    fun _ ⟨_, _, same⟩ => same ▸ rfl
  cases opened : t.session.socket with
  | none =>
    rw [flush_none t opened]
    exact .refl t
  | some socket =>
    obtain ⟨room, frame⟩ := Socket.flush_frame t.state.outbound socket []
    rw [flush_some t opened rfl, frame] at unread unwritten ⊢
    refine ⟨unread, unwritten, id, fun supply same => ?_⟩
    unfold Turn.supply
    rw [opened]
    exact same

theorem dwells_leave : t.Dwells t.report.shut := by
  have reported : t.Dwells t.report := dwells_emit rfl rfl
  have shut := t.report.adds_shut
  refine reported.trans ⟨shut.imp fun _ ⟨_, same⟩ => same ▸ rfl,
    shut.imp fun _ ⟨_, same⟩ => same ▸ rfl, ?_, ?_⟩
  · unfold Turn.shut
    split <;> exact id
  · unfold Turn.supply
    rw [socket_shut]
    exact fun _ none => by cases none

/-- How a flow of datagrams goes on in one move. -/
inductive Traffic (settings : Relay.Settings) (outside : Outside) (t : Turn) : Turn → Prop
  | dwells (u : Turn) (dwells : t.Dwells u) : Traffic settings outside t u
  | readNothing (e : Errno) (after : Socket) (reads : t.Reads (.error e) after) :
      Traffic settings outside t (t.withSocket after)
  | deliver (bytes : Bytes) (after : Socket) (now : Nat) (reads : t.Reads (.ok bytes) after) :
      Traffic settings outside t
        ((t.withSocket after).deliver bytes settings.ingressClassifier true now)
  | network (outlook : Socket) (allowed : outside.changes) : Traffic settings outside t (t.meet outlook)

private theorem Move.traffic (datagrams : t.session.key.protocol = .udp)
    (move : Move settings outside t u) : Traffic settings outside t u := by
  have notStream : t.session.key.protocol ≠ .tcp := by
    rw [datagrams]
    exact fun none => by cases none
  have deaf : ∀ s, ¬ t.Hears outside s := fun s hears => notStream (by rw [← hears.own]; rfl)
  cases move with
  | resendAck stream | abandon stream | resetPeer stream => exact absurd stream notStream
  | remoteClose _ _ stream => exact absurd stream notStream
  | remember s hears => exact absurd hears (deaf s)
  | takePayload s _ answers | refusePayload s answers | takeAck s _ answers | takePush s _ answers
  | takeEnd s _ answers => exact absurd answers.toHears (deaf s)
  | cancel | refresh => exact .dwells _ (dwells_emit rfl rfl)
  | touch => exact .dwells _ ⟨.none rfl, .none rfl, id, fun _ => id⟩
  | takeDatagram d => exact .dwells _ (dwells_takeDatagram d false _)
  | check result after checks =>
    obtain ⟨socket, opened, checked⟩ := checks.check
    obtain ⟨_, rfl⟩ := Socket.checkConnected_frame checked
    refine .dwells _ ⟨.none rfl, .none rfl, id, fun supply same => ?_⟩
    unfold Turn.supply
    rw [opened]
    exact same
  | connect after checks =>
    obtain ⟨socket, opened, checked⟩ := checks.check
    obtain ⟨_, rfl⟩ := Socket.checkConnected_frame checked
    refine .dwells _ ⟨.none rfl, .none rfl, fun _ => rfl, fun supply same => ?_⟩
    unfold Turn.supply
    rw [opened]
    exact same
  | flush => exact .dwells _ dwells_flush
  | readNothing e after reads => exact .readNothing e after reads
  | deliver bytes after now reads => exact .deliver bytes after now reads
  | leave => exact .dwells _ dwells_leave
  | network outlook allowed => exact .network outlook allowed

private theorem Relays.dwells (h : t.Relays) (dwells : t.Dwells u) : u.Relays where
  connected := dwells.connected h.connected
  plugged supply same := h.plugged supply (dwells.supply supply same)
  answered := by rw [drafts_of_adds dwells.unwritten, deliveries_of_adds dwells.unread, h.answered]

private theorem Relays.reads (h : t.Relays) {result : Except Errno Bytes} {after : Socket}
    (reads : t.Reads result after) : (t.withSocket after).Relays ∧
      ∃ used, t.supply = some (used ++ after.arrivals, false) ∧
        used.filterMap (·.datagram?) = result.toOption.toList := by
  obtain ⟨socket, opened, read⟩ := reads.read
  have supply : t.supply = some (socket.arrivals, socket.stream) := by
    unfold Turn.supply
    rw [opened]
    rfl
  have datagrams : socket.stream = false := h.plugged _ supply
  obtain ⟨used, arrivals, found⟩ := Socket.arrivals_read datagrams read
  obtain ⟨_, rfl⟩ := Socket.read_frame read
  refine ⟨⟨h.connected, fun supply same => ?_, h.answered⟩, used, ?_, found⟩
  · obtain rfl := Option.some.inj same
    exact datagrams
  · rw [supply, arrivals, datagrams]

theorem deliveries_deliver (bytes : Bytes) (classifier : Classifier) (now : Nat) :
    deliveries (t.deliver bytes classifier true now).effects = deliveries t.effects ++ [bytes] := by
  let received := t.emit (.receive bytes)
  have classified : Adds (fun e => e.payload? .ingress = none) received
      (received.classify classifier .ingress bytes) := (dwells_classify ..).unread
  have handed : Adds (fun e => e.payload? .ingress = none) _
      ((received.classify classifier .ingress bytes).handOn bytes) :=
    (adds_handOn _ bytes).imp fun _ ⟨_, _, same⟩ => same ▸ rfl
  rw [deliver_eq, if_pos rfl]
  show deliveries (Turn.handOn _ bytes).effects = _
  rw [deliveries_of_adds (classified.trans handed)]
  exact deliveries_append [_] t.effects

private theorem Relays.deliver (h : t.Relays) (datagrams : t.session.key.protocol = .udp)
    (heard : t.state.lastKey? t.session.key.protocol = some t.session.key) (bytes : Bytes)
    (classifier : Classifier) (now : Nat) : (t.deliver bytes classifier true now).Relays := by
  have classified : (t.emit (.receive bytes)).Dwells
      ((t.emit (.receive bytes)).classify classifier .ingress bytes) := dwells_classify _ _ _
  obtain ⟨key, last⟩ :=
    lastKey?_of_heads (heads_classify (t := t.emit (.receive bytes)) classifier .ingress bytes)
  have protocol := (congrArg (·.protocol) key).trans datagrams
  obtain ⟨⟨ip, udp⟩, last, -⟩ := Option.map_eq_some_iff.1
    (show (_ : Option _) = some t.session.key from protocol ▸ last.trans heard)
  -- The headers of the peer's last datagram are there, so the response is written and not dropped.
  have written : drafts (t.deliver bytes classifier true now).effects =
      .response ip udp bytes :: drafts t.effects := by
    rw [deliver_eq, if_pos rfl]
    show drafts (Turn.handOn _ bytes).effects = _
    unfold handOn
    rw [protocol, last]
    have told : drafts (t.emit (.receive bytes)).effects = drafts t.effects := drafts_append [_] _
    exact congrArg (_ :: ·) ((drafts_of_adds classified.unwritten).trans told)
  obtain ⟨_, _, _, _, _, frame⟩ := t.deliver_frame now bytes classifier true
  refine ⟨?_, fun supply same => h.plugged supply ?_, ?_⟩
  · unfold state
    rw [frame]
    exact h.connected
  · rw [← same]
    unfold Turn.supply
    rw [frame]
    rfl
  · rw [written, deliveries_deliver, List.reverse_cons, List.map_append, List.map_append, h.answered]
    rfl

/-- Every flow of datagrams relays what it reads. -/
private theorem Lives.relays (lives : Lives settings t)
    (datagrams : t.session.key.protocol = .udp) : t.Relays := by
  refine lives.induction (P := fun t => t.session.key.protocol = .udp → t.Relays)
    (fun t opened datagrams => ?opened) (fun t u lives before move datagrams => ?move) datagrams
  case opened =>
    cases opened with
    | stream => cases datagrams
    | datagram d read prospect number now session fresh =>
      have begun : (Turn.mk session [.flowCreated session.state.flow]).Relays := by
        subst fresh
        refine ⟨rfl, fun supply same => ?_, rfl⟩
        obtain rfl := Option.some.inj same
        rfl
      exact ((begun.dwells (dwells_takeDatagram d true _)).dwells (dwells_emit rfl rfl)).dwells
        ((dwells_emit rfl rfl).trans ⟨.none rfl, .none rfl, id, fun _ => id⟩)
  case move =>
    have own : t.session.key.protocol = .udp := by rw [← move.key, datagrams]
    have relays := before own
    cases move.traffic own with
    | dwells _ dwells => exact relays.dwells dwells
    | readNothing e after reads => exact (relays.reads reads).1
    | deliver bytes after now reads =>
      exact (relays.reads reads).1.deliver own lives.lastKey? bytes _ now
    | network outlook =>
      refine ⟨relays.connected, fun supply same => ?_, relays.answered⟩
      obtain ⟨after, met, rfl⟩ := Option.map_eq_some_iff.1 same
      obtain ⟨socket, opened, rfl⟩ := Option.map_eq_some_iff.1 met
      refine relays.plugged (socket.arrivals, socket.stream) ?_
      unfold Turn.supply
      rw [opened]
      rfl

/-- While nothing changes what a socket meets, its arrivals are used up in their order: some are
read, and the others are left to it as long as it is open. -/
structure Fetches (used left : List Socket.Arrival) (t u : Turn) : Prop where
  deliveries : deliveries u.effects = deliveries t.effects ++ used.filterMap (·.datagram?)
  whole : ((t.supply.map (·.1)).getD []) = used ++ left
  rest : ∀ supply, u.supply = some supply → t.supply.isSome = true ∧ supply.1 = left

private theorem Lives.fetches (lives : Lives settings t) (datagrams : t.session.key.protocol = .udp)
    (undisturbed : ¬ outside.changes) (moves : Moves settings outside t u) :
    ∃ used left, Fetches used left t u := by
  -- Along the moves the arrivals pass from those that are left to those that are used up.
  induction moves with
  | refl =>
    refine ⟨[], (t.supply.map (·.1)).getD [], (List.append_nil _).symm, rfl, fun supply same => ?_⟩
    rw [same]
    exact ⟨rfl, rfl⟩
  | @tail v u before move ih =>
    obtain ⟨used, left, fetches⟩ := ih
    have datagrams : v.session.key.protocol = .udp := by rw [Moves.key before, datagrams]
    have relays := (lives.moves before).relays datagrams
    cases move.traffic datagrams with
    | dwells _ dwells =>
      exact ⟨used, left, (deliveries_of_adds dwells.unread).trans fetches.deliveries, fetches.whole,
        fun supply same => fetches.rest supply (dwells.supply supply same)⟩
    | readNothing e after reads =>
      obtain ⟨-, more, supply, found⟩ := relays.reads reads
      obtain ⟨opened, rest⟩ := fetches.rest _ supply
      refine ⟨used ++ more, after.arrivals, ?_, ?_, fun supply same => ⟨opened, ?_⟩⟩
      · rw [List.filterMap_append, found]
        exact fetches.deliveries.trans
          (congrArg (PacketRelay.deliveries t.effects ++ ·) (List.append_nil _).symm)
      · rw [fetches.whole, ← rest, List.append_assoc]
      · obtain rfl := Option.some.inj same
        rfl
    | deliver bytes after now reads =>
      obtain ⟨-, more, supply, found⟩ := relays.reads reads
      obtain ⟨opened, rest⟩ := fetches.rest _ supply
      refine ⟨used ++ more, after.arrivals, ?_, ?_, fun supply same => ⟨opened, ?_⟩⟩
      · rw [deliveries_deliver, List.filterMap_append, found, ← List.append_assoc]
        exact congrArg (· ++ [bytes]) fetches.deliveries
      · rw [fetches.whole, ← rest, List.append_assoc]
      · unfold Turn.supply at same
        rw [socket_deliver] at same
        obtain rfl := Option.some.inj same
        rfl
    | network outlook allowed => exact absurd allowed undisturbed

end Ingress

end Turn

/-- What the socket of a session has still to deliver. -/
def arriving (s : Session) : List Socket.Arrival := (s.socket.map (·.arrivals)).getD []

end Session

namespace Relay

variable {r : Relay} {id : SessionId} {t u : Turn} {e : Event}

/-- A pass comes to a socket that takes each datagram that is queued for it whole or not at all. -/
def TakesWhole (id : SessionId) (r : Relay) (e : Event) : Prop :=
  e.isPass = true → ∀ session ∈ r.sessions[id]?, ∀ socket ∈ session.socket,
    socket.takesWhole session.state.outbound.chunks = true

instance (id : SessionId) (r : Relay) (e : Event) : Decidable (TakesWhole id r e) :=
  inferInstanceAs (Decidable (_ → _))

private theorem run_forwarded (settings : Settings) (now coreWorkers maxWorkers : Nat)
    (events : List Event)
    (always : Throughout (TakesWhole id) (start settings now coreWorkers maxWorkers) events)
    (known : ((start settings now coreWorkers maxWorkers).run events).history id = some u)
    (datagrams : u.session.key.protocol = .udp) :
    u.forwarded = ((acceptances u.effects).map (·.1)).filter (· ≠ []) := by
  refine run_kept settings now coreWorkers maxWorkers
    (P := fun u => u.forwarded = ((acceptances u.effects).map (·.1)).filter (· ≠ []))
    ?opens ?befalls events always known datagrams
  case opens =>
    intro r e u _ _ _ datagrams opens
    obtain ⟨d, prospect, -, -, -, rfl⟩ := opens.datagram datagrams
    rw [Turn.acceptances_started, Session.Turn.forwarded_started]
    rfl
  case befalls =>
    intro r e t u h traced whole known later datagrams befalls before
    -- Only a flush moves anything to the socket, and only a pass flushes.
    have connected := ((traced.lives id t known).relays datagrams).connected
    have served : e.isPass = true →
        (t.serve r.settings.ingressClassifier r.now).forwarded = t.forwarded := fun isPass =>
      Session.Turn.forwarded_serve connected (fun socket opened =>
        whole isPass t.session (history_eq_some.1 known).1 socket opened) _ _
    cases befalls with
    | @handled _ packet brings read own opened =>
      obtain ⟨d, rfl, -⟩ := Inbound.exists_datagram own datagrams
      rw [Turn.acceptances_handle_datagram, List.map_append, List.filter_append, ← before]
      exact Session.Turn.forwarded_handle d _ _
    | served =>
      rw [Turn.acceptances_of_silent (Turn.serve_silent _ _ t), ← before, served rfl]
    | evicted =>
      have leaves := (Turn.bides_leave (t := t.serve r.settings.ingressClassifier r.now)).toKeeps.leaves
      rw [Turn.acceptances_of_silent leaves.silent,
        Turn.acceptances_of_silent (Turn.serve_silent _ _ t), ← before, leaves.forwarded, served rfl]
    | met => exact before
    | nothing => exact before

/-- Datagrams keep their boundaries both ways. What has been sent to a socket that takes each
datagram whole or not at all, followed by what is queued for it, are the datagrams of the flow that
are not empty, in order. Each datagram that has been read from the socket, the empty ones included,
has been answered by one packet that carries it back to where the flow comes from, in order. And as
long as nothing changes what the socket meets, the datagrams that it delivers are read in order, and
none is lost. -/
theorem run_datagrams (settings : Settings) (now coreWorkers maxWorkers : Nat) (events : List Event)
    {id : SessionId} {session : Session}
    (at_id : ((start settings now coreWorkers maxWorkers).run events).sessions[id]? = some session)
    (datagrams : session.key.protocol = .udp) :
    let start := start settings now coreWorkers maxWorkers
    let r := start.run events
    let handled := (collect (handledDatagram id) start events).map (·.payload)
    let delivered := deliveries (r.effectsOf (some id))
    (Throughout (TakesWhole id) start events →
      dispatches (r.effectsOf (some id)) ++ session.state.outbound.chunks =
        handled.filter (· ≠ [])) ∧
    (r.writtenBy id).map (fun packet => (Key.ofPacket? packet, Packet.data? packet)) =
      delivered.map (fun payload => (some session.key.back, some payload)) ∧
    ∀ later : List Event, (∀ e ∈ later, ¬ e.disturbs id) →
      ∃ after used left, (r.run later).sessions[id]? = some after ∧
        deliveries ((r.run later).effectsOf (some id)) =
          delivered ++ used.filterMap (·.datagram?) ∧
        session.arriving = used ++ left ∧
        ∀ socket, after.socket = some socket → session.socket.isSome ∧ socket.arrivals = left := by
  intro start r handled delivered
  have traced : Traced r := traced_run settings now coreWorkers maxWorkers events
  have known : r.history id = some ⟨session, r.effectsOf (some id)⟩ := history_of_session at_id
  have lives := traced.lives id _ known
  refine ⟨fun always => ?sent, ?answered, fun later undisturbed => ?read⟩
  case sent =>
    have forwarded := run_forwarded settings now coreWorkers maxWorkers events always known datagrams
    have taken := run_handledDatagrams settings now coreWorkers maxWorkers events known datagrams
    rw [taken, List.map_map] at forwarded
    exact forwarded
  case answered =>
    have read : (r.writtenBy id).map (fun packet => (Key.ofPacket? packet, Packet.data? packet)) =
        (drafts (r.effectsOf (some id))).reverse.map fun d => (d.key?, d.data?) := by
      simp only [← List.filterMap_eq_map']
      refine filterMap_writtenBy fun d member identification => ?_
      obtain ⟨legible, -⟩ := traced.legible known d member
      rw [legible.ofPacket?, legible.data?_toBytes]
    have addressed : (drafts (r.effectsOf (some id))).reverse.map (fun d => (d.key?, d.data?)) =
        ((drafts (r.effectsOf (some id))).reverse.map (·.data?)).map fun data =>
          (some session.key.back, data) := by
      rw [List.map_map]
      refine List.map_congr_left fun d member => ?_
      obtain ⟨-, key⟩ := traced.legible known d (List.mem_reverse.1 member)
      exact congrArg (·, d.data?) key
    rw [read, addressed, (lives.relays datagrams).answered, List.map_map]
    rfl
  case read =>
    have changes := (consistent_run settings now coreWorkers maxWorkers events).run later
    obtain ⟨u, after, moves⟩ := Changes.history changes known
    have still : ¬ ∃ e ∈ later, e.disturbs id := fun ⟨e, member, disturbs⟩ =>
      undisturbed e member disturbs
    obtain ⟨used, left, fetches⟩ := lives.fetches datagrams still moves
    obtain ⟨at_id, effects⟩ := history_eq_some.1 after
    refine ⟨u.session, used, left, at_id, ?_, ?_, fun socket opened => ?_⟩
    · rw [effects]
      exact fetches.deliveries
    · have whole := fetches.whole
      unfold Turn.supply at whole
      rw [Option.map_map] at whole
      exact whole
    · obtain ⟨opened, rest⟩ := fetches.rest (socket.arrivals, socket.stream) (by
        unfold Turn.supply
        rw [opened]
        rfl)
      unfold Turn.supply at opened
      rw [Option.isSome_map] at opened
      exact ⟨opened, rest⟩

/-- The socket takes the first datagram and has no room for the next, which waits with the last one;
the empty one is not sent. Of the two that it delivers the empty one is answered as well, and the
third is left to it until the next pass. -/
theorem run_datagrams_blocked :
    let datagram (payload : Bytes) : Event := .packet (sampleDatagram payload) 0
      (.smooth [])
    let pass : Event := .pass (fun _ => 0) (fun _ => 0)
    let outlook : Socket := ⟨0, false, true, none, none, none,
      [.data [], .failure .interrupted, .data [7], .failure .wouldBlock, .data [8, 9]],
      [.upTo 9, .failure .wouldBlock]⟩
    let events := [datagram [1], datagram [], datagram [2, 3], .network 0 outlook, pass, datagram [4]]
    let start := start .plain 0 1 1
    let r := start.run events
    let key : Key := ⟨.udp, .v4 #v[8, 8, 8, 8], 53, .v4 #v[10, 0, 0, 1], 5000⟩
    Throughout (TakesWhole 0) start events ∧ ∃ session, r.sessions[0]? = some session ∧
      session.key = key ∧ session.state.outbound.chunks = [[2, 3], [4]] ∧
      dispatches (r.effectsOf (some 0)) ++ session.state.outbound.chunks = [[1], [2, 3], [4]] ∧
      (r.writtenBy 0).map (fun packet => (Key.ofPacket? packet, Packet.data? packet)) =
        [(some key.back, some []), (some key.back, some [7])] ∧
      ∃ after, ∃ used left : List Socket.Arrival, (r.run [pass]).sessions[0]? = some after ∧
        deliveries ((r.run [pass]).effectsOf (some 0)) = [[], [7]] ++ used.filterMap (·.datagram?) ∧
        [.data [8, 9]] = used ++ left := by
  intro datagram pass outlook events start r key
  have always : Throughout (TakesWhole 0) start events := by decide +kernel
  have handled : ((collect (handledDatagram 0) start events).map (·.payload)).filter (· ≠ []) =
      [[1], [2, 3], [4]] := by decide +kernel
  have delivered : deliveries (r.effectsOf (some 0)) = [[], [7]] := by decide +kernel
  have opened : r.sessions[0]?.map (fun session =>
      (session.key, session.state.outbound.chunks, session.arriving)) =
      some (key, [[2, 3], [4]], [.data [8, 9]]) := by decide +kernel
  obtain ⟨session, at_id, same⟩ := Option.map_eq_some_iff.1 opened
  simp only [Prod.mk.injEq] at same
  obtain ⟨own, queued, arriving⟩ := same
  obtain ⟨sent, answered, later⟩ :=
    run_datagrams .plain 0 1 1 events at_id (by rw [own])
  rw [delivered, own] at answered
  have undisturbed : ∀ e ∈ [pass], ¬ e.disturbs 0 := List.forall_mem_singleton.2 id
  obtain ⟨after, used, left, at_id_after, read, whole, -⟩ := later [pass] undisturbed
  rw [delivered] at read
  rw [arriving] at whole
  exact ⟨always, session, at_id, own, queued, (sent always).trans handled, answered, after, used, left,
    at_id_after, read, whole⟩

end Relay
end PacketRelay
