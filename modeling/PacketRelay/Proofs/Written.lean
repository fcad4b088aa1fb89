import PacketRelay.Proofs.Answer
import PacketRelay.Proofs.Ledger

/-!
Everything that is written is a well-formed packet.

A session answers from the headers of packets of its own flow that were read, and its segment size
is within bounds: it is `Headed`. So every draft that a move writes replies to its flow, and is
sound, save datagrams that are longer than a socket of their family delivers.
-/

set_option autoImplicit false

namespace PacketRelay

open Session (Turn State Key Classifier Direction)

/-- The packets that the relay has put into the tunnel, latest first. -/
def Relay.written (r : Relay) : List Bytes := r.journal.filterMap (·.packet?)

theorem Entry.draft_of_packet {entry : Entry} {buffer : Bytes}
    (packet : entry.packet? = some buffer) : ∃ purpose d, entry.effect = .write purpose d ∧
      d.toBytes entry.identification = buffer := by
  unfold Entry.packet? at packet
  cases effect : entry.effect with
  | write purpose d =>
    rw [effect] at packet
    exact ⟨purpose, d, rfl, Option.some.inj packet⟩
  | _ => rw [effect] at packet; cases packet

theorem Relay.effect_mem {r : Relay} {entry : Entry} (member : entry ∈ r.journal) :
    entry.effect ∈ r.effectsOf entry.session :=
  List.mem_map.2 ⟨entry, List.mem_filter.2 ⟨member, by simp⟩, rfl⟩

def Effect.Sound (e : Effect) : Prop := ∀ purpose draft, e = .write purpose draft → draft.Sound

/-- If the effect writes something, that replies to a flow. -/
def Effect.Replies (key : Key) (delivered : Bytes → Prop) (e : Effect) : Prop :=
  ∀ purpose draft, e = .write purpose draft → draft.Replies key delivered

theorem Effect.replies_write {key : Key} {delivered : Bytes → Prop} {purpose : Purpose}
    {draft : Draft} (replies : draft.Replies key delivered) :
    Effect.Replies key delivered (.write purpose draft) := by
  intro _ _ same
  cases same
  exact replies

namespace Session.Turn

/-- The socket of a datagram session has delivered nothing longer than a datagram can be. -/
def DatagramsFit (t : Turn) : Prop := t.session.key.protocol = .udp →
  ∀ bytes, .receive bytes ∈ t.effects → bytes.length ≤ t.session.key.datagramLimit

/-- The headers that a session answers from are those of a packet of its own flow, and its segment
size is within bounds. -/
structure Headed (t : Turn) : Prop where
  stream : t.session.key.protocol = .tcp → ∀ ip tcp, t.state.lastSegment? = some (ip, tcp) →
    ∃ s : Inbound.Segment, s.Read ∧ s.ip = ip ∧ s.tcp = tcp ∧ s.key = t.session.key
  datagram : t.session.key.protocol = .udp → ∀ ip udp, t.state.lastDatagram? = some (ip, udp) →
    ∃ d : Inbound.Datagram, d.Read ∧ d.ip = ip ∧ d.udp = udp ∧ d.key = t.session.key
  some_size : 1 ≤ t.state.maxSegmentSize.toNat
  short : t.state.maxSegmentSize ≤ Tcp.maxMss

/-- What the headers of answers depend on. -/
def heads (t : Turn) : Key × Option Ip.Header × Option Tcp.Header × Option Udp.Header × UInt16 :=
  (t.session.key, t.state.lastIp, t.state.lastTcp, t.state.lastUdp, t.state.maxSegmentSize)

variable {settings : Relay.Settings} {outside : Outside} {t u : Turn}

theorem Headed.of_heads (h : Headed t) (same : u.heads = t.heads) : Headed u := by
  simp only [heads, Prod.mk.injEq] at same
  obtain ⟨key, lastIp, lastTcp, lastUdp, size⟩ := same
  have segment : u.state.lastSegment? = t.state.lastSegment? := by
    unfold State.lastSegment?
    rw [lastIp, lastTcp]
  have datagram : u.state.lastDatagram? = t.state.lastDatagram? := by
    unfold State.lastDatagram?
    rw [lastIp, lastUdp]
  constructor
  · rw [key, segment]
    exact h.stream
  · rw [key, datagram]
    exact h.datagram
  · rw [size]
    exact h.some_size
  · rw [size]
    exact h.short

theorem heads_classify (classifier : Classifier) (direction : Direction) (payload : Bytes) :
    (t.classify classifier direction payload).heads = t.heads := by
  obtain ⟨_, _, _, frame⟩ := t.classify_frame classifier direction payload
  unfold heads state
  rw [frame]
  rfl

private theorem heads_endStream (next : UInt32) : (t.endStream next).heads = t.heads := by
  unfold endStream sendFin
  split <;> rfl

private theorem heads_takePayload (s : Inbound.Segment) (classifier : Classifier) (now : Nat) :
    (t.takePayload s classifier now).heads = t.heads :=
  heads_classify classifier .egress s.payload

theorem heads_noteAck (s : Inbound.Segment) (now : Nat) : (t.noteAck s now).heads = t.heads := by
  obtain ⟨_, _, _, _, _, frame⟩ := t.noteAck_frame now s
  unfold heads state
  rw [frame]
  rfl

private theorem heads_takeAck (s : Inbound.Segment) (now : Nat) :
    (t.takeAck s now).heads = t.heads := by
  rw [takeAck_eq]
  split
  · exact (heads_endStream _).trans (heads_noteAck s now)
  · exact heads_noteAck s now

private theorem heads_takePush (s : Inbound.Segment) (now : Nat) :
    (t.takePush s now).heads = t.heads := by
  rw [takePush_eq]
  split <;> rfl

private theorem heads_takeEnd (s : Inbound.Segment) (inOrder : Bool) :
    (t.takeEnd s inOrder).heads = t.heads := by
  unfold takeEnd
  split
  · split <;> rfl
  · split <;> rfl

private theorem heads_flush : t.flush.1.heads = t.heads := by
  cases h : t.session.socket with
  | none => rw [flush_none t h]
  | some socket => rw [flush_some t h rfl]; rfl

private theorem heads_deliver (bytes : Bytes) (classifier : Classifier) (current : Bool)
    (now : Nat) : (t.deliver bytes classifier current now).heads = t.heads := by
  obtain ⟨_, _, _, _, _, frame⟩ := t.deliver_frame now bytes classifier current
  unfold heads state
  rw [frame]
  rfl

private theorem heads_remoteClose : t.remoteClose.heads = t.heads := by
  rw [remoteClose_eq]
  split
  · rfl
  · exact heads_endStream _

private theorem heads_shut : t.shut.heads = t.heads := by
  unfold shut
  split <;> rfl

private theorem Headed.takeDatagram (h : Headed t) {d : Inbound.Datagram} (read : d.Read)
    (own : d.key = t.session.key) (opened : Bool) (classifier : Classifier) :
    Headed (t.takeDatagram d opened classifier) := by
  have queued : Headed (t.queueDatagram d opened) := by
    refine ⟨fun stream => ?_, fun _ ip udp last => ?_, ?_, ?_⟩
    · have stream : t.session.key.protocol = .tcp := stream
      rw [← own] at stream
      cases stream
    · have : some (d.ip, d.udp) = some (ip, udp) := by
        rw [← last]
        cases opened <;> rfl
      cases this
      exact ⟨d, read, rfl, rfl, own⟩
    · cases opened <;> exact h.some_size
    · cases opened <;> exact h.short
  exact queued.of_heads (heads_classify classifier .egress d.payload)

theorem Move.heads (move : Move settings outside t u) :
    u.heads = t.heads ∨
    (∃ s, t.Hears outside s ∧ u = t.update fun st => st.rememberTcp s.ip s.tcp) ∨
    ∃ d : Inbound.Datagram, d.Read ∧ d.key = t.session.key ∧
      u = t.takeDatagram d false settings.egressClassifier := by
  cases move with
  | remember s hears => exact .inr (.inl ⟨s, hears, rfl⟩)
  | takeDatagram d read own => exact .inr (.inr ⟨d, read, own, rfl⟩)
  | resendAck => exact .inl (by unfold Turn.resendAck; split <;> rfl)
  | takePayload s now => exact .inl (heads_takePayload s _ now)
  | takeAck s now => exact .inl (heads_takeAck s now)
  | takePush s now => exact .inl (heads_takePush s now)
  | takeEnd s inOrder => exact .inl (heads_takeEnd s inOrder)
  | flush => exact .inl heads_flush
  | deliver bytes after now => exact .inl (heads_deliver bytes _ true now)
  | remoteClose after => exact .inl heads_remoteClose
  | resetPeer => exact .inl (by unfold Turn.resetPeer; split <;> rfl)
  | leave => exact .inl heads_shut
  | refusePayload | cancel | refresh | touch | abandon | check | connect | readNothing | network =>
    exact .inl rfl

private theorem Headed.move (h : Headed t) (move : Move settings outside t u) : Headed u := by
  obtain same | ⟨s, hears, rfl⟩ | ⟨d, read, own, rfl⟩ := move.heads
  · exact h.of_heads same
  · refine ⟨fun _ ip tcp last => ?_, fun datagram => ?_, h.some_size, h.short⟩
    · have : some (s.ip, s.tcp) = some (ip, tcp) := last
      cases this
      exact ⟨s, hears.read, rfl, rfl, hears.own⟩
    · have datagram : t.session.key.protocol = .udp := datagram
      rw [← hears.own] at datagram
      cases datagram
  · exact h.takeDatagram read own false _

private theorem maxSegmentSize_bounds (s : State) (mss : UInt16) :
    1 ≤ (s.setMaxSegmentSize mss).maxSegmentSize.toNat ∧
      (s.setMaxSegmentSize mss).maxSegmentSize ≤ Tcp.maxMss := by
  have least : min Tcp.maxMss mss ≤ Tcp.maxMss := by
    show (if Tcp.maxMss ≤ mss then Tcp.maxMss else mss) ≤ Tcp.maxMss
    split
    · exact UInt16.le_refl _
    case isFalse below => exact UInt16.le_of_lt (UInt16.not_le.1 below)
  show 1 ≤ (if 1 ≤ min Tcp.maxMss mss then min Tcp.maxMss mss else 1 : UInt16).toNat ∧
    (if 1 ≤ min Tcp.maxMss mss then min Tcp.maxMss mss else 1 : UInt16) ≤ Tcp.maxMss
  split
  case isTrue some_size => exact ⟨UInt16.le_iff_toNat_le.1 some_size, least⟩
  case isFalse => exact ⟨Nat.le_refl 1, by decide⟩

private theorem headed_opened (opened : Opened settings t) : Headed t := by
  cases opened with
  | stream s read isSyn isn prospect number connected now =>
    have bounds := maxSegmentSize_bounds
      (Relay.newSession s.key (prospect.begun number true connected) connected s.ip.totalLength
        now).state
      (min (s.tcp.mss?.getD Tcp.defaultMss) settings.mssLimit)
    refine ⟨fun _ ip tcp last => ?_, fun datagram => (by cases datagram), bounds.1, bounds.2⟩
    have : some (s.ip, s.tcp) = some (ip, tcp) := last
    cases this
    exact ⟨s, read, rfl, rfl, rfl⟩
  | datagram d read prospect number now session fresh =>
    have begun : Headed ⟨session, [.flowCreated session.state.flow]⟩ := by
      subst fresh
      exact ⟨fun stream => (by cases stream), fun _ ip udp last => (by cases last),
        (by decide : 1 ≤ Tcp.defaultMss.toNat), (by decide : Tcp.defaultMss ≤ Tcp.maxMss)⟩
    have own : d.key = session.key := by rw [fresh]; rfl
    exact (begun.takeDatagram read own true settings.egressClassifier).of_heads rfl

section Replying

variable {key : Key} {delivered : Bytes → Prop}

/-- What is written on top replies to a flow. -/
abbrev Replying (key : Key) (delivered : Bytes → Prop) (t u : Turn) : Prop :=
  Adds (Effect.Replies key delivered) t u

private theorem replying_emit {e : Effect} (quiet : ∀ purpose draft, e ≠ .write purpose draft) :
    Replying key delivered t (t.emit e) :=
  .one rfl fun purpose draft same => absurd same (quiet purpose draft)

private theorem replying_classify (classifier : Classifier) (direction : Direction)
    (payload : Bytes) : Replying key delivered t (t.classify classifier direction payload) :=
  (t.adds_classify classifier direction payload).imp fun e ⟨flow, same⟩ _ _ written => by
    rw [same] at written
    cases written

private theorem replying_takePayload {s : Inbound.Segment} (read : s.Read) (own : s.key = key)
    (classifier : Classifier) (now : Nat) :
    Replying key delivered t (t.takePayload s classifier now) := by
  have queued : Replying key delivered t (t.queue s) :=
    replying_emit (t := t.update _) fun _ _ same => by cases same
  exact (queued.trans (replying_classify classifier .egress s.payload)).trans
    (.one rfl (Effect.replies_write (Draft.replies_ack read own _ _)))

private theorem replying_takeEnd {s : Inbound.Segment} (read : s.Read) (own : s.key = key)
    (inOrder : Bool) : Replying key delivered t (t.takeEnd s inOrder) := by
  unfold takeEnd
  split
  · split
    · exact .one rfl (Effect.replies_write (Draft.replies_finAck read own _ _))
    · exact .none rfl
  · split <;> exact .none rfl

private theorem replying_flush : Replying key delivered t t.flush.1 :=
  t.adds_flush.imp fun e ⟨socket, bytes, same⟩ _ _ written => by
    rw [same] at written
    cases written

private theorem replying_leave : Replying key delivered t t.report.shut := by
  have reported : Replying key delivered t t.report := replying_emit fun _ _ same => by cases same
  refine reported.trans (t.report.adds_shut.imp fun e ⟨number, same⟩ _ _ written => ?_)
  rw [same] at written
  cases written

private theorem replying_takeDatagram (d : Inbound.Datagram) (opened : Bool)
    (classifier : Classifier) : Replying key delivered t (t.takeDatagram d opened classifier) := by
  have queued : Replying key delivered t (t.queueDatagram d opened) :=
    replying_emit (t := t.update _) fun _ _ same => by cases same
  exact (queued.trans (replying_classify classifier .egress d.payload)).trans (.none rfl)

private theorem replying_sendSegments {s : Inbound.Segment} (read : s.Read) (own : s.key = key)
    (bytes : Bytes) (some_size : 1 ≤ t.state.maxSegmentSize.toNat)
    (short : t.state.maxSegmentSize ≤ Tcp.maxMss) :
    Replying key delivered t (t.sendSegments s.ip s.tcp bytes) := by
  fun_induction sendSegments t s.ip s.tcp bytes with
  | case1 t => exact .none rfl
  | case2 t first rest more ih =>
    refine Adds.trans (.one rfl (Effect.replies_write (Draft.replies_data read own _ _ _ ?_)))
      (ih some_size short)
    have most := UInt16.le_iff_toNat_le.1 short
    simp only [List.length_cons, List.length_take, more]
    omega

variable (h : Headed t)

include h

theorem Headed.last (stream : t.session.key.protocol = .tcp) {ip : Ip.Header} {tcp : Tcp.Header}
    (last : t.state.lastSegment? = some (ip, tcp)) :
    ∃ s : Inbound.Segment, s.Read ∧ s.key = t.session.key ∧ s.ip = ip ∧ s.tcp = tcp := by
  obtain ⟨s, read, ip, tcp, own⟩ := h.stream stream ip tcp last
  exact ⟨s, read, own, ip, tcp⟩

section Streams

variable (stream : t.session.key.protocol = .tcp)

include stream

private theorem replying_endStream (next : UInt32) :
    Replying t.session.key delivered t (t.endStream next) := by
  unfold endStream sendFin
  split
  · exact .none rfl
  case h_2 ip tcp last =>
    obtain ⟨s, read, own, rfl, rfl⟩ := h.last stream last
    exact .one rfl (Effect.replies_write (Draft.replies_finAck read own _ _))

private theorem replying_resendAck : Replying t.session.key delivered t t.resendAck := by
  unfold resendAck
  split
  · exact .none rfl
  case h_2 ip tcp last =>
    obtain ⟨s, read, own, rfl, rfl⟩ := h.last stream last
    exact .one rfl (Effect.replies_write
      (.segment s read own _ (Tcp.Header.answeredBy_withTimestamps? ..) [] (Nat.zero_le _)))

private theorem replying_resetPeer : Replying t.session.key delivered t t.resetPeer := by
  unfold resetPeer
  split
  · exact .none rfl
  case h_2 ip tcp last =>
    obtain ⟨s, read, own, rfl, rfl⟩ := h.last stream last
    exact .one rfl (Effect.replies_write (Draft.replies_reset read own 0))

private theorem replying_remoteClose : Replying t.session.key delivered t t.remoteClose := by
  rw [remoteClose_eq]
  split
  · exact .none rfl
  · exact replying_endStream h stream _

private theorem replying_takeAck (s : Inbound.Segment) (now : Nat) :
    Replying t.session.key delivered t (t.takeAck s now) := by
  have noted : Replying t.session.key delivered t (t.noteAck s now) := .none rfl
  have headed : Headed (t.noteAck s now) := h.of_heads (heads_noteAck s now)
  have key : (t.noteAck s now).session.key = t.session.key := congrArg (·.1) (heads_noteAck s now)
  rw [takeAck_eq]
  split
  · refine noted.trans ?_
    rw [← key]
    exact replying_endStream headed (key ▸ stream) _
  · exact noted

end Streams

private theorem replying_handOn (bytes : Bytes) (received : delivered bytes) :
    Replying t.session.key delivered t (t.handOn bytes) := by
  unfold handOn
  split
  case h_1 stream =>
    split
    case h_1 ip tcp last =>
      obtain ⟨s, read, own, rfl, rfl⟩ := h.last stream last
      exact replying_sendSegments read own bytes h.some_size h.short
    case h_2 => exact .none rfl
  case h_2 datagrams =>
    split
    case h_1 ip udp last =>
      obtain ⟨d, read, rfl, rfl, own⟩ := h.datagram datagrams ip udp last
      exact .one rfl (Effect.replies_write (.datagram d read own bytes received))
    case h_2 => exact .none rfl

private theorem replying_deliver (bytes : Bytes) (classifier : Classifier) (now : Nat)
    (received : delivered bytes) :
    Replying t.session.key delivered t (t.deliver bytes classifier true now) := by
  have taken : Replying t.session.key delivered t (t.emit (.receive bytes)) :=
    replying_emit fun _ _ same => by cases same
  have heard := taken.trans (replying_classify classifier .ingress bytes)
  have same := heads_classify (t := t.emit (.receive bytes)) classifier .ingress bytes
  have key : ((t.emit (.receive bytes)).classify classifier .ingress bytes).session.key =
      t.session.key := congrArg (·.1) same
  have handed : Replying _ delivered _ _ := replying_handOn (h.of_heads same) bytes received
  rw [key] at handed
  rw [deliver_eq, if_pos rfl]
  exact heard.trans (handed.trans (.none rfl))

end Replying

private theorem receive_mem_deliver (bytes : Bytes) (classifier : Classifier) (now : Nat) :
    .receive bytes ∈ (t.deliver bytes classifier true now).effects := by
  have received : .receive bytes ∈ (t.emit (.receive bytes)).effects := List.mem_cons_self
  have heard := ((t.emit (.receive bytes)).adds_classify classifier .ingress bytes).mem received
  rw [deliver_eq, if_pos rfl]
  exact (adds_handOn _ bytes).mem heard

private theorem Headed.replying (h : Headed t) (move : Move settings outside t u)
    {delivered : Bytes → Prop} (received : ∀ bytes, .receive bytes ∈ u.effects → delivered bytes) :
    Replying t.session.key delivered t u := by
  cases move with
  | resendAck stream => exact replying_resendAck h stream
  | takePayload s now answers => exact replying_takePayload answers.read answers.own _ now
  | refusePayload s answers =>
    exact .one rfl (Effect.replies_write (Draft.replies_ack answers.read answers.own _ _))
  | takeAck s now answers => exact replying_takeAck h (by rw [← answers.own]; rfl) s now
  | takePush s now => unfold Turn.takePush; split <;> exact .none rfl
  | takeEnd s inOrder answers => exact replying_takeEnd answers.read answers.own inOrder
  | takeDatagram d => exact replying_takeDatagram d false _
  | flush => exact replying_flush
  | deliver bytes after now =>
    have same : Headed (t.withSocket after) := h.of_heads rfl
    exact (Adds.none rfl).trans (replying_deliver same bytes settings.ingressClassifier now
      (received bytes (receive_mem_deliver bytes _ now)))
  | remoteClose after reads stream =>
    have same : Headed (t.withSocket after) := h.of_heads rfl
    exact (Adds.none rfl).trans (replying_remoteClose same stream)
  | resetPeer stream => exact replying_resetPeer h stream
  | leave => exact replying_leave
  | cancel | refresh => exact replying_emit fun _ _ same => by cases same
  | remember | touch | abandon | check | connect | readNothing | network => exact .none rfl

theorem Lives.headed (lives : Lives settings t) : Headed t :=
  lives.induction (fun _ opened => headed_opened opened) fun _ _ _ h move => h.move move

theorem replies_opened (opened : Opened settings t) (delivered : Bytes → Prop) :
    ∀ e ∈ t.effects, e.Replies t.session.key delivered := by
  cases opened with
  | stream s read isSyn isn prospect number connected now =>
    have handshake : Effect.Replies s.key delivered (.write .handshake _) :=
      Effect.replies_write (Draft.replies_synAck read rfl isn (State.clock now))
    unfold begun
    simp only [List.forall_mem_cons]
    exact ⟨handshake, fun _ _ same => (by cases same), fun _ _ same => (by cases same), by simp⟩
  | datagram d read prospect number now session fresh =>
    have created : ∀ e ∈ (Turn.mk session [.flowCreated session.state.flow]).effects,
        e.Replies session.key delivered := by
      intro e member
      rw [List.mem_singleton.1 member]
      intro _ _ same
      cases same
    have taken := (replying_takeDatagram d true settings.egressClassifier).forall created
    have key : (Turn.takeDatagram ⟨session, [.flowCreated session.state.flow]⟩ d true
        settings.egressClassifier).session.key = session.key := key_takeDatagram d true _
    rw [← key] at taken
    refine List.forall_mem_cons.2 ⟨fun _ _ same => (by cases same), ?_⟩
    exact List.forall_mem_cons.2 ⟨fun _ _ same => (by cases same), taken⟩

/-- A session writes nothing but replies to its flow, with what its socket has delivered. -/
theorem Lives.replies (lives : Lives settings t) :
    ∀ e ∈ t.effects, e.Replies t.session.key fun bytes => .receive bytes ∈ t.effects := by
  -- What was delivered stays delivered, so the induction is on what all of it is within.
  have within : ∀ delivered : Bytes → Prop, (∀ bytes, .receive bytes ∈ t.effects → delivered bytes) →
      ∀ e ∈ t.effects, e.Replies t.session.key delivered := by
    refine lives.induction (P := fun t => ∀ delivered : Bytes → Prop,
      (∀ bytes, .receive bytes ∈ t.effects → delivered bytes) →
        ∀ e ∈ t.effects, e.Replies t.session.key delivered)
      (fun _ opened delivered _ => replies_opened opened delivered) ?_
    intro t u lives before move delivered received
    rw [move.key]
    refine (lives.headed.replying move received).forall (before delivered fun bytes member => ?_)
    exact received bytes (move.grows.mem member)
  exact within _ fun _ => id

/-- A session writes sound drafts only, if its datagrams are no longer than datagrams can be. -/
theorem Lives.sound (lives : Lives settings t) (fit : DatagramsFit t) :
    ∀ e ∈ t.effects, e.Sound := fun e member purpose draft same =>
  (lives.replies e member purpose draft same).sound fun datagrams bytes => fit datagrams bytes

end Session.Turn

namespace Relay

/-- No datagram socket has delivered more than a datagram of its family holds. -/
def DatagramsFit (r : Relay) : Prop := ∀ id session, r.sessions[id]? = some session →
  session.key.protocol = .udp → ∀ bytes, .receive bytes ∈ r.effectsOf (some id) →
    bytes.length ≤ session.key.datagramLimit

private theorem Traced.sound {r : Relay} (traced : Traced r) (h : Consistent r)
    (fit : DatagramsFit r) {entry : Entry} (member : entry ∈ r.journal) : entry.effect.Sound := by
  have effect := effect_mem member
  cases owner : entry.session with
  | none =>
    rw [owner] at effect
    have aside := traced.aside _ effect
    intro purpose draft same
    rw [same] at aside
    exact aside.sound
  | some id =>
    rw [owner] at effect
    have within := h.owned member owner
    have at_id := List.getElem?_eq_getElem within
    have lives := traced.lives id _ (history_of_session at_id)
    exact lives.sound (fit id _ at_id) _ effect

/-- Every buffer that goes into the tunnel in a run is a well-formed packet, provided that datagram
sockets deliver datagrams. -/
theorem written_wellFormed (settings : Settings) (now coreWorkers maxWorkers : Nat)
    (events : List Event)
    (fit : DatagramsFit ((start settings now coreWorkers maxWorkers).run events)) :
    ∀ buffer ∈ ((start settings now coreWorkers maxWorkers).run events).written,
      WellFormed buffer := by
  intro buffer member
  obtain ⟨entry, member, packet⟩ := List.mem_filterMap.1 member
  have sound := (traced_run settings now coreWorkers maxWorkers events).sound
    (consistent_run settings now coreWorkers maxWorkers events) fit member
  unfold Entry.packet? at packet
  cases effect : entry.effect with
  | write purpose draft =>
    rw [effect] at packet
    obtain rfl := Option.some.inj packet
    exact (sound purpose draft effect).wellFormed entry.identification
  | _ => rw [effect] at packet; cases packet

private theorem datagramsFit_of_journal {r : Relay} (short : ∀ entry ∈ r.journal, ∀ bytes,
    entry.effect = .receive bytes → bytes.length ≤ 65507) : DatagramsFit r := by
  intro id session _ _ bytes member
  obtain ⟨entry, member, effect⟩ := List.mem_map.1 member
  have within := short entry (List.mem_filter.1 member).1 bytes effect
  unfold Key.datagramLimit
  split <;> omega

/-- A datagram is relayed and answered. -/
theorem written_wellFormed_answer :
    let query := sampleDatagram [104, 105]
    let r := (start .plain 0 1 1).run [.packet query 0 (.smooth [.data [1, 2, 3]]),
      .pass (fun _ => 0) (fun _ => 0)]
    DatagramsFit r ∧ r.written.length = 1 ∧ ∀ buffer ∈ r.written, WellFormed buffer := by
  intro query r
  have short : (r.journal.all fun entry =>
      (entry.effect.payload? .ingress).all fun bytes => bytes.length ≤ 65507) = true := by
    decide +kernel
  have fit : DatagramsFit r := datagramsFit_of_journal fun entry member bytes effect => by
    have := List.all_eq_true.1 short entry member
    rw [effect] at this
    exact of_decide_eq_true this
  exact ⟨fit, by decide +kernel, written_wellFormed .plain 0 1 1 _ fit⟩

end Relay
end PacketRelay
