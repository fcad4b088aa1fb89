import PacketRelay.Proofs.Sent

/-!
What the peer of a stream sends reaches the socket in order, as long as it arrives without gaps.

A session takes a segment that is not behind what it expects and lets it count from where the last
one ended; it keeps nothing for later. So what it has taken is a prefix of the peer's stream while
no segment begins beyond that. What is old is refused, and acknowledged up to its own end: that lies
beyond the prefix only for a segment that overlaps the end of it.
-/

set_option autoImplicit false

namespace PacketRelay

open Session (Key Turn State Classifier Direction)

/-- The bytes that a socket has taken. -/
def Effect.sent? : Effect → Option Bytes
  | send _ bytes => some bytes
  | _ => none

/-- What the socket has taken, in order. -/
def relayed (effects : List Effect) : Bytes := (effects.reverse.filterMap (·.sent?)).flatten

/-- An arrival of a part of a stream: the offset of the part, and the segment that carries it. -/
structure Piece where
  offset : Nat
  segment : Inbound.Segment

namespace Piece

variable (p : Piece) (stream : Bytes) (base : UInt32) (n : Nat)

def stop : Nat := p.offset + p.segment.payload.length

/-- The segment carries its part of a stream that starts at `base`, and nothing but ACK is asked of
it. -/
structure Carries : Prop where
  seq : p.segment.tcp.seq = base + UInt32.ofNat p.offset
  part : p.segment.payload <+: stream.drop p.offset
  payload : p.segment.payload ≠ []
  isAck : p.segment.tcp.isAck = true
  notSyn : p.segment.tcp.isSyn = false
  notFin : p.segment.tcp.isFin = false
  notRst : p.segment.tcp.isRst = false

/-- The part begins among the first `n` bytes, not more than half the circle back. -/
structure Old : Prop where
  before : p.offset < n
  near : n ≤ p.offset + 2 ^ 31
  /-- Zero stands for a peer that has not been heard of. -/
  heard : base + UInt32.ofNat n ≠ 0

instance : Decidable (p.Carries stream base) :=
  decidable_of_iff (_ ∧ _ ∧ _ ∧ _ ∧ _ ∧ _ ∧ _)
    ⟨fun ⟨seq, part, payload, isAck, notSyn, notFin, notRst⟩ =>
      ⟨seq, part, payload, isAck, notSyn, notFin, notRst⟩,
    fun ⟨seq, part, payload, isAck, notSyn, notFin, notRst⟩ =>
      ⟨seq, part, payload, isAck, notSyn, notFin, notRst⟩⟩

instance : Decidable (p.Old base n) :=
  decidable_of_iff (_ ∧ _ ∧ _) ⟨fun ⟨before, near, heard⟩ => ⟨before, near, heard⟩,
    fun ⟨before, near, heard⟩ => ⟨before, near, heard⟩⟩

/-- The number of bytes that have come in order, with the arrival. -/
def next : Nat := if p.offset = n then p.stop else n

private theorem le_next : n ≤ p.next n := by
  unfold next
  split
  case isTrue same => exact Nat.le_trans (Nat.le_of_eq same.symm) (Nat.le_add_right _ _)
  case isFalse => exact Nat.le_refl n

/-- The end of the part, if it lies beyond the first `n` bytes and the part begins among them. -/
def overlap : List Nat := if p.offset < n ∧ n < p.stop then [p.stop] else []

end Piece

/-- The parts of a stream arrive without gaps: none begins beyond the bytes that have come. -/
def Gapless (stream : Bytes) (base : UInt32) : Nat → List Piece → Prop
  | _, [] => True
  | n, p :: rest =>
    p.Carries stream base ∧ (p.offset = n ∨ p.Old base n) ∧ Gapless stream base (p.next n) rest

instance (stream : Bytes) (base : UInt32) : (n : Nat) → (pieces : List Piece) →
    Decidable (Gapless stream base n pieces)
  | _, [] => .isTrue trivial
  | n, p :: rest =>
    have := instDecidableGapless stream base (p.next n) rest
    inferInstanceAs (Decidable (_ ∧ _ ∧ _))

/-- The number of bytes that have come in order. -/
def inOrder (pieces : List Piece) (n : Nat) : Nat := pieces.foldl (fun n p => p.next n) n

/-- The ends of the parts that overlapped the end of what had come before them. -/
def overlaps : Nat → List Piece → List Nat
  | _, [] => []
  | n, p :: rest => p.overlap n ++ overlaps (p.next n) rest

theorem flush_bytes (q : Session.Outbound) (socket : Socket) (sent : List Bytes) :
    (q.flush socket sent).sent.reverse.flatten ++ (q.flush socket sent).queue.bytes =
      sent.reverse.flatten ++ q.bytes := by
  fun_induction Session.Outbound.flush q socket sent with
  | case1 | case2 | case3 | case4 => rfl
  | case5 q socket sent chunk rest chunks n after taken some_taken ih =>
    have first : q.front? = some chunk := by
      unfold Session.Outbound.front?
      rw [chunks]
      rfl
    have within : n ≤ chunk.length := Socket.send_le taken
    rw [ih, List.reverse_cons, List.flatten_append, List.append_assoc,
      ← q.bytes_consume n chunk first within]
    simp

private theorem atOrAfter_behind (a : UInt32) {d : Nat} (some_way : 0 < d) (near : d ≤ 2 ^ 31) :
    Serial.atOrAfter a (a + UInt32.ofNat d) = false := by
  have := a.toNat_lt
  have apart : (0x80000000 : UInt32) ≤ a - (a + UInt32.ofNat d) := by
    rw [UInt32.le_iff_toNat_le, UInt32.toNat_sub, UInt32.toNat_add, UInt32.toNat_ofNat']
    show 2147483648 ≤ _
    omega
  unfold Serial.atOrAfter
  exact decide_eq_false (UInt32.not_lt.2 apart)

/-- An effect that sends nothing to the socket, and acknowledges to the peer only what it may. -/
structure Effect.Acks (ok : UInt32 → Prop) (e : Effect) : Prop where
  sent : e.sent? = none
  acks : ∀ s, Sent.ofEffect? e = some s → s.flags.has .ack = true → ok s.ack

section Effects

variable {ok : UInt32 → Prop} {new effects : List Effect}

theorem relayed_append : relayed (new ++ effects) = relayed effects ++ relayed new := by
  simp [relayed]

theorem relayed_sends (socket : Nat) (sent : List Bytes) :
    relayed (sent.map (.send socket)) = sent.reverse.flatten := by
  unfold relayed
  rw [← List.map_reverse, List.filterMap_map]
  congr 1
  exact List.filterMap_some

private theorem relayed_acks (acks : ∀ e ∈ new, e.Acks ok) : relayed new = [] := by
  unfold relayed
  have : new.reverse.filterMap (·.sent?) = [] :=
    List.filterMap_eq_nil_iff.2 fun e member => (acks e (List.mem_reverse.1 member)).sent
  rw [this, List.flatten_nil]

private theorem Effect.acks_write {purpose : Purpose} {draft : Draft} {s : Sent}
    (drafts : Sent.ofDraft? draft = some s) (may : s.flags.has .ack = true → ok s.ack) :
    Effect.Acks ok (.write purpose draft) where
  sent := rfl
  acks s same := by
    obtain rfl := Option.some.inj (drafts.symm.trans same)
    exact may

end Effects

namespace Session.Turn

variable {settings : Relay.Settings} {outside : Outside} {t u v : Turn} {ok : UInt32 → Prop}

/-- What has been taken from the peer: what the socket took, and then what is queued for it. -/
def taken (t : Turn) : Bytes := relayed t.effects ++ t.state.outbound.bytes

/-- Nothing is taken, and only what may be is acknowledged. -/
structure Idles (ok : UInt32 → Prop) (t u : Turn) : Prop where
  effects : Adds (Effect.Acks ok) t u
  outbound : u.state.outbound = t.state.outbound
  expected : u.state.recvNext = t.state.recvNext
  last : u.state.lastSegment? = t.state.lastSegment?

private theorem Idles.refl (t : Turn) : Idles ok t t := ⟨.none rfl, rfl, rfl, rfl⟩

private theorem Idles.trans (first : Idles ok t u) (second : Idles ok u v) : Idles ok t v where
  effects := first.effects.trans second.effects
  outbound := second.outbound.trans first.outbound
  expected := second.expected.trans first.expected
  last := second.last.trans first.last

private theorem relayed_of_adds (adds : Adds (Effect.Acks ok) t u) :
    relayed u.effects = relayed t.effects := by
  obtain ⟨new, added, acks⟩ := adds
  rw [added, relayed_append, relayed_acks acks, List.append_nil]

private theorem acks_of_adds (adds : Adds (Effect.Acks ok) t u)
    (before : ∀ s ∈ segments t.effects, s.flags.has .ack = true → ok s.ack) :
    ∀ s ∈ segments u.effects, s.flags.has .ack = true → ok s.ack := by
  obtain ⟨new, added, acks⟩ := adds
  intro s member
  rw [added, segments_append] at member
  rcases List.mem_append.1 member with old | later
  · exact before s old
  · obtain ⟨e, member, same⟩ := List.mem_filterMap.1 later
    exact (acks e (List.mem_reverse.1 member)).acks s same

private theorem Idles.taken (idles : Idles ok t u) : u.taken = t.taken := by
  unfold Turn.taken
  rw [relayed_of_adds idles.effects, idles.outbound]

private theorem idles_emit {e : Effect} (acks : e.Acks ok) : Idles ok t (t.emit e) :=
  ⟨.one rfl acks, rfl, rfl, rfl⟩

private theorem idles_classify (classifier : Classifier) (direction : Direction) (payload : Bytes) :
    Idles ok t (t.classify classifier direction payload) := by
  obtain ⟨_, _, _, frame⟩ := t.classify_frame classifier direction payload
  have told := (t.adds_classify classifier direction payload).imp (q := Effect.Acks ok)
    fun e ⟨flow, same⟩ => by
      subst same
      exact ⟨rfl, fun _ none => by cases none⟩
  refine ⟨told, ?_, ?_, ?_⟩ <;> unfold state <;> rw [frame] <;> rfl

private theorem idles_resendAck (may : ok t.state.recvNext) : Idles ok t t.resendAck := by
  unfold resendAck
  split
  · exact .refl t
  · exact idles_emit (Effect.acks_write (Sent.ofDraft?_withTimestamps? _ _ _ []) fun _ => may)

private theorem idles_endStream (next : UInt32) (may : ok t.state.recvNext) :
    Idles ok t (t.endStream next) := by
  unfold endStream sendFin
  split
  · exact ⟨.none rfl, rfl, rfl, rfl⟩
  · exact ⟨.one rfl (Effect.acks_write (Sent.ofDraft?_finAck _ _ _ _) fun _ => may), rfl, rfl, rfl⟩

private theorem idles_remoteClose (may : ok t.state.recvNext) : Idles ok t t.remoteClose := by
  rw [remoteClose_eq]
  split
  · exact ⟨.none rfl, rfl, rfl, rfl⟩
  · exact idles_endStream _ may

private theorem idles_sendSegments (ip : Ip.Header) (tcp : Tcp.Header) (bytes : Bytes)
    (may : ok t.state.recvNext) : Idles ok t (t.sendSegments ip tcp bytes) := by
  fun_induction sendSegments t ip tcp bytes with
  | case1 t => exact .refl t
  | case2 t first rest more ih =>
    have sent : Idles ok t (t.sendSegment ip tcp (first :: rest.take more)) :=
      ⟨.one rfl (Effect.acks_write (Sent.ofDraft?_data _ _ _ _ _ _) fun _ => may), rfl, rfl, rfl⟩
    exact sent.trans (ih may)

private theorem idles_deliver (stream : t.session.key.protocol = .tcp) (bytes : Bytes)
    (classifier : Classifier) (now : Nat) (may : ok t.state.recvNext) :
    Idles ok t (t.deliver bytes classifier true now) := by
  have received : Idles ok t (t.emit (.receive bytes)) :=
    idles_emit ⟨rfl, fun _ none => by cases none⟩
  have heard := received.trans (idles_classify classifier .ingress bytes)
  have key : ((t.emit (.receive bytes)).classify classifier .ingress bytes).session.key =
      t.session.key :=
    (alike_classify classifier .ingress bytes).key
  rw [deliver_eq, if_pos rfl]
  have handed : Idles ok ((t.emit (.receive bytes)).classify classifier .ingress bytes)
      (((t.emit (.receive bytes)).classify classifier .ingress bytes).handOn bytes) := by
    unfold handOn
    rw [key, stream]
    simp only
    split
    · exact idles_sendSegments _ _ bytes (heard.expected ▸ may)
    · exact .refl _
  exact (heard.trans handed).trans ⟨.none rfl, rfl, rfl, rfl⟩

private theorem idles_leave : Idles ok t t.report.shut := by
  have reported : Effect.Acks ok (.flowUpdated t.state.flow) := ⟨rfl, fun _ none => by cases none⟩
  have shut := t.report.adds_shut.imp (q := Effect.Acks ok) fun e ⟨number, same⟩ => by
    subst same
    exact ⟨rfl, fun _ none => by cases none⟩
  refine ⟨Adds.trans (.one rfl reported) shut, ?_, ?_, ?_⟩ <;> unfold Turn.shut <;> split <;> rfl

private theorem idles_stamp (s : Inbound.Segment) (now : Nat) : Idles ok t (t.stamp s now) :=
  ⟨.none rfl, rfl, rfl, rfl⟩

private theorem idles_takePush (s : Inbound.Segment) (now : Nat) :
    Idles ok t (t.takePush s now) := by
  rw [takePush_eq]
  split
  · exact idles_stamp s now
  · exact .refl t

/-- What may be acknowledged of a stream that starts at `base` and has been taken up to `n`: nothing
beyond that, or one of the numbers `also`. -/
def Due (base : UInt32) (n : Nat) (also : List Nat) (number : UInt32) : Prop :=
  ∃ a, number = base + UInt32.ofNat a ∧ (a ≤ n ∨ a ∈ also)

/-- A stream has been taken up to `n`, and no more of it is acknowledged than may be. -/
structure Takes (stream : Bytes) (base : UInt32) (n : Nat) (also : List Nat) (t : Turn) : Prop where
  within : n ≤ stream.length
  taken : t.taken = stream.take n
  acks : ∀ s ∈ segments t.effects, s.flags.has .ack = true → Due base n also s.ack

/-- The session expects what comes next, and its last segment is the SYN or has ACK. -/
structure Expects (stream : Bytes) (base : UInt32) (n : Nat) (also : List Nat) (t : Turn) : Prop
    extends Takes stream base n also t where
  expected : t.state.recvNext = base + UInt32.ofNat n
  last : ∀ ip tcp, t.state.lastSegment? = some (ip, tcp) →
    tcp.isAck = true ∨ tcp.isSyn = true ∧ tcp.isFin = false ∧ tcp.seq + 1 = base

variable {stream : Bytes} {base number : UInt32} {m n : Nat} {also more : List Nat}

private theorem Due.mono (due : Due base n also number) (le : n ≤ m)
    (known : ∀ a ∈ also, a ∈ more) : Due base m more number := by
  obtain ⟨a, same, near⟩ := due
  exact ⟨a, same, near.imp (fun near => Nat.le_trans near le) (known a)⟩

private theorem Expects.due (h : Expects stream base n also t) : Due base n also t.state.recvNext :=
  ⟨n, h.expected, .inl (Nat.le_refl n)⟩

private theorem Takes.mono (h : Takes stream base n also t) (known : ∀ a ∈ also, a ∈ more) :
    Takes stream base n more t :=
  { h with acks := fun s member flag => (h.acks s member flag).mono (Nat.le_refl n) known }

private theorem Expects.idles (h : Expects stream base n also t)
    (idles : Idles (Due base n also) t u) : Expects stream base n also u where
  within := h.within
  taken := idles.taken.trans h.taken
  acks := acks_of_adds idles.effects h.acks
  expected := idles.expected.trans h.expected
  last := by
    rw [idles.last]
    exact h.last

private theorem idles_resetPeer (h : Expects stream base n also t) :
    Idles (Due base n also) t t.resetPeer := by
  unfold resetPeer
  split
  · exact .refl t
  case h_2 ip tcp last =>
    refine idles_emit ?_
    unfold Draft.reset
    -- A reset acknowledges only if the last segment had no ACK, so that it was the SYN.
    rcases h.last ip tcp last with isAck | ⟨isSyn, notFin, seq⟩
    · rw [if_pos isAck]
      exact Effect.acks_write rfl fun flag =>
        absurd (show Tcp.Flags.has .rst .ack = true from flag) (by decide)
    · simp only
      split
      · exact Effect.acks_write rfl fun flag =>
          absurd (show Tcp.Flags.has .rst .ack = true from flag) (by decide)
      · refine Effect.acks_write rfl fun _ => ⟨0, ?_, .inl (Nat.zero_le n)⟩
        rw [notFin, ← seq]
        show tcp.seq + (UInt32.ofNat 0 + 1 + 0) = tcp.seq + 1 + UInt32.ofNat 0
        simp

private theorem Expects.flush (h : Expects stream base n also t) :
    Expects stream base n also t.flush.1 := by
  cases opened : t.session.socket with
  | none =>
    rw [flush_none t opened]
    exact h
  | some socket =>
    have kept := flush_bytes t.state.outbound socket []
    rw [flush_some t opened rfl]
    generalize t.state.outbound.flush socket [] = flushed at kept
    have nothing : segments (flushed.sent.map (.send socket.number)) = [] := by
      unfold segments
      rw [← List.map_reverse, List.filterMap_map]
      exact List.filterMap_eq_nil_iff.2 fun _ _ => rfl
    refine ⟨⟨h.within, ?_, ?_⟩, h.expected, h.last⟩
    · rw [← h.taken]
      unfold Turn.taken
      rw [relayed_append, relayed_sends, List.append_assoc]
      exact congrArg (relayed t.effects ++ ·) kept
    · rw [segments_append, nothing, List.append_nil]
      exact h.acks

private theorem Expects.move (h : Expects stream base n also t)
    (streams : t.session.key.protocol = .tcp) (deaf : ∀ s, outside.brings s → s.key ≠ t.session.key)
    (move : Move settings outside t u) :
    Expects stream base n also u := by
  have silent : ∀ {s : Inbound.Segment}, ¬ t.Hears outside s := fun hears =>
    deaf _ hears.brought hears.own
  cases move with
  -- What answers a segment has heard it, and the session hears none.
  | remember s hears => exact absurd hears silent
  | takePayload s now answers | refusePayload s answers | takeAck s now answers
  | takePush s now answers | takeEnd s inOrder answers => exact absurd answers.toHears silent
  | takeDatagram d _ own =>
    rw [← own] at streams
    cases streams
  | resendAck => exact h.idles (idles_resendAck h.due)
  | flush => exact h.flush
  | deliver bytes after now reads =>
    have read : Idles (Due base n also) t (t.withSocket after) := ⟨.none rfl, rfl, rfl, rfl⟩
    exact h.idles (read.trans (idles_deliver (t := t.withSocket after) streams bytes _ now h.due))
  | remoteClose after =>
    have read : Idles (Due base n also) t (t.withSocket after) := ⟨.none rfl, rfl, rfl, rfl⟩
    exact h.idles (read.trans (idles_remoteClose (t := t.withSocket after) h.due))
  | resetPeer => exact h.idles (idles_resetPeer h)
  | leave => exact h.idles idles_leave
  | cancel | refresh => exact h.idles (idles_emit ⟨rfl, fun _ none => by cases none⟩)
  | touch | abandon | check | connect | readNothing | network =>
    exact h.idles ⟨.none rfl, rfl, rfl, rfl⟩

private theorem Expects.moves (h : Expects stream base n also t)
    (streams : t.session.key.protocol = .tcp) (deaf : ∀ s, outside.brings s → s.key ≠ t.session.key)
    (moves : Moves settings outside t u) :
    Expects stream base n also u := by
  induction moves with
  | refl => exact h
  | tail before move ih =>
    have key := Moves.key before
    exact ih.move (by rw [key, streams]) (by rw [key]; exact deaf) move

private theorem Expects.queue (h : Expects stream base n also t) {p : Piece}
    (carries : p.Carries stream base) (next : p.offset = n) :
    Expects stream base p.stop also (t.queue p.segment) := by
  have seq : p.segment.tcp.seq = t.state.recvNext := by rw [carries.seq, next, h.expected]
  have stop : p.stop = n + p.segment.payload.length := by rw [Piece.stop, next]
  obtain ⟨rest, part⟩ := carries.part
  rw [next] at part
  have queued : Adds (Effect.Acks (Due base p.stop also)) t (t.queue p.segment) :=
    .one rfl ⟨rfl, fun _ none => by cases none⟩
  refine ⟨⟨?_, ?_, acks_of_adds queued fun s member flag => ?_⟩, ?_, h.last⟩
  · have length := congrArg List.length part
    rw [List.length_append, List.length_drop] at length
    have := h.within
    omega
  · have taken := h.taken
    unfold Turn.taken at taken ⊢
    rw [relayed_of_adds queued]
    show relayed t.effects ++ (t.state.outbound.push p.segment.payload).bytes = _
    rw [Session.Outbound.bytes_push, ← List.append_assoc, taken, stop, List.take_add, ← part,
      List.take_left]
  · exact (h.acks s member flag).mono (by omega) fun _ => id
  · show (if t.state.recvNext == 0 then p.segment.tcp.seq else t.state.recvNext) +
      UInt32.ofNat p.segment.payload.length = _
    rw [seq, ite_self, h.expected, stop, UInt32.ofNat_add, UInt32.add_assoc]

private theorem Expects.takePayload (h : Expects stream base n also t) {p : Piece}
    (carries : p.Carries stream base) (next : p.offset = n) (classifier : Classifier) (now : Nat) :
    Expects stream base p.stop also (t.takePayload p.segment classifier now) := by
  have queued := h.queue carries next
  rw [takePayload_eq]
  have classified := queued.idles (idles_classify classifier .egress p.segment.payload)
  have stamped := classified.idles (idles_stamp p.segment now)
  exact stamped.idles
    (idles_emit (Effect.acks_write (Sent.ofDraft?_ack _ _ _ _) fun _ => stamped.due))

private theorem Expects.refuses (h : Expects stream base n also t) {p : Piece}
    (carries : p.Carries stream base) (old : p.Old base n) :
    t.state.acceptsData p.segment.tcp.seq = false := by
  have heard : (t.state.recvNext == 0) = false := by
    rw [h.expected]
    exact beq_false_of_ne old.heard
  -- What is old lies behind, for less than half the circle lies ahead of it.
  have behind : Serial.atOrAfter p.segment.tcp.seq t.state.recvNext = false := by
    have ahead : base + UInt32.ofNat n =
        base + UInt32.ofNat p.offset + UInt32.ofNat (n - p.offset) := by
      rw [UInt32.add_assoc, ← UInt32.ofNat_add, Nat.add_sub_cancel' (Nat.le_of_lt old.before)]
    rw [carries.seq, h.expected, ahead]
    have before := old.before
    have near := old.near
    exact atOrAfter_behind _ (by omega) (by omega)
  unfold State.acceptsData
  rw [heard, behind]
  rfl

private theorem Expects.refusePayload (h : Expects stream base n also t) {p : Piece}
    (carries : p.Carries stream base) (old : p.Old base n) :
    Expects stream base n (also ++ p.overlap n) (t.refusePayload p.segment) := by
  have due : Due base n (also ++ p.overlap n) p.segment.nextSeq := by
    refine ⟨p.stop, ?_, ?_⟩
    · unfold Inbound.Segment.nextSeq Piece.stop
      rw [carries.seq, UInt32.ofNat_add, UInt32.add_assoc]
    -- Only a part that overlaps the end of what has been taken is acknowledged beyond it.
    · by_cases beyond : n < p.stop
      · refine .inr (List.mem_append_right also ?_)
        unfold Piece.overlap
        rw [if_pos ⟨old.before, beyond⟩]
        exact List.mem_singleton_self p.stop
      · exact .inl (Nat.le_of_not_lt beyond)
  have widened : Expects stream base n (also ++ p.overlap n) t :=
    { h with toTakes := h.toTakes.mono fun _ => List.mem_append_left _ }
  exact widened.idles (idles_emit (Effect.acks_write (Sent.ofDraft?_ack _ _ _ _) fun _ => due))

private theorem Expects.receiveAck (h : Expects stream base n also t) {p : Piece}
    (carries : p.Carries stream base) (arrives : p.offset = n ∨ p.Old base n)
    (classifier : Classifier) (now : Nat) :
    Expects stream base (p.next n) (also ++ p.overlap n)
      (t.receiveAck p.segment classifier now).1 := by
  have remembered : Expects stream base n also
      (t.update fun st => st.rememberTcp p.segment.ip p.segment.tcp) := by
    refine ⟨⟨h.within, h.taken, h.acks⟩, h.expected, fun ip tcp last => ?_⟩
    cases last
    exact .inl carries.isAck
  have bare : p.segment.payload.isEmpty = false := by
    simpa using carries.payload
  unfold Turn.receiveAck
  simp only [bare, Bool.not_false, Bool.true_and, Bool.false_eq_true, if_false]
  generalize (t.update fun st => st.rememberTcp p.segment.ip p.segment.tcp) = u at remembered ⊢
  have handled : Expects stream base (p.next n) (also ++ p.overlap n)
      (if u.state.acceptsData p.segment.tcp.seq = true then u.takePayload p.segment classifier now
        else u.refusePayload p.segment) := by
    -- `acceptsData` takes what is expected and refuses what is old; without gaps nothing else comes.
    rcases arrives with next | old
    · have expected : p.segment.tcp.seq = u.state.recvNext := by
        rw [carries.seq, next, remembered.expected]
      have accepts : u.state.acceptsData p.segment.tcp.seq = true := by
        unfold State.acceptsData
        rw [expected, Serial.atOrAfter_self, Bool.or_true]
      have none_over : p.overlap n = [] := if_neg (by omega)
      rw [if_pos accepts, Piece.next, if_pos next, none_over, List.append_nil]
      exact remembered.takePayload carries next classifier now
    · have later : p.offset ≠ n := Nat.ne_of_lt old.before
      rw [remembered.refuses carries old, if_neg Bool.false_ne_true, Piece.next, if_neg later]
      exact remembered.refusePayload carries old
  unfold Turn.takeEnd
  rw [carries.notFin, carries.notRst]
  exact handled.idles (idles_takePush p.segment now)

private theorem expects_begun (settings : Relay.Settings) {s : Inbound.Segment}
    (isSyn : s.tcp.isSyn = true) (notFin : s.tcp.isFin = false) (isn : UInt32)
    (prospect : Socket.Prospect) (number : Nat)
    (connected : Bool) (now : Nat) (stream : Bytes) :
    Expects stream (s.tcp.seq + 1) 0 [] (.begun settings s isn prospect number connected now) := by
  have first : s.tcp.seq + 1 = s.tcp.seq + 1 + UInt32.ofNat 0 := (UInt32.add_zero _).symm
  refine ⟨⟨Nat.zero_le _, rfl, fun sent member _ => ?_⟩, first, fun ip tcp last => ?_⟩
  · rw [segments_begun, List.mem_singleton] at member
    subst member
    exact ⟨0, first, .inl (Nat.le_refl 0)⟩
  · cases last
    exact .inr ⟨isSyn, notFin, rfl⟩

end Session.Turn

namespace Relay

/-- The segments of a flow that come out of the tunnel. -/
def flow (key : Key) (events : List Event) : List Inbound.Segment :=
  (events.filterMap (·.segment?)).filter (·.key = key)

/-- A session follows a stream up to `n`: it expects what comes next, unless it has been closed
before. -/
structure Follows (stream : Bytes) (base : UInt32) (key : Key) (n : Nat) (also : List Nat)
    (t : Turn) : Prop where
  own : t.session.key = key
  opened : t.session.socket.isSome = true → Turn.Expects stream base n also t
  taken : ∃ m, m ≤ n ∧ Turn.Takes stream base m also t

variable {stream : Bytes} {base : UInt32} {key : Key} {n : Nat} {also : List Nat} {r : Relay}
  {id : SessionId} {t : Turn} {e : Event}

private theorem Follows.other (h : Consistent r) (known : r.history id = some t)
    (follows : Follows stream base key n also t) (streams : key.protocol = .tcp)
    (other : ∀ s, e.segment? = some s → s.key ≠ key) :
    ∃ u, (r.step e).history id = some u ∧ Follows stream base key n also u := by
  have changes := h.step e
  cases opened : t.session.socket with
  | none => exact ⟨t, Changes.closed h changes known opened, follows⟩
  | some socket =>
    obtain ⟨u, after, moves⟩ := Changes.history changes known
    have opened : t.session.socket.isSome = true := by rw [opened]; rfl
    have expects := (follows.opened opened).moves (by rw [follows.own, streams])
      (by rw [follows.own]; exact other) moves
    have own : u.session.key = key := by rw [moves.key, follows.own]
    exact ⟨u, after, own, fun _ => expects, n, Nat.le_refl n, expects.toTakes⟩

private theorem Follows.own_flow (h : Consistent r) (known : r.history id = some t)
    (follows : Follows stream base key n also t) (streams : key.protocol = .tcp) {p : Piece}
    (carries : p.Carries stream base) (arrives : p.offset = n ∨ p.Old base n)
    (brings : e.segment? = some p.segment) (own : p.segment.key = key) :
    ∃ u, (r.step e).history id = some u ∧
      Follows stream base key (p.next n) (also ++ p.overlap n) u := by
  cases opened : t.session.socket with
  | none =>
    obtain ⟨m, near, takes⟩ := follows.taken
    refine ⟨t, Changes.closed h (h.step e) known opened, follows.own, fun some_socket => ?_, m,
      Nat.le_trans near (p.le_next n), takes.mono fun _ => List.mem_append_left _⟩
    rw [opened] at some_socket
    cases some_socket
  | some socket =>
    have opened : t.session.socket.isSome = true := by rw [opened]; rfl
    obtain ⟨buffer, isn, prospect, rfl, parsed⟩ := Event.segment?_eq_some brings
    have handled : r.step (.packet buffer isn prospect) = r.handleAck p.segment := by
      rw [r.step_segment parsed, handleSegment,
        if_neg (by rw [carries.notSyn]; exact Bool.false_ne_true),
        if_pos carries.isAck]
    obtain ⟨stands, -⟩ := h.hear known opened (follows.own.trans own.symm)
    have heard :=
      (follows.opened opened).receiveAck carries arrives r.settings.egressClassifier r.now
    have kept := t.key_receiveAck p.segment r.settings.egressClassifier r.now
    have moves : Turn.Moves r.settings .nothing _ _ :=
      Turn.hear_moves opened p.segment r.settings.egressClassifier r.now
    have expects := heard.moves (by rw [kept, follows.own, streams]) (fun _ => False.elim) moves
    refine ⟨_, ?_, ?_, fun _ => expects, _, Nat.le_refl _, expects.toTakes⟩
    · rw [handled, stands.history]
    · rw [moves.key, kept, follows.own]

theorem flow_own {s : Inbound.Segment} (brings : e.segment? = some s) (own : s.key = key)
    (rest : List Event) : flow key (e :: rest) = s :: flow key rest := by
  unfold flow
  rw [List.filterMap_cons_some brings, List.filter_cons_of_pos (by simpa using own)]

theorem flow_other (other : ∀ s, e.segment? = some s → s.key ≠ key) (rest : List Event) :
    flow key (e :: rest) = flow key rest := by
  unfold flow
  cases brings : e.segment? with
  | none => rw [List.filterMap_cons_none brings]
  | some s =>
    rw [List.filterMap_cons_some brings, List.filter_cons_of_neg (by simpa using other s brings)]

/-- While a stream arrives without gaps, its session follows it, whatever else happens. -/
private theorem Follows.run (h : Consistent r) (known : r.history id = some t)
    (follows : Follows stream base key n also t) (streams : key.protocol = .tcp)
    {later : List Event} {pieces : List Piece} (arrivals : flow key later = pieces.map (·.segment))
    (gapless : Gapless stream base n pieces) :
    ∃ u, (r.run later).history id = some u ∧
      Follows stream base key (inOrder pieces n) (also ++ overlaps n pieces) u := by
  -- The arrivals are used up one by one as events of the flow come; other events leave them alone.
  induction later generalizing r n also t pieces with
  | nil =>
    obtain rfl : pieces = [] := List.map_eq_nil_iff.1 arrivals.symm
    exact ⟨t, known, by simpa [inOrder, overlaps] using follows⟩
  | cons e rest ih =>
    have after := Changes.consistent h (h.step e)
    by_cases own : ∃ s, e.segment? = some s ∧ s.key = key
    · obtain ⟨s, brings, own⟩ := own
      rw [flow_own brings own] at arrivals
      obtain ⟨p, more, rfl, rfl, coming⟩ := List.map_eq_cons_iff.1 arrivals.symm
      obtain ⟨carries, arrives, gapless⟩ := gapless
      obtain ⟨u, known, follows⟩ := follows.own_flow h known streams carries arrives brings own
      obtain ⟨v, known, follows⟩ := ih after known follows coming.symm gapless
      refine ⟨v, known, ?_⟩
      rw [List.append_assoc] at follows
      exact follows
    · have other : ∀ s, e.segment? = some s → s.key ≠ key :=
        fun s brings same => own ⟨s, brings, same⟩
      rw [flow_other other] at arrivals
      obtain ⟨u, known, follows⟩ := follows.other h known streams other
      exact ih after known follows arrivals gapless

private theorem follows_opened (h : Consistent r) {s : Inbound.Segment} (isSyn : s.tcp.isSyn = true)
    (notFin : s.tcp.isFin = false) (isn : UInt32) (prospect : Socket.Prospect)
    (fresh : r.lookup s.key = none) (opened : (r.handleSyn s isn prospect).lookup s.key = some id)
    (stream : Bytes) :
    ∃ t, (r.handleSyn s isn prospect).history id = some t ∧
      Follows stream (s.tcp.seq + 1) s.key 0 [] t := by
  obtain ⟨connected, known⟩ := h.begun_handleSyn isSyn isn prospect fresh opened
  have expects := Session.Turn.expects_begun r.settings isSyn notFin isn prospect r.socketCount
    connected r.now stream
  exact ⟨_, known, rfl, fun _ => expects, 0, Nat.le_refl 0, expects.toTakes⟩

/-- What a peer sends reaches the socket in order: in every run in which a SYN opens a session and
the peer's stream then arrives without gaps, with whatever is lost at its end, duplicated or
overlapping, the bytes that the socket has taken and those that are queued for it are a prefix of
the stream; all that came in order, as long as the session is open. What is acknowledged is not
beyond that prefix, or it is the end of a part that overlapped the end of what had come before. -/
theorem run_takes (settings : Settings) (now coreWorkers maxWorkers : Nat)
    (before later : List Event) {opening : Event} {syn : Inbound.Segment} {id : SessionId}
    {stream : Bytes} {pieces : List Piece}
    (brings : opening.segment? = some syn) (isSyn : syn.tcp.isSyn = true)
    (notFin : syn.tcp.isFin = false)
    (fresh : ((start settings now coreWorkers maxWorkers).run before).lookup syn.key = none)
    (opened : ((start settings now coreWorkers maxWorkers).run
      (before ++ [opening])).lookup syn.key = some id)
    (arrivals : flow syn.key later = pieces.map (·.segment))
    (gapless : Gapless stream (syn.tcp.seq + 1) 0 pieces) :
    let r := (start settings now coreWorkers maxWorkers).run (before ++ opening :: later)
    ∃ session n, r.sessions[id]? = some session ∧
      relayed (r.effectsOf (some id)) ++ session.state.outbound.bytes = stream.take n ∧
      n ≤ inOrder pieces 0 ∧ n ≤ stream.length ∧
      (session.socket.isSome = true → n = inOrder pieces 0) ∧
      ∀ s ∈ r.sentBy id, s.flags.has .ack = true →
        ∃ a, s.ack = syn.tcp.seq + 1 + UInt32.ofNat a ∧ (a ≤ n ∨ a ∈ overlaps 0 pieces) := by
  intro r
  obtain ⟨buffer, isn, prospect, rfl, parsed⟩ := Event.segment?_eq_some brings
  have begun : Consistent ((start settings now coreWorkers maxWorkers).run before) :=
    consistent_run settings now coreWorkers maxWorkers before
  have consistent : Consistent ((start settings now coreWorkers maxWorkers).run
      (before ++ [.packet buffer isn prospect])) :=
    consistent_run settings now coreWorkers maxWorkers _
  have traced : Traced r := traced_run settings now coreWorkers maxWorkers _
  have whole : r = ((start settings now coreWorkers maxWorkers).run
      (before ++ [.packet buffer isn prospect])).run later := by
    rw [← run_append, List.append_assoc, List.singleton_append]
  have handled : (start settings now coreWorkers maxWorkers).run
      (before ++ [.packet buffer isn prospect]) =
      ((start settings now coreWorkers maxWorkers).run before).handleSyn syn isn prospect := by
    rw [run_append, run_cons, run_nil, step_segment _ parsed, handleSegment, if_pos isSyn]
  rw [handled] at opened consistent whole
  obtain ⟨t, known, follows⟩ := follows_opened begun isSyn notFin isn prospect fresh opened stream
  obtain ⟨u, known, own, expects, m, near, takes⟩ :=
    follows.run consistent known rfl arrivals gapless
  rw [← whole] at known
  obtain ⟨at_id, effects⟩ := history_eq_some.1 known
  have sent : r.sentBy id = segments (r.effectsOf (some id)) :=
    traced.sentBy at_id (by rw [own]; rfl)
  have told : ∀ {n : Nat}, Turn.Takes stream (syn.tcp.seq + 1) n ([] ++ overlaps 0 pieces) u →
      relayed (r.effectsOf (some id)) ++ u.session.state.outbound.bytes = stream.take n ∧
        n ≤ stream.length ∧ ∀ s ∈ r.sentBy id, s.flags.has .ack = true →
          ∃ a, s.ack = syn.tcp.seq + 1 + UInt32.ofNat a ∧ (a ≤ n ∨ a ∈ overlaps 0 pieces) := by
    intro n takes
    rw [sent, effects]
    exact ⟨takes.taken, takes.within, takes.acks⟩
  -- An open session has taken all that came in order; a closed one what had come by then.
  by_cases opened : u.session.socket.isSome = true
  · obtain ⟨bytes, within, acks⟩ := told (expects opened).toTakes
    exact ⟨u.session, _, at_id, bytes, Nat.le_refl _, within, fun _ => rfl, acks⟩
  · obtain ⟨bytes, within, acks⟩ := told takes
    exact ⟨u.session, m, at_id, bytes, near, within,
      fun some_socket => absurd some_socket opened, acks⟩

/-- A stream of three bytes arrives in four parts, the second a duplicate of the first, and the
third overlapping the end of it. -/
theorem run_takes_overlap :
    let packet (flags : UInt8) (seq : UInt32) (payload : Bytes) : Event := .packet
      (sampleSegment flags seq 0 payload) 500 (.smooth [])
    let r := (start .plain 0 1 1).run [packet 2 0 [], packet 16 1 [97, 98], packet 16 1 [97, 98],
      .pass (fun _ => 0) (fun _ => 0), packet 16 2 [98, 99], packet 16 3 [99]]
    ∃ session, r.sessions[0]? = some session ∧ session.socket.isSome = true ∧
      relayed (r.effectsOf (some 0)) ++ session.state.outbound.bytes = [97, 98, 99] := by
  intro packet r
  let later := [packet 16 1 [97, 98], packet 16 1 [97, 98], .pass (fun _ => 0) (fun _ => 0),
    packet 16 2 [98, 99], packet 16 3 [99]]
  let syn := (packet 2 0 []).segment?.get (by decide +kernel)
  let pieces := (flow syn.key later).zipWith (fun s o => Piece.mk o s) [0, 0, 1, 2]
  have brings : (packet 2 0 []).segment? = some syn := (Option.some_get _).symm
  have isSyn : syn.tcp.isSyn = true := by decide +kernel
  have notFin : syn.tcp.isFin = false := by decide +kernel
  have opened : ((start .plain 0 1 1).run ([] ++ [packet 2 0 []])).lookup syn.key = some 0 := by
    decide +kernel
  have arrivals : flow syn.key later = pieces.map (·.segment) := by decide +kernel
  have gapless : Gapless [97, 98, 99] (syn.tcp.seq + 1) 0 pieces := by decide +kernel
  have still_open : ((r.sessions[0]?.bind (·.socket)).isSome) = true := by decide +kernel
  have all : inOrder pieces 0 = 3 := by decide +kernel
  obtain ⟨session, n, at_id, bytes, -, -, whole, -⟩ :=
    run_takes .plain 0 1 1 [] later brings isSyn notFin rfl opened arrivals gapless
  have at_id : r.sessions[0]? = some session := at_id
  rw [at_id] at still_open
  refine ⟨session, at_id, still_open, bytes.trans ?_⟩
  rw [whole still_open, all]
  rfl

/-- Nothing waits for a part that is missing: the second byte of a stream is taken before the first.
A part that overlaps the end of what has been taken is acknowledged although it is refused. What is
old is taken again while zero is expected. And the reset of a SYN with FIN acknowledges both. -/
theorem gap_and_overlap :
    let packet (flags : UInt8) (seq : UInt32) (payload : Bytes) : Event := .packet
      (sampleSegment flags seq 0 payload) 500 (.smooth [.failure .reset])
    let pass : Event := .pass (fun _ => 0) (fun _ => 0)
    let carried (base : UInt32) (o : Nat) (e : Event) : Bool :=
      e.segment?.any fun s => decide (Piece.Carries ⟨o, s⟩ [97, 98] base)
    let run (events : List Event) : Relay := (start .plain 0 1 1).run events
    let taken (r : Relay) : Option Bytes := r.sessions[0]?.map fun session =>
      relayed (r.effectsOf (some 0)) ++ session.state.outbound.bytes
    let last (r : Relay) : Option UInt32 := (r.sentBy 0).getLast?.map (·.ack)
    (carried 1 1 (packet 16 2 [98]) = true ∧
      taken (run [packet 2 0 [], packet 16 2 [98]]) = some [98] ∧ ¬ [98] <+: [97, 98]) ∧
    (carried 1 0 (packet 16 1 [97]) = true ∧ carried 1 0 (packet 16 1 [97, 98]) = true ∧
      taken (run [packet 2 0 [], packet 16 1 [97], packet 16 1 [97, 98]]) = some [97] ∧
      last (run [packet 2 0 [], packet 16 1 [97], packet 16 1 [97, 98]]) = some (1 + 2)) ∧
    (carried 0xffffffff 0 (packet 16 0xffffffff [97]) = true ∧
      taken (run [packet 2 0xfffffffe [], packet 16 0xffffffff [97],
        packet 16 0xffffffff [97]]) = some [97, 97] ∧ ¬ [97, 97] <+: [97, 98]) ∧
    (taken (run [packet 3 0 [], pass]) = some [] ∧
      last (run [packet 3 0 [], pass]) = some (1 + 1)) := by
  intro packet pass carried run taken last
  decide +kernel

end Relay
end PacketRelay
