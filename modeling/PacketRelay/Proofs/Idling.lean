import PacketRelay.Proofs.Datagrams
import PacketRelay.Proofs.Removal

/-!
How long a session lasts.

A pass takes out the sessions that have been silent for longer than the timeout. What breaks the
silence is told by the events alone: `Relay.active` lists it, and a session notes the moment at
which that happened last. It notes it in whole milliseconds after its creation, so what is left of
the last one counts as silence. A pass serves a session before it looks at what was noted, so what
the socket delivers in the pass itself still counts.
-/

set_option autoImplicit false

namespace PacketRelay

open Session (Key Turn Pass Classifier Verdict)

namespace Session

/-- What decides how long a session has been silent: its creation and its last sign of life. -/
def dates (s : Session) : Nat × Nat := (s.created, s.lastSeen)

@[simp] theorem dates_update (s : Session) (f : State → State) : (s.update f).dates = s.dates := rfl

private theorem idleFor_dates {s s' : Session} (same : s.dates = s'.dates) (now : Nat) :
    s.idleFor now = s'.idleFor now := by
  obtain ⟨created, seen⟩ := Prod.mk.inj same
  unfold idleFor age
  rw [created, seen]

private theorem dates_touch {s s' : Session} (same : s.dates = s'.dates) (now : Nat) :
    (s.touch now).dates = (s'.touch now).dates := by
  have created : s.created = s'.created := congrArg Prod.fst same
  unfold touch dates age
  rw [created]

namespace Turn

variable {t u v : Turn} {now : Nat}

/-- Nothing is delivered, and the session has shown no life. -/
structure Sleeps (t u : Turn) : Prop where
  unread : Adds (fun e => e.payload? .ingress = none) t u
  dates : u.session.dates = t.session.dates

private theorem Sleeps.refl (t : Turn) : t.Sleeps t := ⟨.none rfl, rfl⟩

private theorem Sleeps.trans (first : t.Sleeps u) (second : u.Sleeps v) : t.Sleeps v :=
  ⟨first.unread.trans second.unread, second.dates.trans first.dates⟩

private theorem sleeps_emit {e : Effect} (unread : e.payload? .ingress = none) :
    t.Sleeps (t.emit e) :=
  ⟨.one rfl unread, rfl⟩

private theorem sleeps_update (f : State → State) : t.Sleeps (t.update f) := ⟨.none rfl, rfl⟩

private theorem sleeps_withSocket (socket : Socket) :
    t.Sleeps (t.withSocket socket) := ⟨.none rfl, rfl⟩

private theorem sleeps_classify (classifier : Classifier) (direction : Direction)
    (payload : Bytes) : t.Sleeps (t.classify classifier direction payload) := by
  obtain ⟨_, _, _, frame⟩ := t.classify_frame classifier direction payload
  exact ⟨(t.adds_classify classifier direction payload).imp fun _ ⟨_, same⟩ => same ▸ rfl,
    (congrArg Session.dates frame).trans (dates_update _ _)⟩

private theorem sleeps_flush : t.Sleeps t.flush.1 := by
  refine ⟨t.adds_flush.imp fun _ ⟨_, _, same⟩ => same ▸ rfl, ?_⟩
  cases opened : t.session.socket with
  | none => rw [flush_none t opened]
  | some socket => rw [flush_some t opened rfl]; rfl

private theorem sleeps_leave : t.Sleeps t.report.shut := by
  have shut : t.report.Sleeps t.report.shut := by
    refine ⟨t.report.adds_shut.imp fun _ ⟨_, same⟩ => same ▸ rfl, ?_⟩
    unfold Turn.shut
    split <;> rfl
  exact (sleeps_emit rfl).trans shut

private theorem sleeps_endStream (next : UInt32) : t.Sleeps (t.endStream next) := by
  unfold endStream sendFin
  split
  · exact sleeps_update _
  · exact ⟨.one rfl rfl, rfl⟩

private theorem sleeps_remoteClose : t.Sleeps t.remoteClose := by
  rw [remoteClose_eq]
  split
  · exact sleeps_update _
  · exact sleeps_endStream _

private theorem sleeps_resendAck : t.Sleeps t.resendAck := by
  unfold resendAck
  split
  · exact .refl t
  · exact sleeps_emit rfl

private theorem sleeps_abort : t.Sleeps t.abort := by
  have reset : t.Sleeps t.resetStream := by
    unfold resetStream resetPeer
    split
    · split
      · exact .refl t
      · exact sleeps_emit rfl
    · exact .refl t
  exact reset.trans sleeps_leave

section Packets

variable (s : Inbound.Segment) (classifier : Classifier)

private theorem sleeps_takePayload : t.Sleeps (t.takePayload s classifier now) := by
  have queued : t.Sleeps (t.queue s) := ⟨.one rfl rfl, rfl⟩
  rw [takePayload_eq]
  exact ((queued.trans (sleeps_classify classifier .egress s.payload)).trans
    (sleeps_update _)).trans (sleeps_emit rfl)

private theorem sleeps_takeAck : t.Sleeps (t.takeAck s now) := by
  have noted : t.Sleeps (t.noteAck s now) := sleeps_update _
  rw [takeAck_eq]
  split
  · exact noted.trans (sleeps_endStream _)
  · exact noted

private theorem sleeps_takePush : t.Sleeps (t.takePush s now) := by
  rw [takePush_eq]
  split
  · exact sleeps_update _
  · exact .refl t

private theorem sleeps_takeEnd (inOrder : Bool) : t.Sleeps (t.takeEnd s inOrder) := by
  unfold takeEnd
  split
  · split
    · exact sleeps_emit rfl
    · exact .refl t
  · split
    · exact sleeps_update _
    · exact .refl t

private theorem sleeps_receiveAck : t.Sleeps (t.receiveAck s classifier now).1 := by
  have ends : ∀ (v : Turn) (inOrder : Bool), v.Sleeps ((v.takePush s now).takeEnd s inOrder) :=
    fun v inOrder => (sleeps_takePush s).trans (sleeps_takeEnd s inOrder)
  have remembered : t.Sleeps (t.update fun st => st.rememberTcp s.ip s.tcp) := sleeps_update _
  refine remembered.trans (.trans ?_ (ends _ _))
  split
  · exact sleeps_takeAck s
  · split
    · exact sleeps_takePayload s classifier
    · exact sleeps_emit rfl

private theorem sleeps_finish : t.Sleeps t.finish.shut := by
  have cancelled : t.Sleeps (t.emit (.cancel t.session.key)) := sleeps_emit rfl
  have flushed : t.Sleeps (if t.state.connected && 0 < t.state.outbound.size then
      (t.emit (.cancel t.session.key)).flush.1 else t.emit (.cancel t.session.key)) := by
    split
    · exact cancelled.trans sleeps_flush
    · exact cancelled
  exact flushed.trans sleeps_leave

private theorem sleeps_tell (refresh : Bool) : t.Sleeps (t.tell refresh) := by
  cases refresh with
  | false => exact .refl t
  | true => exact sleeps_emit rfl

private theorem sleeps_takeDatagram (d : Inbound.Datagram) (opened : Bool) :
    t.Sleeps (t.takeDatagram d opened classifier) := by
  have queued : t.Sleeps (t.queueDatagram d opened) := ⟨.one rfl rfl, rfl⟩
  rw [takeDatagram_eq]
  exact (queued.trans (sleeps_classify classifier .egress d.payload)).trans (sleeps_update _)

private theorem unread_touch :
    Adds (fun e => e.payload? .ingress = none) t (t.touch now) := .none rfl

private theorem unread_hear :
    Adds (fun e => e.payload? .ingress = none) t (t.hear s classifier now) := by
  have heard : Adds _ t (t.receiveAck s classifier now).1 :=
    (sleeps_receiveAck s classifier).unread
  unfold hear conclude
  split
  · exact heard.trans sleeps_finish.unread
  · split
    · exact heard.trans (sleeps_tell _).unread
    · exact (heard.trans (sleeps_tell _).unread).trans unread_touch

private theorem unread_handle (packet : Inbound) :
    Adds (fun e => e.payload? .ingress = none) t (t.handle classifier now packet) := by
  cases packet with
  | segment s =>
    simp only [handle]
    split
    · exact sleeps_resendAck.unread
    · split
      · exact unread_hear s classifier
      · split
        · exact unread_touch
        · split
          · exact .none rfl
          · exact .none rfl
  | datagram d =>
    have taken := sleeps_takeDatagram (t := t) classifier d false
    have told := taken.trans (sleeps_emit (e := .refresh d.key) rfl)
    exact told.unread.trans unread_touch
  | echoRequest | ignored => exact .none rfl

private theorem dates_conclude (opened : t.session.socket.isSome = true) (verdict : Verdict) :
    let u := t.conclude now verdict
    u.session.dates = if u.session.socket.isSome && !u.state.aborting then (t.session.touch now).dates
      else t.session.dates := by
  intro u
  cases verdict with
  | close =>
    have closed : u.session.socket = none := socket_shut
    rw [closed]
    exact sleeps_finish.dates
  | stay refresh =>
    have told := t.session_tell refresh
    have state : (t.tell refresh).state = t.state := congrArg Session.state told
    have still_open : u.session.socket.isSome = true :=
      (congrArg Option.isSome (t.socket_conclude now refresh)).trans opened
    rw [still_open, Bool.true_and]
    by_cases aborting : t.state.aborting = true
    · have same : u = t.tell refresh := if_pos aborting
      rw [same, state, aborting]
      exact congrArg Session.dates told
    · have same : u = (t.tell refresh).touch now := if_neg aborting
      have still : ((t.tell refresh).touch now).state.aborting = false := by
        rw [← Bool.eq_false_iff.2 aborting, ← state]
        rfl
      rw [same, still]
      exact dates_touch (congrArg Session.dates told) now

private theorem dates_handle (opened : t.session.socket.isSome = true) :
    let u := t.handle classifier now (.segment s)
    u.session.dates =
      if !s.tcp.isSyn && (if s.tcp.isAck then u.session.socket.isSome && !u.state.aborting
        else s.tcp.isFin) then (t.session.touch now).dates else t.session.dates := by
  intro u
  cases isSyn : s.tcp.isSyn with
  | true =>
    have same : u = t.resendAck := if_pos isSyn
    rw [same]
    exact sleeps_resendAck.dates
  | false =>
    cases isAck : s.tcp.isAck with
    | true =>
      have same : u = t.hear s classifier now := t.handle_hear isSyn isAck
      have received : (t.receiveAck s classifier now).1.session.socket.isSome = true := by
        rw [socket_receiveAck]
        exact opened
      have concluded : ((t.receiveAck s classifier now).1.conclude now _).session.dates = _ :=
        dates_conclude received (t.receiveAck s classifier now).2
      have heard : (t.receiveAck s classifier now).1.session.dates = t.session.dates :=
        (sleeps_receiveAck s classifier).dates
      rw [heard, dates_touch heard now] at concluded
      rw [same]
      exact concluded
    | false =>
      have same : u = if s.tcp.isFin then t.touch now
          else if s.tcp.isRst then t.update fun st => { st with aborting := true } else t := by
        simp only [u, handle, isSyn, isAck, Bool.false_eq_true, if_false]
      rw [same]
      cases s.tcp.isFin <;> cases s.tcp.isRst <;> rfl

end Packets

section Stirring

/-- The session has shown life now if something was delivered, and none otherwise. -/
def Stirs (now : Nat) (t u : Turn) : Prop :=
  deliveries u.effects = deliveries t.effects ∧ u.session.dates = t.session.dates ∨
    (deliveries t.effects).length < (deliveries u.effects).length ∧
      u.session.dates = (t.session.touch now).dates

private theorem Sleeps.stirs (sleeps : t.Sleeps u) (now : Nat) : Stirs now t u :=
  .inl ⟨deliveries_of_adds sleeps.unread, sleeps.dates⟩

private theorem Stirs.trans (first : Stirs now t u) (second : Stirs now u v) : Stirs now t v := by
  obtain ⟨same, seen⟩ | ⟨more, seen⟩ := second
  · unfold Stirs
    rw [same, seen]
    exact first
  · obtain ⟨same, before⟩ | ⟨earlier, before⟩ := first
    · exact .inr ⟨same ▸ more, seen.trans (dates_touch before now)⟩
    · exact .inr ⟨Nat.lt_trans earlier more, seen.trans (dates_touch before now)⟩

variable (classifier : Classifier) (now : Nat)

private theorem stirs_deliver (t : Turn) (bytes : Bytes) :
    Stirs now t (t.deliver bytes classifier true now) := by
  refine .inr ⟨?_, ?_⟩
  · rw [deliveries_deliver, List.length_append]
    exact Nat.lt_succ_self _
  · have classified : (t.emit (.receive bytes)).Sleeps _ :=
      sleeps_classify classifier .ingress bytes
    obtain ⟨_, _, handed⟩ :=
      ((t.emit (.receive bytes)).classify classifier .ingress bytes).handOn_frame bytes
    have handed := (congrArg Session.dates handed).trans (dates_update _ _)
    rw [deliver_eq, if_pos rfl]
    exact dates_touch (handed.trans classified.dates) now

private theorem stirs_readAll (n : Nat) (t : Turn) :
    Stirs now t (readAll classifier true now n t).1 := by
  induction n generalizing t with
  | zero => exact (Sleeps.refl t).stirs now
  | succ n ih =>
    cases opened : t.session.socket with
    | none =>
      simp only [readAll, opened]
      exact (Sleeps.refl t).stirs now
    | some socket =>
      rcases r : socket.read with ⟨e | bytes, after⟩
      · have idle := (sleeps_withSocket (t := t) after).stirs now
        cases e <;> simp only [readAll, opened, r] <;> first | exact idle | exact idle.trans (ih _)
      · have idle := (sleeps_withSocket (t := t) after).stirs now
        simp only [readAll, opened, r]
        split
        · exact idle
        · exact (idle.trans (stirs_deliver classifier now _ bytes)).trans (ih _)

private theorem stirs_exchange (t : Turn) : Stirs now t (t.exchange classifier true now).1 := by
  have flushed : ∃ v failure, (if 0 < t.state.outbound.size || t.state.dataReady then t.flush
      else (t, none)) = (v, failure) ∧ t.Sleeps v := by
    split
    · exact ⟨_, _, rfl, sleeps_flush⟩
    · exact ⟨_, _, rfl, .refl t⟩
  obtain ⟨v, failure, eq, sleeps⟩ := flushed
  have sleeps := sleeps.stirs now
  unfold exchange
  rw [eq]
  cases failure with
  | some e => exact sleeps
  | none =>
    simp only
    split
    · exact sleeps
    · exact sleeps.trans (stirs_readAll classifier now _ v)

private theorem stirs_pump (t : Turn) : Stirs now t (t.pump classifier true now).1 := by
  unfold pump
  split
  · exact (Sleeps.refl t).stirs now
  · split
    · exact t.stirs_exchange classifier now
    · split
      case h_1 | h_2 => exact (sleeps_withSocket _).stirs now
      case h_3 after _ =>
        have connects : t.Sleeps ((t.withSocket after).update fun s => s.setConnected true) :=
          (sleeps_withSocket after).trans (sleeps_update _)
        exact (connects.stirs now).trans (stirs_exchange classifier now _)

private theorem stirs_serve (t : Turn) : Stirs now t (t.serve classifier now) := by
  have pumped := t.stirs_pump classifier now
  unfold serve
  split
  · exact sleeps_abort.stirs now
  · rcases eq : t.pump classifier true now with ⟨u, _ | _ | _ | _⟩ <;> rw [eq] at pumped
    · exact pumped
    · exact pumped.trans (sleeps_remoteClose.stirs now)
    · exact pumped.trans (sleeps_abort.stirs now)
    · exact pumped

end Stirring

end Turn

/-- A service ends the session: it is to be aborted, or its socket fails. -/
def Collapses (s : Session) (classifier : Classifier) (now : Nat) : Prop :=
  s.state.aborting = true ∨ ∃ errno, ((Turn.start s).pump classifier true now).2 = .failed errno

private theorem Turn.socket_serve {t : Turn} {settings : Relay.Settings} (now : Nat)
    (opened : t.session.socket.isSome = true) :
    (t.serve settings.ingressClassifier now).session.socket.isSome = true ↔
      ¬ t.session.Collapses settings.ingressClassifier now := by
  have aborted : ∀ u : Turn, u.abort.session.socket = none := fun _ => Turn.socket_shut
  have passed : Turn.Passed settings .anything t _ _ := Turn.pump_passed now opened
  unfold Collapses Turn.serve
  rw [Turn.pump_start]
  by_cases aborting : t.state.aborting = true
  · have same : t.session.state.aborting = true := aborting
    rw [if_pos aborting, same, aborted]
    simp
  · have same : t.session.state.aborting = false := Bool.eq_false_iff.2 aborting
    rw [if_neg aborting, same]
    rcases eq : t.pump settings.ingressClassifier true now with ⟨u, _ | _ | _ | _⟩ <;>
      rw [eq] at passed
    · simpa using passed.opened
    · rw [Turn.alike_remoteClose.socket]
      simpa using passed.opened
    · rw [aborted]
      simp
    · exact absurd rfl passed.notGone

end Session

namespace Relay

variable {r : Relay} {id : SessionId} {t u : Turn} {e : Event}

section Activity

variable (id : SessionId) (r : Relay) (e : Event)

/-- The event opens the session. -/
def begins : Bool := r.sessions[id]?.isNone && (r.step e).sessions[id]?.isSome

/-- The event brings a packet of the session's flow that is a sign of life: a datagram, a segment
with ACK and without SYN that neither closes the session nor leaves it to be aborted, or a FIN
without both. -/
def greets : Bool :=
  match e.inbound? with
  | some (.datagram d) => r.lookup d.key == some id
  | some (.segment s) => r.lookup s.key == some id && (!s.tcp.isSyn &&
      if s.tcp.isAck then (r.step e).lookup s.key == some id &&
        (r.step e).sessions[id]?.all (!·.state.aborting)
      else s.tcp.isFin)
  | _ => false

/-- The socket of the session delivers something: bytes, or a datagram, which may be empty. -/
def delivers : Bool :=
  (deliveries (r.effectsOf (some id))).length <
    (deliveries ((r.step e).effectsOf (some id))).length

def active : Bool := begins id r e || greets id r e || delivers id r e

/-- The moments at which a session is active in a run, in order. -/
def activities (events : List Event) : List Nat :=
  collect (fun r e => if active id r e then [r.now] else []) r events

end Activity

private theorem Listed.lookup_eq_some (h : Listed r) (known : r.history id = some t) {key : Key} :
    r.lookup key = some id ↔ t.session.key = key ∧ t.session.socket.isSome = true := by
  constructor
  · intro found
    obtain ⟨v, there, own, opened⟩ := h.found key id found
    obtain rfl : t = v := Option.some.inj (known.symm.trans there)
    exact ⟨own, opened⟩
  · rintro ⟨rfl, opened⟩
    exact h.listed id t known opened

section Step

private theorem begins_of_known (known : r.history id = some t) : begins id r e = false := by
  unfold begins
  rw [(Stands.refl known).session]
  rfl

private theorem delivers_eq (known : r.history id = some t)
    (later : (r.step e).history id = some u) :
    delivers id r e = decide ((deliveries t.effects).length < (deliveries u.effects).length) := by
  unfold delivers
  rw [(history_eq_some.1 known).2, (history_eq_some.1 later).2]

private theorem Listed.greets_apart (h : Listed r) (known : r.history id = some t)
    (apart : t.session.socket.isSome = true → ∀ packet, e.inbound? = some packet →
      packet.key? ≠ some t.session.key) : greets id r e = false := by
  have missed : ∀ packet key, e.inbound? = some packet → packet.key? = some key →
      (r.lookup key == some id) = false := by
    intro packet key brings own
    refine beq_eq_false_iff_ne.2 fun found => ?_
    obtain ⟨rfl, opened⟩ := (h.lookup_eq_some known).1 found
    exact apart opened packet brings own
  unfold greets
  split
  case h_1 d brings => exact missed _ _ brings rfl
  case h_2 s brings => rw [missed _ _ brings rfl, Bool.false_and]
  case h_3 => rfl

private theorem Listed.greets_datagram (h : Listed r) (known : r.history id = some t)
    (opened : t.session.socket.isSome = true) {d : Inbound.Datagram}
    (brings : e.inbound? = some (.datagram d)) (own : d.key = t.session.key) :
    greets id r e = true := by
  unfold greets
  rw [brings]
  exact beq_iff_eq.2 ((h.lookup_eq_some known).2 ⟨own.symm, opened⟩)

private theorem Consistent.greets_segment (h : Consistent r) (known : r.history id = some t)
    (opened : t.session.socket.isSome = true) (later : (r.step e).history id = some u)
    {s : Inbound.Segment} (brings : e.inbound? = some (.segment s)) (own : s.key = t.session.key) :
    greets id r e = (!s.tcp.isSyn && if s.tcp.isAck then
      u.session.socket.isSome && !u.state.aborting else s.tcp.isFin) := by
  have after : Consistent (r.step e) := Changes.consistent h (h.step e)
  have mine : u.session.key = s.key := (h.key_step known later).trans own.symm
  have found : (r.lookup s.key == some id) = true :=
    beq_iff_eq.2 ((h.lookup_eq_some known).2 ⟨own.symm, opened⟩)
  have stays : ((r.step e).lookup s.key == some id) = u.session.socket.isSome := by
    rw [Bool.eq_iff_iff, beq_iff_eq, after.lookup_eq_some later]
    exact and_iff_right mine
  unfold greets
  simp only [brings, found, stays, (Stands.refl later).session, Bool.true_and, Option.all_some]
  rfl

private theorem active_of_unread (known : r.history id = some t)
    (later : (r.step e).history id = some u)
    (unread : Turn.Adds (fun e => e.payload? .ingress = none) t u) :
    active id r e = greets id r e := by
  unfold active
  rw [begins_of_known known, delivers_eq known later, deliveries_of_adds unread,
    decide_eq_false (Nat.lt_irrefl _), Bool.false_or, Bool.or_false]

private theorem active_of_stirs (known : r.history id = some t)
    (later : (r.step e).history id = some u) (ungreeted : greets id r e = false)
    (stirs : Turn.Stirs r.now t u) :
    u.session.dates =
      if active id r e then (t.session.touch r.now).dates else t.session.dates := by
  unfold active
  rw [begins_of_known known, ungreeted, delivers_eq known later, Bool.false_or, Bool.false_or]
  obtain ⟨same, seen⟩ | ⟨more, seen⟩ := stirs
  · rw [same, decide_eq_false (Nat.lt_irrefl _)]
    exact seen
  · rw [decide_eq_true more]
    exact seen

private theorem Consistent.dates_step (h : Consistent r) (known : r.history id = some t)
    (later : (r.step e).history id = some u) (befalls : Befalls r id t e u) :
    u.session.dates =
      if active id r e then (t.session.touch r.now).dates else t.session.dates := by
  have asleep : t.Sleeps u → greets id r e = false → _ := fun sleeps ungreeted =>
    active_of_stirs known later ungreeted (sleeps.stirs r.now)
  cases befalls with
  | @handled _ packet brings read own opened =>
    rw [active_of_unread known later (Session.Turn.unread_handle _ packet)]
    cases packet with
    | segment s =>
      rw [h.greets_segment known opened later brings (Option.some.inj own)]
      exact Session.Turn.dates_handle s _ opened
    | datagram d =>
      rw [h.greets_datagram known opened brings (Option.some.inj own), if_pos rfl]
      exact Session.dates_touch (Session.Turn.sleeps_takeDatagram _ d false).dates r.now
    | echoRequest | ignored => cases own
  | served first second opened =>
    have ungreeted : greets id r (.pass first second) = false := rfl
    exact active_of_stirs known later ungreeted (t.stirs_serve _ r.now)
  | evicted first second opened =>
    have ungreeted : greets id r (.pass first second) = false := rfl
    exact active_of_stirs known later ungreeted
      ((t.stirs_serve _ r.now).trans (Session.Turn.sleeps_leave.stirs r.now))
  | met outlook => exact asleep ⟨.none rfl, rfl⟩ rfl
  | nothing apart =>
    exact asleep (.refl t) (h.greets_apart known fun opened => (apart opened).2)

private theorem Consistent.dates_opens (h : Consistent r) (known : (r.step e).history id = some u)
    (opens : Opens r u e) : active id r e = true ∧ u.session.dates = (r.now, 0) := by
  have fresh : r.lookup u.session.key = none := by
    cases opens with
    | admitted _ _ fresh => exact fresh
  have opened : u.session.socket.isSome = true ∧ u.session.dates = (r.now, 0) := by
    obtain ⟨s, isn, prospect, connected, -, -, -, rfl⟩ | ⟨d, prospect, -, read, -, rfl⟩ := opens.cases
    · exact ⟨rfl, rfl⟩
    · have begun : Turn.Opened r.settings (.started r.settings d prospect r.socketCount r.now) :=
        .datagram d read prospect r.socketCount r.now _ rfl
      refine ⟨socket_opened begun, ?_⟩
      refine (Session.dates_touch (Session.Turn.sleeps_takeDatagram _ d true).dates r.now).trans ?_
      simp [Session.touch, Session.dates, Session.age, newSession]
  have unborn : r.sessions[id]? = none := by
    refine Option.eq_none_iff_forall_ne_some.2 fun session at_id => ?_
    have before := history_of_session at_id
    have was_open := Changes.opened h (h.step e) before known opened.1
    have found := h.listed id _ before was_open
    rw [← h.key_step before known, fresh] at found
    cases found
  refine ⟨?_, opened.2⟩
  unfold active begins
  rw [unborn, (Stands.refl known).session]
  rfl

private theorem Consistent.inactive (h : Consistent r) (unborn : (r.step e).history id = none) :
    active id r e = false := by
  have before : r.history id = none := by
    refine Option.eq_none_iff_forall_ne_some.2 fun t known => ?_
    obtain ⟨u, later, -⟩ := h.befalls e known
    rw [unborn] at later
    cases later
  have absent : ∀ key, (r.lookup key == some id) = false := by
    intro key
    refine beq_eq_false_iff_ne.2 fun found => ?_
    obtain ⟨t, known, -⟩ := h.found key id found
    rw [before] at known
    cases known
  have gone : (r.step e).sessions[id]? = none := by
    refine Option.eq_none_iff_forall_ne_some.2 fun session at_id => ?_
    rw [history_of_session at_id] at unborn
    cases unborn
  have ungreeted : greets id r e = false := by
    unfold greets
    split
    · exact absent _
    · rw [absent, Bool.false_and]
    · rfl
  have after : Consistent (r.step e) := Changes.consistent h (h.step e)
  unfold active begins delivers
  rw [gone, ungreeted, h.effects_unborn before, after.effects_unborn unborn,
    decide_eq_false (Nat.lt_irrefl _)]
  simp

end Step

/-- A moment as it is noted by a session that was created at `first`: in whole milliseconds after
that. -/
def noted (first moment : Nat) : Nat := first + (moment - first) / millisecond * millisecond

/-- What a session notes is the last moment at which it was active. -/
private theorem run_dates (settings : Settings) (now coreWorkers maxWorkers : Nat)
    (events : List Event)
    (known : ((start settings now coreWorkers maxWorkers).run events).history id = some u) :
    ∃ first last,
      (activities id (start settings now coreWorkers maxWorkers) events).head? = some first ∧
      (activities id (start settings now coreWorkers maxWorkers) events).getLast? = some last ∧
      u.session.dates = (first, (last - first) / millisecond) := by
  refine run_told settings now coreWorkers maxWorkers
    (P := fun u (told : List Nat) => ∃ first last, told.head? = some first ∧
      told.getLast? = some last ∧ u.session.dates = (first, (last - first) / millisecond))
    ?silent ?opens ?befalls events (throughout_of_forall (fun _ _ => trivial) _ events) known rfl
  case silent =>
    intro r e h unborn
    rw [h.inactive unborn]
    rfl
  case opens =>
    intro r e u h _ later _ opens
    obtain ⟨active, dates⟩ := h.dates_opens later opens
    rw [active]
    refine ⟨r.now, r.now, rfl, rfl, ?_⟩
    rw [dates, Nat.sub_self, Nat.zero_div]
  case befalls =>
    intro r e t u told h _ _ known later _ befalls ⟨first, last, head, getLast, before⟩
    have dates := h.dates_step known later befalls
    cases active : active id r e with
    | true =>
      rw [active, if_pos rfl] at dates
      refine ⟨first, r.now, ?_, by simp, dates.trans ?_⟩
      · rw [List.head?_append, head]
        rfl
      · have created : t.session.created = first := congrArg Prod.fst before
        exact created ▸ rfl
    | false =>
      rw [active, if_neg Bool.false_ne_true] at dates
      exact ⟨first, last, by simpa using head, by simpa using getLast, dates.trans before⟩

private theorem idleFor_of_dates {session : Session} {first last : Nat}
    (dates : session.dates = (first, (last - first) / millisecond)) (now : Nat) :
    session.idleFor now = now - noted first last := by
  obtain ⟨created, seen⟩ := Prod.mk.inj dates
  unfold Session.idleFor Session.age noted
  rw [created, seen, Nat.sub_sub]

private theorem Consistent.activities_sorted (h : Consistent r) (events : List Event) :
    (activities id r events).Pairwise (· ≤ ·) ∧ ∀ moment ∈ activities id r events, r.now ≤ moment := by
  unfold activities
  induction events generalizing r with
  | nil => exact ⟨.nil, fun _ none => absurd none List.not_mem_nil⟩
  | cons e rest ih =>
    obtain ⟨sorted, later⟩ := ih (Changes.consistent h (h.step e))
    have later : ∀ moment ∈ collect _ (r.step e) rest, r.now ≤ moment := fun moment member =>
      Nat.le_trans (Changes.now_le (h.step e)) (later moment member)
    unfold collect
    split
    · refine ⟨List.pairwise_cons.2 ⟨later, sorted⟩, fun moment member => ?_⟩
      obtain rfl | member := List.mem_cons.1 member
      · exact Nat.le_refl _
      · exact later moment member
    · exact ⟨sorted, later⟩

private theorem noted_le {first last : Nat} (after : first ≤ last) :
    noted first last ≤ last ∧ last < noted first last + millisecond := by
  have cut := Nat.div_add_mod (last - first) millisecond
  have less := Nat.mod_lt (last - first) (show 0 < millisecond by decide)
  unfold noted
  rw [Nat.mul_comm millisecond] at cut
  omega

section Sweep

private theorem Consistent.left (h : Consistent r) (first second : SessionId → Nat)
    (known : r.history id = some t) (opened : t.session.socket.isSome = true) :
    ∃ u, (r.step (.pass first second)).history id = some u ∧
      ((r.step (.pass first second)).lookup t.session.key = some id ↔
        ¬ t.session.Collapses r.settings.ingressClassifier r.now ∧
          u.session.idleFor r.now ≤ r.settings.idleTimeout) := by
  have passed := h.passed first second known opened
  have after : Consistent (r.step (.pass first second)) := Changes.consistent h (h.step _)
  refine ⟨_, passed, ?_⟩
  rw [after.lookup_eq_some passed, and_iff_right (h.key_step known passed),
    ← Session.Turn.socket_serve r.now opened]
  generalize t.serve r.settings.ingressClassifier r.now = served
  split
  case isTrue evicted =>
    -- Taking a session out is no sign of life.
    have silent : served.report.shut.session.idleFor r.now = served.session.idleFor r.now :=
      Session.idleFor_dates Session.Turn.sleeps_leave.dates r.now
    rw [Turn.socket_shut, silent]
    constructor
    · rintro ⟨⟩
    · rintro ⟨-, soon⟩
      exact absurd evicted.2 (Nat.not_lt.2 soon)
  case isFalse kept =>
    exact ⟨fun opened => ⟨opened, Nat.not_lt.1 fun late => kept ⟨opened, late⟩⟩, And.left⟩

end Sweep

/-- What a pass leaves in the table, in full: the sessions that were there, that were neither to be
aborted nor failed in the pass, and whose last activity, be it in the pass itself, was noted within
the timeout. What is noted is less than a millisecond behind the activity. -/
theorem run_evicts (settings : Settings) (now coreWorkers maxWorkers : Nat) (events : List Event)
    (first second : SessionId → Nat) (key : Key) (id : SessionId) :
    let begun := start settings now coreWorkers maxWorkers
    let r := begun.run events
    let pass : Event := .pass first second
    let activity := activities id begun (events ++ [pass])
    ((r.step pass).lookup key = some id ↔ r.lookup key = some id ∧
      ∃ session created last, r.sessions[id]? = some session ∧
        ¬ session.Collapses settings.ingressClassifier r.now ∧
        activity.head? = some created ∧ activity.getLast? = some last ∧
        r.now - noted created last ≤ settings.idleTimeout) ∧
    ∀ created last, activity.head? = some created → activity.getLast? = some last →
      noted created last ≤ last ∧ last < noted created last + millisecond := by
  intro begun r pass activity
  have h : Consistent r := consistent_run settings now coreWorkers maxWorkers events
  have after : r.step pass = begun.run (events ++ [pass]) := (run_append begun events [pass]).symm
  refine ⟨⟨fun kept => ?_, ?_⟩, fun created last head getLast => ?_⟩
  · obtain ⟨u, later, own, opened⟩ := h.found_step kept
    -- A pass opens no session.
    obtain ⟨t, known⟩ : ∃ t, r.history id = some t := by
      refine Option.ne_none_iff_exists'.1 fun unborn => ?_
      have opens : Opens r u (.pass first second) := h.opens unborn later
      cases opens
    have own : t.session.key = key := (h.key_step known later).symm.trans own
    have was_open : t.session.socket.isSome = true := Changes.opened h (h.step pass) known later opened
    obtain ⟨v, same, left⟩ := h.left first second known was_open
    rw [own] at left
    obtain ⟨stands, soon⟩ := left.1 kept
    obtain ⟨created, last, head, getLast, dates⟩ :=
      run_dates settings now coreWorkers maxWorkers (events ++ [pass]) (after ▸ same)
    rw [settings_run settings, idleFor_of_dates dates] at soon
    rw [settings_run settings] at stands
    exact ⟨(h.toListed.lookup_eq_some known).2 ⟨own, was_open⟩, t.session, created, last,
      (Stands.refl known).session, stands, head, getLast, soon⟩
  · rintro ⟨found, session, created, last, at_id, stands, head, getLast, soon⟩
    obtain ⟨t, known, own, opened⟩ := h.found key id found
    obtain rfl : t.session = session :=
      Option.some.inj ((Stands.refl known).session.symm.trans at_id)
    obtain ⟨v, later, left⟩ := h.left first second known opened
    rw [own, settings_run settings] at left
    obtain ⟨_, _, its_head, its_last, dates⟩ :=
      run_dates settings now coreWorkers maxWorkers (events ++ [pass]) (after ▸ later)
    obtain rfl := Option.some.inj (head.symm.trans its_head)
    obtain rfl := Option.some.inj (getLast.symm.trans its_last)
    exact left.2 ⟨stands, (idleFor_of_dates dates r.now).symm ▸ soon⟩
  · have sorted : activity.Pairwise (· ≤ ·) :=
      ((consistent_start settings now coreWorkers maxWorkers).activities_sorted _).1
    have after := sorted.rel_head (List.mem_of_getLast? getLast)
    rw [(List.head_eq_iff_head?_eq_some _).2 head] at after
    exact noted_le after

/-- A session lasts for the whole timeout. A nanosecond later it is taken out, unless its socket
delivers something in that pass. -/
example :
    let syn : Event := .packet (sampleSegment 2 1000 0 []) 500 (.smooth [])
    let pass : Event := .pass (fun _ => 0) (fun _ => 0)
    let speaks : Event := .network 0 (Socket.Prospect.smooth [.data [97]]).socket
    let r := (start .plain 0 1 1).run [syn, .time (60000 * millisecond)]
    (r.step pass).table.ids = [0] ∧ (r.run [.time 1, pass]).table.ids = [] ∧
      (r.run [.time 1, speaks, pass]).table.ids = [0] := by
  decide +kernel

/-- A session was created 60000.5 milliseconds ago, and active 0.9 milliseconds later: it is evicted
although it has been silent for no longer than the timeout. And an empty datagram keeps a session
alive that nothing else has happened to since it was created. -/
theorem timeout_is_inexact :
    let datagram (payload : Bytes) : Event := .packet (sampleDatagram payload) 0 (.smooth [])
    let pass : Event := .pass (fun _ => 0) (fun _ => 0)
    let events : List Event :=
      [datagram [1], .time 900000, datagram [2], .time (60000 * millisecond - 400000)]
    let r := (start .plain 0 1 1).run events
    let silent := (start .plain 0 1 1).run [datagram [1], .time (40000 * millisecond),
      .network 0 (Socket.Prospect.smooth [.data []]).socket, pass, .time (40000 * millisecond)]
    ((activities 0 (start .plain 0 1 1) (events ++ [pass])).getLast? = some 900000 ∧
      r.now - 900000 ≤ Settings.plain.idleTimeout ∧ r.table.ids = [0] ∧
      (∃ session, r.sessions[0]? = some session ∧
        ¬ session.Collapses Settings.plain.ingressClassifier r.now) ∧
      (r.step pass).table.ids = []) ∧
    (silent.sessions[0]?.map (·.created) = some 0 ∧ received (silent.effectsOf (some 0)) = [] ∧
      Settings.plain.idleTimeout < silent.now ∧ silent.table.ids = [0] ∧
      (silent.step pass).table.ids = [0]) := by
  intro datagram pass events r silent
  have calm : r.sessions[0]?.map (fun s => (s.state.aborting,
      ((Turn.start s).pump Settings.plain.ingressClassifier true r.now).2)) =
      some (false, .keep) := by decide +kernel
  obtain ⟨session, at_zero, same⟩ := Option.map_eq_some_iff.1 calm
  obtain ⟨going, keeps⟩ := Prod.mk.inj same
  refine ⟨⟨by decide +kernel, by decide +kernel, by decide +kernel, ⟨session, at_zero, ?_⟩,
    by decide +kernel⟩, by decide +kernel⟩
  rintro (aborting | ⟨e, failed⟩)
  · cases going.symm.trans aborting
  · cases keeps.symm.trans failed

end Relay
end PacketRelay
