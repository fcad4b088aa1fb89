import Mathlib.Algebra.BigOperators.Group.Finset.Piecewise
import PacketRelay.Proofs.Life
import PacketRelay.Proofs.Sockets

/-!
What is told about flows, and what is closed.

A flow is told of when it is opened, when its first payload of a direction is recognized, and when
it leaves. Most moves have no effect that counts: they are `Steady`. The others hear a first payload
or take leave, and `Accounted` is what each of them keeps.
-/

set_option autoImplicit false

namespace PacketRelay

open Session (Direction Turn Classifier)

/-- The classifier of a direction. -/
def Relay.Settings.classifier (settings : Relay.Settings) : Direction → Classifier
  | .egress => settings.egressClassifier
  | .ingress => settings.ingressClassifier

namespace Effect

/-- The payload that an effect brings in a direction. -/
def payload? : Direction → Effect → Option Bytes
  | .egress, accept payload _ => some payload
  | .ingress, receive bytes => some bytes
  | _, _ => none

def isCreation : Effect → Bool
  | flowCreated _ => true
  | _ => false

def isUpdate : Effect → Bool
  | flowUpdated _ => true
  | _ => false

def shutdown? : Effect → Option Nat
  | shutdown number => some number
  | _ => none

/-- An effect that tells nothing of a flow, brings no payload and closes nothing. -/
structure Plain (e : Effect) : Prop where
  payload : ∀ direction, e.payload? direction = none
  creation : e.isCreation = false
  update : e.isUpdate = false
  shutdown : e.shutdown? = none

theorem plain_write (purpose : Purpose) (draft : Draft) : Plain (.write purpose draft) :=
  ⟨fun direction => by cases direction <;> rfl, rfl, rfl, rfl⟩

theorem plain_send (socket : Nat) (bytes : Bytes) : Plain (.send socket bytes) :=
  ⟨fun direction => by cases direction <;> rfl, rfl, rfl, rfl⟩

theorem plain_register (key : Session.Key) : Plain (.register key) :=
  ⟨fun direction => by cases direction <;> rfl, rfl, rfl, rfl⟩

theorem plain_refresh (key : Session.Key) : Plain (.refresh key) :=
  ⟨fun direction => by cases direction <;> rfl, rfl, rfl, rfl⟩

theorem plain_cancel (key : Session.Key) : Plain (.cancel key) :=
  ⟨fun direction => by cases direction <;> rfl, rfl, rfl, rfl⟩

end Effect

/-- The first payload of a direction that is not empty. Effects come latest first. -/
def firstPayload (direction : Direction) (effects : List Effect) : Option Bytes :=
  effects.reverse.findSome? fun e => (e.payload? direction).filter (· ≠ [])

/-- Whether the first payload of a direction is recognized. -/
def isHit (settings : Relay.Settings) (effects : List Effect) (direction : Direction) : Bool :=
  (firstPayload direction effects).any fun payload => (settings.classifier direction payload).isSome

/-- The number of directions whose first payload is recognized. -/
def hits (settings : Relay.Settings) (effects : List Effect) : Nat :=
  (isHit settings effects .egress).toNat + (isHit settings effects .ingress).toNat

def shutdowns (effects : List Effect) : List Nat := effects.filterMap (·.shutdown?)

section Plain

variable {new : List Effect} {direction : Direction}

private theorem firstPayload_cons (e : Effect) (effects : List Effect) :
    firstPayload direction (e :: effects) =
      (firstPayload direction effects).or ((e.payload? direction).filter (· ≠ [])) := by
  unfold firstPayload
  rw [List.reverse_cons, List.findSome?_append, List.findSome?_singleton]

theorem firstPayload_silent {e : Effect} (silent : ∀ direction, e.payload? direction = none)
    (effects : List Effect) :
    firstPayload direction (e :: effects) = firstPayload direction effects := by
  rw [firstPayload_cons, silent]
  simp

private theorem hits_silent {e : Effect} (silent : ∀ direction, e.payload? direction = none)
    (settings : Relay.Settings) (effects : List Effect) :
    hits settings (e :: effects) = hits settings effects := by
  simp only [hits, isHit, firstPayload_silent silent]

theorem silent_flowUpdated (flow : Session.Flow) (direction : Direction) :
    Effect.payload? direction (.flowUpdated flow) = none := by
  cases direction <;> rfl

theorem silent_shutdown (number : Nat) (direction : Direction) :
    Effect.payload? direction (.shutdown number) = none := by
  cases direction <;> rfl

private theorem firstPayload_plain (plain : ∀ e ∈ new, e.Plain) (effects : List Effect) :
    firstPayload direction (new ++ effects) = firstPayload direction effects := by
  induction new with
  | nil => rfl
  | cons e rest ih =>
    obtain ⟨first, later⟩ := List.forall_mem_cons.1 plain
    rw [List.cons_append, firstPayload_silent first.payload, ih later]

private theorem hits_plain (plain : ∀ e ∈ new, e.Plain) (settings : Relay.Settings)
    (effects : List Effect) :
    hits settings (new ++ effects) = hits settings effects := by
  simp only [hits, isHit, firstPayload_plain plain]

private theorem creations_plain (plain : ∀ e ∈ new, e.Plain) (effects : List Effect) :
    (new ++ effects).countP (·.isCreation) = effects.countP (·.isCreation) := by
  have : new.countP (·.isCreation) = 0 :=
    List.countP_eq_zero.2 fun e member => by simp [(plain e member).creation]
  rw [List.countP_append, this, Nat.zero_add]

private theorem updates_plain (plain : ∀ e ∈ new, e.Plain) (effects : List Effect) :
    (new ++ effects).countP (·.isUpdate) = effects.countP (·.isUpdate) := by
  have : new.countP (·.isUpdate) = 0 :=
    List.countP_eq_zero.2 fun e member => by simp [(plain e member).update]
  rw [List.countP_append, this, Nat.zero_add]

private theorem shutdowns_plain (plain : ∀ e ∈ new, e.Plain) (effects : List Effect) :
    shutdowns (new ++ effects) = shutdowns effects := by
  have : new.filterMap (·.shutdown?) = [] :=
    List.filterMap_eq_nil_iff.2 fun e member => (plain e member).shutdown
  unfold shutdowns
  rw [List.filterMap_append, this, List.nil_append]

end Plain

/-- An effect that brings a payload of one direction, and counts for nothing else. -/
structure Effect.Brings (e : Effect) (direction : Direction) (payload : Bytes) : Prop where
  payload : ∀ d, e.payload? d = if d = direction then some payload else none
  creation : e.isCreation = false
  update : e.isUpdate = false
  shutdown : e.shutdown? = none

theorem Effect.brings_accept (payload : Bytes) (length : Nat) :
    Effect.Brings (.accept payload length) .egress payload :=
  ⟨fun d => by cases d <;> rfl, rfl, rfl, rfl⟩

theorem Effect.brings_receive (bytes : Bytes) : Effect.Brings (.receive bytes) .ingress bytes :=
  ⟨fun d => by cases d <;> rfl, rfl, rfl, rfl⟩

section Brings

variable {e : Effect} {direction : Direction} {payload : Bytes} {effects : List Effect}

private theorem Effect.Brings.creations (brings : e.Brings direction payload)
    (effects : List Effect) :
    (e :: effects).countP (·.isCreation) = effects.countP (·.isCreation) :=
  List.countP_cons_of_neg (by rw [brings.creation]; exact Bool.false_ne_true)

private theorem Effect.Brings.updates (brings : e.Brings direction payload)
    (effects : List Effect) : (e :: effects).countP (·.isUpdate) = effects.countP (·.isUpdate) :=
  List.countP_cons_of_neg (by rw [brings.update]; exact Bool.false_ne_true)

private theorem Effect.Brings.shutdowns (brings : e.Brings direction payload)
    (effects : List Effect) : shutdowns (e :: effects) = PacketRelay.shutdowns effects :=
  List.filterMap_cons_none brings.shutdown

theorem firstPayload_again (brings : e.Brings direction payload)
    (again : payload = [] ∨ (firstPayload direction effects).isSome = true) (d : Direction) :
    firstPayload d (e :: effects) = firstPayload d effects := by
  rw [firstPayload_cons, brings.payload]
  split
  case isTrue same =>
    subst same
    rcases again with empty | known
    · simp [empty, Option.filter]
    · rw [Option.or_of_isSome known]
  case isFalse => simp

private theorem firstPayload_first (brings : e.Brings direction payload)
    (some_payload : payload ≠ [])
    (unheard : firstPayload direction effects = none) (d : Direction) :
    firstPayload d (e :: effects) =
      if d = direction then some payload else firstPayload d effects := by
  rw [firstPayload_cons, brings.payload]
  split
  case isTrue same =>
    subst same
    simp [unheard, some_payload]
  case isFalse => simp

private theorem hits_first (brings : e.Brings direction payload) (some_payload : payload ≠ [])
    (unheard : firstPayload direction effects = none) (settings : Relay.Settings) :
    hits settings (e :: effects) =
      hits settings effects + (settings.classifier direction payload).isSome.toNat := by
  have first := firstPayload_first brings some_payload unheard
  unfold hits isHit
  cases direction with
  | egress => simp [first, unheard]; omega
  | ingress => simp [first, unheard]

end Brings

namespace Session.Turn

variable {settings : Relay.Settings} {outside : Outside} {t u v : Turn}

/-- Nothing that counts happens to a session. -/
structure Steady (t u : Turn) : Prop where
  effects : Adds Effect.Plain t u
  socket : u.session.socket.map (·.number) = t.session.socket.map (·.number)
  classified : ∀ direction, u.state.classified direction = t.state.classified direction

private theorem Steady.refl (t : Turn) : t.Steady t := ⟨.none rfl, rfl, fun _ => rfl⟩

theorem Steady.trans (first : t.Steady u) (second : u.Steady v) : t.Steady v where
  effects := first.effects.trans second.effects
  socket := second.socket.trans first.socket
  classified direction := (second.classified direction).trans (first.classified direction)

theorem steady_emit {e : Effect} (plain : e.Plain) : t.Steady (t.emit e) :=
  ⟨.one rfl plain, rfl, fun _ => rfl⟩

theorem steady_update (f : State → State)
    (marks : ∀ direction, (f t.state).classified direction = t.state.classified direction) :
    t.Steady (t.update f) :=
  ⟨.none rfl, rfl, marks⟩

private theorem steady_withSocket {socket after : Socket} (opened : t.session.socket = some socket)
    (same : after.number = socket.number) : t.Steady (t.withSocket after) := by
  refine ⟨.none rfl, ?_, fun _ => rfl⟩
  rw [opened]
  simp [withSocket, same]

private theorem steady_reads {result : Except Errno Bytes} {after : Socket}
    (reads : t.Reads result after) : t.Steady (t.withSocket after) := by
  obtain ⟨socket, opened, read⟩ := reads.read
  obtain ⟨_, rfl⟩ := Socket.read_frame read
  exact steady_withSocket opened rfl

private theorem steady_checks {result : Except Errno Bool} {after : Socket}
    (checks : t.Checks result after) :
    t.Steady (t.withSocket after) := by
  obtain ⟨socket, opened, checked⟩ := checks.check
  obtain ⟨_, rfl⟩ := Socket.checkConnected_frame checked
  exact steady_withSocket opened rfl

private theorem steady_meet {outlook : Socket} : t.Steady (t.meet outlook) := by
  refine ⟨.none rfl, ?_, fun _ => rfl⟩
  cases opened : t.session.socket <;> simp [meet, opened, Socket.meet]

theorem steady_resendAck : t.Steady t.resendAck := by
  unfold resendAck
  split
  · exact .refl t
  · exact steady_emit (Effect.plain_write _ _)

theorem steady_resetPeer : t.Steady t.resetPeer := by
  unfold resetPeer
  split
  · exact .refl t
  · exact steady_emit (Effect.plain_write _ _)

theorem steady_endStream (next : UInt32) : t.Steady (t.endStream next) := by
  unfold endStream sendFin
  split
  · exact ⟨.none rfl, rfl, fun direction => by cases direction <;> rfl⟩
  · exact ⟨.one rfl (Effect.plain_write _ _), rfl, fun direction => by cases direction <;> rfl⟩

theorem steady_takeAck (s : Inbound.Segment) (now : Nat) : t.Steady (t.takeAck s now) := by
  have noted : t.Steady (t.noteAck s now) := by
    obtain ⟨_, _, _, _, _, frame⟩ := t.noteAck_frame now s
    refine ⟨.none rfl, by rw [frame]; rfl, fun direction => ?_⟩
    unfold state
    rw [frame]
    cases direction <;> rfl
  rw [takeAck_eq]
  split
  · exact noted.trans (steady_endStream _)
  · exact noted

theorem steady_takePush (s : Inbound.Segment) (now : Nat) : t.Steady (t.takePush s now) := by
  rw [takePush_eq]
  split
  · exact steady_update _ fun direction => by cases direction <;> rfl
  · exact .refl t

theorem steady_takeEnd (s : Inbound.Segment) (inOrder : Bool) : t.Steady (t.takeEnd s inOrder) := by
  unfold takeEnd
  split
  · split
    · exact steady_emit (Effect.plain_write _ _)
    · exact .refl t
  · split
    · exact steady_update _ fun direction => by cases direction <;> rfl
    · exact .refl t

theorem steady_remoteClose : t.Steady t.remoteClose := by
  rw [remoteClose_eq]
  split
  · exact steady_update _ fun direction => by cases direction <;> rfl
  · exact steady_endStream _

theorem steady_flush : t.Steady t.flush.1 := by
  cases opened : t.session.socket with
  | none =>
    rw [flush_none t opened]
    exact .refl t
  | some socket =>
    rw [flush_some t opened rfl]
    refine ⟨⟨_, rfl, fun e member => ?_⟩, ?_, fun direction => by cases direction <;> rfl⟩
    · obtain ⟨bytes, -, rfl⟩ := List.mem_map.1 member
      exact Effect.plain_send socket.number bytes
    · obtain ⟨room, frame⟩ := Socket.flush_frame t.state.outbound socket []
      simp [opened, frame]

private theorem steady_sendSegments (ip : Ip.Header) (tcp : Tcp.Header) (bytes : Bytes) :
    t.Steady (t.sendSegments ip tcp bytes) := by
  fun_induction sendSegments t ip tcp bytes with
  | case1 t => exact .refl t
  | case2 t first rest more ih =>
    refine Steady.trans ?_ ih
    exact (steady_update _ fun direction => by cases direction <;> rfl).trans
      (steady_emit (Effect.plain_write _ _))

theorem steady_enqueue (s : Inbound.Segment) : t.Steady (t.update (·.enqueue s)) :=
  steady_update _ fun direction => by cases direction <;> rfl

theorem steady_enqueueDatagram (d : Inbound.Datagram) (opened : Bool) :
    t.Steady (t.update (·.enqueueDatagram d opened)) := by
  refine steady_update _ fun direction => ?_
  cases opened <;> cases direction <;> rfl

theorem steady_acknowledge (s : Inbound.Segment) (now : Nat) :
    t.Steady ((t.stamp s now).acknowledge s) := by
  have stamped : t.Steady (t.stamp s now) :=
    steady_update _ fun direction => by cases direction <;> rfl
  exact stamped.trans (steady_emit (Effect.plain_write _ _))

theorem steady_ready : t.Steady (t.update fun st => { st with dataReady := true }) :=
  steady_update _ fun direction => by cases direction <;> rfl

theorem steady_handOn (bytes : Bytes) : t.Steady (t.handOn bytes) := by
  unfold handOn
  split
  · split
    · exact steady_sendSegments _ _ bytes
    · exact .refl t
  · split
    · exact (steady_emit (Effect.plain_write _ _)).trans
        (steady_update _ fun direction => by cases direction <;> rfl)
    · exact .refl t

/-- The socket with a number is open, or it has been shut down and was so once. -/
structure Holds (number : Nat) (t : Turn) : Prop where
  own : ∀ socket, t.session.socket = some socket → socket.number = number
  shut : shutdowns t.effects = if t.session.socket.isSome then [] else [number]

private theorem Holds.steady {number : Nat} (h : Holds number t)
    (socket : u.session.socket.map (·.number) = t.session.socket.map (·.number))
    (shutdowns : shutdowns u.effects = shutdowns t.effects) : Holds number u := by
  have same : u.session.socket.isSome = t.session.socket.isSome := by
    rw [← Option.isSome_map (f := Socket.number), socket, Option.isSome_map]
  refine ⟨fun after opened => ?_, ?_⟩
  · rw [opened] at socket
    obtain ⟨before, known, same⟩ := Option.map_eq_some_iff.1 socket.symm
    exact same.symm.trans (h.own before known)
  · rw [shutdowns, same, h.shut]

/-- What counts has been told of: the session once, each first payload that was recognized, and its
leave. -/
structure Accounted (settings : Relay.Settings) (number : Nat) (t : Turn) : Prop where
  created : t.effects.countP (·.isCreation) = 1
  classified : ∀ direction, t.state.classified direction = (firstPayload direction t.effects).isSome
  updated : t.effects.countP (·.isUpdate) =
    hits settings t.effects + (shutdowns t.effects).length
  holds : Holds number t

variable {number : Nat}

private theorem Accounted.steady (h : Accounted settings number t) (steady : t.Steady u) :
    Accounted settings number u := by
  obtain ⟨new, added, plain⟩ := steady.effects
  refine ⟨?_, fun direction => ?_, ?_, h.holds.steady steady.socket ?_⟩
  · rw [added, creations_plain plain, h.created]
  · rw [added, firstPayload_plain plain, steady.classified, h.classified]
  · rw [added, updates_plain plain, hits_plain plain, shutdowns_plain plain, h.updated]
  · rw [added, shutdowns_plain plain]

private theorem Accounted.hear_again (h : Accounted settings number t) {e : Effect}
    {direction : Direction} {payload : Bytes} (brings : e.Brings direction payload)
    (again : payload = [] ∨ (firstPayload direction t.effects).isSome = true) :
    Accounted settings number (t.emit e) := by
  have first : ∀ d, firstPayload d (e :: t.effects) = firstPayload d t.effects :=
    firstPayload_again brings again
  have hit : hits settings (e :: t.effects) = hits settings t.effects := by
    simp only [hits, isHit, first]
  refine ⟨(brings.creations t.effects).trans h.created, fun d => ?_, ?_,
    h.holds.steady rfl (brings.shutdowns t.effects)⟩
  · exact (h.classified d).trans (congrArg Option.isSome (first d).symm)
  · show (e :: t.effects).countP _ =
      hits settings (e :: t.effects) + (shutdowns (e :: t.effects)).length
    rw [brings.updates, hit, brings.shutdowns, h.updated]

theorem classified_first {e : Effect} {direction : Direction} {payload : Bytes}
    (classified : ∀ d, t.state.classified d = (firstPayload d t.effects).isSome)
    (brings : e.Brings direction payload) (some_payload : payload ≠ [])
    (unheard : firstPayload direction t.effects = none) (d : Direction) :
    (t.state.claim direction).classified d = (firstPayload d (e :: t.effects)).isSome := by
  -- The mark is set before the classifier is asked, so it agrees whatever the answer is.
  rw [State.classified_claim, firstPayload_first brings some_payload unheard, classified]
  split <;> rfl

private theorem Accounted.hear_first (h : Accounted settings number t) {e : Effect}
    {direction : Direction} {payload : Bytes} (brings : e.Brings direction payload)
    (some_payload : payload ≠ [])
    (unheard : firstPayload direction t.effects = none) :
    Accounted settings number
      ((t.emit e).classify (settings.classifier direction) direction payload) := by
  have fresh : (t.emit e).state.classified direction = false := by
    have marked := h.classified direction
    rw [unheard] at marked
    exact marked
  have marked := classified_first h.classified brings some_payload unheard
  have hit := hits_first brings some_payload unheard settings
  have created := (brings.creations t.effects).trans h.created
  have updated := (brings.updates t.effects).trans h.updated
  have closed := brings.shutdowns t.effects
  rw [classify_first _ _ some_payload fresh]
  cases recognized : settings.classifier direction payload with
  | none =>
    rw [recognized] at hit
    refine ⟨created, marked, ?_, h.holds.steady rfl closed⟩
    show (e :: t.effects).countP _ =
      hits settings (e :: t.effects) + (shutdowns (e :: t.effects)).length
    rw [updated, hit, closed]
    rfl
  | some name =>
    rw [recognized] at hit
    refine ⟨?_, fun d => ?_, ?_, h.holds.steady rfl closed⟩
    · exact (List.countP_cons_of_neg (by simp [Effect.isCreation])).trans created
    · exact (marked d).trans
        (congrArg Option.isSome (firstPayload_silent (silent_flowUpdated _) _).symm)
    · show (Effect.flowUpdated _ :: e :: t.effects).countP _ =
        hits settings (Effect.flowUpdated _ :: e :: t.effects) + (shutdowns (e :: t.effects)).length
      rw [List.countP_cons_of_pos (by rfl), hits_silent (silent_flowUpdated _), updated, hit,
        closed]
      exact Nat.add_right_comm _ _ 1

private theorem Accounted.hear (h : Accounted settings number t) {e : Effect}
    {direction : Direction} {payload : Bytes} (brings : e.Brings direction payload) :
    Accounted settings number
      ((t.emit e).classify (settings.classifier direction) direction payload) := by
  by_cases again : payload = [] ∨ t.state.classified direction = true
  · have known := again.imp_right fun marked => (h.classified direction).symm.trans marked
    have same : (t.emit e).classify (settings.classifier direction) direction payload = t.emit e :=
      (t.emit e).classify_again _ again
    rw [same]
    exact h.hear_again brings known
  · obtain ⟨some_payload, fresh⟩ := not_or.1 again
    have unheard : firstPayload direction t.effects = none := by
      rw [h.classified, Bool.not_eq_true, Option.isSome_eq_false_iff] at fresh
      exact Option.isNone_iff_eq_none.1 fresh
    exact h.hear_first brings some_payload unheard

private theorem Accounted.takePayload (h : Accounted settings number t) (s : Inbound.Segment)
    (now : Nat) : Accounted settings number (t.takePayload s settings.egressClassifier now) := by
  have heard := (h.steady (steady_enqueue s)).hear (Effect.brings_accept s.payload s.ip.totalLength)
  exact heard.steady (steady_acknowledge s now)

private theorem Accounted.takeDatagram (h : Accounted settings number t) (d : Inbound.Datagram)
    (opened : Bool) :
    Accounted settings number (t.takeDatagram d opened settings.egressClassifier) := by
  have heard := (h.steady (steady_enqueueDatagram d opened)).hear
    (Effect.brings_accept d.payload d.ip.totalLength)
  exact heard.steady steady_ready

private theorem Accounted.deliver (h : Accounted settings number t) (bytes : Bytes) (now : Nat) :
    Accounted settings number (t.deliver bytes settings.ingressClassifier true now) := by
  have heard := h.hear (Effect.brings_receive bytes)
  exact (heard.steady (steady_handOn bytes)).steady ⟨.none rfl, rfl, fun _ => rfl⟩

private theorem Accounted.leave (h : Accounted settings number t)
    (opened : t.session.socket.isSome = true) :
    Accounted settings number t.report.shut := by
  obtain ⟨socket, open_socket⟩ := Option.isSome_iff_exists.1 opened
  have none_yet : shutdowns t.effects = [] := by rw [h.holds.shut, if_pos opened]
  have left : t.report.shut = ⟨{ t.session with socket := none },
      .shutdown socket.number :: .flowUpdated t.state.flow :: t.effects⟩ := by
    have : t.report.session.socket = some socket := open_socket
    unfold shut
    rw [this]
    rfl
  have shut : shutdowns (.shutdown socket.number :: .flowUpdated t.state.flow :: t.effects) =
      [socket.number] := by
    rw [← none_yet]
    rfl
  rw [left]
  refine ⟨?_, fun d => ?_, ?_, ⟨fun _ impossible => (by cases impossible), ?_⟩⟩
  · simpa [Effect.isCreation] using h.created
  · rw [firstPayload_silent (silent_shutdown _), firstPayload_silent (silent_flowUpdated _)]
    exact h.classified d
  · have updated := h.updated
    rw [none_yet] at updated
    rw [hits_silent (silent_shutdown _), hits_silent (silent_flowUpdated _), shut]
    simpa [Effect.isUpdate] using updated
  · rw [shut, h.holds.own socket open_socket]
    rfl

/-- Every move keeps the account. -/
private theorem Accounted.move (h : Accounted settings number t)
    (move : Move settings outside t u) : Accounted settings number u := by
  cases move with
  | resendAck => exact h.steady steady_resendAck
  | remember => exact h.steady (steady_update _ fun direction => by cases direction <;> rfl)
  | takePayload s now => exact h.takePayload s now
  | refusePayload s => exact h.steady (steady_emit (Effect.plain_write _ _))
  | takeAck s now => exact h.steady (steady_takeAck s now)
  | takePush s now => exact h.steady (steady_takePush s now)
  | takeEnd s inOrder => exact h.steady (steady_takeEnd s inOrder)
  | cancel => exact h.steady (steady_emit (Effect.plain_cancel _))
  | refresh => exact h.steady (steady_emit (Effect.plain_refresh _))
  | touch => exact h.steady ⟨.none rfl, rfl, fun _ => rfl⟩
  | abandon => exact h.steady (steady_update _ fun direction => by cases direction <;> rfl)
  | takeDatagram d => exact h.takeDatagram d false
  | check result after checks => exact h.steady (steady_checks checks)
  | connect after checks =>
    exact h.steady ((steady_checks checks).trans
      (steady_update _ fun direction => by cases direction <;> rfl))
  | flush => exact h.steady steady_flush
  | readNothing e after reads => exact h.steady (steady_reads reads)
  | deliver bytes after now reads => exact (h.steady (steady_reads reads)).deliver bytes now
  | remoteClose after reads => exact h.steady ((steady_reads reads).trans steady_remoteClose)
  | resetPeer => exact h.steady steady_resetPeer
  | leave opened => exact h.leave opened
  | network outlook => exact h.steady steady_meet

private theorem accounted_opened
    (opened : Opened settings t) : ∃ number, Accounted settings number t := by
  cases opened with
  | stream s read isSyn isn prospect number connected now =>
    refine ⟨number, rfl, fun d => by cases d <;> rfl, rfl, ⟨fun socket same => ?_, rfl⟩⟩
    obtain rfl := Option.some.inj same
    rfl
  | datagram d read prospect number now session fresh =>
    have begun : Accounted settings number ⟨session, [.flowCreated session.state.flow]⟩ := by
      subst fresh
      refine ⟨rfl, fun d => by cases d <;> rfl, rfl, ⟨fun socket same => ?_, rfl⟩⟩
      obtain rfl := Option.some.inj same
      rfl
    have taken := begun.takeDatagram d true
    have told := (taken.steady (steady_emit (Effect.plain_register d.key))).steady
      (steady_emit (Effect.plain_refresh d.key))
    exact ⟨number, told.steady ⟨.none rfl, rfl, fun _ => rfl⟩⟩

private theorem Accounted.moves (h : Accounted settings number t)
    (moves : Moves settings outside t u) : Accounted settings number u := by
  induction moves with
  | refl => exact h
  | tail _ move ih => exact ih.move move

theorem Lives.accounted (lives : Lives settings t) : ∃ number, Accounted settings number t := by
  obtain ⟨first, opened, moves⟩ := lives
  obtain ⟨number, accounted⟩ := accounted_opened opened
  exact ⟨number, accounted.moves moves⟩

end Session.Turn

namespace Relay

variable {r : Relay} {id : SessionId} {t : Turn} {session : Session}

private theorem countP_owners (p : Effect → Bool) (n : Nat) (journal : List Entry)
    (known : ∀ entry ∈ journal, ∀ id, entry.session = some id → id < n) :
    journal.countP (fun entry => p entry.effect) =
      ((journal.filter fun entry => entry.session == none).map (·.effect)).countP p +
        ∑ id ∈ Finset.range n,
          ((journal.filter fun entry => entry.session == some id).map (·.effect)).countP p := by
  induction journal with
  | nil => simp
  | cons entry rest ih =>
    obtain ⟨first, later⟩ := List.forall_mem_cons.1 known
    -- The entry adds to the list of its own owner, and to no other.
    have counted : ∀ owner : Option SessionId,
        (((entry :: rest).filter fun entry => entry.session == owner).map (·.effect)).countP p =
          ((rest.filter fun entry => entry.session == owner).map (·.effect)).countP p +
            if entry.session = owner then (if p entry.effect then 1 else 0) else 0 := by
      intro owner
      by_cases own : entry.session = owner
      · simp [own, List.countP_cons]
      · simp [own]
    simp only [counted, Finset.sum_add_distrib, List.countP_cons]
    rw [ih later]
    cases owner : entry.session with
    | none =>
      simp only [if_true, reduceCtorEq, if_false, Finset.sum_const_zero]
      omega
    | some id =>
      have known := first id owner
      simp [known]
      omega

theorem Consistent.owned (h : Consistent r) {entry : Entry} (member : entry ∈ r.journal)
    (owner : entry.session = some id) : id < r.sessions.length := by
  by_contra later
  have none_yet := h.unborn id (Nat.not_lt.1 later)
  have : entry.effect ∈ r.effectsOf (some id) :=
    List.mem_map.2 ⟨entry, List.mem_filter.2 ⟨member, by simp [owner]⟩, rfl⟩
  rw [none_yet] at this
  cases this

private theorem Consistent.countP_journal (h : Consistent r) (p : Effect → Bool) :
    r.journal.countP (fun entry => p entry.effect) = (r.effectsOf none).countP p +
      ∑ id ∈ Finset.range r.sessions.length, (r.effectsOf (some id)).countP p :=
  countP_owners p r.sessions.length r.journal fun _ member _ owner => h.owned member owner

theorem history_eq_some : r.history id = some t ↔
    r.sessions[id]? = some t.session ∧ r.effectsOf (some id) = t.effects := by
  constructor
  · intro known
    exact ⟨(Stands.refl known).session, (Stands.refl known).effects⟩
  · rintro ⟨at_id, same⟩
    unfold history histories Histories.of?
    simp only [at_id, same, Option.map_some]

theorem history_of_session (at_id : r.sessions[id]? = some session) :
    r.history id = some ⟨session, r.effectsOf (some id)⟩ :=
  history_eq_some.2 ⟨at_id, rfl⟩

private theorem Aside.plain {e : Effect}
    (aside : Aside e) : e.isCreation = false ∧ e.isUpdate = false := by
  cases aside <;> exact ⟨rfl, rfl⟩

/-- The table, the registrations, the sockets and what was told of the flows agree. -/
structure Balanced (r : Relay) : Prop where
  /-- The table and the registrations know the same session for each flow. -/
  agree : ∀ key, r.registered.find? key = r.table.find? key
  /-- What the table knows for a flow is a session of that flow. -/
  entries : ∀ key id, r.table.find? key = some id →
    ∃ session, r.sessions[id]? = some session ∧ session.key = key
  /-- A socket is open exactly while its session is the one that the table knows. -/
  sockets : ∀ id session, r.sessions[id]? = some session →
    (session.socket.isSome = true ↔ r.table.find? session.key = some id)
  /-- A session has been closed once, if it is no longer in the table, and never otherwise. -/
  closed : ∀ id session, r.sessions[id]? = some session →
    (shutdowns (r.effectsOf (some id))).length =
      if r.table.find? session.key = some id then 0 else 1
  /-- Each session has been told of as new once, and nothing else has. -/
  created : ∀ id, (r.effectsOf (some id)).countP (·.isCreation) =
    if id < r.sessions.length then 1 else 0
  creations : r.journal.countP (·.effect.isCreation) = r.sessions.length
  /-- A flow is told of again once for each first payload that is recognized, and once when its
  session is removed. -/
  updates : r.journal.countP (·.effect.isUpdate) =
    ∑ id ∈ Finset.range r.sessions.length, hits r.settings (r.effectsOf (some id)) +
      r.sessions.countP (·.socket.isNone)

private theorem Consistent.sockets (h : Consistent r) (at_id : r.sessions[id]? = some session) :
    session.socket.isSome = true ↔ r.table.find? session.key = some id := by
  have known := history_of_session at_id
  constructor
  · exact h.listed id _ known
  · intro found
    obtain ⟨t, same, -, opened⟩ := h.found _ _ found
    obtain rfl := Option.some.inj (known.symm.trans same)
    exact opened

private theorem countP_closed (sessions : List Session) (closed : SessionId → Nat)
    (each : ∀ id session, sessions[id]? = some session →
      closed id = if session.socket.isNone then 1 else 0) :
    sessions.countP (·.socket.isNone) = ∑ id ∈ Finset.range sessions.length, closed id := by
  induction sessions using List.reverseRecOn with
  | nil => simp
  | append_singleton sessions last ih =>
    have before : ∀ id session, sessions[id]? = some session →
        closed id = if session.socket.isNone then 1 else 0 := by
      intro id session at_id
      refine each id session ?_
      rw [List.getElem?_append_left (List.getElem?_eq_some_iff.1 at_id).1, at_id]
    have new := each sessions.length last (by simp)
    rw [List.countP_append, ih before, List.length_append, List.length_singleton,
      Finset.sum_range_succ, new]
    simp [List.countP_cons]

private theorem Consistent.balanced (h : Consistent r) (traced : Traced r) : Balanced r := by
  have accounts : ∀ id session, r.sessions[id]? = some session → ∃ number,
      Turn.Accounted r.settings number ⟨session, r.effectsOf (some id)⟩ := fun id session at_id =>
    (traced.lives id _ (history_of_session at_id)).accounted
  have aside : ∀ e ∈ r.effectsOf none, e.isCreation = false ∧ e.isUpdate = false :=
    fun e member => (traced.aside e member).plain
  have created : ∀ id, (r.effectsOf (some id)).countP (·.isCreation) =
      if id < r.sessions.length then 1 else 0 := by
    intro id
    split
    case isTrue within =>
      obtain ⟨number, accounted⟩ := accounts id _ (List.getElem?_eq_getElem within)
      exact accounted.created
    case isFalse later =>
      rw [h.unborn id (Nat.not_lt.1 later)]
      rfl
  have closed : ∀ id session, r.sessions[id]? = some session →
      (shutdowns (r.effectsOf (some id))).length = if session.socket.isNone then 1 else 0 := by
    intro id session at_id
    obtain ⟨number, accounted⟩ := accounts id session at_id
    have shut := accounted.holds.shut
    simp only at shut
    rw [shut]
    cases session.socket <;> rfl
  refine ⟨fun key => by rw [h.registered], fun key id found => ?_, fun id session at_id =>
    h.sockets at_id, fun id session at_id => ?_, created, ?_, ?_⟩
  · obtain ⟨t, known, own, -⟩ := h.found key id found
    exact ⟨t.session, (history_eq_some.1 known).1, own⟩
  · rw [closed id session at_id]
    have sockets := h.sockets at_id
    cases socket : session.socket <;> simp [socket] at sockets ⊢ <;> simp [sockets]
  -- Both counts go over the journal by its owners; what has none tells of no flow.
  · have none_aside : (r.effectsOf none).countP (·.isCreation) = 0 :=
      List.countP_eq_zero.2 fun e member => by simp [(aside e member).1]
    rw [h.countP_journal, none_aside]
    have each : ∀ id ∈ Finset.range r.sessions.length,
        (r.effectsOf (some id)).countP (·.isCreation) = 1 := fun id member => by
      rw [created, if_pos (Finset.mem_range.1 member)]
    rw [Finset.sum_congr rfl each]
    simp
  · have none_aside : (r.effectsOf none).countP (·.isUpdate) = 0 :=
      List.countP_eq_zero.2 fun e member => by simp [(aside e member).2]
    rw [h.countP_journal, none_aside, Nat.zero_add, countP_closed r.sessions _ closed,
      ← Finset.sum_add_distrib]
    refine Finset.sum_congr rfl fun id member => ?_
    obtain ⟨number, accounted⟩ :=
      accounts id _ (List.getElem?_eq_getElem (Finset.mem_range.1 member))
    exact accounted.updated

/-- A session that is open goes on with its socket: while it is open nothing is shut down, and once
it is closed its own socket has been, and nothing else. -/
private theorem Consistent.socket_of_run (h : Consistent r) (traced : Traced r)
    (at_id : r.sessions[id]? = some session) {socket : Socket}
    (opened : session.socket = some socket)
    (later : List Event) : ∃ after, (r.run later).sessions[id]? = some after ∧
      (∀ now, after.socket = some now → now.number = socket.number) ∧
      shutdowns ((r.run later).effectsOf (some id)) =
        if after.socket.isSome then [] else [socket.number] := by
  have known := history_of_session at_id
  obtain ⟨number, accounted⟩ := (traced.lives id _ known).accounted
  have own : socket.number = number := accounted.holds.own socket opened
  obtain ⟨u, after, moves⟩ := (h.run later).history known
  have holds := (accounted.moves moves).holds
  obtain ⟨at_id, effects⟩ := history_eq_some.1 after
  refine ⟨u.session, at_id, fun now open_now => ?_, ?_⟩
  · rw [own, holds.own now open_now]
  · rw [effects, holds.shut, own]

private theorem Consistent.removed (h : Consistent r) (at_id : r.sessions[id]? = some session)
    (gone : r.table.find? session.key ≠ some id) (later : List Event) :
    (r.run later).sessions[id]? = some session ∧
      (r.run later).effectsOf (some id) = r.effectsOf (some id) ∧
      ∀ key, (r.run later).table.find? key ≠ some id := by
  have closed : session.socket = none := by
    have := mt (h.sockets at_id).1 gone
    simpa using this
  have changes := h.run later
  have still := Changes.closed h changes (history_of_session at_id) closed
  obtain ⟨same, effects⟩ := history_eq_some.1 still
  refine ⟨same, effects, fun key found => ?_⟩
  obtain ⟨t, known, -, opened⟩ := (changes.consistent h).found key id found
  obtain rfl := Option.some.inj (still.symm.trans known)
  simp only at opened
  rw [closed] at opened
  cases opened

/-- In every run the table, the registrations, the sockets and what is told of the flows agree at
every moment; a socket is shut down once, when its session is removed; and a removed session never
comes back. -/
theorem run_balanced (settings : Settings) (now coreWorkers maxWorkers : Nat)
    (events : List Event) :
    let r := (start settings now coreWorkers maxWorkers).run events
    Balanced r ∧
      (∀ id session socket, r.sessions[id]? = some session → session.socket = some socket →
        ∀ later, ∃ after, (r.run later).sessions[id]? = some after ∧
          (∀ now, after.socket = some now → now.number = socket.number) ∧
          shutdowns ((r.run later).effectsOf (some id)) =
            if after.socket.isSome then [] else [socket.number]) ∧
      (∀ id session, r.sessions[id]? = some session → r.table.find? session.key ≠ some id →
        ∀ later, (r.run later).sessions[id]? = some session ∧
          (r.run later).effectsOf (some id) = r.effectsOf (some id) ∧
          ∀ key, (r.run later).table.find? key ≠ some id) := by
  have h := consistent_run settings now coreWorkers maxWorkers events
  have traced := traced_run settings now coreWorkers maxWorkers events
  exact ⟨h.balanced traced, fun id session socket at_id opened later =>
    h.socket_of_run traced at_id opened later, fun id session at_id gone later =>
    h.removed at_id gone later⟩

end Relay
end PacketRelay
