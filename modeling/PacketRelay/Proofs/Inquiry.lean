import PacketRelay.Proofs.Happening
import PacketRelay.Proofs.Ledger

/-!
What classifiers are asked.

The relay is told here once more without its classifiers: where one is needed, a question is asked
on behalf of a session, and the relay goes on with the answer. Answered as the classifiers do, the
relay is the one that it was, and the questions are on record: in each direction a session asks
about its first payload that is not empty, once, and about nothing else.
-/

set_option autoImplicit false

namespace PacketRelay

open Session (Key Turn State Classifier Classification Direction Pass Verdict)

/-- What a classifier is asked: on behalf of which session, and about which payload. -/
structure Question where
  session : SessionId
  direction : Direction
  payload : Bytes
  deriving DecidableEq

/-- What is done with questions on the way, which are recorded in their order. -/
abbrev Inquiry (α : Type) := StateM (List Question) α

/-- The payloads that a session asks about in a direction, in order. -/
def questionsOf (id : SessionId) (direction : Direction) (asked : List Question) : List Bytes :=
  (asked.filter fun q => q.session = id ∧ q.direction = direction).map (·.payload)

namespace Inquiry

section Turns

variable (ask : Direction → Bytes → Inquiry (Option Classification))

def classify (t : Turn) (direction : Direction) (payload : Bytes) : Inquiry Turn :=
  if payload.isEmpty || t.state.classified direction then pure t
  else do
    let t := t.update (·.claim direction)
    match ← ask direction payload with
    | some hit =>
      let t := t.update fun s => { s with flow := { s.flow with classification := some hit } }
      return t.report
    | none => return t

def takePayload (t : Turn) (s : Inbound.Segment) (now : Nat) : Inquiry Turn := do
  let t ← classify ask (t.queue s) .egress s.payload
  return (t.stamp s now).acknowledge s

def receiveAck (t : Turn) (s : Inbound.Segment) (now : Nat) : Inquiry (Turn × Verdict) := do
  let t := t.update fun st => st.rememberTcp s.ip s.tcp
  let bare := s.payload.isEmpty
  let accepted := !bare && t.state.acceptsData s.tcp.seq
  let finAnswered := bare && !t.state.closing && t.state.ackedToFin && !s.tcp.isFin
  let t ← (if bare then pure (t.takeAck s now)
    else if accepted then takePayload ask t s now
    else pure (t.refusePayload s))
  let t := (t.takePush s now).takeEnd s (bare || accepted)
  let verdict :=
    if finAnswered || (s.tcp.isFin && (bare || accepted)) then .close
    else .stay (accepted || s.tcp.isPsh)
  return (t, verdict)

def takeDatagram (t : Turn) (d : Inbound.Datagram) (opened : Bool) : Inquiry Turn := do
  let t ← classify ask (t.queueDatagram d opened) .egress d.payload
  return t.update fun st => { st with dataReady := true }

def deliver (t : Turn) (bytes : Bytes) (current : Bool) (now : Nat) : Inquiry Turn := do
  let t ← classify ask (t.emit (.receive bytes)) .ingress bytes
  return if current then (t.handOn bytes).touch now else t.handOn bytes

def readAll (current : Bool) (now : Nat) : Nat → Turn → Inquiry (Turn × Pass)
  | 0, t => pure (t, .keep)
  | n + 1, t =>
    match t.session.socket with
    | none => pure (t, .gone)
    | some socket =>
      match socket.read with
      | (.error .wouldBlock, after) => pure (t.withSocket after, .keep)
      | (.error .interrupted, after) => readAll current now n (t.withSocket after)
      | (.error e, after) => pure (t.withSocket after, .failed e)
      | (.ok bytes, after) =>
        let t := t.withSocket after
        if bytes.isEmpty && t.session.key.protocol == .tcp then pure (t, .remoteClosed)
        else deliver ask t bytes current now >>= readAll current now n

def exchange (t : Turn) (current : Bool) (now : Nat) : Inquiry (Turn × Pass) :=
  let (t, failure) :=
    if 0 < t.state.outbound.size || t.state.dataReady then t.flush else (t, none)
  match failure with
  | some e => pure (t, .failed e)
  | none =>
    if t.state.ackedToFin || t.state.closing then pure (t, .keep)
    else readAll ask current now Session.readsPerPass t

def pump (t : Turn) (current : Bool) (now : Nat) : Inquiry (Turn × Pass) :=
  match t.session.socket with
  | none => pure (t, .gone)
  | some socket =>
    if t.state.connected then exchange ask t current now
    else match socket.checkConnected with
      | (.error e, after) => pure (t.withSocket after, .failed e)
      | (.ok false, after) => pure (t.withSocket after, .keep)
      | (.ok true, after) =>
        exchange ask ((t.withSocket after).update fun s => s.setConnected true) current now

end Turns

section Relays

variable (ask : SessionId → Direction → Bytes → Inquiry (Option Classification))

def turn (r : Relay) (id : SessionId) (f : Turn → Inquiry Turn) : Inquiry Relay :=
  match r.sessions[id]? with
  | some session => do return r.commit id (← f (.start session))
  | none => pure r

def handleAck (r : Relay) (s : Inbound.Segment) : Inquiry Relay :=
  match r.lookup s.key with
  | none => pure (r.handleOrphan s)
  | some id =>
    match r.sessions[id]? with
    | none => pure r
    | some session => do
      let (turn, verdict) ← receiveAck (ask id) (.start session) s r.now
      let r := r.commit id turn
      match verdict with
      | .close => return r.finish id s.key
      | .stay refresh =>
        let r := if refresh then r.emit (some id) (.refresh s.key) else r
        return if turn.state.aborting then r else r.keepAlive id

/-- Only a segment with ACK may bring a payload. -/
def handleSegment (r : Relay) (s : Inbound.Segment) (isn : UInt32) (prospect : Socket.Prospect) :
    Inquiry Relay :=
  if s.tcp.isSyn then pure (r.handleSyn s isn prospect)
  else if s.tcp.isAck then handleAck ask r s
  else if s.tcp.isFin then pure (r.handleFin s)
  else if s.tcp.isRst then pure (r.handleRst s)
  else pure r

def handleDatagram (r : Relay) (d : Inbound.Datagram) (prospect : Socket.Prospect) :
    Inquiry Relay :=
  match r.openSession d.key d.ip.totalLength prospect with
  | (r, .error _) => pure r
  | (r, .ok (.existing id)) => do
    let r ← turn r id fun t => takeDatagram (ask id) t d false
    return (r.emit (some id) (.refresh d.key)).keepAlive id
  | (r, .ok (.new id)) => do
    let r ← turn r id fun t => takeDatagram (ask id) t d true
    return ((r.announce id d.key).emit (some id) (.refresh d.key)).keepAlive id

def handle (r : Relay) (packet : Inbound) (isn : UInt32) (prospect : Socket.Prospect) :
    Inquiry Relay :=
  match packet with
  | .segment s => handleSegment ask r s isn prospect
  | .datagram d => handleDatagram ask r d prospect
  | .echoRequest e => pure (r.handleEcho e)
  | .ignored => pure r

def service (r : Relay) (id : SessionId) : Inquiry Relay :=
  match r.sessions[id]? with
  | none => pure r
  | some session =>
    if session.state.aborting then pure (r.abort id session.key)
    else do
      let (turn, pass) ← pump (ask id) (.start session) (r.isCurrent id) r.now
      let r := r.commit id turn
      match pass with
      | .keep => return r
      | .remoteClosed => return r.turn id (·.remoteClose)
      | .failed _ => return r.abort id session.key
      | .gone => return r.cancel session.key

def step (r : Relay) (e : Relay.Event) : Inquiry Relay :=
  match e with
  | .packet buffer isn prospect =>
    match Inbound.parse buffer with
    | .ok packet => handle ask r packet isn prospect
    | .error _ => pure r
  | .pass first second => do
    let r ← (Relay.byRank first r.registered.ids).foldlM (service ask) r
    return r.sweepBy second
  | .time span => pure (r.advance span)
  | .probe i reachable => pure (r.finishProbe i reachable)
  | .retire => pure { r with pings := r.pings.retire }
  | .network id outlook => pure (r.network id outlook)

def run (r : Relay) (events : List Relay.Event) : Inquiry Relay := events.foldlM (step ask) r

end Relays

/-- Each question is put on record, and answered by the classifier of its direction. -/
def answer (settings : Relay.Settings) (id : SessionId) (direction : Direction) (payload : Bytes) :
    Inquiry (Option Classification) := do
  modify (· ++ [⟨id, direction, payload⟩])
  return settings.classifier direction payload

section Outcomes

variable {α β : Type} {x : Inquiry α} {f : α → Inquiry β} {a : α} {b : β}
  {asked later : List Question}

/-- Whatever has been asked before, it comes to the same, and the same is asked on the way. -/
def Yields (x : Inquiry α) (a : α) (asked : List Question) : Prop :=
  ∀ before, StateT.run x before = (a, before ++ asked)

private theorem yields_pure (a : α) : Yields (pure a) a [] := fun before =>
  congrArg (Prod.mk a) (List.append_nil before).symm

private theorem Yields.bind (first : Yields x a asked) (next : Yields (f a) b later) :
    Yields (x >>= f) b (asked ++ later) := by
  intro before
  rw [StateT.run_bind, first before, ← List.append_assoc]
  exact next (before ++ asked)

private theorem yields_answer (settings : Relay.Settings) (id : SessionId) (direction : Direction)
    (payload : Bytes) : Yields (answer settings id direction payload)
      (settings.classifier direction payload) [⟨id, direction, payload⟩] := fun _ => rfl

end Outcomes

end Inquiry

section Questions

variable {id other : SessionId} {direction : Direction} {asked later : List Question}

private theorem questionsOf_append : questionsOf id direction (asked ++ later) =
    questionsOf id direction asked ++ questionsOf id direction later := by
  simp [questionsOf]

private theorem questionsOf_other (own : ∀ q ∈ asked, q.session = id) (differ : other ≠ id) :
    questionsOf other direction asked = [] := by
  refine List.map_eq_nil_iff.2 (List.filter_eq_nil_iff.2 fun q member => ?_)
  simp [own q member, Ne.symm differ]

private theorem firstPayload_append (new effects : List Effect) :
    firstPayload direction (new ++ effects) =
      (firstPayload direction effects).or (firstPayload direction new) := by
  unfold firstPayload
  rw [List.reverse_append, List.findSome?_append]

end Questions

namespace Session.Turn

variable {id : SessionId} {t u v : Turn} {asked later : List Question}

/-- No payload comes in either direction, and no claim is made. -/
structure Mute (t u : Turn) : Prop where
  effects : Adds (fun e => ∀ direction, e.payload? direction = none) t u
  classified : ∀ direction, u.state.classified direction = t.state.classified direction

theorem Steady.mute (steady : t.Steady u) : t.Mute u where
  effects := steady.effects.imp fun _ plain => plain.payload
  classified := steady.classified

theorem Mute.trans (first : t.Mute u) (second : u.Mute v) : t.Mute v where
  effects := first.effects.trans second.effects
  classified direction := (second.classified direction).trans (first.classified direction)

theorem mute_withSocket (socket : Socket) : t.Mute (t.withSocket socket) :=
  ⟨.none rfl, fun _ => rfl⟩

/-- What a session asks from one moment to another: in each direction about the first payload in
between, unless that direction has been claimed before. -/
structure Asks (id : SessionId) (t u : Turn) (asked : List Question) : Prop where
  own : ∀ q ∈ asked, q.session = id
  heard : ∃ new, u.effects = new ++ t.effects ∧ ∀ direction,
    questionsOf id direction asked =
        (if t.state.classified direction then none else firstPayload direction new).toList ∧
      u.state.classified direction =
        (t.state.classified direction || (firstPayload direction new).isSome)

theorem firstPayload_mute {new : List Effect} {direction : Direction}
    (mute : ∀ e ∈ new, ∀ direction, e.payload? direction = none) :
    firstPayload direction new = none := by
  refine List.findSome?_eq_none_iff.2 fun e member => ?_
  rw [mute e (List.mem_reverse.1 member), Option.filter_none]

private theorem Mute.asks (mute : t.Mute u) : Asks id t u [] := by
  obtain ⟨new, added, silent⟩ := mute.effects
  refine ⟨fun _ none => (by cases none), new, added, fun direction => ?_⟩
  rw [firstPayload_mute silent, mute.classified direction, ite_self]
  exact ⟨rfl, (Bool.or_false _).symm⟩

private theorem Asks.trans (first : Asks id t u asked) (second : Asks id u v later) :
    Asks id t v (asked ++ later) := by
  obtain ⟨new, added, heard⟩ := first.heard
  obtain ⟨newer, also_added, also_heard⟩ := second.heard
  refine ⟨fun q member => (List.mem_append.1 member).elim (first.own q) (second.own q),
    newer ++ new, by rw [also_added, added, List.append_assoc], fun direction => ?_⟩
  obtain ⟨asks, claims⟩ := heard direction
  obtain ⟨asks_later, claims_later⟩ := also_heard direction
  rw [questionsOf_append, asks, asks_later, claims_later, claims, firstPayload_append]
  cases t.state.classified direction <;> cases firstPayload direction new <;> simp

end Session.Turn

namespace Inquiry

open Session.Turn

variable {α β : Type} {id : SessionId} {t u v : Turn} {x : Inquiry α} {f : α → Inquiry β} {a : α}
  {b : β} (settings : Relay.Settings) (now : Nat)

/-- A turn from `t` to `u` comes to the same when it is told with questions. -/
def Retells (id : SessionId) (t : Turn) (x : Inquiry α) (a : α) (u : Turn) : Prop :=
  ∃ asked, Yields x a asked ∧ Asks id t u asked

private theorem retells_pure (mute : t.Mute u) :
    Retells id t (pure a) a u := ⟨[], yields_pure a, mute.asks⟩

private theorem Retells.bind (first : Retells id t x a u) (next : Retells id u (f a) b v) :
    Retells id t (x >>= f) b v := by
  obtain ⟨asked, yields, asks⟩ := first
  obtain ⟨later, then_yields, then_asks⟩ := next
  exact ⟨asked ++ later, yields.bind then_yields, asks.trans then_asks⟩

private theorem Retells.after (mute : t.Mute u)
    (retells : Retells id u x a v) : Retells id t x a v := by
  obtain ⟨asked, yields, asks⟩ := retells
  exact ⟨asked, yields, List.nil_append asked ▸ mute.asks.trans asks⟩

private theorem asks_brought {e : Effect} {direction : Direction} {payload : Bytes}
    (brings : e.Brings direction payload) {told : List Effect}
    (mute : ∀ e ∈ told, ∀ direction, e.payload? direction = none)
    (effects : u.effects = told ++ e :: t.effects)
    (claims : ∀ d, u.state.classified d =
      (t.state.classified d || decide (d = direction ∧ payload ≠ []))) :
    Asks id t u (if payload = [] ∨ t.state.classified direction = true then []
      else [⟨id, direction, payload⟩]) := by
  have first : ∀ d, firstPayload d (told ++ [e]) =
      if d = direction ∧ payload ≠ [] then some payload else none := by
    intro d
    rw [firstPayload_append, firstPayload_mute mute, Option.or_none]
    unfold firstPayload
    rw [List.reverse_singleton, List.findSome?_singleton, brings.payload]
    by_cases same : d = direction
    · by_cases empty : payload = [] <;> simp [same, empty, Option.filter]
    · simp [same]
  refine ⟨fun q member => ?_, told ++ [e], by rw [effects, List.append_assoc]; rfl, fun d => ?_⟩
  · split at member
    · cases member
    · rw [List.mem_singleton.1 member]
  · rw [first, claims]
    by_cases same : d = direction
    · subst same
      by_cases empty : payload = []
      · simp [empty, questionsOf]
      · cases t.state.classified d <;> simp [empty, questionsOf]
    · have apart : ¬ direction = d := fun other => same other.symm
      split <;> simp [same, apart, questionsOf]

private theorem classify_again_retells (t : Turn) {e : Effect} {direction : Direction}
    {payload : Bytes} (brings : e.Brings direction payload)
    (again : payload = [] ∨ t.state.classified direction = true) :
    Retells id t (classify (answer settings id) (t.emit e) direction payload)
      ((t.emit e).classify (settings.classifier direction) direction payload)
      ((t.emit e).classify (settings.classifier direction) direction payload) := by
  have same : (t.emit e).state = t.state := rfl
  have known : (payload.isEmpty || (t.emit e).state.classified direction) = true := by
    simpa [List.isEmpty_iff, same] using again
  have asks : Asks id t (t.emit e) _ := asks_brought brings (List.forall_mem_nil _) rfl fun d => by
    rw [same]
    rcases again with empty | claimed
    · simp [empty]
    · by_cases own : d = direction
      · simp [own, claimed]
      · simp [own]
  rw [if_pos again] at asks
  unfold classify
  rw [if_pos known, (t.emit e).classify_again _ again]
  exact ⟨[], yields_pure _, asks⟩

private theorem classify_first_retells (t : Turn) {e : Effect} {direction : Direction}
    {payload : Bytes} (brings : e.Brings direction payload) (some_payload : payload ≠ [])
    (fresh : t.state.classified direction = false) :
    Retells id t (classify (answer settings id) (t.emit e) direction payload)
      ((t.emit e).classify (settings.classifier direction) direction payload)
      ((t.emit e).classify (settings.classifier direction) direction payload) := by
  have unknown : (payload.isEmpty || (t.emit e).state.classified direction) = false := by
    simpa [show (t.emit e).state = t.state from rfl, fresh] using some_payload
  have claims : ∀ d, (t.state.claim direction).classified d =
      (t.state.classified d || decide (d = direction ∧ payload ≠ [])) := by
    intro d
    rw [State.classified_claim]
    split <;> simp [*]
  have first : ¬ (payload = [] ∨ t.state.classified direction = true) := by simp [some_payload, fresh]
  have answered := yields_answer settings id direction payload
  unfold classify
  rw [unknown, if_neg Bool.false_ne_true, (t.emit e).classify_first _ some_payload fresh]
  cases found : settings.classifier direction payload with
  | none =>
    have asks : Asks id t ((t.emit e).update (·.claim direction)) _ :=
      asks_brought brings (List.forall_mem_nil _) rfl claims
    rw [if_neg first] at asks
    rw [found] at answered
    exact ⟨_, answered.bind (yields_pure _), asks⟩
  | some hit =>
    have asks : Asks id t ((t.emit e).update fun s =>
        { s.claim direction with flow := { s.flow with classification := some hit } }).report _ :=
      asks_brought brings (List.forall_mem_singleton.2 (silent_flowUpdated _)) rfl fun d => by
        rw [← claims]
        cases d <;> cases direction <;> rfl
    rw [if_neg first] at asks
    rw [found] at answered
    cases direction <;> exact ⟨_, answered.bind (yields_pure _), asks⟩

private theorem classify_retells (t : Turn) {e : Effect} {direction : Direction} {payload : Bytes}
    (brings : e.Brings direction payload) :
    Retells id t (classify (answer settings id) (t.emit e) direction payload)
      ((t.emit e).classify (settings.classifier direction) direction payload)
      ((t.emit e).classify (settings.classifier direction) direction payload) := by
  by_cases again : payload = [] ∨ t.state.classified direction = true
  · exact classify_again_retells settings t brings again
  · obtain ⟨some_payload, fresh⟩ := not_or.1 again
    exact classify_first_retells settings t brings some_payload (Bool.eq_false_iff.2 fresh)

private theorem takePayload_retells (t : Turn) (s : Inbound.Segment) :
    Retells id t (takePayload (answer settings id) t s now)
      (t.takePayload s settings.egressClassifier now)
      (t.takePayload s settings.egressClassifier now) := by
  have heard : Retells id (t.update (·.enqueue s)) _ _ _ := classify_retells settings _
    (Effect.brings_accept s.payload s.ip.totalLength)
  exact .after (steady_enqueue s).mute (heard.bind (retells_pure (steady_acknowledge s now).mute))

private theorem receiveAck_retells (t : Turn) (s : Inbound.Segment) :
    Retells id t (receiveAck (answer settings id) t s now)
      (t.receiveAck s settings.egressClassifier now)
      (t.receiveAck s settings.egressClassifier now).1 := by
  have remembered : t.Mute (t.update fun st => st.rememberTcp s.ip s.tcp) :=
    (steady_update _ fun direction => by cases direction <;> rfl).mute
  unfold receiveAck Turn.receiveAck
  simp only
  generalize t.update (fun st => st.rememberTcp s.ip s.tcp) = u at remembered
  have handled : ∃ v, (if s.payload.isEmpty then u.takeAck s now
      else if !s.payload.isEmpty && u.state.acceptsData s.tcp.seq then
        u.takePayload s settings.egressClassifier now
      else u.refusePayload s) = v ∧
      Retells id u (if s.payload.isEmpty then pure (u.takeAck s now)
        else if !s.payload.isEmpty && u.state.acceptsData s.tcp.seq then
          takePayload (answer settings id) u s now
        else pure (u.refusePayload s)) v v := by
    split
    · exact ⟨_, rfl, retells_pure (steady_takeAck s now).mute⟩
    · split
      · exact ⟨_, rfl, takePayload_retells settings now u s⟩
      · exact ⟨_, rfl, retells_pure (steady_emit (Effect.plain_write _ _)).mute⟩
  obtain ⟨v, same, handled⟩ := handled
  rw [same]
  exact .after remembered (handled.bind
    (retells_pure ((steady_takePush s now).trans (steady_takeEnd s _)).mute))

private theorem takeDatagram_retells (t : Turn) (d : Inbound.Datagram) (opened : Bool) :
    Retells id t (takeDatagram (answer settings id) t d opened)
      (t.takeDatagram d opened settings.egressClassifier)
      (t.takeDatagram d opened settings.egressClassifier) := by
  have heard : Retells id (t.update (·.enqueueDatagram d opened)) _ _ _ := classify_retells settings _
    (Effect.brings_accept d.payload d.ip.totalLength)
  exact .after (steady_enqueueDatagram d opened).mute (heard.bind (retells_pure steady_ready.mute))

private theorem deliver_retells (t : Turn) (bytes : Bytes) (current : Bool) :
    Retells id t (deliver (answer settings id) t bytes current now)
      (t.deliver bytes settings.ingressClassifier current now)
      (t.deliver bytes settings.ingressClassifier current now) := by
  have heard : Retells id t _ _ _ := classify_retells settings t (Effect.brings_receive bytes)
  unfold deliver
  rw [deliver_eq]
  refine heard.bind (retells_pure ?_)
  split
  · exact (steady_handOn bytes).mute.trans ⟨.none rfl, fun _ => rfl⟩
  · exact (steady_handOn bytes).mute

private theorem readAll_retells (current : Bool) (n : Nat) (t : Turn) :
    Retells id t (readAll (answer settings id) current now n t)
      (Session.Turn.readAll settings.ingressClassifier current now n t)
      (Session.Turn.readAll settings.ingressClassifier current now n t).1 := by
  induction n generalizing t with
  | zero => exact retells_pure ⟨.none rfl, fun _ => rfl⟩
  | succ n ih =>
    cases opened : t.session.socket with
    | none =>
      simp only [readAll, Session.Turn.readAll, opened]
      exact retells_pure ⟨.none rfl, fun _ => rfl⟩
    | some socket =>
      rcases read : socket.read with ⟨e | bytes, after⟩
      · have idle : t.Mute (t.withSocket after) := mute_withSocket after
        cases e <;> simp only [readAll, Session.Turn.readAll, opened, read] <;>
          first | exact retells_pure idle | exact .after idle (ih _)
      · have idle : t.Mute (t.withSocket after) := mute_withSocket after
        simp only [readAll, Session.Turn.readAll, opened, read]
        split
        · exact retells_pure idle
        · exact .after idle ((deliver_retells settings now _ bytes current).bind (ih _))

private theorem exchange_retells (current : Bool) (t : Turn) :
    Retells id t (exchange (answer settings id) t current now)
      (t.exchange settings.ingressClassifier current now)
      (t.exchange settings.ingressClassifier current now).1 := by
  have flushed : t.Mute (if 0 < t.state.outbound.size || t.state.dataReady then t.flush
      else (t, none)).1 := by
    split
    · exact steady_flush.mute
    · exact ⟨.none rfl, fun _ => rfl⟩
  unfold exchange Turn.exchange
  generalize (if 0 < t.state.outbound.size || t.state.dataReady then t.flush else (t, none)) =
    result at flushed
  rcases result with ⟨v, _ | e⟩
  · simp only
    split
    · exact retells_pure flushed
    · exact .after flushed (readAll_retells settings now current _ v)
  · exact retells_pure flushed

private theorem pump_retells (current : Bool) (t : Turn) :
    Retells id t (pump (answer settings id) t current now)
      (t.pump settings.ingressClassifier current now)
      (t.pump settings.ingressClassifier current now).1 := by
  have idle : ∀ after, t.Mute (t.withSocket after) := mute_withSocket
  cases opened : t.session.socket with
  | none =>
    simp only [pump, Turn.pump, opened]
    exact retells_pure ⟨.none rfl, fun _ => rfl⟩
  | some socket =>
    cases connected : t.state.connected with
    | true =>
      simp only [pump, Turn.pump, opened, connected, if_true]
      exact exchange_retells settings now current t
    | false =>
      rcases checked : socket.checkConnected with ⟨e | _ | _, after⟩ <;>
        simp only [pump, Turn.pump, opened, connected, checked, Bool.false_eq_true, if_false]
      · exact retells_pure (idle after)
      · exact retells_pure (idle after)
      · refine .after ((idle after).trans ?_) (exchange_retells settings now current _)
        exact (steady_update _ fun direction => by cases direction <;> rfl).mute

end Inquiry

namespace Session.Turn

variable {t u : Turn} (classifier : Classifier) (now : Nat)

/-- No payload comes in either direction. -/
abbrev Unheard (t u : Turn) : Prop := Adds (fun e => ∀ direction, e.payload? direction = none) t u

theorem Unheard.firstPayload (unheard : t.Unheard u) (direction : Direction) :
    firstPayload direction u.effects = PacketRelay.firstPayload direction t.effects := by
  obtain ⟨new, added, silent⟩ := unheard
  rw [added, firstPayload_append, firstPayload_mute silent, Option.or_none]

theorem unheard_leave (t : Turn) : t.Unheard t.report.shut :=
  Adds.trans (.one rfl (silent_flowUpdated _))
    (t.report.adds_shut.imp fun _ ⟨number, same⟩ => same ▸ silent_shutdown number)

private theorem unheard_abort (t : Turn) : t.Unheard t.abort := by
  have reset : t.Unheard t.resetStream := by
    unfold resetStream
    split
    · exact steady_resetPeer.mute.effects
    · exact .none rfl
  exact reset.trans t.resetStream.unheard_leave

private theorem unheard_serve (t : Turn) :
    (if t.state.aborting then t else (t.pump classifier true now).1).Unheard
      (t.serve classifier now) := by
  unfold serve
  cases t.state.aborting with
  | true => exact t.unheard_abort
  | false =>
    simp only [Bool.false_eq_true, if_false]
    rcases t.pump classifier true now with ⟨v, _ | _ | _ | _⟩
    · exact .none rfl
    · exact steady_remoteClose.mute.effects
    · exact v.unheard_abort
    · exact .none rfl

private theorem unheard_conclude (t : Turn) (verdict : Verdict) :
    t.Unheard (t.conclude now verdict) := by
  cases verdict with
  | close =>
    have cancelled : t.Unheard (t.emit (.cancel t.session.key)) :=
      (steady_emit (Effect.plain_cancel _)).mute.effects
    have flushed : t.Unheard (if t.state.connected && 0 < t.state.outbound.size then
        (t.emit (.cancel t.session.key)).flush.1 else t.emit (.cancel t.session.key)) := by
      split
      · exact cancelled.trans steady_flush.mute.effects
      · exact cancelled
    exact flushed.trans (unheard_leave _)
  | stay refresh =>
    have told : t.Unheard (t.tell refresh) := by
      cases refresh with
      | false => exact .none rfl
      | true => exact (steady_emit (Effect.plain_refresh _)).mute.effects
    simp only [conclude]
    split
    · exact told
    · exact told.trans (.none rfl)

private theorem unheard_hear (t : Turn) (s : Inbound.Segment) :
    (t.receiveAck s classifier now).1.Unheard (t.hear s classifier now) :=
  unheard_conclude now _ _

private theorem firstPayload_started (settings : Relay.Settings) (d : Inbound.Datagram)
    (prospect : Socket.Prospect) (number now : Nat) (direction : Direction) :
    firstPayload direction (started settings d prospect number now).effects =
      firstPayload direction ((start (Relay.newSession d.key (prospect.begun number false true) true
        d.ip.totalLength now)).takeDatagram d true settings.egressClassifier).effects := by
  let session := Relay.newSession d.key (prospect.begun number false true) true d.ip.totalLength now
  have created : firstPayload direction [.flowCreated session.state.flow] = none := by
    cases direction <;> rfl
  have past := (start session).on_takeDatagram [.flowCreated session.state.flow] d true
    settings.egressClassifier
  have told : (((start session).on [.flowCreated session.state.flow]).takeDatagram d true
      settings.egressClassifier).Unheard (started settings d prospect number now) :=
    .trans (steady_emit (Effect.plain_register _)).mute.effects
      (steady_emit (Effect.plain_refresh _)).mute.effects
  rw [told.firstPayload, past]
  exact (firstPayload_append _ _).trans (by rw [created, Option.none_or])

end Session.Turn

namespace Relay

variable {r mid after : Relay} {id : SessionId} {t u v : Turn} {asked later : List Question}

/-- What is asked on the way from one relay to another: for each session, and in each direction,
about the first payload, if it has come meanwhile. -/
def Asked (r after : Relay) (asked : List Question) : Prop :=
  ∀ id direction, (firstPayload direction (r.effectsOf (some id))).toList ++
    questionsOf id direction asked = (firstPayload direction (after.effectsOf (some id))).toList

private theorem asked_nothing
    (same : ∀ id direction, firstPayload direction (after.effectsOf (some id)) =
    firstPayload direction (r.effectsOf (some id))) : Asked r after [] := by
  intro id direction
  rw [same]
  exact List.append_nil _

private theorem Asked.trans (first : Asked r mid asked) (second : Asked mid after later) :
    Asked r after (asked ++ later) := by
  intro id direction
  rw [questionsOf_append, ← List.append_assoc, first, second]

private theorem Stands.asked_turn (stands : Stands r after id u) (known : r.history id = some t)
    (marked : ∀ direction, t.state.classified direction = (firstPayload direction t.effects).isSome)
    (asks : Turn.Asks id (.start t.session) v asked)
    (last : ∀ direction, firstPayload direction u.effects =
      firstPayload direction (v.effects ++ t.effects)) : Asked r after asked := by
  intro other direction
  by_cases same : other = id
  · subst same
    obtain ⟨new, added, heard⟩ := asks.heard
    have added : v.effects = new := added.trans (List.append_nil new)
    have claimed : (Turn.start t.session).state.classified direction =
        (firstPayload direction t.effects).isSome := marked direction
    rw [(history_eq_some.1 known).2, stands.effects, last, added, firstPayload_append,
      (heard direction).1, claimed]
    cases firstPayload direction t.effects <;> simp
  · rw [questionsOf_other asks.own same, List.append_nil, stands.effectsOf_other (by simpa using same)]

private theorem Traced.marked (traced : Traced r) (known : r.history id = some t)
    (direction : Direction) :
    t.state.classified direction = (firstPayload direction t.effects).isSome := by
  obtain ⟨number, accounted⟩ := (traced.lives id t known).accounted
  exact accounted.classified direction

/-- A change of a relay comes to the same when it is told with questions. -/
def Conveys (r : Relay) (x : Inquiry Relay) (after : Relay) : Prop :=
  ∃ asked, Inquiry.Yields x after asked ∧ Asked r after asked

private theorem conveys_pure
    (same : ∀ id direction, firstPayload direction (after.effectsOf (some id)) =
    firstPayload direction (r.effectsOf (some id))) : Conveys r (pure after) after :=
  ⟨[], Inquiry.yields_pure after, asked_nothing same⟩

private theorem Conveys.bind {x : Inquiry Relay} {f : Relay → Inquiry Relay}
    (first : Conveys r x mid) (next : Conveys mid (f mid) after) : Conveys r (x >>= f) after := by
  obtain ⟨asked, yields, asks⟩ := first
  obtain ⟨later, then_yields, then_asks⟩ := next
  exact ⟨asked ++ later, yields.bind then_yields, asks.trans then_asks⟩

section Service

private theorem Listed.service_conveys (h : Listed r) (traced : Traced r)
    (known : r.history id = some t) (opened : t.session.socket.isSome = true) :
    Conveys r (Inquiry.service (Inquiry.answer r.settings) r id) (r.service id) := by
  obtain ⟨stands, -⟩ := h.service known opened
  have last := (t.unheard_serve r.settings.ingressClassifier r.now).firstPayload
  have at_id := (history_eq_some.1 known).1
  cases aborting : t.state.aborting with
  | true =>
    rw [aborting, if_pos rfl] at last
    have told : Inquiry.service (Inquiry.answer r.settings) r id = pure (r.service id) := by
      unfold Inquiry.service Relay.service
      rw [at_id]
      simp only [show t.session.state.aborting = true from aborting, if_true]
    rw [told]
    refine ⟨[], Inquiry.yields_pure _, stands.asked_turn known (traced.marked known)
      (Session.Turn.Mute.asks ⟨.none rfl, fun _ => rfl⟩) last⟩
  | false =>
    rw [aborting, if_neg Bool.false_ne_true] at last
    obtain ⟨asked, yields, asks⟩ : Inquiry.Retells id (.start t.session) _ _ _ :=
      Inquiry.pump_retells r.settings r.now true _
    have past := (Turn.start t.session).on_pump t.effects r.now r.settings.ingressClassifier true
    rw [Turn.on_start] at past
    rw [show t.pump r.settings.ingressClassifier true r.now = _ from past] at last
    refine ⟨asked, ?_, stands.asked_turn known (traced.marked known) asks last⟩
    rw [← List.append_nil asked]
    unfold Inquiry.service Relay.service
    rw [at_id]
    simp only [show t.session.state.aborting = false from aborting, Bool.false_eq_true, if_false,
      h.current known opened]
    refine yields.bind ?_
    rcases Turn.pump _ _ _ _ with ⟨w, _ | _ | _ | _⟩ <;> exact Inquiry.yields_pure _

private theorem Listed.services_convey (h : Listed r) (traced : Traced r) (settings : Settings)
    (set : r.settings = settings) (ids : List SessionId) (once : ids.Nodup)
    (opened : ∀ id ∈ ids, ∃ t, r.history id = some t ∧ t.session.socket.isSome = true) :
    Conveys r (ids.foldlM (Inquiry.service (Inquiry.answer settings)) r)
      (ids.foldl Relay.service r) := by
  induction ids generalizing r with
  | nil => exact conveys_pure fun _ _ => rfl
  | cons id rest ih =>
    obtain ⟨absent, once⟩ := List.nodup_cons.1 once
    obtain ⟨t, known, socket⟩ := opened id List.mem_cons_self
    obtain ⟨changes, others⟩ : Changes (fun _ => .nothing) r (r.service id) ∧ _ :=
      visits_service r id t h known socket
    have first := set ▸ h.service_conveys traced known socket
    rw [List.foldlM_cons]
    refine first.bind (ih (changes.listed h) (Changes.traced traced changes)
      ((Changes.settings changes).trans set) once fun other member => ?_)
    rw [others other fun same => absent (same ▸ member)]
    exact opened other (List.mem_cons_of_mem id member)

end Service

section Packets

variable {packet : Inbound} {s : Inbound.Segment} {session : Session}

private theorem Admits.asked_turn {ready : Relay} (admits : Admits ready after u)
    (unborn : ready.effectsOf (some ready.sessions.length) = [])
    (unclaimed : ∀ direction, session.state.classified direction = false)
    (asks : Turn.Asks ready.sessions.length (.start session) v asked)
    (last : ∀ direction, firstPayload direction u.effects = firstPayload direction v.effects) :
    Asked ready after asked := by
  intro id direction
  have effects : after.effectsOf =
      Function.update ready.effectsOf (some ready.sessions.length) u.effects :=
    congrArg (·.effects) admits.histories
  rw [effects]
  by_cases new : id = ready.sessions.length
  · subst new
    obtain ⟨new, added, heard⟩ := asks.heard
    have added : v.effects = new := added.trans (List.append_nil new)
    have unclaimed : (Turn.start session).state.classified direction = false := unclaimed direction
    rw [unborn, (heard direction).1, unclaimed, Function.update_self, last, added]
    rfl
  · have differ : some id ≠ some ready.sessions.length := fun same => new (Option.some.inj same)
    rw [Function.update_of_ne differ, questionsOf_other asks.own new, List.append_nil]

private theorem effectsOf_asking (effects : List Effect) (id : SessionId) :
    (r.asking packet effects).effectsOf (some id) = r.effectsOf (some id) :=
  effectsOf_asides effects id

private theorem Asked.of_asking {effects : List Effect}
    (asks : Asked (r.asking packet effects) after asked) :
    Asked r after asked := fun id direction => by
  rw [show r.effectsOf (some id) = (r.asking packet effects).effectsOf (some id) from
    (effectsOf_asking effects id).symm]
  exact asks id direction

private theorem Listed.unasked_fresh (h : Listed r) (fresh : r.lookup s.key = none) (isn : UInt32)
    (prospect : Socket.Prospect) : Asked r (r.handle (.segment s) isn prospect) [] := by
  have received : r.Receives (.segment s) _ _ := h.handle_fresh rfl fresh isn prospect
  have unborn : (r.asking (.segment s)
      (r.settings.admission r.now r.socketCount (.segment s) isn prospect).aside).effectsOf
        (some (r.asking (.segment s) (r.settings.admission r.now r.socketCount (.segment s) isn
          prospect).aside).sessions.length) = [] := by
    rw [sessions_asking, effectsOf_asking]
    exact h.unborn r.sessions.length (Nat.le_refl _)
  unfold Receives at received
  cases opened : (r.settings.admission r.now r.socketCount (.segment s) isn prospect).opened with
  | none =>
    rw [opened] at received
    rw [received]
    exact asked_nothing fun id direction => by rw [effectsOf_asking]
  | some u =>
    rw [opened] at received
    obtain ⟨unclaimed, silent⟩ : (∀ direction, u.session.state.classified direction = false) ∧
        ∀ direction, firstPayload direction u.effects = none := by
      simp only [Settings.admission] at opened
      split at opened
      · simp only [Settings.admitSyn] at opened
        split at opened
        · cases opened
        · obtain rfl := Option.some.inj opened
          exact ⟨fun direction => by cases direction <;> rfl,
            fun direction => by cases direction <;> rfl⟩
      · split at opened
        · cases opened
        · split at opened <;> cases opened
    have begun : Turn.Asks r.sessions.length (.start u.session) (.start u.session) [] :=
      Session.Turn.Mute.asks ⟨.none rfl, fun _ => rfl⟩
    rw [← r.sessions_asking] at begun
    exact .of_asking (received.asked_turn unborn unclaimed begun silent)

private theorem Listed.unasked_found (h : Listed r) (traced : Traced r)
    (known : r.history id = some t) (opened : t.session.socket.isSome = true)
    (own : s.key = t.session.key)
    (deaf : s.tcp.isSyn = true ∨ s.tcp.isAck = false) (isn : UInt32) (prospect : Socket.Prospect) :
    Asked r (r.handle (.segment s) isn prospect) [] := by
  have flow : (Inbound.segment s).key? = some t.session.key := congrArg some own
  obtain ⟨stands, -⟩ := h.handle_found known opened flow isn prospect
  refine stands.asked_turn known (traced.marked known)
    (Session.Turn.Mute.asks ⟨.none rfl, fun _ => rfl⟩)
    (Turn.Unheard.firstPayload ?_)
  unfold Turn.handle
  simp only
  split
  · exact Turn.steady_resendAck.mute.effects
  · split
    case isTrue notSyn isAck =>
      rcases deaf with isSyn | notAck
      · exact absurd isSyn notSyn
      · rw [notAck] at isAck
        cases isAck
    case isFalse => split <;> first | exact .none rfl | (split <;> exact .none rfl)

private theorem Listed.handleAck_conveys (h : Listed r) (traced : Traced r)
    (isAck : s.tcp.isAck = true) (notSyn : s.tcp.isSyn = false) (isn : UInt32)
    (prospect : Socket.Prospect) :
    Conveys r (Inquiry.handleAck (Inquiry.answer r.settings) r s)
      (r.handle (.segment s) isn prospect) := by
  have acked : r.handle (.segment s) isn prospect = r.handleAck s := by
    unfold Relay.handle Relay.handleSegment
    simp only [notSyn, isAck, Bool.false_eq_true, if_false, if_true]
  cases found : r.lookup s.key with
  | none =>
    have orphan : r.handleAck s = r.handleOrphan s := by
      unfold Relay.handleAck
      rw [found]
    have told : Inquiry.handleAck (Inquiry.answer r.settings) r s =
        pure (r.handle (.segment s) isn prospect) := by
      unfold Inquiry.handleAck
      rw [found, acked, orphan]
    rw [told]
    exact ⟨[], Inquiry.yields_pure _, h.unasked_fresh found isn prospect⟩
  | some id =>
    obtain ⟨t, known, own, opened⟩ := h.found s.key id found
    have flow : (Inbound.segment s).key? = some t.session.key := congrArg some own.symm
    obtain ⟨stands, -⟩ := h.handle_found known opened flow isn prospect
    have at_id := (history_eq_some.1 known).1
    obtain ⟨asked, yields, asks⟩ : Inquiry.Retells id (.start t.session) _ _ _ :=
      Inquiry.receiveAck_retells r.settings r.now _ s
    have past := (Turn.start t.session).on_receiveAck t.effects r.now s r.settings.egressClassifier
    rw [Turn.on_start] at past
    have last := (t.unheard_hear r.settings.egressClassifier r.now s).firstPayload
    refine ⟨asked, ?_, stands.asked_turn known (traced.marked known) asks fun direction => ?_⟩
    · rw [← List.append_nil asked, acked]
      unfold Inquiry.handleAck Relay.handleAck
      simp only [found, at_id]
      refine yields.bind ?_
      rcases Turn.receiveAck _ _ _ _ with ⟨w, _ | refresh⟩ <;> exact Inquiry.yields_pure _
    · rw [t.handle_hear notSyn isAck, last, show t.receiveAck s r.settings.egressClassifier r.now = _ from past]
      rfl

private theorem turn_retells {f : Turn → Inquiry Turn} {g : Turn → Turn}
    (at_id : r.sessions[id]? = some session)
    (retells : Inquiry.Retells id (.start session) (f (.start session)) (g (.start session))
      (g (.start session))) :
    ∃ asked, Inquiry.Yields (Inquiry.turn r id f) (r.turn id g) asked ∧
      Turn.Asks id (.start session) (g (.start session)) asked := by
  obtain ⟨asked, yields, asks⟩ := retells
  refine ⟨asked, ?_, asks⟩
  rw [← List.append_nil asked]
  unfold Inquiry.turn Relay.turn
  rw [at_id]
  exact yields.bind (Inquiry.yields_pure _)

variable {d : Inbound.Datagram}

private theorem Listed.handleDatagram_found_conveys (h : Listed r) (traced : Traced r)
    (found : r.lookup d.key = some id) (isn : UInt32) (prospect : Socket.Prospect) :
    Conveys r (Inquiry.handleDatagram (Inquiry.answer r.settings) r d prospect)
      (r.handle (.datagram d) isn prospect) := by
  obtain ⟨t, known, own, opened⟩ := h.found d.key id found
  have flow : (Inbound.datagram d).key? = some t.session.key := congrArg some own.symm
  obtain ⟨stands, -⟩ := h.handle_found known opened flow isn prospect
  have at_id := (history_eq_some.1 known).1
  have there : r.openSession d.key d.ip.totalLength prospect = (r, .ok (.existing id)) := by
    unfold Relay.openSession
    rw [found]
  obtain ⟨asked, yields, asks⟩ := turn_retells at_id
    (f := fun t => Inquiry.takeDatagram (Inquiry.answer r.settings id) t d false)
    (g := (·.takeDatagram d false r.settings.egressClassifier))
    (Inquiry.takeDatagram_retells r.settings (.start t.session) d false)
  refine ⟨asked, ?_, stands.asked_turn known (traced.marked known) asks fun direction => ?_⟩
  · rw [← List.append_nil asked]
    unfold Inquiry.handleDatagram Relay.handle Relay.handleDatagram
    simp only [there]
    exact yields.bind (Inquiry.yields_pure _)
  · have past := (Turn.start t.session).on_takeDatagram t.effects d false
      r.settings.egressClassifier
    rw [Turn.on_start] at past
    have told : (t.takeDatagram d false r.settings.egressClassifier).Unheard
        (t.handle r.settings.egressClassifier r.now (.datagram d)) :=
      (Turn.steady_emit (Effect.plain_refresh _)).mute.effects
    rw [told.firstPayload, show t.takeDatagram d false r.settings.egressClassifier = _ from past]
    rfl

private theorem Listed.handleDatagram_fresh_conveys (h : Listed r) (fresh : r.lookup d.key = none)
    (isn : UInt32) (prospect : Socket.Prospect) :
    Conveys r (Inquiry.handleDatagram (Inquiry.answer r.settings) r d prospect)
      (r.handle (.datagram d) isn prospect) := by
  have received := h.handleDatagram_fresh fresh prospect
  have opens : (Inbound.datagram d).opens = true := rfl
  simp only [Settings.admitDatagram] at received
  unfold Inquiry.handleDatagram Relay.handle
  simp only
  generalize made : r.handleDatagram d prospect = after at received
  unfold Relay.handleDatagram at made
  simp only [openSession_fresh fresh opens] at made ⊢
  cases result : (r.settings.opening r.socketCount d.key prospect).result with
  | error e =>
    simp only [result] at made received ⊢
    rw [made]
    exact ⟨[], Inquiry.yields_pure _, asked_nothing fun id direction => by
      rw [← made, effectsOf_asking]⟩
  | ok opened =>
    obtain ⟨socket, connected⟩ := opened
    obtain ⟨rfl, rfl⟩ := openDatagram_result prospect _ _ result
    simp only [result] at made received ⊢
    let session := newSession d.key (prospect.begun r.socketCount false true) true d.ip.totalLength
      r.now
    let effects := attempted (r.settings.opening r.socketCount d.key prospect)
    have length := congrArg List.length (r.sessions_asking (.datagram d) effects)
    have settings : ((r.asking (.datagram d) effects).enter session).settings = r.settings :=
      congrArg (·.settings) (r.scene_asking (.datagram d) effects)
    have at_id : ((r.asking (.datagram d) effects).enter session).sessions[r.sessions.length]? =
        some session := by
      rw [← length]
      exact List.getElem?_concat_length
    obtain ⟨asked, yields, asks⟩ := turn_retells at_id
      (f := fun t => Inquiry.takeDatagram (Inquiry.answer r.settings r.sessions.length) t d true)
      (g := (·.takeDatagram d true r.settings.egressClassifier))
      (Inquiry.takeDatagram_retells r.settings (.start session) d true)
    refine ⟨asked, ?_, .of_asking (received.asked_turn ?_ (fun direction => ?_) (length ▸ asks)
      fun direction => ?_)⟩
    · rw [settings] at made
      rw [← made, ← List.append_nil asked]
      exact yields.bind (Inquiry.yields_pure _)
    · rw [length, effectsOf_asking]
      exact h.unborn r.sessions.length (Nat.le_refl _)
    · cases direction <;> rfl
    · exact Session.Turn.firstPayload_started r.settings d prospect r.socketCount r.now direction

private theorem Listed.handle_conveys (h : Listed r) (traced : Traced r) (packet : Inbound)
    (isn : UInt32) (prospect : Socket.Prospect) :
    Conveys r (Inquiry.handle (Inquiry.answer r.settings) r packet isn prospect)
      (r.handle packet isn prospect) := by
  cases packet with
  | segment s =>
    by_cases deaf : s.tcp.isSyn = true ∨ s.tcp.isAck = false
    · have told : Inquiry.handle (Inquiry.answer r.settings) r (.segment s) isn prospect =
          pure (r.handle (.segment s) isn prospect) := by
        simp only [Inquiry.handle, Inquiry.handleSegment, Relay.handle, Relay.handleSegment]
        rcases deaf with isSyn | notAck
        · simp only [isSyn, if_true]
        · simp only [notAck, Bool.false_eq_true, if_false]
          split
          · rfl
          · split
            · rfl
            · split <;> rfl
      rw [told]
      refine ⟨[], Inquiry.yields_pure _, ?_⟩
      cases found : r.lookup s.key with
      | none => exact h.unasked_fresh found isn prospect
      | some id =>
        obtain ⟨t, known, own, opened⟩ := h.found s.key id found
        exact h.unasked_found traced known opened own.symm deaf isn prospect
    · obtain ⟨notSyn, isAck⟩ := not_or.1 deaf
      have told : Inquiry.handle (Inquiry.answer r.settings) r (.segment s) isn prospect =
          Inquiry.handleAck (Inquiry.answer r.settings) r s := by
        simp only [Inquiry.handle, Inquiry.handleSegment]
        rw [if_neg notSyn, if_pos (by simpa using isAck)]
      rw [told]
      exact h.handleAck_conveys traced (by simpa using isAck) (by simpa using notSyn) isn prospect
  | datagram d =>
    cases found : r.lookup d.key with
    | none => exact h.handleDatagram_fresh_conveys found isn prospect
    | some id => exact h.handleDatagram_found_conveys traced found isn prospect
  | echoRequest e => exact conveys_pure fun _ _ => rfl
  | ignored => exact conveys_pure fun _ _ => rfl

end Packets

section Events

private theorem Consistent.effectsOf_same (h : Consistent r) (later : Consistent after)
    (same : after.history id = r.history id) :
    after.effectsOf (some id) = r.effectsOf (some id) := by
  cases known : r.history id with
  | none => rw [h.effects_unborn known, later.effects_unborn (same.trans known)]
  | some t => rw [(history_eq_some.1 known).2, (history_eq_some.1 (same.trans known)).2]

private theorem Consistent.unasked_sweepBy (h : Consistent r) (rank : SessionId → Nat) :
    Asked r (r.sweepBy rank) [] := by
  have changes : Changes (fun _ => .nothing) r (r.sweepBy rank) := h.toListed.sweepBy rank
  refine asked_nothing fun id direction => ?_
  by_cases member : id ∈ r.table.ids
  · obtain ⟨t, known, opened⟩ := h.opened_ids id member
    have swept := h.toListed.swept rank known opened
    rw [(history_eq_some.1 known).2, (history_eq_some.1 swept).2]
    split
    · rfl
    · exact (Turn.unheard_leave t).firstPayload direction
  · rw [h.effectsOf_same (changes.consistent h) (h.history_visits visits_evictIdle rank member)]

theorem Consistent.step_conveys (h : Consistent r) (traced : Traced r) (e : Event) :
    Conveys r (Inquiry.step (Inquiry.answer r.settings) r e) (r.step e) := by
  have later : Consistent (r.step e) := Changes.consistent h (h.step e)
  cases e with
  | packet buffer isn prospect =>
    simp only [Inquiry.step]
    cases parsed : Inbound.parse buffer with
    | error e =>
      rw [r.step_refused parsed]
      exact conveys_pure fun _ _ => rfl
    | ok packet =>
      rw [r.step_packet parsed]
      exact h.handle_conveys traced packet isn prospect
  | pass first second =>
    have changes : Changes (fun _ => .nothing) r (r.serviceBy first) := h.serviceBy first
    have order := byRank_perm first r.table.ids
    have served := h.services_convey traced r.settings rfl _ (order.nodup_iff.2 h.nodup_ids)
      fun id member => h.opened_ids id (order.mem_iff.1 member)
    rw [← h.registered] at served
    exact served.bind ⟨[], Inquiry.yields_pure _, (changes.consistent h).unasked_sweepBy second⟩
  | time | retire | network => exact conveys_pure fun _ _ => rfl
  | probe i reachable =>
    exact conveys_pure fun id direction => congrArg (firstPayload direction)
      (h.effectsOf_same later (history_finishProbe r i reachable id))

/-- In a run each session asks, in each direction, about its first payload that is not empty. -/
theorem Consistent.run_conveys (h : Consistent r) (traced : Traced r) (events : List Event) :
    Conveys r (Inquiry.run (Inquiry.answer r.settings) r events) (r.run events) := by
  induction events generalizing r with
  | nil => exact conveys_pure fun _ _ => rfl
  | cons e rest ih =>
    have changes := h.step e
    have later := ih (Changes.consistent h changes) (Changes.traced traced changes)
    rw [Changes.settings changes] at later
    unfold Inquiry.run
    rw [List.foldlM_cons]
    exact (h.step_conveys traced e).bind later

end Events

end Relay
end PacketRelay
