import PacketRelay.Proofs.Acceptance
import PacketRelay.Proofs.Inquiry

/-!
What is recognized of a flow.

A session asks about the first payload of each direction. An answer is what the flow is known as
from then on, and it is told of at once; no answer is the last word of that direction as well. So
what a flow is known as, and how often it has been told of, follows from the payloads of its
session.
-/

set_option autoImplicit false

namespace PacketRelay

open Session (Turn Direction Classifier Classification Protocol)

/-- The payload that an effect brings, if it is the first one of a direction. -/
def Effect.first? (direction : Direction) (before : List Effect) (e : Effect) : Option Bytes :=
  if (firstPayload direction before).isSome then none else (e.payload? direction).filter (· ≠ [])

/-- What is found out from an effect. -/
def Effect.finds? (settings : Relay.Settings) (before : List Effect) (e : Effect) :
    Option Classification :=
  ((e.first? .egress before).bind settings.egressClassifier).or
    ((e.first? .ingress before).bind settings.ingressClassifier)

/-- What has been found out last. -/
def recognized (settings : Relay.Settings) : List Effect → Option Classification
  | [] => none
  | e :: before => (e.finds? settings before).or (recognized settings before)

/-- Whatever is found out of a flow, it is told next. -/
def Announced (settings : Relay.Settings) (effects : List Effect) : Prop :=
  ∀ e before hit, e :: before <:+ effects → e.finds? settings before = some hit →
    ∃ flow, flow.classification = some hit ∧ .flowUpdated flow :: e :: before <:+ effects

section Effects

variable {settings : Relay.Settings} {e : Effect} {new effects : List Effect} {direction : Direction}
  {payload : Bytes}

private theorem first?_silent (silent : ∀ direction, e.payload? direction = none)
    (before : List Effect) : e.first? direction before = none := by
  unfold Effect.first?
  rw [silent direction]
  exact ite_self _

private theorem finds?_silent (silent : ∀ direction, e.payload? direction = none)
    (before : List Effect) : e.finds? settings before = none := by
  unfold Effect.finds?
  rw [first?_silent silent, first?_silent silent]
  rfl

private theorem first?_brings (brings : e.Brings direction payload) (before : List Effect)
    (d : Direction) : e.first? d before =
      if d = direction ∧ ¬ (payload = [] ∨ (firstPayload direction before).isSome = true) then
        some payload else none := by
  unfold Effect.first?
  rw [brings.payload]
  by_cases same : d = direction
  · subst same
    by_cases empty : payload = []
    · simp [empty, Option.filter]
    · cases firstPayload d before <;> simp [empty]
  · simp [same]

private theorem finds?_brings (brings : e.Brings direction payload) (before : List Effect) :
    e.finds? settings before =
      if payload = [] ∨ (firstPayload direction before).isSome = true then none
      else settings.classifier direction payload := by
  unfold Effect.finds?
  rw [first?_brings brings, first?_brings brings]
  by_cases again : payload = [] ∨ (firstPayload direction before).isSome = true
  · simp only [again, not_true_eq_false, and_false, if_false, if_true]
    rfl
  · cases direction <;>
      simp only [again, not_false_eq_true, and_true, reduceCtorEq, if_true, if_false, Option.bind_some,
        Option.bind_none, Option.or_none, Option.none_or, Relay.Settings.classifier]

private theorem recognized_silent (silent : ∀ e ∈ new, ∀ direction, e.payload? direction = none)
    (effects : List Effect) :
    recognized settings (new ++ effects) = recognized settings effects := by
  induction new with
  | nil => rfl
  | cons e rest ih =>
    obtain ⟨first, later⟩ := List.forall_mem_cons.1 silent
    rw [List.cons_append, recognized, finds?_silent first, Option.none_or, ih later]

private theorem Announced.cons (h : Announced settings effects)
    (unfound : e.finds? settings effects = none) : Announced settings (e :: effects) := by
  intro other before hit within found
  rcases List.suffix_cons_iff.1 within with same | within
  · obtain ⟨rfl, rfl⟩ := List.cons.inj same
    rw [unfound] at found
    cases found
  · obtain ⟨flow, told, follows⟩ := h other before hit within found
    exact ⟨flow, told, follows.trans (List.suffix_cons e effects)⟩

private theorem Announced.silent (h : Announced settings effects)
    (silent : ∀ e ∈ new, ∀ direction, e.payload? direction = none) :
    Announced settings (new ++ effects) := by
  induction new with
  | nil => exact h
  | cons e rest ih =>
    obtain ⟨first, later⟩ := List.forall_mem_cons.1 silent
    exact (ih later).cons (finds?_silent first _)

private theorem Announced.tell (h : Announced settings effects) {hit : Classification}
    (found : e.finds? settings effects = some hit) {flow : Session.Flow}
    (told : flow.classification = some hit) :
    Announced settings (.flowUpdated flow :: e :: effects) := by
  intro other before also within finds
  rcases List.suffix_cons_iff.1 within with same | within
  · obtain ⟨rfl, rfl⟩ := List.cons.inj same
    rw [finds?_silent (silent_flowUpdated flow)] at finds
    cases finds
  · rcases List.suffix_cons_iff.1 within with same | within
    · obtain ⟨rfl, rfl⟩ := List.cons.inj same
      obtain rfl := Option.some.inj (found.symm.trans finds)
      exact ⟨flow, told, List.suffix_rfl⟩
    · obtain ⟨flow, told, follows⟩ := h other before also within finds
      exact ⟨flow, told, follows.trans ⟨[_, _], rfl⟩⟩

end Effects

namespace Session.Turn

variable {settings : Relay.Settings} {outside : Outside} {t u v : Turn}

/-- No payload comes, and the flow is known as before. -/
structure Quiet (t u : Turn) : Prop extends Mute t u where
  known : u.state.flow.classification = t.state.flow.classification

/-- What a flow is known as is what has been found out of it. -/
structure Known (settings : Relay.Settings) (t : Turn) : Prop where
  classified : ∀ direction, t.state.classified direction = (firstPayload direction t.effects).isSome
  classification : t.state.flow.classification = recognized settings t.effects
  announced : Announced settings t.effects

private theorem Quiet.trans (first : t.Quiet u) (second : u.Quiet v) : t.Quiet v :=
  ⟨first.toMute.trans second.toMute, second.known.trans first.known⟩

private theorem Steady.quiet (steady : t.Steady u)
    (known : u.state.flow.classification = t.state.flow.classification) : t.Quiet u :=
  ⟨steady.mute, known⟩

private theorem Known.quiet (h : Known settings t) (quiet : t.Quiet u) : Known settings u := by
  have last := Unheard.firstPayload quiet.effects
  obtain ⟨new, added, silent⟩ := quiet.effects
  refine ⟨fun direction => ?_, ?_, ?_⟩
  · rw [quiet.classified, h.classified, last]
  · rw [quiet.known, h.classification, added, recognized_silent silent]
  · rw [added]
    exact h.announced.silent silent

section Moves

private theorem quiet_endStream (next : UInt32) : t.Quiet (t.endStream next) := by
  refine (steady_endStream next).quiet ?_
  unfold endStream sendFin
  split <;> rfl

private theorem quiet_takeAck (s : Inbound.Segment) (now : Nat) : t.Quiet (t.takeAck s now) := by
  have noted : (t.noteAck s now).state.flow = t.state.flow := by
    obtain ⟨_, _, _, _, _, frame⟩ := t.noteAck_frame now s
    unfold state
    rw [frame]
    rfl
  refine (steady_takeAck s now).quiet ?_
  rw [takeAck_eq, ← noted]
  split
  · exact (quiet_endStream _).known
  · rfl

private theorem quiet_takePush (s : Inbound.Segment) (now : Nat) : t.Quiet (t.takePush s now) := by
  refine (steady_takePush s now).quiet ?_
  rw [takePush_eq]
  split <;> rfl

private theorem quiet_takeEnd (s : Inbound.Segment) (inOrder : Bool) :
    t.Quiet (t.takeEnd s inOrder) := by
  refine (steady_takeEnd s inOrder).quiet ?_
  unfold takeEnd
  split <;> split <;> rfl

private theorem quiet_remoteClose : t.Quiet t.remoteClose := by
  refine steady_remoteClose.quiet ?_
  rw [remoteClose_eq]
  split
  · rfl
  · exact (quiet_endStream _).known

private theorem quiet_resendAck : t.Quiet t.resendAck := by
  refine steady_resendAck.quiet ?_
  unfold resendAck
  split <;> rfl

private theorem quiet_resetPeer : t.Quiet t.resetPeer := by
  refine steady_resetPeer.quiet ?_
  unfold resetPeer
  split <;> rfl

private theorem quiet_flush : t.Quiet t.flush.1 := by
  refine steady_flush.quiet ?_
  cases opened : t.session.socket with
  | none => rw [flush_none t opened]
  | some socket => rw [flush_some t opened rfl]; rfl

private theorem quiet_handOn (bytes : Bytes) : t.Quiet (t.handOn bytes) := by
  refine (steady_handOn bytes).quiet ?_
  have sent : ∀ ip tcp, (t.sendSegments ip tcp bytes).state.flow.classification =
      t.state.flow.classification := by
    intro ip tcp
    fun_induction sendSegments t ip tcp bytes with
    | case1 t => rfl
    | case2 t first rest more ih => exact ih
  unfold handOn
  split
  · split
    · exact sent _ _
    · rfl
  · split <;> rfl

private theorem quiet_leave : t.Quiet t.report.shut := by
  refine ⟨⟨t.unheard_leave, fun direction => ?_⟩, ?_⟩ <;>
  · unfold shut
    split <;> rfl

private theorem Known.hear_again (h : Known settings t) {e : Effect} {direction : Direction}
    {payload : Bytes} (brings : e.Brings direction payload)
    (again : payload = [] ∨ (firstPayload direction t.effects).isSome = true) :
    Known settings (t.emit e) := by
  have found : e.finds? settings t.effects = _ := finds?_brings brings t.effects
  rw [if_pos again] at found
  have unheard := firstPayload_again brings again
  refine ⟨fun d => (h.classified d).trans (congrArg Option.isSome (unheard d).symm), ?_,
    h.announced.cons found⟩
  show t.state.flow.classification = (e.finds? settings t.effects).or _
  rw [found, Option.none_or, h.classification]

private theorem Known.hear_first (h : Known settings t) {e : Effect} {direction : Direction}
    {payload : Bytes} (brings : e.Brings direction payload) (some_payload : payload ≠ [])
    (unheard : firstPayload direction t.effects = none) :
    Known settings ((t.emit e).classify (settings.classifier direction) direction payload) := by
  have found : e.finds? settings t.effects = _ := finds?_brings brings t.effects
  rw [if_neg (by simp [some_payload, unheard])] at found
  have fresh : (t.emit e).state.classified direction = false := by
    have marked := h.classified direction
    rw [unheard] at marked
    exact marked
  have marked := classified_first h.classified brings some_payload unheard
  rw [classify_first _ _ some_payload fresh]
  cases answer : settings.classifier direction payload with
  | none =>
    rw [answer] at found
    refine ⟨marked, ?_, h.announced.cons found⟩
    have same : (t.state.claim direction).flow = t.state.flow := by cases direction <;> rfl
    show (t.state.claim direction).flow.classification = (e.finds? settings t.effects).or _
    rw [found, Option.none_or, same, h.classification]
  | some hit =>
    rw [answer] at found
    refine ⟨fun d => ?_, ?_, h.announced.tell found rfl⟩
    · exact (marked d).trans
        (congrArg Option.isSome (firstPayload_silent (silent_flowUpdated _) _).symm)
    · show some hit = (Effect.finds? settings _ (.flowUpdated _)).or
        ((e.finds? settings t.effects).or _)
      rw [finds?_silent (silent_flowUpdated _), found]
      rfl

private theorem Known.hear (h : Known settings t) {e : Effect} {direction : Direction}
    {payload : Bytes} (brings : e.Brings direction payload) :
    Known settings ((t.emit e).classify (settings.classifier direction) direction payload) := by
  by_cases again : payload = [] ∨ t.state.classified direction = true
  · have same : (t.emit e).classify (settings.classifier direction) direction payload = t.emit e :=
      (t.emit e).classify_again _ again
    rw [same]
    exact h.hear_again brings (again.imp_right fun marked => (h.classified direction).symm.trans marked)
  · obtain ⟨some_payload, fresh⟩ := not_or.1 again
    rw [h.classified] at fresh
    exact h.hear_first brings some_payload (by simpa using fresh)

private theorem Known.takePayload (h : Known settings t) (s : Inbound.Segment) (now : Nat) :
    Known settings (t.takePayload s settings.egressClassifier now) := by
  have queued := h.quiet ((steady_enqueue s).quiet rfl)
  have heard := queued.hear (Effect.brings_accept s.payload s.ip.totalLength)
  exact heard.quiet ((steady_acknowledge s now).quiet rfl)

private theorem Known.takeDatagram (h : Known settings t) (d : Inbound.Datagram) (opened : Bool) :
    Known settings (t.takeDatagram d opened settings.egressClassifier) := by
  have queued := h.quiet ((steady_enqueueDatagram d opened).quiet (by cases opened <;> rfl))
  have heard := queued.hear (Effect.brings_accept d.payload d.ip.totalLength)
  exact heard.quiet (steady_ready.quiet rfl)

private theorem Known.deliver (h : Known settings t) (bytes : Bytes) (now : Nat) :
    Known settings (t.deliver bytes settings.ingressClassifier true now) := by
  have heard := h.hear (Effect.brings_receive bytes)
  exact (heard.quiet (quiet_handOn bytes)).quiet ⟨⟨.none rfl, fun _ => rfl⟩, rfl⟩

end Moves

private theorem Known.move (h : Known settings t)
    (move : Move settings outside t u) : Known settings u := by
  cases move with
  | takePayload s now => exact h.takePayload s now
  | takeDatagram d => exact h.takeDatagram d false
  | deliver bytes after now =>
    have same : t.Quiet (t.withSocket after) := ⟨mute_withSocket after, rfl⟩
    exact (h.quiet same).deliver bytes now
  | resendAck => exact h.quiet quiet_resendAck
  | refusePayload => exact h.quiet ((steady_emit (Effect.plain_write _ _)).quiet rfl)
  | takeAck s now => exact h.quiet (quiet_takeAck s now)
  | takePush s now => exact h.quiet (quiet_takePush s now)
  | takeEnd s inOrder => exact h.quiet (quiet_takeEnd s inOrder)
  | cancel => exact h.quiet ((steady_emit (Effect.plain_cancel _)).quiet rfl)
  | refresh => exact h.quiet ((steady_emit (Effect.plain_refresh _)).quiet rfl)
  | flush => exact h.quiet quiet_flush
  | remoteClose after =>
    have same : t.Quiet (t.withSocket after) := ⟨mute_withSocket after, rfl⟩
    exact h.quiet (same.trans quiet_remoteClose)
  | resetPeer => exact h.quiet quiet_resetPeer
  | leave => exact h.quiet quiet_leave
  | remember | abandon | connect =>
    exact h.quiet ⟨⟨.none rfl, fun direction => by cases direction <;> rfl⟩, rfl⟩
  | touch | check | readNothing | network => exact h.quiet ⟨⟨.none rfl, fun _ => rfl⟩, rfl⟩

private theorem known_opened (opened : Opened settings t) : Known settings t := by
  have begun : ∀ session effects, (∀ direction, session.state.classified direction = false) →
      session.state.flow.classification = none →
      (∀ e ∈ effects, ∀ direction, Effect.payload? direction e = none) →
      Known settings ⟨session, effects⟩ := by
    intro session effects unclaimed unknown silent
    have empty : Announced settings [] := fun _ _ _ within => by cases List.suffix_nil.1 within
    refine ⟨fun direction => ?_, ?_, List.append_nil effects ▸ empty.silent silent⟩
    · rw [firstPayload_mute silent]
      exact unclaimed direction
    · rw [← List.append_nil effects, recognized_silent silent]
      exact unknown
  cases opened with
  | stream s read isSyn isn prospect number connected now =>
    exact begun _ _ (fun direction => by cases direction <;> rfl) rfl fun e member direction => by
      simp only [List.mem_cons, List.not_mem_nil, or_false] at member
      rcases member with rfl | rfl | rfl <;> cases direction <;> rfl
  | datagram d read prospect number now session fresh =>
    have created : Known settings ⟨session, [.flowCreated session.state.flow]⟩ := by
      subst fresh
      refine begun _ _ (fun direction => by cases direction <;> rfl) rfl fun e member direction => ?_
      rw [List.mem_singleton.1 member]
      cases direction <;> rfl
    have registered := (created.takeDatagram d true).quiet
      ((steady_emit (Effect.plain_register d.key)).quiet rfl)
    have refreshed := registered.quiet ((steady_emit (Effect.plain_refresh d.key)).quiet rfl)
    exact refreshed.quiet ⟨⟨.none rfl, fun _ => rfl⟩, rfl⟩

/-- In every life a flow is known as what has been found out of it last. -/
private theorem Lives.known (lives : Lives settings t) : Known settings t :=
  lives.induction (fun _ => known_opened) fun _ _ _ known move => known.move move

end Session.Turn

private theorem firstPayload_egress (effects : List Effect) :
    firstPayload .egress effects = ((acceptances effects).map (·.1)).find? (· ≠ []) := by
  unfold firstPayload acceptances
  induction effects.reverse with
  | nil => rfl
  | cons e rest ih =>
    rw [List.findSome?_cons, ih, List.filterMap_cons]
    cases e with
    | accept payload length => cases payload <;> rfl
    | _ => rfl

namespace Relay

variable {r : Relay} {id : SessionId} {protocol : Protocol}

/-- The payloads that a session accepts in an event. -/
def takes (id : SessionId) (protocol : Protocol) (r : Relay) (e : Event) : List Bytes :=
  match protocol with
  | .tcp => (acceptedSegment id r e).map (·.payload)
  | .udp => (handledDatagram id r e).map (·.payload)

/-- The payloads that a session asks about in an event. -/
def asks (settings : Settings) (id : SessionId) (direction : Direction) (r : Relay) (e : Event) :
    List Bytes :=
  questionsOf id direction (StateT.run (Inquiry.step (Inquiry.answer settings) r e) []).2

private theorem collect_map {α β : Type} (g : α → β) (f : Relay → Event → List α) (r : Relay)
    (events : List Event) : collect (fun r e => (f r e).map g) r events = (collect f r events).map g := by
  induction events generalizing r with
  | nil => rfl
  | cons e rest ih => rw [collect, ih, collect, List.map_append]

private theorem acceptances_run (settings : Settings) (now coreWorkers maxWorkers : Nat)
    (events : List Event)
    (own : ∀ u, ((start settings now coreWorkers maxWorkers).run events).history id = some u →
      u.session.key.protocol = protocol) :
    (acceptances (((start settings now coreWorkers maxWorkers).run events).effectsOf (some id))).map
        (·.1) =
      collect (takes id protocol) (start settings now coreWorkers maxWorkers) events := by
  have begun := consistent_start settings now coreWorkers maxWorkers
  have later : Consistent ((start settings now coreWorkers maxWorkers).run events) :=
    Changes.consistent begun (begun.run events)
  cases known : ((start settings now coreWorkers maxWorkers).run events).history id with
  | none =>
    rw [later.effects_unborn known, begun.collect_unborn (fun r e h unborn => ?_) events known]
    · rfl
    · unfold takes
      rw [h.acceptedSegment_unborn unborn, h.handledDatagram_unborn unborn]
      cases protocol <;> rfl
  | some u =>
    obtain rfl := own u known
    rw [(history_eq_some.1 known).2]
    cases protocol : u.session.key.protocol with
    | tcp =>
      rw [run_acceptedSegments settings now coreWorkers maxWorkers events known protocol, List.map_map]
      exact (collect_map _ _ _ _).symm
    | udp =>
      rw [run_handledDatagrams settings now coreWorkers maxWorkers events known protocol, List.map_map]
      exact (collect_map _ _ _ _).symm

private theorem Consistent.asks_step (h : Consistent r) (traced : Traced r) (id : SessionId)
    (direction : Direction) (e : Event) :
    (firstPayload direction (r.effectsOf (some id))).toList ++ asks r.settings id direction r e =
      (firstPayload direction ((r.step e).effectsOf (some id))).toList := by
  obtain ⟨asked, yields, asks⟩ := h.step_conveys traced e
  unfold Relay.asks
  rw [yields []]
  exact asks id direction

private theorem asks_egress (settings : Settings) (now coreWorkers maxWorkers : Nat)
    (events : List Event) (e : Event)
    (own : ∀ u, (((start settings now coreWorkers maxWorkers).run events).step e).history id = some u →
      u.session.key.protocol = protocol) :
    asks settings id .egress ((start settings now coreWorkers maxWorkers).run events) e ⊆
      takes id protocol ((start settings now coreWorkers maxWorkers).run events) e := by
  have h := consistent_run settings now coreWorkers maxWorkers events
  have asks := h.asks_step (traced_run settings now coreWorkers maxWorkers events) id .egress e
  rw [settings_run] at asks
  have before := acceptances_run settings now coreWorkers maxWorkers events fun t known => by
    obtain ⟨u, later, moves⟩ := Changes.history (h.step e) known
    rw [← moves.key, own u later]
  have after := acceptances_run settings now coreWorkers maxWorkers (events ++ [e]) fun u known =>
    own u (by rwa [run_append] at known)
  rw [run_append, collect_append, ← before] at after
  simp only [run_cons, run_nil, collect, List.append_nil] at after
  rw [firstPayload_egress, firstPayload_egress, after, List.find?_append] at asks
  intro payload member
  cases first : List.find? (· ≠ []) ((acceptances (((start settings now coreWorkers maxWorkers).run
      events).effectsOf (some id))).map (·.1)) with
  | none =>
    rw [first, Option.none_or, Option.toList_none, List.nil_append] at asks
    rw [asks, Option.mem_toList] at member
    exact List.mem_of_find?_eq_some member
  | some earlier =>
    rw [first, Option.some_or, Option.toList_some] at asks
    rw [List.self_eq_append_right.1 asks.symm] at member
    cases member

/-- Of the payloads that are not empty a session asks about the first that it accepts from its peer
and the first that it reads from its socket, about each once, and whatever it is answered it never
asks again. It asks in the event in which it accepts, so nothing that it refuses is asked about.
What is found out is what the flow is known as from then on, and is told of at once. Otherwise a
flow is told of again only when its session leaves. -/
theorem run_classifies (settings : Settings) (now coreWorkers maxWorkers : Nat) (events : List Event)
    {id : SessionId} {session : Session}
    (at_id : ((start settings now coreWorkers maxWorkers).run events).sessions[id]? = some session) :
    let start := start settings now coreWorkers maxWorkers
    let effects := (start.run events).effectsOf (some id)
    let told := StateT.run (Inquiry.run (Inquiry.answer settings) start events) []
    let protocol := session.key.protocol
    told.1 = start.run events ∧
    (∀ direction, questionsOf id direction told.2 = (firstPayload direction effects).toList) ∧
    firstPayload .egress effects = (collect (takes id protocol) start events).find? (· ≠ []) ∧
    Throughout (fun r e => asks settings id .egress r e ⊆ takes id protocol r e) start events ∧
    session.state.flow.classification = recognized settings effects ∧
    Announced settings effects ∧
    effects.countP (·.isUpdate) =
      hits settings effects + if session.socket.isSome then 0 else 1 := by
  intro start effects told protocol
  have begun : Consistent start := consistent_start settings now coreWorkers maxWorkers
  have traced := traced_run settings now coreWorkers maxWorkers events
  have at_end : (start.run events).history id = some ⟨session, effects⟩ := history_of_session at_id
  have lives := traced.lives id _ at_end
  rw [settings_run] at lives
  -- A session that is there at some time has had its flow from the beginning.
  have own : ∀ before after u, before ++ after = events →
      (start.run before).history id = some u → u.session.key.protocol = protocol := by
    rintro before after u rfl known
    have h : Consistent (start.run before) := Changes.consistent begun (begun.run before)
    obtain ⟨v, later, moves⟩ := (h.run after).history known
    rw [run_append, later] at at_end
    obtain rfl := Option.some.inj at_end
    exact congrArg (·.protocol) moves.key.symm
  obtain ⟨asked, yields, asks⟩ := begun.run_conveys (traced_start settings now coreWorkers maxWorkers)
    events
  have told_eq : told = (start.run events, asked) := yields []
  obtain ⟨number, accounted⟩ := lives.accounted
  have shut := accounted.holds.shut
  have known := lives.known
  refine ⟨congrArg Prod.fst told_eq, fun direction => ?_, ?_, ?_, known.classification,
    known.announced, ?_⟩
  · have none_before : firstPayload direction (start.effectsOf (some id)) = none := rfl
    have all := asks id direction
    rw [none_before] at all
    rw [told_eq]
    exact all
  · rw [firstPayload_egress]
    exact congrArg _ (acceptances_run settings now coreWorkers maxWorkers events fun u known =>
      own events [] u (List.append_nil events) known)
  · refine throughout_of_prefixes fun before e after same => ?_
    have split : (before ++ [e]) ++ after = events := by rw [List.append_assoc]; exact same
    refine asks_egress settings now coreWorkers maxWorkers before e fun u known =>
      own (before ++ [e]) after u split ?_
    rw [run_append]
    exact known
  · rw [accounted.updated, shut]
    cases session.socket <;> rfl

/-- A stream whose first segment is refused: the one that is accepted is recognized, the answer of
its socket is not, and neither is asked about again. -/
theorem run_classifies_stream :
    let segment (flags : UInt8) (seq : UInt32) (payload : Bytes) : Event := .packet
      (sampleSegment flags seq 501 payload) 500 (.smooth [.data [1, 2], .data [3]])
    let events := [segment 2 1000 [], segment 16 900 [9], segment 16 1001 [71, 69],
      segment 16 1003 [84], .pass (fun _ => 0) (fun _ => 0)]
    let settings : Settings := { Settings.plain with
      egressClassifier := .ofRules [([71], ⟨"http", "request"⟩)] }
    (∀ direction, questionsOf 0 direction
        (StateT.run (Inquiry.run (Inquiry.answer settings) (start settings 0 1 1) events) []).2 =
      if direction = .egress then [[71, 69]] else [[1, 2]]) ∧
    (((start settings 0 1 1).run events).effectsOf (some 0)).countP (·.isUpdate) = 1 ∧
    ∃ session, ((start settings 0 1 1).run events).sessions[0]? = some session ∧
      session.state.flow.classification = some ⟨"http", "request"⟩ := by
  intro segment events settings
  have opened : (((start settings 0 1 1).run events).history 0).map (·.session.socket.isSome) =
      some true := by decide +kernel
  obtain ⟨t, known, opened⟩ := Option.map_eq_some_iff.1 opened
  have at_id := (history_eq_some.1 known).1
  obtain ⟨-, questions, -, -, found, -, updates⟩ := run_classifies settings 0 1 1 events at_id
  have first : ∀ direction,
      firstPayload direction (((start settings 0 1 1).run events).effectsOf (some 0)) =
        some (if direction = .egress then [71, 69] else [1, 2]) := by
    intro direction
    cases direction <;> decide +kernel
  have last : recognized settings (((start settings 0 1 1).run events).effectsOf (some 0)) =
      some ⟨"http", "request"⟩ := by decide +kernel
  have once : hits settings (((start settings 0 1 1).run events).effectsOf (some 0)) = 1 := by
    decide +kernel
  refine ⟨fun direction => (questions direction).trans ?_, updates.trans ?_, t.session, at_id,
    found.trans last⟩
  · rw [first]
    split <;> rfl
  · rw [once, opened]
    rfl

end Relay
end PacketRelay
