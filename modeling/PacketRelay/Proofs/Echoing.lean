import PacketRelay.Proofs.Addressing
import PacketRelay.Proofs.Besides

/-!
Echo requests are answered once their destinations have been reached.

Every request that the ping workers take is worked on until its probe is done. If the destination
was reached, one packet goes back, and nothing else in the tunnel is an ICMP packet: so the packets
of that protocol are the answers, in the order of the probes.
-/

set_option autoImplicit false

namespace PacketRelay

open Session (Turn)

namespace Ping.Pool

variable {Job : Type} {p : Pool Job}

/-- No job is on its way to a worker. -/
structure Settled (p : Pool Job) : Prop where
  refused : p.refused = []
  starting : p.starting = []

private theorem settled_new (core max : Nat) : (new core max : Pool Job).Settled := ⟨rfl, rfl⟩

private theorem Settled.retire (settled : p.Settled) : p.retire.Settled := by
  unfold Pool.retire
  split
  · exact ⟨settled.refused, settled.starting⟩
  · exact settled

private theorem busy_retire : p.retire.busy = p.busy := by
  unfold Pool.retire
  split <;> rfl

private theorem Settled.complete (settled : p.Settled) (i : Nat) : (p.complete i).Settled := by
  unfold Pool.complete
  split
  · exact ⟨settled.refused, settled.starting⟩
  · exact settled

private theorem busy_complete (i : Nat) : (p.complete i).busy = p.busy.eraseIdx i := by
  unfold Pool.complete
  split
  case isTrue => rfl
  case isFalse beyond => exact (List.eraseIdx_of_length_le (Nat.not_lt.1 beyond)).symm

private theorem Settled.submit (settled : p.Settled) (job : Job) : (p.submit job).1.Settled ∧
    (p.submit job).1.busy = p.busy ++ if (p.submit job).2 then [job] else [] := by
  obtain ⟨refused, starting⟩ := settled
  by_cases waiting : 0 < p.idle
  · simp only [Pool.submit, waiting, if_true, offer]
    exact ⟨⟨refused, starting⟩, trivial⟩
  · by_cases room : p.live < p.max
    · simp only [Pool.submit, waiting, room, if_true, if_false, offer, reserve, started, refused,
        starting, List.nil_append]
      exact ⟨⟨rfl, rfl⟩, trivial⟩
    · simp only [Pool.submit, waiting, room, if_false, offer, reserve, refused, List.nil_append]
      exact ⟨⟨rfl, starting⟩, (List.append_nil p.busy).symm⟩

end Ping.Pool

/-- A packet of the ICMP of its IP version. -/
def Packet.isIcmp (buffer : Bytes) : Bool :=
  match Ip.Header.parse buffer with
  | .ok ip => ip.protocol = .icmp
  | .error _ => false

namespace Draft

def isEcho : Draft → Bool
  | echo _ _ => true
  | _ => false

private theorem Replies.isEcho {key : Session.Key} {delivered : Bytes → Prop} {d : Draft}
    (replies : d.Replies key delivered) : d.isEcho = false := by
  cases replies <;> rfl

private theorem Legible.isIcmp {d : Draft} (legible : d.Legible) (identification : UInt16) :
    Packet.isIcmp (d.toBytes identification) = d.isEcho := by
  unfold Packet.isIcmp
  simp only [legible.parse_header identification, d.protocol_sealedIp identification]
  cases d with
  | segment =>
    have protocol : _ = Ip.Protocol.tcp := legible.2.1
    simp [Draft.ip, protocol, Draft.isEcho]
  | datagram =>
    have protocol : _ = Ip.Protocol.udp := legible.2
    simp [Draft.ip, protocol, Draft.isEcho]
  | echo =>
    have protocol : _ = Ip.Protocol.icmp := legible.2
    simp [Draft.ip, protocol, Draft.isEcho]

end Draft

namespace Inbound.Echo

/-- A packet is the reply to an echo request: it is whole and verifies, it goes back the way the
request came, and the reply in it has the request's identifier, sequence number and data. -/
def AnsweredBy (e : Echo) (buffer : Bytes) : Prop :=
  ∃ ip message, IsPacket ip buffer ∧ ip.version = e.ip.version ∧ ip.protocol = .icmp ∧
    ip.source = e.ip.destination ∧ ip.destination = e.ip.source ∧
    Icmp.Message.parse ip.version (buffer.drop ip.headerLength) = .ok message ∧
    message.kind = .echoReply ∧ message.code = 0 ∧ message.identifier = e.message.identifier ∧
    message.sequence = e.message.sequence ∧ message.data = e.message.data

def draft (e : Echo) : Draft := .echo e.ip.replyTemplate.withoutOptions e.message.echoReply

variable {e : Echo}

private theorem Read.reply (read : e.Read) : e.reply = .ok e.draft := by
  obtain ⟨buffer, -, -, -, request⟩ := read.parts
  have echo : e.message.echoReply.isEcho = true := by
    unfold Icmp.Message.isEcho
    simp [Draft.kind_echoReply request]
  unfold Echo.reply Draft.echoMessage
  rw [if_pos echo]
  rfl

theorem Read.answer (read : e.Read) : e.answer = [.write .echoReply e.draft] := by
  unfold Echo.answer
  rw [read.reply]
  rfl

private theorem Read.answeredBy (read : e.Read) (identification : UInt16) :
    e.AnsweredBy (e.draft.toBytes identification) := by
  have sound := Draft.sound_echoReply read read.reply
  have sealed := sound.sealed identification
  obtain ⟨-, protocol, version, kind, -⟩ := sound
  have template : ∀ ip : Ip.Header, ip.replyTemplate.withoutOptions.version = ip.version ∧
      ip.replyTemplate.withoutOptions.source = ip.destination ∧
      ip.replyTemplate.withoutOptions.destination = ip.source := fun ip => by
    cases ip <;> exact ⟨rfl, rfl, rfl⟩
  obtain ⟨same, source, destination⟩ := template e.ip
  refine ⟨e.draft.sealedIp identification, { e.message.echoReply with
      checksum := e.message.echoReply.computedChecksum (e.draft.sealedIp identification) },
    (Draft.sound_echoReply read read.reply).isPacket identification, sealed.version.trans same,
    sealed.protocol.trans protocol, sealed.source.trans source, sealed.destination.trans destination,
    ?_, kind, rfl, rfl, rfl, rfl⟩
  rw [(Draft.sound_echoReply read read.reply).legible.drop_header, sealed.version]
  have parsed := Icmp.Message.parse_write { e.message.echoReply with
    checksum := e.message.echoReply.computedChecksum (e.draft.sealedIp identification) }
  rw [← parsed]
  exact congrArg (Icmp.Message.parse · (e.draft.body identification)) version.symm

end Inbound.Echo

namespace Relay

variable {r : Relay} {e : Event}

/-- The echo request that an event brings, if the ping workers take it. -/
def acceptedEcho (r : Relay) (e : Event) : List Inbound.Echo :=
  match e.inbound? with
  | some (.echoRequest echo) => if (r.pings.submit echo).2 then [echo] else []
  | _ => []

/-- The echo request whose probe is done in an event, its destination being reached or not. -/
def probed (reachable : Bool) (r : Relay) : Event → List Inbound.Echo
  | .probe i found => if found = reachable then r.pings.busy[i]?.toList else []
  | _ => []

section Journal

theorem Traced.echoes (traced : Traced r) (h : Consistent r) {entry : Entry}
    (member : entry ∈ r.journal) {purpose : Purpose} {d : Draft}
    (writes : entry.effect = .write purpose d) :
    d.Legible ∧ (d.isEcho = true → entry.session = none) := by
  have inside := effect_mem member
  rw [writes] at inside
  cases owner : entry.session with
  | none =>
    rw [owner] at inside
    exact ⟨(traced.aside _ inside).sound.legible, fun _ => rfl⟩
  | some id =>
    rw [owner] at inside
    have known := history_of_session (List.getElem?_eq_getElem (h.owned member owner))
    have replies := (traced.lives id _ known).replies _ inside purpose d rfl
    refine ⟨replies.addressed.1, fun echo => ?_⟩
    rw [replies.isEcho] at echo
    cases echo

private theorem Traced.icmp (traced : Traced r) (h : Consistent r) :
    List.Forall₂ (fun packet d => ∃ identification, packet = d.toBytes identification)
      (r.written.filter Packet.isIcmp) ((drafts (r.effectsOf none)).filter Draft.isEcho) := by
  have echoes : ∀ entry ∈ r.journal, ∀ purpose d, entry.effect = .write purpose d →
      d.Legible ∧ (d.isEcho = true → entry.session = none) :=
    fun entry member purpose d writes => traced.echoes h member writes
  unfold written drafts effectsOf
  generalize r.journal = journal at echoes
  induction journal with
  | nil => exact .nil
  | cons entry rest ih =>
    obtain ⟨first, echoes⟩ := List.forall_mem_cons.1 echoes
    have later := ih echoes
    obtain ⟨session, identification, effect⟩ := entry
    cases effect with
    | write purpose d =>
      obtain ⟨legible, owner⟩ := first purpose d rfl
      have icmp := legible.isIcmp identification
      cases echo : d.isEcho with
      | true =>
        obtain rfl : session = none := owner echo
        rw [echo] at icmp
        simp only [List.filterMap_cons, Entry.packet?, List.filter_cons, icmp, if_true, beq_self_eq_true,
          List.map_cons, Effect.draft?, echo]
        exact .cons ⟨identification, rfl⟩ later
      | false =>
        rw [echo] at icmp
        cases session with
        | none =>
          simp only [List.filterMap_cons, Entry.packet?, List.filter_cons, icmp, beq_self_eq_true,
            if_true, List.map_cons, Effect.draft?, echo, Bool.false_eq_true, if_false]
          exact later
        | some id =>
          simp only [List.filterMap_cons, Entry.packet?, List.filter_cons, icmp, Bool.false_eq_true,
            if_false]
          exact later
    | _ => cases session <;> exact later

end Journal

/-- What has become of echo requests so far: of those that the workers took, the ones whose
destination was reached are answered, and the rest was not reached or is being worked on. -/
structure Echoes (accepted reached missed : List Inbound.Echo) (r : Relay) : Prop where
  settled : r.pings.Settled
  jobs : accepted.Perm (reached ++ missed ++ r.pings.busy)
  answers : (drafts (r.effectsOf none)).filter Draft.isEcho = reached.reverse.map (·.draft)

section Told

variable {accepted reached missed : List Inbound.Echo}

private theorem echoes_start (settings : Settings) (now coreWorkers maxWorkers : Nat) :
    Echoes [] [] [] (start settings now coreWorkers maxWorkers) :=
  ⟨Ping.Pool.settled_new coreWorkers maxWorkers, .nil, rfl⟩

private theorem Echoes.silent (echoes : Echoes accepted reached missed r) {after : Relay}
    (settled : after.pings.Settled) (busy : after.pings.busy = r.pings.busy) {new : List Effect}
    (effects : after.effectsOf none = new ++ r.effectsOf none)
    (quiet : ∀ d ∈ drafts new, d.isEcho = false) :
    Echoes (accepted ++ []) (reached ++ []) (missed ++ []) after := by
  have none_new : (drafts new).filter Draft.isEcho = [] :=
    List.filter_eq_nil_iff.2 fun d member => by simp [quiet d member]
  simp only [List.append_nil]
  refine ⟨settled, ?_, ?_⟩
  · rw [busy]
    exact echoes.jobs
  · rw [effects, drafts_append, List.filter_append, none_new, List.nil_append, echoes.answers]

private theorem besides_quiet {buffer : Bytes} {packet : Inbound} {key : Session.Key}
    (parsed : Inbound.parse buffer = .ok packet) (own : packet.key? = some key) (isn : UInt32)
    (prospect : Socket.Prospect) :
    ∀ d ∈ drafts (r.besides (.packet buffer isn prospect)), d.isEcho = false := by
  intro d member
  obtain ⟨purpose, inside⟩ := mem_drafts.1 member
  simp only [besides, parsed] at inside
  split at inside
  · have replies : (Effect.write purpose d).Replies key fun _ => True :=
      replies_admission ⟨buffer, parsed⟩ own _ inside
    exact (replies purpose d rfl).isEcho
  · cases inside

private theorem Echoes.idle (echoes : Echoes accepted reached missed r) (h : Consistent r)
    (e : Event) (same : r.workers e = r.pings)
    (quiet : ∀ d ∈ drafts (r.besides e), d.isEcho = false) :
    Echoes (accepted ++ []) (reached ++ []) (missed ++ []) (r.step e) := by
  obtain ⟨effects, pings⟩ := h.step_besides e
  rw [same] at pings
  refine echoes.silent ?_ (congrArg (·.busy) pings) effects quiet
  rw [pings]
  exact echoes.settled

private theorem Echoes.request (echoes : Echoes accepted reached missed r) (h : Consistent r)
    {buffer : Bytes} {echo : Inbound.Echo} (parsed : Inbound.parse buffer = .ok (.echoRequest echo))
    (isn : UInt32) (prospect : Socket.Prospect) :
    Echoes (accepted ++ if (r.pings.submit echo).2 then [echo] else []) reached missed
      (r.step (.packet buffer isn prospect)) := by
  obtain ⟨effects, pings⟩ := h.step_besides (.packet buffer isn prospect)
  have none_new : r.besides (.packet buffer isn prospect) = [] := by
    simp only [besides, parsed]
    rfl
  rw [none_new, List.nil_append] at effects
  simp only [workers, parsed] at pings
  obtain ⟨settled, busy⟩ := echoes.settled.submit echo
  constructor
  case settled =>
    rw [pings]
    exact settled
  case jobs =>
    rw [pings, busy, ← List.append_assoc]
    exact echoes.jobs.append_right _
  case answers =>
    rw [effects]
    exact echoes.answers

private theorem Echoes.packet (echoes : Echoes accepted reached missed r) (h : Consistent r)
    (buffer : Bytes) (isn : UInt32) (prospect : Socket.Prospect) :
    Echoes (accepted ++ acceptedEcho r (.packet buffer isn prospect)) (reached ++ []) (missed ++ [])
      (r.step (.packet buffer isn prospect)) := by
  cases parsed : Inbound.parse buffer with
  | error e =>
    rw [r.step_refused parsed]
    simp only [acceptedEcho, Event.inbound?, parsed, Except.toOption, List.append_nil]
    exact echoes
  | ok packet =>
    simp only [acceptedEcho, Event.inbound?, parsed, Except.toOption]
    cases packet with
    | segment | datagram =>
      refine echoes.idle h _ ?_ (besides_quiet parsed rfl isn prospect)
      simp only [workers, parsed]
    | ignored =>
      refine echoes.idle h _ ?_ fun d member => ?_
      · simp only [workers, parsed]
      · simp only [besides, parsed] at member
        cases member
    | echoRequest echo =>
      simp only [List.append_nil]
      exact echoes.request h parsed isn prospect

private theorem Echoes.probe (echoes : Echoes accepted reached missed r) (h : Consistent r)
    (i : Nat) (found : Bool) :
    Echoes (accepted ++ []) (reached ++ probed true r (.probe i found))
      (missed ++ probed false r (.probe i found)) (r.step (.probe i found)) := by
  obtain ⟨effects, pings⟩ := h.step_besides (.probe i found)
  have settled : (r.step (.probe i found)).pings.Settled := by
    rw [pings]
    exact echoes.settled.complete i
  have busy : (r.step (.probe i found)).pings.busy = r.pings.busy.eraseIdx i := by
    rw [pings]
    exact Ping.Pool.busy_complete i
  simp only [besides] at effects
  simp only [probed]
  cases at_i : r.pings.busy[i]? with
  | none =>
    have beyond := List.eraseIdx_of_length_le (List.getElem?_eq_none_iff.1 at_i)
    rw [at_i] at effects
    have none_done : ∀ reachable : Bool,
        (if found = reachable then (none : Option Inbound.Echo).toList else []) = [] :=
      fun reachable => by split <;> rfl
    rw [none_done, none_done]
    exact echoes.silent settled (busy.trans beyond) effects fun d none => by cases none
  | some job =>
    have read : job.Read :=
      h.asked job (Ping.Pool.mem_jobs.2 (.inr (.inr (List.mem_of_getElem? at_i))))
    obtain ⟨within, rfl⟩ := List.getElem?_eq_some_iff.1 at_i
    have moved : r.pings.busy.Perm (r.pings.busy[i] :: r.pings.busy.eraseIdx i) :=
      (List.getElem_cons_eraseIdx_perm within).symm
    have jobs : accepted.Perm
        (reached ++ missed ++ r.pings.busy[i] :: (r.step (.probe i found)).pings.busy) := by
      rw [busy]
      exact echoes.jobs.trans (moved.append_left _)
    rw [at_i] at effects
    simp only [read.answer] at effects
    cases found with
    | true =>
      simp only [if_true, Bool.true_eq_false, if_false, Option.toList_some, List.append_nil]
      refine ⟨settled, jobs.trans ?_, ?_⟩
      · simp only [List.append_assoc, List.singleton_append]
        exact List.perm_middle.append_left reached
      · rw [effects, drafts_append, List.filter_append, echoes.answers, List.reverse_append,
          List.map_append]
        rfl
    | false =>
      simp only [if_true, Bool.false_eq_true, if_false, Option.toList_some, List.append_nil]
      refine ⟨settled, ?_, ?_⟩
      · simp only [List.append_assoc, List.singleton_append] at jobs ⊢
        exact jobs
      · rw [effects, drafts_append, List.filter_append, echoes.answers]
        rfl

/-- Every event goes on with the requests as they are told of. -/
private theorem Echoes.step (echoes : Echoes accepted reached missed r) (h : Consistent r)
    (e : Event) :
    Echoes (accepted ++ acceptedEcho r e) (reached ++ probed true r e) (missed ++ probed false r e)
      (r.step e) := by
  cases e with
  | packet buffer isn prospect => exact echoes.packet h buffer isn prospect
  | probe i found => exact echoes.probe h i found
  | retire =>
    obtain ⟨effects, -⟩ := h.step_besides .retire
    refine echoes.silent echoes.settled.retire Ping.Pool.busy_retire effects fun d none => ?_
    cases none
  | pass | time | network => exact echoes.idle h _ rfl fun d none => by cases none

end Told

theorem echoes_run (settings : Settings) (now coreWorkers maxWorkers : Nat) (events : List Event) :
    let start := start settings now coreWorkers maxWorkers
    Echoes (collect acceptedEcho start events) (collect (probed true) start events)
      (collect (probed false) start events) (start.run events) := by
  intro start
  induction events using List.reverseRecOn with
  | nil => exact echoes_start settings now coreWorkers maxWorkers
  | append_singleton events e ih =>
    have h : Consistent (start.run events) := consistent_run settings now coreWorkers maxWorkers events
    simp only [collect_append, collect, List.append_nil, run_append, run_cons, run_nil]
    exact ih.step h e

theorem read_of_acceptedEcho {start : Relay} {events : List Event} {echo : Inbound.Echo}
    (member : echo ∈ collect acceptedEcho start events) :
    ∃ e ∈ events, e.inbound? = some (.echoRequest echo) := by
  induction events generalizing start with
  | nil => cases member
  | cons e rest ih =>
    rcases List.mem_append.1 member with first | later
    · refine ⟨e, List.mem_cons_self, ?_⟩
      unfold acceptedEcho at first
      split at first
      case h_1 other brings =>
        split at first
        · rw [brings, List.mem_singleton.1 first]
        · cases first
      case h_2 => cases first
    · obtain ⟨other, member, brings⟩ := ih later
      exact ⟨other, List.mem_cons_of_mem e member, brings⟩

/-- Every echo request that the workers have taken is answered, has not reached its destination, or
is being worked on; its reply can always be sent. The ICMP packets in the tunnel are the answers to
the requests whose destination was reached, one for each and in their order. A probe that is done
writes the answer, or nothing if its destination was not reached. -/
theorem run_echoes (settings : Settings) (now coreWorkers maxWorkers : Nat) (events : List Event) :
    let start := start settings now coreWorkers maxWorkers
    let r := start.run events
    let accepted := collect acceptedEcho start events
    let reached := collect (probed true) start events
    let missed := collect (probed false) start events
    accepted.Perm (reached ++ missed ++ r.pings.busy) ∧
    (∀ e ∈ accepted, ∃ draft, e.reply = .ok draft) ∧
    List.Forall₂ Inbound.Echo.AnsweredBy reached (r.written.filter Packet.isIcmp).reverse ∧
    ∀ (i : Nat) (e : Inbound.Echo), r.pings.busy[i]? = some e →
      (∃ buffer, e.AnsweredBy buffer ∧ (r.step (.probe i true)).written = buffer :: r.written) ∧
      (r.step (.probe i false)).written = r.written := by
  intro start r accepted reached missed
  have h : Consistent r := consistent_run settings now coreWorkers maxWorkers events
  have traced : Traced r := traced_run settings now coreWorkers maxWorkers events
  have echoes : Echoes accepted reached missed r :=
    echoes_run settings now coreWorkers maxWorkers events
  have read : ∀ e ∈ accepted, e.Read := by
    intro e member
    obtain ⟨event, -, brings⟩ := read_of_acceptedEcho member
    exact Event.read brings
  have taken : ∀ e ∈ reached, e.Read := fun e member =>
    read e (echoes.jobs.mem_iff.2 (List.mem_append_left _ (List.mem_append_left _ member)))
  have working : ∀ e ∈ r.pings.busy, e.Read := fun e member =>
    read e (echoes.jobs.mem_iff.2 (List.mem_append_right _ member))
  refine ⟨echoes.jobs, fun e member => ⟨_, (read e member).reply⟩, ?answers, fun i e busy => ?probes⟩
  case answers =>
    have icmp := traced.icmp h
    rw [echoes.answers, List.forall₂_map_right_iff] at icmp
    have replies := (List.rel_reverse icmp).flip
    rw [List.reverse_reverse] at replies
    refine ((List.forall₂_and_left _ _).2 ⟨taken, replies⟩).imp fun e packet ⟨read, draft⟩ => ?_
    obtain ⟨identification, rfl⟩ := draft
    exact read.answeredBy identification
  case probes =>
    have answer := (working e (List.mem_of_getElem? busy)).reply
    simp only [Relay.step, finishProbe, busy, answer]
    refine ⟨⟨_, (working e (List.mem_of_getElem? busy)).answeredBy _, rfl⟩, rfl⟩

/-- Of two requests, one with options and an odd number of bytes, the first reaches its
destination. -/
theorem run_echoes_options :
    let asked : Bytes := [0x46, 0, 0, 35, 0, 1, 0, 0, 64, 1, 0, 0, 10, 0, 0, 1, 10, 0, 0, 2,
      1, 1, 1, 0, 8, 0, 0, 0, 0, 7, 0, 3, 1, 2, 3]
    let missing : Bytes := [0x45, 0, 0, 28, 0, 2, 0, 0, 64, 1, 0, 0, 10, 0, 0, 1, 10, 0, 0, 9,
      8, 0, 0, 0, 0, 7, 0, 4]
    let start := start .plain 0 1 2
    let events : List Event := [.packet asked 0 (.smooth []), .packet missing 0 (.smooth []),
      .probe 1 false, .probe 0 true]
    (start.run events).pings.busy = [] ∧
    ∃ (e : Inbound.Echo) (buffer : Bytes), e.message.sequence = 3 ∧ e.message.data = [1, 2, 3] ∧
      (start.run events).written = [buffer] ∧ buffer.length = 31 ∧ e.AnsweredBy buffer := by
  intro asked missing start events
  have idle : (start.run events).pings.busy = [] := by decide +kernel
  refine ⟨idle, ?_⟩
  obtain ⟨-, -, answers, -⟩ := run_echoes .plain 0 1 2 events
  have reached : (collect (probed true) start events).map
      (fun e => (e.message.sequence, e.message.data)) = [(3, [1, 2, 3])] := by decide +kernel
  have written : (start.run events).written.map (fun b => (Packet.isIcmp b, b.length)) =
      [(true, 31)] := by decide +kernel
  obtain ⟨e, one, told⟩ := List.map_eq_singleton_iff.1 reached
  obtain ⟨buffer, alone, length⟩ := List.map_eq_singleton_iff.1 written
  obtain ⟨icmp, length⟩ := Prod.mk.inj length
  obtain ⟨sequence, data⟩ := Prod.mk.inj told
  rw [one, alone, List.filter_singleton, icmp] at answers
  obtain ⟨answered, -⟩ := List.forall₂_cons.1 answers
  exact ⟨e, buffer, sequence, data, alone, length, answered⟩

end Relay
end PacketRelay
