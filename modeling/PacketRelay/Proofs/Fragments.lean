import PacketRelay.Proofs.Acceptance
import PacketRelay.Proofs.Datagrams
import PacketRelay.Proofs.Echoing

/-!
What becomes of the fragment fields of a packet.

Every answer is drafted from the header of a packet of its flow, and keeps all of that header that
is not about its own length and direction. So the answer to a fragment calls itself a fragment too,
with the offset of the packet that it answers, although it is complete: `answer_is_fragment` has
one. Where no packet of a flow is a fragment, no answer is.
-/

set_option autoImplicit false

namespace PacketRelay

open Session (Key Turn)

namespace Ip.Header

/-- Where a packet says that it belongs in a larger one: whether more of it follows, and how far
from its start this part is. -/
def fragment : Header → Bool × UInt16
  | v4 h => (h.moreFragments, h.fragmentOffset)
  | v6 _ => (false, 0)

/-- The packet is not a part of a larger one. -/
def IsWhole (h : Header) : Prop := h.fragment = (false, 0)

instance (h : Header) : Decidable h.IsWhole := inferInstanceAs (Decidable (_ = _))

/-- The header is that of an answer to a packet with the other one: it goes the other way, and the
fragment fields are taken over. -/
structure Mirrors (h origin : Header) : Prop where
  source : h.source = origin.destination
  destination : h.destination = origin.source
  fragment : h.fragment = origin.fragment

private theorem mirrors_replyTemplate (h : Header) : h.replyTemplate.Mirrors h := by
  cases h <;> exact ⟨rfl, rfl, rfl⟩

private theorem withoutOptions_replyTemplate (h : Header) :
    h.replyTemplate.withoutOptions = h.replyTemplate := by
  cases h <;> rfl

end Ip.Header

private theorem Draft.mirrors_sealedIp {d : Draft} {origin : Ip.Header}
    (mirrors : d.ip.Mirrors origin) (identification : UInt16) :
    (d.sealedIp identification).Mirrors origin := by
  obtain ⟨source, destination, fragment⟩ := mirrors
  unfold sealedIp
  generalize d.ip = ip at source destination fragment
  cases ip <;> exact ⟨source, destination, fragment⟩

namespace Inbound

/-- The IP header of a packet that is worked with. -/
def ip? : Inbound → Option Ip.Header
  | segment s => some s.ip
  | datagram d => some d.ip
  | echoRequest e => some e.ip
  | ignored => none

end Inbound

/-- What an effect writes, if anything, is drafted from one of the headers. -/
def Effect.DraftedFrom (p : Ip.Header → Prop) (e : Effect) : Prop :=
  ∀ purpose d, e = .write purpose d → ∃ origin, p origin ∧ d.ip = origin.replyTemplate

section Effects

variable {p q : Ip.Header → Prop} {e : Effect}

private theorem Effect.DraftedFrom.imp (drafted : e.DraftedFrom p) (imp : ∀ ip, p ip → q ip) :
    e.DraftedFrom q := by
  intro purpose d same
  obtain ⟨origin, holds, template⟩ := drafted purpose d same
  exact ⟨origin, imp origin holds, template⟩

private theorem Effect.draftedFrom_write {purpose : Purpose} {d : Draft} {origin : Ip.Header}
    (holds : p origin) (template : d.ip = origin.replyTemplate) :
    Effect.DraftedFrom p (.write purpose d) := by
  intro _ _ same
  cases same
  exact ⟨origin, holds, template⟩

private theorem Effect.draftedFrom_quiet (quiet : e.draft? = none) : e.DraftedFrom p := by
  rintro purpose d rfl
  cases quiet

private theorem Draft.ip_reset (ip : Ip.Header) (tcp : Tcp.Header) (n : Nat) :
    (reset ip tcp n).ip = ip.replyTemplate := by
  unfold reset
  simp only
  split <;> rfl

end Effects

namespace Session.Turn

variable {settings : Relay.Settings} {outside : Outside} {t u v : Turn} {p : Ip.Header → Prop}

/-- What is written on top is drafted from the last header that the session has stored. -/
abbrev Mirrors (t u : Turn) : Prop := Adds (Effect.DraftedFrom (t.state.lastIp = some ·)) t u

private theorem lastIp_of_heads (same : u.heads = t.heads) : u.state.lastIp = t.state.lastIp :=
  congrArg (·.2.1) same

private theorem lastIp_of_lastSegment {ip : Ip.Header} {tcp : Tcp.Header}
    (last : t.state.lastSegment? = some (ip, tcp)) : t.state.lastIp = some ip := by
  unfold State.lastSegment? at last
  split at last
  case h_1 stored _ =>
    cases last
    exact stored
  case h_2 => cases last

private theorem lastIp_of_lastDatagram {ip : Ip.Header} {udp : Udp.Header}
    (last : t.state.lastDatagram? = some (ip, udp)) : t.state.lastIp = some ip := by
  unfold State.lastDatagram? at last
  split at last
  case h_1 stored _ =>
    cases last
    exact stored
  case h_2 => cases last

private theorem Mirrors.of_quiet (quiet : Adds (fun e => e.draft? = none) t u) : t.Mirrors u :=
  quiet.imp fun _ => Effect.draftedFrom_quiet

private theorem Mirrors.trans (first : t.Mirrors u) (same : u.heads = t.heads)
    (second : u.Mirrors v) : t.Mirrors v := by
  unfold Mirrors at second
  rw [lastIp_of_heads same] at second
  exact Adds.trans first second

private theorem mirrors_endStream (next : UInt32) : t.Mirrors (t.endStream next) := by
  unfold endStream sendFin
  split
  · exact .none rfl
  case h_2 last => exact .one rfl (Effect.draftedFrom_write (lastIp_of_lastSegment last) rfl)

private theorem mirrors_takePayload {s : Inbound.Segment} (last : t.state.lastIp = some s.ip)
    (classifier : Classifier) (now : Nat) : t.Mirrors (t.takePayload s classifier now) := by
  have queued : t.Mirrors (t.queue s) := .of_quiet (.one rfl rfl)
  have classified := queued.trans rfl
    (.of_quiet (dwells_classify classifier .egress s.payload).unwritten)
  rw [takePayload_eq]
  exact Adds.trans classified (.one rfl (Effect.draftedFrom_write last rfl))

private theorem mirrors_takeAck (s : Inbound.Segment) (now : Nat) :
    t.Mirrors (t.takeAck s now) := by
  have noted : t.Mirrors (t.noteAck s now) := .none rfl
  rw [takeAck_eq]
  split
  · exact noted.trans (heads_noteAck s now) (mirrors_endStream _)
  · exact noted

private theorem mirrors_takeEnd {s : Inbound.Segment} (last : t.state.lastIp = some s.ip)
    (inOrder : Bool) : t.Mirrors (t.takeEnd s inOrder) := by
  unfold takeEnd
  split
  · split
    · exact .one rfl (Effect.draftedFrom_write last rfl)
    · exact .none rfl
  · split <;> exact .none rfl

private theorem mirrors_sendSegments {ip : Ip.Header} (last : t.state.lastIp = some ip)
    (tcp : Tcp.Header) (bytes : Bytes) : t.Mirrors (t.sendSegments ip tcp bytes) := by
  fun_induction sendSegments t ip tcp bytes with
  | case1 t => exact .none rfl
  | case2 t first rest more ih =>
    exact Adds.trans (.one rfl (Effect.draftedFrom_write last rfl)) (ih last)

private theorem mirrors_handOn (bytes : Bytes) : t.Mirrors (t.handOn bytes) := by
  unfold handOn
  split
  · split
    case h_1 last => exact mirrors_sendSegments (lastIp_of_lastSegment last) _ bytes
    case h_2 => exact .none rfl
  · split
    case h_1 last => exact .one rfl (Effect.draftedFrom_write (lastIp_of_lastDatagram last) rfl)
    case h_2 => exact .none rfl

private theorem mirrors_deliver (bytes : Bytes) (classifier : Classifier) (now : Nat) :
    t.Mirrors (t.deliver bytes classifier true now) := by
  have received : t.Mirrors (t.emit (.receive bytes)) := .of_quiet (.one rfl rfl)
  have heard := received.trans rfl (.of_quiet (dwells_classify classifier .ingress bytes).unwritten)
  rw [deliver_eq, if_pos rfl]
  exact heard.trans (heads_classify classifier .ingress bytes) (mirrors_handOn bytes)

private theorem Move.mirrors (move : Move settings outside t u) : t.Mirrors u := by
  cases move with
  | resendAck =>
    unfold Turn.resendAck
    split
    · exact .none rfl
    case h_2 last => exact .one rfl (Effect.draftedFrom_write (lastIp_of_lastSegment last) rfl)
  | takePayload s now answers => exact mirrors_takePayload (lastIp_of_lastSegment answers.last) _ now
  | refusePayload s answers =>
    exact .one rfl (Effect.draftedFrom_write (lastIp_of_lastSegment answers.last) rfl)
  | takeAck s now => exact mirrors_takeAck s now
  | takePush => unfold Turn.takePush; split <;> exact .none rfl
  | takeEnd s inOrder answers => exact mirrors_takeEnd (lastIp_of_lastSegment answers.last) inOrder
  | takeDatagram d => exact .of_quiet (dwells_takeDatagram d false _).unwritten
  | flush => exact .of_quiet dwells_flush.unwritten
  | deliver bytes after now => exact mirrors_deliver (t := t.withSocket after) bytes _ now
  | remoteClose after =>
    rw [remoteClose_eq]
    split
    · exact .none rfl
    · exact mirrors_endStream (t := t.withSocket after) _
  | resetPeer =>
    unfold Turn.resetPeer
    split
    · exact .none rfl
    case h_2 ip tcp last =>
      exact .one rfl (Effect.draftedFrom_write (lastIp_of_lastSegment last) (Draft.ip_reset ip tcp 0))
  | leave => exact .of_quiet dwells_leave.unwritten
  | cancel | refresh => exact .of_quiet (.one rfl rfl)
  | remember | touch | abandon | check | connect | readNothing | network => exact .none rfl

/-- A session has stored one of the headers, and has drafted from them alone. -/
structure Drafted (p : Ip.Header → Prop) (t : Turn) : Prop where
  last : ∀ ip, t.state.lastIp = some ip → p ip
  effects : ∀ e ∈ t.effects, e.DraftedFrom p

private theorem Drafted.goes_on (h : t.Drafted p) (mirrors : t.Mirrors u)
    (last : ∀ ip, u.state.lastIp = some ip → p ip) : u.Drafted p :=
  ⟨last, (mirrors.imp fun _ drafted => drafted.imp h.last).forall h.effects⟩

private theorem lastIp_takeDatagram (d : Inbound.Datagram) (opened : Bool)
    (classifier : Classifier) : (t.takeDatagram d opened classifier).state.lastIp = some d.ip :=
  lastIp_of_lastDatagram (lastDatagram?_takeDatagram d opened classifier)

private theorem Drafted.takeDatagram (h : t.Drafted p) {d : Inbound.Datagram} (holds : p d.ip)
    (opened : Bool) (classifier : Classifier) : (t.takeDatagram d opened classifier).Drafted p := by
  refine h.goes_on (.of_quiet (dwells_takeDatagram d opened classifier).unwritten) fun ip last => ?_
  rw [lastIp_takeDatagram] at last
  exact Option.some.inj last ▸ holds

private theorem not_silent_takeDatagram (d : Inbound.Datagram) (opened : Bool)
    (classifier : Classifier) : ¬ t.Silent (t.takeDatagram d opened classifier) := by
  intro silent
  have same := acceptances_of_silent silent
  rw [acceptances_takeDatagram] at same
  simp at same

private theorem Drafted.moves (h : t.Drafted p) (moves : Moves settings outside t u)
    (heard : ∀ s, outside.brings s → s.key = t.session.key → p s.ip)
    (silent : t.session.key.protocol = .udp → t.Silent u) : u.Drafted p := by
  induction moves with
  | refl => exact h
  | @tail v w before move ih =>
    have key : v.session.key = t.session.key := Moves.key before
    have parts : t.session.key.protocol = .udp → t.Silent v ∧ v.Silent w := by
      intro datagrams
      obtain ⟨all, added, quiet⟩ := silent datagrams
      obtain ⟨new, grown, -⟩ := Moves.grows before
      obtain ⟨newer, later, -⟩ := move.grows
      rw [later, grown, ← List.append_assoc] at added
      obtain rfl := List.append_cancel_right added
      exact ⟨⟨new, grown, fun e member => quiet e (List.mem_append_right newer member)⟩,
        ⟨newer, later, fun e member => quiet e (List.mem_append_left new member)⟩⟩
    have drafted := ih fun datagrams => (parts datagrams).1
    refine drafted.goes_on move.mirrors fun ip last => ?_
    obtain same | ⟨s, hears, rfl⟩ | ⟨d, read, own, rfl⟩ := move.heads
    · rw [lastIp_of_heads same] at last
      exact drafted.last ip last
    · obtain rfl : s.ip = ip := Option.some.inj last
      exact heard s hears.brought (hears.own.trans key)
    · have datagrams : t.session.key.protocol = .udp := by
        rw [← key, ← own]
        rfl
      exact absurd (parts datagrams).2 (not_silent_takeDatagram d false _)

private theorem drafted_begun (settings : Relay.Settings) {s : Inbound.Segment} (holds : p s.ip)
    (isn : UInt32) (prospect : Socket.Prospect) (number : Nat) (connected : Bool) (now : Nat) :
    (begun settings s isn prospect number connected now).Drafted p := by
  refine ⟨fun ip last => Option.some.inj last ▸ holds, ?_⟩
  unfold begun
  simp only [List.forall_mem_cons]
  exact ⟨Effect.draftedFrom_write holds rfl, Effect.draftedFrom_quiet rfl,
    Effect.draftedFrom_quiet rfl, List.forall_mem_nil _⟩

private theorem drafted_started (settings : Relay.Settings) {d : Inbound.Datagram} (holds : p d.ip)
    (prospect : Socket.Prospect) (number now : Nat) :
    (started settings d prospect number now).Drafted p := by
  have created : ∀ session : Session, session.state.lastIp = none →
      Turn.Drafted p ⟨session, [.flowCreated session.state.flow]⟩ := by
    intro session fresh
    refine ⟨fun ip last => ?_, List.forall_mem_singleton.2 (Effect.draftedFrom_quiet rfl)⟩
    cases fresh.symm.trans last
  let session :=
    Relay.newSession d.key (prospect.begun number false true) true d.ip.totalLength now
  have taken := (created session rfl).takeDatagram holds true settings.egressClassifier
  have told : Turn.Mirrors _ (started settings d prospect number now) :=
    .of_quiet (.trans (.one (e := .register d.key) rfl rfl) (.one (e := .refresh d.key) rfl rfl))
  exact taken.goes_on told taken.last

private theorem Drafted.handle (h : t.Drafted p) {packet : Inbound} (read : packet.Read)
    (own : packet.key? = some t.session.key) (opened : t.session.socket.isSome = true)
    (holds : ∀ ip, packet.ip? = some ip → p ip) (now : Nat) :
    (t.handle settings.egressClassifier now packet).Drafted p := by
  cases packet with
  | segment s =>
    let outside : Outside := ⟨False, (· = s)⟩
    have moves : Moves settings outside t (t.handle settings.egressClassifier now (.segment s)) :=
      handle_moves read own opened (fun other same => (Inbound.segment.inj same).symm) now
    refine h.moves moves (fun other same _ => ?_) fun datagrams => ?_
    · obtain rfl : other = s := same
      exact holds _ rfl
    · rw [← Option.some.inj own] at datagrams
      cases datagrams
  | datagram d =>
    have taken := h.takeDatagram (holds d.ip rfl) false settings.egressClassifier
    have told : (t.takeDatagram d false settings.egressClassifier).Mirrors
        (t.handle settings.egressClassifier now (.datagram d)) :=
      .of_quiet (.one (e := .refresh d.key) rfl rfl)
    exact taken.goes_on told taken.last
  | echoRequest | ignored => exact h

end Session.Turn

namespace Relay

variable {r : Relay} {id : SessionId} {t u : Turn} {e : Event} {events : List Event}

/-- The IP headers of the packets of a flow that the events bring; echo requests have no flow. -/
def headersOf (events : List Event) (flow : Option Key) : List Ip.Header :=
  events.filterMap fun e => e.inbound?.bind fun packet =>
    if packet.key? = flow then packet.ip? else none

variable {flow : Option Key} {ip : Ip.Header}

private theorem mem_headersOf_of_brings {packet : Inbound} (member : e ∈ events)
    (brings : e.inbound? = some packet) (own : packet.key? = flow) (header : packet.ip? = some ip) :
    ip ∈ headersOf events flow := by
  refine List.mem_filterMap.2 ⟨e, member, ?_⟩
  simp only [brings, Option.bind_some, own, if_true, header]

private theorem headersOf_subset {later : List Event} (within : events ⊆ later) :
    headersOf events flow ⊆ headersOf later flow := List.filterMap_subset _ within

section Sessions

variable (settings : Settings) (now coreWorkers maxWorkers : Nat)

private theorem Consistent.drafted_befalls (h : Consistent r) (member : e ∈ events)
    (known : r.history id = some t) (later : (r.step e).history id = some u)
    (befalls : Befalls r id t e u)
    (drafted : t.Drafted (· ∈ headersOf events (some t.session.key))) :
    u.Drafted (· ∈ headersOf events (some u.session.key)) := by
  rw [h.key_step known later]
  obtain ⟨packet, brings, read, own, opened, rfl⟩ | ⟨silent, -⟩ := befalls.accepts
  · exact drafted.handle read own opened
      (fun _ => mem_headersOf_of_brings member brings own) r.now
  · obtain ⟨v, same, moves⟩ := Changes.history (h.step e) known
    obtain rfl : u = v := Option.some.inj (later.symm.trans same)
    refine drafted.moves moves (fun s brought own => ?_) fun _ => silent
    exact mem_headersOf_of_brings member (Event.segment?_eq.1 brought) (congrArg some own) rfl

private theorem Opens.drafted (opens : Opens r u e) (member : e ∈ events) :
    u.Drafted (· ∈ headersOf events (some u.session.key)) := by
  obtain ⟨s, isn, prospect, connected, brings, -, -, rfl⟩ | ⟨d, prospect, brings, -, -, rfl⟩ :=
    opens.cases
  · exact Session.Turn.drafted_begun r.settings
      (mem_headersOf_of_brings member (Event.segment?_eq.1 brings) rfl rfl) isn prospect _ connected _
  · rw [Turn.key_started]
    exact Session.Turn.drafted_started r.settings (mem_headersOf_of_brings member brings rfl rfl)
      prospect _ _

/-- Every session drafts from packets of its own flow. -/
private theorem run_drafted
    (known : ((start settings now coreWorkers maxWorkers).run events).history id =
    some u) : u.Drafted (· ∈ headersOf events (some u.session.key)) := by
  have always : ∀ (r : Relay) (rest : List Event), rest ⊆ events →
      Throughout (fun _ e => e ∈ events) r rest := by
    intro r rest
    induction rest generalizing r with
    | nil => exact fun _ => trivial
    | cons e rest ih =>
      intro within
      exact ⟨within List.mem_cons_self, ih _ fun other member =>
        within (List.mem_cons_of_mem e member)⟩
  exact run_kept settings now coreWorkers maxWorkers
    (P := fun u => u.Drafted (· ∈ headersOf events (some u.session.key)))
    (fun _ _ _ _ member _ _ opens => opens.drafted member)
    (fun _ _ _ _ h _ member known later _ befalls => h.drafted_befalls member known later befalls)
    events (always _ events (List.Subset.refl events)) known rfl

end Sessions

section Besides

private theorem draftedFrom_admission (settings : Settings) (now number : Nat) (packet : Inbound)
    (isn : UInt32) (prospect : Socket.Prospect) :
    ∀ e ∈ (settings.admission now number packet isn prospect).aside,
      e.DraftedFrom (packet.ip? = some ·) := by
  have attempts : ∀ opening : Socket.Opening, ∀ e ∈ attempted opening,
      e.DraftedFrom (packet.ip? = some ·) := by
    intro opening e member
    obtain ⟨attempt, -, rfl⟩ := List.mem_map.1 member
    exact Effect.draftedFrom_quiet rfl
  cases packet with
  | segment s =>
    simp only [Settings.admission]
    split
    · simp only [Settings.admitSyn]
      split
      · exact List.forall_mem_cons.2
          ⟨Effect.draftedFrom_write rfl (Draft.ip_reset s.ip s.tcp 0), attempts _⟩
      · exact attempts _
    · split
      · unfold orphanAnswer
        split
        · exact List.forall_mem_singleton.2 (Effect.draftedFrom_write rfl rfl)
        · split
          · exact List.forall_mem_nil _
          · exact List.forall_mem_singleton.2
              (Effect.draftedFrom_write rfl (Draft.ip_reset s.ip s.tcp _))
      · split
        · exact List.forall_mem_singleton.2 (Effect.draftedFrom_write rfl rfl)
        · exact List.forall_mem_nil _
  | datagram d =>
    simp only [Settings.admission, Settings.admitDatagram]
    split <;> exact attempts _
  | echoRequest | ignored => exact List.forall_mem_nil _

/-- A draft answers a packet that the events bring. -/
def Answered (events : List Event) (d : Draft) : Prop :=
  ∃ flow, ∃ origin ∈ headersOf events flow, d.key? = flow.map Key.back ∧
    d.ip = origin.replyTemplate

private theorem answered_admission {settings : Settings} {now number : Nat} {packet : Inbound}
    {isn : UInt32} {prospect : Socket.Prospect} {e : Event} (within : e ∈ events)
    (brings : e.inbound? = some packet) {purpose : Purpose} {d : Draft}
    (aside : .write purpose d ∈ (settings.admission now number packet isn prospect).aside) :
    Answered events d := by
  obtain ⟨origin, header, template⟩ :=
    draftedFrom_admission settings now number packet isn prospect _ aside purpose d rfl
  refine ⟨packet.key?, origin, mem_headersOf_of_brings within brings rfl header, ?_, template⟩
  cases own : packet.key? with
  | some key =>
    have replies : (Effect.write purpose d).Replies key fun _ => True :=
      replies_admission (Event.read brings) own _ aside
    exact (replies purpose d rfl).addressed.2
  | none =>
    cases packet with
    | segment | datagram => cases own
    | echoRequest | ignored => cases aside

private theorem answered_besides (e : Event) (within : e ∈ events)
    (working : ∀ job ∈ r.pings.busy, job.Read ∧ job.ip ∈ headersOf events none) :
    ∀ d ∈ drafts (r.besides e), Answered events d := by
  intro d member
  obtain ⟨purpose, inside⟩ := mem_drafts.1 member
  cases e with
  | packet buffer isn prospect =>
    cases parsed : Inbound.parse buffer with
    | error e =>
      simp only [besides, parsed] at inside
      cases inside
    | ok packet =>
      have brings : (Event.packet buffer isn prospect).inbound? = some packet := by
        simp only [Event.inbound?, parsed]
        rfl
      simp only [besides, parsed] at inside
      split at inside
      · exact answered_admission within brings inside
      · cases inside
  | probe i found =>
    simp only [besides] at inside
    split at inside
    case h_2 => cases inside
    case h_1 job busy =>
      obtain ⟨read, brought⟩ := working job (List.mem_of_getElem? busy)
      rw [read.answer] at inside
      cases found with
      | false => simp at inside
      | true =>
        simp only [if_true, List.singleton_append, List.mem_cons, Effect.write.injEq,
          List.not_mem_nil, or_false, reduceCtorEq] at inside
        obtain ⟨-, rfl⟩ := inside
        exact ⟨none, job.ip, brought, rfl, Ip.Header.withoutOptions_replyTemplate job.ip⟩
  | pass | time | retire | network => cases inside

private theorem run_answered (settings : Settings) (now coreWorkers maxWorkers : Nat)
    (events : List Event) :
    ∀ d ∈ drafts (((start settings now coreWorkers maxWorkers).run events).effectsOf none),
      Answered events d := by
  induction events using List.reverseRecOn with
  | nil => exact List.forall_mem_nil _
  | append_singleton events e ih =>
    have h : Consistent ((start settings now coreWorkers maxWorkers).run events) :=
      consistent_run settings now coreWorkers maxWorkers events
    have echoes := echoes_run settings now coreWorkers maxWorkers events
    have earlier : events ⊆ events ++ [e] := List.subset_append_left events [e]
    intro d member
    rw [run_append, run_cons, run_nil, (h.step_besides e).1, drafts_append] at member
    rcases List.mem_append.1 member with new | old
    · refine answered_besides e (List.mem_append_right events List.mem_cons_self) ?_ d new
      intro job busy
      obtain ⟨other, inside, brings⟩ :=
        read_of_acceptedEcho (echoes.jobs.mem_iff.2 (List.mem_append_right _ busy))
      exact ⟨Event.read brings, mem_headersOf_of_brings (earlier inside) brings rfl rfl⟩
    · obtain ⟨flow, origin, brought, answers⟩ := ih d old
      exact ⟨flow, origin, headersOf_subset earlier brought, answers⟩

end Besides

/-- Every packet in the tunnel answers a packet of its flow, or an echo request, that has come out
of it before, and takes over the fragment fields of that packet. So if no packet of a flow is a
fragment, no answer to the flow is. -/
theorem run_fragments (settings : Settings) (now coreWorkers maxWorkers : Nat)
    (events : List Event) :
    let r := (start settings now coreWorkers maxWorkers).run events
    (∀ buffer ∈ r.written, ∃ ip flow, Ip.Header.parse buffer = .ok ip ∧
      Key.ofPacket? buffer = flow.map Key.back ∧ ∃ origin ∈ headersOf events flow,
        ip.Mirrors origin) ∧
    ∀ flow, (∀ origin ∈ headersOf events flow, origin.IsWhole) →
      ∀ buffer ∈ r.written, Key.ofPacket? buffer = flow.map Key.back →
        ∃ ip, Ip.Header.parse buffer = .ok ip ∧ ip.IsWhole := by
  intro r
  have consistent : Consistent r := consistent_run settings now coreWorkers maxWorkers events
  have traced : Traced r := traced_run settings now coreWorkers maxWorkers events
  have mirrors : ∀ buffer ∈ r.written, ∃ ip flow, Ip.Header.parse buffer = .ok ip ∧
      Key.ofPacket? buffer = flow.map Key.back ∧ ∃ origin ∈ headersOf events flow,
        ip.Mirrors origin := by
    intro buffer member
    obtain ⟨entry, recorded, packet⟩ := List.mem_filterMap.1 member
    obtain ⟨purpose, d, effect, rfl⟩ := Entry.draft_of_packet packet
    have legible : d.Legible := (traced.echoes consistent recorded effect).1
    have inside := effect_mem recorded
    rw [effect] at inside
    have answered : Answered events d := by
      cases owner : entry.session with
      | none =>
        rw [owner] at inside
        exact run_answered settings now coreWorkers maxWorkers events d
          (mem_drafts.2 ⟨purpose, inside⟩)
      | some id =>
        rw [owner] at inside
        have known := history_of_session (List.getElem?_eq_getElem (consistent.owned recorded owner))
        obtain ⟨origin, brought, template⟩ :=
          (run_drafted settings now coreWorkers maxWorkers known).effects _ inside purpose d rfl
        exact ⟨_, origin, brought, (traced.legible known d (mem_drafts.2 ⟨purpose, inside⟩)).2,
          template⟩
    obtain ⟨flow, origin, brought, own, template⟩ := answered
    refine ⟨_, flow, legible.parse_header entry.identification,
      (legible.ofPacket? entry.identification).trans own, origin, brought, ?_⟩
    exact Draft.mirrors_sealedIp (template ▸ origin.mirrors_replyTemplate) entry.identification
  refine ⟨mirrors, fun flow whole buffer member own => ?_⟩
  obtain ⟨ip, other, parsed, also, origin, brought, fragment⟩ := mirrors buffer member
  have same : other = flow := Option.map_injective (fun _ _ => Key.back_inj) (also.symm.trans own)
  exact ⟨ip, parsed, fragment.fragment.trans (whole origin (same ▸ brought))⟩

/-- A datagram that is the first fragment of a larger one does not make the answer to the stream a
fragment. -/
theorem run_fragments_apart :
    let syn := (sampleSegment 2 1000 0 []).set 6 0x40
    let part := (sampleDatagram [104, 105]).set 6 0x20
    let flow := sampleFlow
    let events : List Event := [.packet part 0 (.smooth [.data [1]]), .packet syn 500 (.smooth []),
      .pass (fun _ => 0) (fun _ => 0)]
    let r := (start .plain 0 1 1).run events
    r.written.map Key.ofPacket? = [some ⟨.udp, flow.source, 5000, flow.destination, 53⟩,
      some flow.back] ∧
    (∀ origin ∈ headersOf events (some flow), origin.IsWhole) ∧
    ∀ buffer ∈ r.written, Key.ofPacket? buffer = some flow.back →
      ∃ ip, Ip.Header.parse buffer = .ok ip ∧ ip.IsWhole := by
  intro syn part flow events r
  have whole : ∀ origin ∈ headersOf events (some flow), origin.IsWhole := by decide +kernel
  exact ⟨by decide +kernel, whole, (run_fragments .plain 0 1 1 events).2 (some flow) whole⟩

/-- A SYN that says that more of it follows is answered by a packet that says so too. -/
theorem answer_is_fragment :
    let syn := (sampleSegment 2 1000 0 []).set 6 0x20
    let r := (start .plain 0 1 1).run [.packet syn 500 (.smooth [])]
    ¬ ∀ buffer ∈ r.written, ∀ ip, Ip.Header.parse buffer = .ok ip → ip.IsWhole := by
  intro syn r whole
  have fragments : r.written.map (fun buffer =>
      (Ip.Header.parse buffer).toOption.map Ip.Header.fragment) = [some (true, 0)] := by
    decide +kernel
  obtain ⟨buffer, alone, fragment⟩ := List.map_eq_singleton_iff.1 fragments
  cases parsed : Ip.Header.parse buffer with
  | error e =>
    rw [parsed] at fragment
    cases fragment
  | ok ip =>
    rw [parsed] at fragment
    have part : ip.fragment = (true, 0) := Option.some.inj fragment
    have none_more := whole buffer (by rw [alone]; exact List.mem_singleton_self buffer) ip parsed
    cases part.symm.trans none_more

end Relay
end PacketRelay
