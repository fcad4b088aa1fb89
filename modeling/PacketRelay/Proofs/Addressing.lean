import PacketRelay.Proofs.Reaction

/-!
Every answer is addressed back to where its flow comes from.

The flow of a packet is read off its headers, by whoever gets it. What answers a flow is drafted
from the headers of a packet of that flow, so it is of the same flow the other way: where the socket
of the flow is really connected to is never seen.
-/

set_option autoImplicit false

namespace PacketRelay

open Session (Key Turn State)

namespace Session

namespace Key

/-- The flow of a packet, as it is read off its headers. -/
def ofPacket? (buffer : Bytes) : Option Key :=
  match Packet.parse buffer with
  | .ok packet => match packet.transport with
    | .tcp tcp => some (ofHeaders .tcp packet.ip tcp.sourcePort tcp.destinationPort)
    | .udp udp => some (ofHeaders .udp packet.ip udp.sourcePort udp.destinationPort)
  | .error _ => none

/-- The way back: from where a flow goes to where it comes from. -/
def back (key : Key) : Key where
  protocol := key.protocol
  destination := key.source
  destinationPort := key.sourcePort
  source := key.destination
  sourcePort := key.destinationPort

theorem back_inj {key other : Key} (same : key.back = other.back) : key = other :=
  congrArg back same

end Key

/-- The flow of the last headers that a session has stored. -/
def State.lastKey? (s : State) : Protocol → Option Key
  | .tcp => s.lastSegment?.map fun (ip, tcp) =>
    .ofHeaders .tcp ip tcp.sourcePort tcp.destinationPort
  | .udp => s.lastDatagram?.map fun (ip, udp) =>
    .ofHeaders .udp ip udp.sourcePort udp.destinationPort

end Session

namespace Draft

def key? : Draft → Option Key
  | segment ip tcp _ => some (.ofHeaders .tcp ip tcp.sourcePort tcp.destinationPort)
  | datagram ip udp _ => some (.ofHeaders .udp ip udp.sourcePort udp.destinationPort)
  | echo _ _ => none

theorem Legible.ofPacket? {d : Draft} (legible : d.Legible) (identification : UInt16) :
    Key.ofPacket? (d.toBytes identification) = d.key? := by
  have ends : (d.sealedIp identification).source = d.ip.source ∧
      (d.sealedIp identification).destination = d.ip.destination := by
    unfold sealedIp
    cases d.ip <;> exact ⟨rfl, rfl⟩
  simp only [Key.ofPacket?, legible.parse identification]
  cases d with
  | segment | datagram => simp only [toPacket?, Key.ofHeaders, ends]; rfl
  | echo => rfl

theorem Replies.addressed {key : Key} {delivered : Bytes → Prop} {d : Draft}
    (replies : d.Replies key delivered) : d.Legible ∧ d.key? = some key.back := by
  cases replies with
  | segment s read own reply answers payload short =>
    subst own
    have protocol : s.ip.replyTemplate.protocol = s.ip.protocol := by cases s.ip <;> rfl
    have source : s.ip.replyTemplate.source = s.ip.destination := by cases s.ip <;> rfl
    have destination : s.ip.replyTemplate.destination = s.ip.source := by cases s.ip <;> rfl
    refine ⟨⟨Ip.Header.bare_replyTemplate read.fits, protocol.trans read.protocol, answers.fits⟩, ?_⟩
    simp only [answer, key?, Key.ofHeaders, source, destination, answers.source,
      answers.destination]
    rfl
  | datagram d read own payload received =>
    subst own
    obtain ⟨buffer, parsed, udp, -⟩ := read.parts
    have protocol : d.ip.replyTemplate.protocol = d.ip.protocol := by cases d.ip <;> rfl
    have source : d.ip.replyTemplate.source = d.ip.destination := by cases d.ip <;> rfl
    have destination : d.ip.replyTemplate.destination = d.ip.source := by cases d.ip <;> rfl
    refine ⟨⟨Ip.Header.bare_replyTemplate (Ip.Header.fits_of_parse parsed), protocol.trans udp⟩, ?_⟩
    simp only [response, key?, Key.ofHeaders, source, destination]
    rfl

end Draft

namespace Session.Turn

variable {settings : Relay.Settings} {t : Turn}

theorem lastDatagram?_takeDatagram (d : Inbound.Datagram) (opened : Bool)
    (classifier : Classifier) :
    (t.takeDatagram d opened classifier).state.lastDatagram? = some (d.ip, d.udp) := by
  have same := heads_classify (t := t.queueDatagram d opened) classifier .egress d.payload
  simp only [heads, Prod.mk.injEq] at same
  obtain ⟨-, lastIp, -, lastUdp, -⟩ := same
  have queued : (t.queueDatagram d opened).state.lastDatagram? = some (d.ip, d.udp) := by
    cases opened <;> rfl
  rw [takeDatagram_eq]
  unfold State.lastDatagram? at queued ⊢
  rw [← queued, ← lastIp, ← lastUdp]
  rfl

theorem lastKey?_of_heads {u : Turn} (same : u.heads = t.heads) :
    u.session.key = t.session.key ∧ u.state.lastKey? u.session.key.protocol =
      t.state.lastKey? t.session.key.protocol := by
  simp only [heads, Prod.mk.injEq] at same
  obtain ⟨key, lastIp, lastTcp, lastUdp, -⟩ := same
  rw [key]
  refine ⟨rfl, ?_⟩
  cases t.session.key.protocol <;>
    simp only [State.lastKey?, State.lastSegment?, State.lastDatagram?, lastIp, lastTcp, lastUdp]

theorem Lives.lastKey? (lives : Lives settings t) :
    t.state.lastKey? t.session.key.protocol = some t.session.key := by
  have taken : ∀ (t : Turn) (d : Inbound.Datagram) (opened : Bool) (classifier : Classifier),
      d.key = t.session.key →
      (t.takeDatagram d opened classifier).state.lastKey?
        (t.takeDatagram d opened classifier).session.key.protocol =
          some (t.takeDatagram d opened classifier).session.key := by
    intro t d opened classifier own
    rw [key_takeDatagram, ← own]
    exact congrArg (Option.map _) (lastDatagram?_takeDatagram d opened classifier)
  refine lives.induction (P := fun t => t.state.lastKey? t.session.key.protocol =
    some t.session.key) (fun t opened => ?_) fun t u _ before move => ?_
  · cases opened with
    | stream s read isSyn isn prospect number connected now => rfl
    | datagram d read prospect number now session fresh =>
      exact taken ⟨session, _⟩ d true _ (by rw [fresh]; rfl)
  · obtain same | ⟨s, hears, rfl⟩ | ⟨d, read, own, rfl⟩ := move.heads
    · obtain ⟨key, last⟩ := lastKey?_of_heads same
      rw [last, before, key]
    · show (t.update _).state.lastKey? t.session.key.protocol = some t.session.key
      rw [← hears.own]
      rfl
    · exact taken t d false _ own

end Session.Turn

namespace Relay

variable {r after : Relay} {id : SessionId} {t : Turn} {key : Key} {packet : Inbound}

private theorem Writes.addressed {ds : List Draft} (writes : Writes ds r after)
    (legible : ∀ d ∈ ds, d.Legible ∧ d.key? = some key) :
    ∃ new, after.written = new ++ r.written ∧ ∀ packet ∈ new, Key.ofPacket? packet = some key := by
  obtain ⟨packets, written, sent⟩ := writes
  refine ⟨packets, written, fun packet member => ?_⟩
  clear written
  induction sent with
  | nil => cases member
  | @cons first d packets ds same _ ih =>
    obtain ⟨⟨readable, own⟩, legible⟩ := List.forall_mem_cons.1 legible
    rcases List.mem_cons.1 member with rfl | later
    · obtain ⟨identification, rfl⟩ := same
      exact (readable.ofPacket? identification).trans own
    · exact ih legible later

section Admission

variable {settings : Settings} {now number : Nat} {isn : UInt32} {prospect : Socket.Prospect}
  {delivered : Bytes → Prop}

private theorem replies_attempted (opening : Socket.Opening) :
    ∀ e ∈ attempted opening, e.Replies key delivered := by
  intro e member _ _ same
  obtain ⟨attempt, -, rfl⟩ := List.mem_map.1 member
  cases same

private theorem replies_orphanAnswer {s : Inbound.Segment} (read : s.Read) :
    ∀ e ∈ orphanAnswer s, e.Replies s.key delivered := by
  unfold orphanAnswer
  split
  · exact List.forall_mem_singleton.2 (Effect.replies_write (Draft.replies_ack read rfl _ none))
  · split
    · exact List.forall_mem_nil _
    · exact List.forall_mem_singleton.2 (Effect.replies_write (Draft.replies_reset read rfl _))

theorem replies_admission (read : packet.Read) (own : packet.key? = some key) :
    ∀ e ∈ (settings.admission now number packet isn prospect).aside, e.Replies key delivered := by
  cases packet with
  | segment s =>
    obtain rfl : s.key = key := Option.some.inj own
    simp only [Settings.admission]
    split
    · simp only [Settings.admitSyn]
      split
      · exact List.forall_mem_cons.2
          ⟨Effect.replies_write (Draft.replies_reset read rfl 0), replies_attempted _⟩
      · exact replies_attempted _
    · split
      · exact replies_orphanAnswer read
      · split
        · exact List.forall_mem_singleton.2
            (Effect.replies_write (Draft.replies_finAck read rfl _ _))
        · exact List.forall_mem_nil _
  | datagram d =>
    simp only [Settings.admission, Settings.admitDatagram]
    split <;> exact replies_attempted _
  | echoRequest | ignored => exact List.forall_mem_nil _

end Admission

theorem Consistent.reaction_addressed (h : Consistent r) (traced : Traced r) (read : packet.Read)
    (own : packet.key? = some key) (number : Nat) (isn : UInt32) (prospect : Socket.Prospect) :
    ∀ d ∈ drafts (r.settings.reaction r.now number (r.open? key) packet isn prospect),
      d.Legible ∧ d.key? = some key.back := by
  intro d member
  obtain ⟨purpose, member⟩ := mem_drafts.1 member
  cases found : r.open? key with
  | some session =>
    obtain ⟨id, t, -, known, rfl, rfl, opened⟩ := h.open?_eq_some found
    simp only [found, Settings.reaction] at member
    have moves : Turn.Moves r.settings .anything t
        (t.handle r.settings.egressClassifier r.now packet) :=
      Turn.handle_moves read own opened (fun _ _ => trivial) r.now
    have lives := (traced.lives id t known).moves moves
    have replies := lives.replies (.write purpose d) (by
      rw [t.handle_start]
      exact List.mem_append_left _ member) purpose d rfl
    rw [moves.key] at replies
    exact replies.addressed
  | none =>
    simp only [found, Settings.reaction, List.mem_append] at member
    rcases member with inside | aside
    · cases opened : (r.settings.admission r.now number packet isn prospect).opened with
      | none =>
        rw [opened] at inside
        cases inside
      | some t =>
        rw [opened] at inside
        have mine : t.session.key = key := key_admission own opened
        have replies := Turn.replies_opened (opened_admission read opened) (fun _ => True) _ inside
          purpose d rfl
        rw [mine] at replies
        exact replies.addressed
    · have replies : (Effect.write purpose d).Replies key fun _ => True :=
        replies_admission read own _ aside
      exact (replies purpose d rfl).addressed

private theorem Consistent.service_addressed (h : Consistent r) (traced : Traced r)
    (known : r.history id = some t) (opened : t.session.socket.isSome = true) :
    ∃ new, (r.service id).written = new ++ r.written ∧
      ∀ packet ∈ new, Key.ofPacket? packet = some t.session.key.back := by
  obtain ⟨stands, -⟩ := h.service known opened
  have moves : Turn.Moves r.settings .anything t _ := Turn.serve_moves r.now opened
  obtain ⟨new, added, -⟩ := moves.grows
  have lives := (traced.lives id t known).moves moves
  refine (stands.enters known added).writes.addressed fun d member => ?_
  obtain ⟨purpose, member⟩ := mem_drafts.1 member
  have replies := lives.replies (.write purpose d) (by
    rw [added]
    exact List.mem_append_left _ member) purpose d rfl
  rw [moves.key] at replies
  exact replies.addressed

/-- Whatever the redirections are, a packet of a flow and a service of its session write nothing but
packets from where the flow goes to where it comes from, and the headers that a session has stored
are those of its flow. -/
theorem run_addresses (settings : Settings) (now coreWorkers maxWorkers : Nat)
    (events : List Event) :
    let r := (start settings now coreWorkers maxWorkers).run events
    (∀ buffer isn prospect packet key, Inbound.parse buffer = .ok packet → packet.key? = some key →
      ∃ new, (r.step (.packet buffer isn prospect)).written = new ++ r.written ∧
        ∀ reply ∈ new, Key.ofPacket? reply = some key.back) ∧
    (∀ rank visited id rest, byRank rank r.registered.ids = visited ++ id :: rest →
      let before := visited.foldl service r
      ∃ session, before.sessions[id]? = some session ∧
        ∃ new, (before.service id).written = new ++ before.written ∧
          ∀ reply ∈ new, Key.ofPacket? reply = some session.key.back) ∧
    ∀ (id : SessionId) (session : Session), r.sessions[id]? = some session →
      session.state.lastKey? session.key.protocol = some session.key := by
  intro r
  have h : Consistent r := consistent_run settings now coreWorkers maxWorkers events
  have traced : Traced r := traced_run settings now coreWorkers maxWorkers events
  refine ⟨?packets, ?services, ?stored⟩
  case packets =>
    intro buffer isn prospect packet key parsed own
    have same : r.step (.packet buffer isn prospect) = r.handle packet isn prospect := by
      simp only [step, handlePacket, parsed]
      rfl
    rw [same]
    exact (h.handle_writes own isn prospect).addressed
      (h.reaction_addressed traced ⟨buffer, parsed⟩ own r.socketCount isn prospect)
  case services =>
    intro rank visited id rest order before
    rw [h.registered] at order
    have perm := order ▸ byRank_perm rank r.table.ids
    have once := perm.nodup_iff.2 h.nodup_ids
    have opened : ∀ other ∈ visited ++ id :: rest, ∃ t, r.history other = some t ∧
        t.session.socket.isSome = true := fun other member =>
      h.opened_ids other (perm.mem_iff.1 member)
    have visits : Visits (fun _ => .anything) Relay.service := visits_service
    obtain ⟨changes, others⟩ := visits.foldl visited
      (once.sublist (List.sublist_append_left visited _)) h.toListed
      fun other member => opened other (List.mem_append_left _ member)
    have absent : id ∉ visited := fun member =>
      (List.nodup_append.1 once).2.2 id member id List.mem_cons_self rfl
    obtain ⟨t, known, socket⟩ := opened id (List.mem_append_right _ List.mem_cons_self)
    rw [← others id absent] at known
    exact ⟨t.session, (history_eq_some.1 known).1,
      (changes.consistent h).service_addressed (changes.traced traced) known socket⟩
  case stored =>
    intro id session at_id
    exact (traced.lives id _ (history_of_session at_id)).lastKey?

/-- Port 80 is redirected to port 8080 of the host itself. What comes from there, and the answer to
what the peer sends, come from port 80 of the original destination. -/
theorem run_addresses_redirected :
    let packet (flags : UInt8) (payload : Bytes) : Bytes :=
      sampleSegment flags (if flags = 2 then 1000 else 1001) 501 payload
    let here : Socket.Target := ⟨.v4 #v[127, 0, 0, 1], 8080, 0⟩
    let settings : Settings := { Settings.plain with redirections := [⟨80, here⟩] }
    let prospect := Socket.Prospect.smooth [.data [1, 2, 3]]
    let r := (start settings 0 1 1).run [.packet (packet 2 []) 500 prospect]
    let key := sampleFlow
    (r.journal.any fun entry => match entry.effect with
      | .connect attempt => attempt.target = here
      | _ => false) ∧
    (∃ new, (r.step (.packet (packet 16 [104, 105]) 0 prospect)).written = new ++ r.written ∧
      new.length = 1 ∧ ∀ reply ∈ new, Key.ofPacket? reply = some key.back) ∧
    (∃ new, (r.service 0).written = new ++ r.written ∧ new.length = 1 ∧
      ∀ reply ∈ new, Key.ofPacket? reply = some key.back) ∧
    ∃ session, r.sessions[0]? = some session ∧ session.state.lastKey? .tcp = some key := by
  intro packet here settings prospect r key
  have redirected : (r.journal.any fun entry => match entry.effect with
      | .connect attempt => attempt.target = here
      | _ => false) = true := by decide +kernel
  obtain ⟨packets, services, stored⟩ := run_addresses settings 0 1 1
    [.packet (packet 2 []) 500 prospect]
  have parsed : (Inbound.parse (packet 16 [104, 105])).toOption.bind (·.key?) = some key := by
    decide +kernel
  obtain ⟨inbound, some_read, own⟩ := Option.bind_eq_some_iff.1 parsed
  have read : Inbound.parse (packet 16 [104, 105]) = .ok inbound := by
    cases result : Inbound.parse (packet 16 [104, 105]) with
    | error e => rw [result] at some_read; cases some_read
    | ok other => rw [result] at some_read; exact congrArg _ (Option.some.inj some_read)
  have opened : r.sessions[0]?.map (·.key) = some key := by decide +kernel
  obtain ⟨session, at_zero, same⟩ := Option.map_eq_some_iff.1 opened
  refine ⟨redirected, ?_, ?_, session, at_zero, ?_⟩
  · obtain ⟨new, written, addressed⟩ := packets _ 0 prospect inbound key read own
    have count : (r.step (.packet (packet 16 [104, 105]) 0 prospect)).written.length =
        1 + r.written.length := by decide +kernel
    rw [written, List.length_append] at count
    exact ⟨new, written, Nat.add_right_cancel count, addressed⟩
  · have order : byRank (fun _ => 0) r.registered.ids = [] ++ 0 :: [] := by decide +kernel
    obtain ⟨served, there, new, written, addressed⟩ := services _ [] 0 [] order
    obtain rfl : session = served := Option.some.inj (at_zero.symm.trans there)
    have count : (r.service 0).written.length = 1 + r.written.length := by decide +kernel
    have written : (r.service 0).written = new ++ r.written := written
    rw [written, List.length_append] at count
    exact ⟨new, written, Nat.add_right_cancel count, same ▸ addressed⟩
  · have own := stored 0 session at_zero
    rw [same] at own
    exact own

end Relay
end PacketRelay
