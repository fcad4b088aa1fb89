import PacketRelay.Proofs.Alike
import PacketRelay.Proofs.Removal

/-!
An opening that fails leaves no trace.

The socket comes before all else that belongs to a session. If it cannot be had, nothing has been
entered for the flow yet, so all that is left is the attempt to connect and an answer to the peer,
which are of no session. The relay is then what it was, apart from the numbers of sockets and of
packets: so whatever comes later is met as if the packet had never come.
-/

set_option autoImplicit false

namespace PacketRelay

open Session (Key Protocol Turn)

namespace Socket.Prospect

/-- Opening a socket fails at one of its steps. The size of the receive buffer is not among them,
and a stream whose connection is still in progress has not failed. -/
def Fails (p : Prospect) (target : Target) : Protocol → Prop
  | .tcp => (p.creation.isSome ∨ p.keepAlive.isSome ∨ p.noDelay.isSome ∨ p.nonblocking.isSome) ∨
      ∃ e ∈ p.connection, e ≠ .wouldBlock ∧ e ≠ .inProgress
  | .udp => (p.creation.isSome ∨ (target.address.isV4 ∧ p.broadcast.isSome) ∨
      p.nonblocking.isSome) ∨ p.connection.isSome

instance (p : Prospect) (target : Target) : (protocol : Protocol) →
    Decidable (p.Fails target protocol)
  | .tcp => inferInstanceAs (Decidable (_ ∨ _))
  | .udp => inferInstanceAs (Decidable (_ ∨ _))

private theorem firstFailure_isSome {steps : List (Option Errno)} :
    (firstFailure steps).isSome ↔ ∃ step ∈ steps, step.isSome :=
  List.findSome?_isSome_iff

variable (p : Prospect) (number : Nat) (target : Target)

private theorem openStream_fails (receiveBuffer : Nat) :
    (∃ e, (p.openStream number target receiveBuffer).result = .error e) ↔ p.Fails target .tcp := by
  have steps : (firstFailure [p.creation, p.keepAlive, p.noDelay, p.nonblocking]).isSome ↔
      p.creation.isSome ∨ p.keepAlive.isSome ∨ p.noDelay.isSome ∨ p.nonblocking.isSome := by
    simp [firstFailure_isSome]
  unfold Fails
  rw [← steps]
  cases failed : firstFailure [p.creation, p.keepAlive, p.noDelay, p.nonblocking] with
  | some e => simp [openStream, failed]
  | none =>
    cases connection : p.connection with
    | none => simp [openStream, failed, connection]
    | some e => cases e <;> simp [openStream, failed, connection]

private theorem openDatagram_fails :
    (∃ e, (p.openDatagram number target).result = .error e) ↔ p.Fails target .udp := by
  have steps : (firstFailure [p.creation, if target.address.isV4 then p.broadcast else none,
      p.nonblocking]).isSome ↔ p.creation.isSome ∨
        (target.address.isV4 ∧ p.broadcast.isSome) ∨ p.nonblocking.isSome := by
    cases target.address.isV4 <;> simp [firstFailure_isSome]
  unfold Fails
  rw [← steps]
  cases failed : firstFailure [p.creation, if target.address.isV4 then p.broadcast else none,
      p.nonblocking] with
  | some e => simp [openDatagram, failed]
  | none =>
    cases connection : p.connection with
    | none => simp [openDatagram, failed, connection]
    | some e => simp [openDatagram, failed, connection]

end Socket.Prospect

/-- What is done for a packet whose flow cannot be opened, the attempt to connect apart. -/
def Inbound.refusal : Inbound → List Effect
  | segment s => [.write .reset (.reset s.ip s.tcp 0)]
  | _ => []

/-- All that is done for a flow that cannot be opened is to try to connect, and to reset. -/
def Effect.Refuses (e : Effect) : Prop :=
  (∃ attempt, e = .connect attempt) ∨ ∃ draft, e = .write .reset draft

/-- Whether an effect tells the flow sink something. -/
def Effect.isFlowEvent (e : Effect) : Bool := e.isCreation || e.isUpdate

namespace Relay

variable {r after : Relay} {key : Key} {packet : Inbound} {isn : UInt32} {prospect : Socket.Prospect}

section Admission

variable (settings : Settings) (now number : Nat) (isn)

private theorem opening_fails (key : Key) (prospect : Socket.Prospect) :
    (∃ e, (settings.opening number key prospect).result = .error e) ↔
      prospect.Fails (settings.target key) key.protocol := by
  unfold Settings.opening
  cases key.protocol with
  | tcp => exact prospect.openStream_fails number _ _
  | udp => exact prospect.openDatagram_fails number _

private theorem admission_fails (own : packet.key? = some key) (opens : packet.opens = true)
    (fails : prospect.Fails (settings.target key) key.protocol) :
    settings.admission now number packet isn prospect =
      ⟨none, packet.refusal ++ attempted (settings.opening number key prospect)⟩ := by
  obtain ⟨e, failed⟩ := (opening_fails settings number key prospect).2 fails
  cases packet with
  | segment s =>
    obtain rfl : s.key = key := Option.some.inj own
    have isSyn : s.tcp.isSyn = true := opens
    simp only [Settings.admission, isSyn, if_true, Settings.admitSyn, failed]
    rfl
  | datagram d =>
    obtain rfl : d.key = key := Option.some.inj own
    simp only [Settings.admission, Settings.admitDatagram, failed]
    rfl
  | echoRequest | ignored => cases own

private theorem admission_succeeds (own : packet.key? = some key) (opens : packet.opens = true)
    (succeeds : ¬ prospect.Fails (settings.target key) key.protocol) :
    ∃ t, (settings.admission now number packet isn prospect).opened = some t := by
  cases opened : (settings.opening number key prospect).result with
  | error e => exact absurd ((opening_fails settings number key prospect).1 ⟨e, opened⟩) succeeds
  | ok socket =>
    cases packet with
    | segment s =>
      obtain rfl : s.key = key := Option.some.inj own
      have isSyn : s.tcp.isSyn = true := opens
      simp only [Settings.admission, isSyn, if_true, Settings.admitSyn, opened]
      exact ⟨_, rfl⟩
    | datagram d =>
      obtain rfl : d.key = key := Option.some.inj own
      simp only [Settings.admission, Settings.admitDatagram, opened]
      exact ⟨_, rfl⟩
    | echoRequest | ignored => cases own

end Admission

/-- What the flow sink has been told, latest first. -/
def flowEvents (r : Relay) : List Entry := r.journal.filter (·.effect.isFlowEvent)

/-- No session, and nothing that is known of flows, has changed: all that has been done is to try to
connect and to reset, and this for no session. -/
structure Unmarked (r after : Relay) : Prop where
  table : after.table = r.table
  registered : after.registered = r.registered
  sessions : after.sessions = r.sessions
  flowEvents : after.flowEvents = r.flowEvents
  effects : ∃ effects, Enters none effects r after ∧ ∀ e ∈ effects, e.Refuses

private theorem refuses_refusal (packet : Inbound) (opening : Socket.Opening) :
    ∀ e ∈ packet.refusal ++ attempted opening, e.Refuses := by
  intro e member
  rcases List.mem_append.1 member with refused | tried
  · cases packet with
    | segment s => exact .inr ⟨_, List.mem_singleton.1 refused⟩
    | _ => cases refused
  · obtain ⟨attempt, -, rfl⟩ := List.mem_map.1 tried
    exact .inl ⟨attempt, rfl⟩

private theorem unmarked_asking {effects : List Effect} (refuse : ∀ e ∈ effects, e.Refuses) :
    Unmarked r (r.asking packet effects) := by
  have scene := r.scene_asking packet effects
  have enters : Enters none effects r (r.asking packet effects) := enters_asking packet effects
  refine ⟨congrArg (·.table) scene, congrArg (·.registered) scene, r.sessions_asking packet effects,
    ?_, effects, enters, refuse⟩
  obtain ⟨new, journal, -, rfl⟩ := enters
  unfold Relay.flowEvents
  rw [journal, List.filter_append, List.filter_eq_nil_iff.2, List.nil_append]
  intro entry member
  rcases refuse entry.effect (List.mem_map_of_mem member) with ⟨attempt, same⟩ | ⟨draft, same⟩
  · rw [same]
    exact Bool.false_ne_true
  · rw [same]
    exact Bool.false_ne_true

private theorem alike_asking (effects : List Effect) :
    Alike (r.asking packet effects).journal r.journal (r.asking packet effects) r := by
  have scene := r.scene_asking packet effects
  constructor
  case settings => exact congrArg (·.settings) scene
  case now => exact congrArg (·.now) scene
  case table => exact congrArg (·.table) scene
  case registered => exact congrArg (·.registered) scene
  case pings => exact congrArg (·.pings) scene
  case sessions => rw [sessions_asking]
  case journal => exact ⟨[], [], rfl, rfl, rfl⟩

section Steps

variable {buffer : Bytes} (h : Consistent r) (parsed : Inbound.parse buffer = .ok packet)
  (own : packet.key? = some key) (opens : packet.opens = true) (fresh : r.lookup key = none)

include h parsed own opens fresh

private theorem Consistent.step_fails (isn : UInt32)
    (fails : prospect.Fails (r.settings.target key) key.protocol) :
    r.step (.packet buffer isn prospect) = r.asking packet
      (packet.refusal ++ attempted (r.settings.opening r.socketCount key prospect)) := by
  have received := h.handle_fresh own fresh isn prospect
  rw [admission_fails isn r.settings r.now r.socketCount own opens fails] at received
  exact (r.step_packet parsed isn prospect).trans received

private theorem Consistent.writes_refusal (isn : UInt32)
    (fails : prospect.Fails (r.settings.target key) key.protocol) :
    Writes (drafts packet.refusal) r (r.step (.packet buffer isn prospect)) := by
  have writes := (enters_asking (r := r) packet
    (packet.refusal ++ attempted (r.settings.opening r.socketCount key prospect))).writes
  rwa [← h.step_fails parsed own opens fresh isn fails, drafts_append, drafts_attempted,
    List.append_nil] at writes

private theorem Consistent.step_succeeds (isn : UInt32)
    (succeeds : ¬ prospect.Fails (r.settings.target key) key.protocol) :
    (r.step (.packet buffer isn prospect)).Retains key r.sessions.length ∧
      ∃ session, (r.step (.packet buffer isn prospect)).sessions = r.sessions ++ [session] ∧
        session.key = key := by
  obtain ⟨t, opened⟩ := admission_succeeds isn r.settings r.now r.socketCount own opens succeeds
  have after : Consistent (r.step (.packet buffer isn prospect)) :=
    Changes.consistent h (h.step (.packet buffer isn prospect))
  have sessions := h.sessions_handle_fresh own isn prospect fresh
  have listed := h.lookup_handle_opened own isn prospect fresh opened
  rw [r.step_packet parsed isn prospect] at after ⊢
  rw [opened] at sessions
  obtain ⟨u, there, -, socket⟩ := after.found key _ listed
  refine ⟨⟨listed, after.registered ▸ listed, u.session, (history_eq_some.1 there).1, socket⟩,
    t.session, sessions, key_admission own opened⟩

private theorem Consistent.step_resets (isn : UInt32) (stream : key.protocol = .tcp)
    (fails : prospect.Fails (r.settings.target key) key.protocol) :
    ∃ flags seq ack, (flags = .rst ∨ flags = .rst ∪ .ack) ∧
      Responds key ⟨flags, seq, ack, []⟩ r (r.step (.packet buffer isn prospect)) := by
  have writes := h.writes_refusal parsed own opens fresh isn fails
  cases packet with
  | segment s =>
    obtain rfl : s.key = key := Option.some.inj own
    obtain ⟨flags, seq, ack, drafted, reset⟩ := Sent.ofDraft?_reset s.ip s.tcp 0
    exact ⟨flags, seq, ack, reset,
      writes.responds (Draft.replies_reset ⟨buffer, parsed⟩ rfl 0) drafted⟩
  | datagram d =>
    obtain rfl : d.key = key := Option.some.inj own
    cases stream
  | echoRequest | ignored => cases own

private theorem Consistent.step_silent (isn : UInt32) (datagrams : key.protocol = .udp)
    (fails : prospect.Fails (r.settings.target key) key.protocol) :
    (r.step (.packet buffer isn prospect)).written = r.written := by
  have writes := h.writes_refusal parsed own opens fresh isn fails
  cases packet with
  | segment s =>
    obtain rfl : s.key = key := Option.some.inj own
    cases datagrams
  | datagram d => exact writes.nothing
  | echoRequest | ignored => cases own

end Steps

/-- An opening that fails leaves no trace. Of a flow without a session, a SYN or a datagram whose
opening fails changes no session and nothing that is known of flows. The peer of a stream gets one
reset for it, the sender of a datagram nothing, and whatever comes later is met as if the packet had
never come, apart from the numbers of sockets and the identifications of packets. If no step of the
opening fails, the session is there; whether the receive buffer can be set does not matter. -/
theorem run_unopened (settings : Settings) (now coreWorkers maxWorkers : Nat) (events : List Event)
    {buffer : Bytes} {packet : Inbound} {key : Key} (parsed : Inbound.parse buffer = .ok packet)
    (own : packet.key? = some key) (opens : packet.opens = true)
    (fresh : ((start settings now coreWorkers maxWorkers).run events).lookup key = none)
    (isn : UInt32) (prospect : Socket.Prospect) :
    let r := (start settings now coreWorkers maxWorkers).run events
    let after := r.step (.packet buffer isn prospect)
    (prospect.Fails (settings.target key) key.protocol → Unmarked r after ∧
      (key.protocol = .tcp → ∃ flags seq ack, (flags = .rst ∨ flags = .rst ∪ .ack) ∧
        Responds key ⟨flags, seq, ack, []⟩ r after) ∧
      (key.protocol = .udp → after.written = r.written) ∧
      ∀ later : List Event, Alike after.journal r.journal (after.run later) (r.run later) ∧
        ∃ new new', (after.run later).written = new ++ after.written ∧
          (r.run later).written = new' ++ r.written ∧
          new.map unidentified = new'.map unidentified) ∧
    (¬ prospect.Fails (settings.target key) key.protocol → after.Retains key r.sessions.length ∧
      ∃ session, after.sessions = r.sessions ++ [session] ∧ session.key = key) := by
  intro r after
  have h : Consistent r := consistent_run settings now coreWorkers maxWorkers events
  have same : r.settings = settings := settings_run settings now coreWorkers maxWorkers events
  rw [← same]
  constructor
  · intro fails
    have stands := h.step_fails parsed own opens fresh isn fails
    refine ⟨?_, fun stream => h.step_resets parsed own opens fresh isn stream fails,
      fun datagrams => h.step_silent parsed own opens fresh isn datagrams fails, fun later => ?_⟩
    · show Unmarked r (r.step _)
      rw [stands]
      exact unmarked_asking (refuses_refusal packet _)
    · have alike : Alike after.journal r.journal after r := by
        show Alike (r.step _).journal _ (r.step _) _
        rw [stands]
        exact alike_asking _
      have alike := alike.run later
      exact ⟨alike, alike.written⟩
  · intro succeeds
    exact h.step_succeeds parsed own opens fresh isn succeeds

/-- A SYN is reset, since its destination refuses the connection. Once it has no reason to, a second
SYN opens the session that it would have opened without the first, though its receive buffer cannot
be set. -/
theorem run_unopened_retry :
    let bytes := sampleSegment 2 1000 0 []
    let syn (prospect : Socket.Prospect) : Event := .packet bytes 500 prospect
    let refused : Socket.Prospect := { Socket.Prospect.smooth [] with connection := some .refused }
    let narrow : Socket.Prospect :=
      { Socket.Prospect.smooth [] with
        receiveBuffer := some .denied, connection := some .inProgress }
    let r := start .plain 0 1 1
    let after := r.step (syn refused)
    Unmarked r after ∧ after.written.map Sent.ofBytes? = [some ⟨.rst ∪ .ack, 0, 1001, []⟩] ∧
      Alike after.journal r.journal (after.run [syn narrow]) (r.run [syn narrow]) ∧
      (r.step (syn narrow)).Retains sampleFlow 0 := by
  intro bytes syn refused narrow r after
  obtain ⟨packet, parsed⟩ : ∃ packet, Inbound.parse bytes = .ok packet := ⟨_, rfl⟩
  have own : packet.key? = some sampleFlow := by
    have same : (Inbound.parse bytes).toOption.bind (·.key?) = some sampleFlow := by decide +kernel
    rwa [parsed] at same
  have opens : packet.opens = true := by
    have same : (Inbound.parse bytes).toOption.map (·.opens) = some true := by decide +kernel
    rw [parsed] at same
    exact Option.some.inj same
  obtain ⟨fails, -⟩ := run_unopened .plain 0 1 1 [] parsed own opens rfl 500 refused
  obtain ⟨-, succeeds⟩ := run_unopened .plain 0 1 1 [] parsed own opens rfl 500 narrow
  obtain ⟨unmarked, -, -, later⟩ := fails (by decide +kernel)
  obtain ⟨retains, -⟩ := succeeds (by decide +kernel)
  exact ⟨unmarked, by decide +kernel, (later [syn narrow]).1, retains⟩

end Relay
end PacketRelay
