import PacketRelay.Proofs.Unnumbered

/-!
Flows do not touch each other.

What a packet does to the session of its flow, and what it writes, follows from that session, the
settings and the clock; of the rest of the relay it takes no more than a number for a new socket. So
packets of two flows may come in either order: the outcome differs in such numbers and in the
identifications of IPv4 packets only.
-/

set_option autoImplicit false

namespace PacketRelay

open Session (Key Turn Classifier)

namespace Relay

variable {r after : Relay} {id : SessionId} {t : Turn} {key other : Key} {packet : Inbound}
  {isn : UInt32} {prospect : Socket.Prospect}

section Numbers

variable (settings : Settings) (now n m : Nat)

theorem drafts_attempted (opening : Socket.Opening) : drafts (attempted opening) = [] :=
  drafts_eq_nil fun _ _ member => by
    obtain ⟨_, -, same⟩ := List.mem_map.1 member
    cases same

private theorem admission_number (packet : Inbound) (isn : UInt32) (prospect : Socket.Prospect) :
    (settings.admission now m packet isn prospect).opened.map (·.unnumbered) =
      (settings.admission now n packet isn prospect).opened.map (·.unnumbered) ∧
    drafts (settings.admission now m packet isn prospect).aside =
      drafts (settings.admission now n packet isn prospect).aside := by
  have quiet : ∀ opening opening', drafts (attempted opening) = drafts (attempted opening') :=
    fun opening opening' => (drafts_attempted opening).trans (drafts_attempted opening').symm
  cases packet with
  | segment s =>
    simp only [Settings.admission]
    split
    · simp only [Settings.admitSyn]
      obtain ⟨-, ⟨e, one, two⟩ | ⟨socket, socket', connected, one, two, -⟩⟩ :=
        opening_number settings n m s.key prospect
      · rw [one, two]
        exact ⟨rfl, congrArg (_ :: ·) (quiet _ _)⟩
      · rw [one, two]
        exact ⟨rfl, quiet _ _⟩
    · split
      · exact ⟨rfl, rfl⟩
      · split <;> exact ⟨rfl, rfl⟩
  | datagram d =>
    simp only [Settings.admission, Settings.admitDatagram]
    obtain ⟨-, ⟨e, one, two⟩ | ⟨socket, socket', connected, one, two, -⟩⟩ :=
      opening_number settings n m d.key prospect
    · rw [one, two]
      exact ⟨rfl, quiet _ _⟩
    · rw [one, two]
      exact ⟨congrArg some (Turn.unnumbered_started settings d prospect m n now), quiet _ _⟩
  | echoRequest | ignored => exact ⟨rfl, rfl⟩

/-- An open session after a packet of its flow. -/
def Settings.handled (settings : Settings) (now : Nat) (packet : Inbound) (session : Session) :
    Session :=
  ((Turn.start session).handle settings.egressClassifier now packet).session

/-- What becomes of the open session of a flow when a packet of it comes. -/
def Settings.outcome (settings : Settings) (now number : Nat) (session : Option Session)
    (packet : Inbound) (isn : UInt32) (prospect : Socket.Prospect) : Option Session :=
  match session with
  | some session => (some (settings.handled now packet session)).filter (·.socket.isSome)
  | none => (settings.admission now number packet isn prospect).opened.map (·.session)

variable (session : Option Session) (packet : Inbound) (isn : UInt32) (prospect : Socket.Prospect)

private theorem outcome_number :
    (settings.outcome now m session packet isn prospect).map (·.unnumbered) =
      (settings.outcome now n session packet isn prospect).map (·.unnumbered) := by
  cases session with
  | some session => rfl
  | none =>
    obtain ⟨same, -⟩ := admission_number settings now n m packet isn prospect
    have sessions := congrArg (Option.map (·.session)) same
    rw [Option.map_map, Option.map_map] at sessions
    simp only [Settings.outcome, Option.map_map]
    exact sessions

private theorem drafts_reaction_number :
    drafts (settings.reaction now m session packet isn prospect) =
      drafts (settings.reaction now n session packet isn prospect) := by
  cases session with
  | some session => rfl
  | none =>
    obtain ⟨same, aside⟩ := admission_number settings now n m packet isn prospect
    have apart : ∀ opened : Option Turn, drafts ((opened.map (·.effects)).getD []) =
        ((opened.map (·.unnumbered)).map fun t => drafts t.effects).getD [] := by
      intro opened
      cases opened with
      | none => rfl
      | some t => exact (drafts_unnumbered t.effects).symm
    simp only [Settings.reaction, drafts_append, aside, apart, same]

end Numbers

private theorem Consistent.lookup_apart (h : Consistent r) (differ : key ≠ other)
    (mine : r.lookup key = some id) : r.lookup other ≠ some id := by
  intro listed
  obtain ⟨t, known, here, -⟩ := h.found key id mine
  obtain ⟨u, there, elsewhere, -⟩ := h.found other id listed
  obtain rfl := Option.some.inj (known.symm.trans there)
  exact differ (here.symm.trans elsewhere)

/-- The flow of the packet that an event brings. -/
def Event.key? : Event → Option Key
  | .packet buffer _ _ => match Inbound.parse buffer with
    | .ok packet => packet.key?
    | .error _ => none
  | _ => none

private theorem Event.key?_eq_some {e : Event} (flow : e.key? = some key) :
    ∃ packet isn prospect, packet.Read ∧ packet.key? = some key ∧
      ∀ r : Relay, r.step e = r.handle packet isn prospect := by
  cases e with
  | packet buffer isn prospect =>
    simp only [Event.key?] at flow
    split at flow
    case h_1 packet parsed =>
      exact ⟨packet, isn, prospect, ⟨buffer, parsed⟩, flow, fun r => r.step_packet parsed isn prospect⟩
    case h_2 => cases flow
  | _ => cases flow

section Packets

private theorem Consistent.session_handle_own (h : Consistent r) (known : r.history id = some t)
    (opened : t.session.socket.isSome = true) (own : packet.key? = some t.session.key)
    (isn : UInt32) (prospect : Socket.Prospect) :
    (r.handle packet isn prospect).sessions[id]? =
        some (r.settings.handled r.now packet t.session) ∧
      (r.handle packet isn prospect).scene =
        if (r.settings.handled r.now packet t.session).socket.isSome then r.scene
        else r.scene.without t.session.key := by
  obtain ⟨stands, scene⟩ := h.handle_found known opened own isn prospect
  rw [t.handle_start] at stands scene
  exact ⟨stands.session, scene⟩

variable (h : Consistent r) (own : packet.key? = some key) (isn : UInt32)
  (prospect : Socket.Prospect)

include h own

theorem Consistent.sessions_handle_fresh (fresh : r.lookup key = none) :
    (r.handle packet isn prospect).sessions = r.sessions ++
      ((r.settings.admission r.now r.socketCount packet isn prospect).opened.map
        (·.session)).toList := by
  have received := h.handle_fresh own fresh isn prospect
  unfold Receives at received
  cases opened : (r.settings.admission r.now r.socketCount packet isn prospect).opened with
  | none =>
    rw [opened] at received
    rw [received, sessions_asking]
    exact (List.append_nil _).symm
  | some t =>
    rw [opened] at received
    have sessions := congrArg (·.sessions) received.histories
    exact sessions.trans (congrArg (· ++ [t.session]) (sessions_asking packet _))

private theorem Consistent.scene_handle_fresh (fresh : r.lookup key = none) :
    (r.handle packet isn prospect).scene =
      match (r.settings.admission r.now r.socketCount packet isn prospect).opened with
      | none => r.scene
      | some _ => r.scene.having key r.sessions.length := by
  have received := h.handle_fresh own fresh isn prospect
  unfold Receives at received
  cases opened : (r.settings.admission r.now r.socketCount packet isn prospect).opened with
  | none =>
    rw [opened] at received
    rw [received, scene_asking]
  | some t =>
    rw [opened] at received
    have scene := received.scene
    rwa [key_admission own opened, scene_asking, sessions_asking] at scene

theorem Consistent.lookup_handle_opened (fresh : r.lookup key = none)
    (opened : (r.settings.admission r.now r.socketCount packet isn prospect).opened = some t) :
    (r.handle packet isn prospect).lookup key = some r.sessions.length := by
  have scene := h.scene_handle_fresh own isn prospect fresh
  rw [opened] at scene
  exact (lookup_scene (congrArg (·.table) scene) key).trans
    ((Table.find?_insert r.table key key _).trans (if_pos rfl))

private theorem Consistent.scene_handle : (r.handle packet isn prospect).scene = r.scene ∨
    (r.handle packet isn prospect).scene = r.scene.without key ∨
    (r.handle packet isn prospect).scene = r.scene.having key r.sessions.length := by
  cases found : r.open? key with
  | some session =>
    obtain ⟨id, t, -, known, rfl, rfl, opened⟩ := h.open?_eq_some found
    obtain ⟨-, scene⟩ := h.handle_found known opened own isn prospect
    rw [scene]
    split
    · exact .inl rfl
    · exact .inr (.inl rfl)
  | none =>
    have scene := h.scene_handle_fresh own isn prospect (h.open?_eq_none found)
    split at scene
    · exact .inl scene
    · exact .inr (.inr scene)

private theorem Consistent.lookup_handle_other (differ : other ≠ key) :
    (r.handle packet isn prospect).lookup other = r.lookup other := by
  obtain scene | scene | scene := h.scene_handle own isn prospect
  · exact lookup_scene (congrArg (·.table) scene) other
  · exact (lookup_scene (congrArg (·.table) scene) other).trans
      ((Table.find?_erase r.table key other).trans (if_neg differ))
  · exact (lookup_scene (congrArg (·.table) scene) other).trans
      ((Table.find?_insert r.table key other _).trans (if_neg differ))

private theorem Consistent.clock_handle : (r.handle packet isn prospect).settings = r.settings ∧
    (r.handle packet isn prospect).now = r.now := by
  obtain scene | scene | scene := h.scene_handle own isn prospect <;>
    exact ⟨congrArg (·.settings) scene, congrArg (·.now) scene⟩

private theorem Consistent.session_handle {session : Session}
    (at_id : r.sessions[id]? = some session) : (r.handle packet isn prospect).sessions[id]? = some
      (if r.lookup key = some id then r.settings.handled r.now packet session else session) := by
  have known := history_of_session at_id
  cases found : r.open? key with
  | some session =>
    obtain ⟨current, t, listed, there, rfl, rfl, opened⟩ := h.open?_eq_some found
    rw [listed]
    by_cases same : current = id
    · subst same
      obtain rfl := Option.some.inj (known.symm.trans there)
      rw [if_pos rfl]
      exact (h.session_handle_own there opened own isn prospect).1
    · obtain ⟨stands, -⟩ := h.handle_found there opened own isn prospect
      have other := stands.other (Ne.symm same)
      rw [known] at other
      rw [if_neg fun listed => same (Option.some.inj listed)]
      exact (history_eq_some.1 other).1
  | none =>
    have fresh := h.open?_eq_none found
    rw [fresh, if_neg nofun, h.sessions_handle_fresh own isn prospect fresh,
      List.getElem?_append_left (length_of_history known)]
    exact at_id

private theorem Consistent.open?_handle_found {session : Session}
    (found : r.open? key = some session) : (r.handle packet isn prospect).open? key =
      (some (r.settings.handled r.now packet session)).filter (·.socket.isSome) := by
  obtain ⟨id, t, listed, known, rfl, rfl, opened⟩ := h.open?_eq_some found
  obtain ⟨after, scene⟩ := h.session_handle_own known opened own isn prospect
  have table : (r.handle packet isn prospect).lookup t.session.key = _ :=
    lookup_scene (congrArg (·.table) scene) t.session.key
  rw [open?, table]
  cases socket : (r.settings.handled r.now packet t.session).socket.isSome with
  | true =>
    have listed : r.scene.table.find? t.session.key = some id := listed
    rw [if_pos rfl, listed, Option.bind_some, after, Option.filter_some, if_pos socket]
  | false =>
    have gone : (r.scene.without t.session.key).table.find? t.session.key = none :=
      (Table.find?_erase r.table t.session.key t.session.key).trans (if_pos rfl)
    rw [if_neg Bool.false_ne_true, gone, Option.filter_some, socket]
    rfl

private theorem Consistent.open?_handle_fresh (fresh : r.lookup key = none) :
    (r.handle packet isn prospect).open? key =
      (r.settings.admission r.now r.socketCount packet isn prospect).opened.map (·.session) := by
  have sessions := h.sessions_handle_fresh own isn prospect fresh
  have scene := h.scene_handle_fresh own isn prospect fresh
  unfold open?
  cases opened : (r.settings.admission r.now r.socketCount packet isn prospect).opened with
  | none =>
    rw [opened] at scene
    have none_there : r.scene.table.find? key = none := fresh
    rw [lookup_scene (congrArg (·.table) scene), none_there]
    rfl
  | some t =>
    rw [opened] at sessions
    rw [h.lookup_handle_opened own isn prospect fresh opened, sessions]
    exact List.getElem?_concat_length

private theorem Consistent.open?_handle : (r.handle packet isn prospect).open? key =
    r.settings.outcome r.now r.socketCount (r.open? key) packet isn prospect := by
  cases found : r.open? key with
  | some session => exact h.open?_handle_found own isn prospect found
  | none => exact h.open?_handle_fresh own isn prospect (h.open?_eq_none found)

private theorem Consistent.open?_handle_other (differ : other ≠ key) :
    (r.handle packet isn prospect).open? other = r.open? other := by
  unfold open?
  rw [h.lookup_handle_other own isn prospect differ]
  cases found : r.lookup other with
  | none => rfl
  | some id =>
    obtain ⟨t, known, -⟩ := h.found other id found
    have at_id := (history_eq_some.1 known).1
    rw [Option.bind_some, Option.bind_some, h.session_handle own isn prospect at_id,
      if_neg (h.lookup_apart differ found), at_id]

private theorem Consistent.length_handle : (r.handle packet isn prospect).sessions.length =
    r.sessions.length +
      if (r.open? key).isNone && ((r.handle packet isn prospect).open? key).isSome then 1
      else 0 := by
  cases found : r.open? key with
  | some session =>
    obtain ⟨id, t, -, known, rfl, rfl, opened⟩ := h.open?_eq_some found
    obtain ⟨stands, -⟩ := h.handle_found known opened own isn prospect
    rw [stands.length]
    rfl
  | none =>
    have fresh := h.open?_eq_none found
    rw [h.sessions_handle_fresh own isn prospect fresh, h.open?_handle_fresh own isn prospect fresh]
    cases (r.settings.admission r.now r.socketCount packet isn prospect).opened with
    | none => exact congrArg List.length (List.append_nil r.sessions)
    | some t => exact List.length_append

end Packets

theorem Consistent.lookup_step_other (h : Consistent r) {e : Event} (other : e.key? ≠ some key)
    (no_pass : e.isPass = false) : (r.step e).lookup key = r.lookup key := by
  cases e with
  | packet buffer isn prospect =>
    simp only [Event.key?] at other
    simp only [Relay.step, handlePacket]
    split
    case h_1 after handled =>
      cases parsed : Inbound.parse buffer with
      | error e =>
        rw [parsed] at handled
        cases handled
      | ok packet =>
        rw [parsed] at handled other
        obtain rfl := Except.ok.inj handled
        cases own : packet.key? with
        | some flow =>
          exact h.lookup_handle_other own isn prospect fun same => other (same ▸ own)
        | none => cases packet <;> first | rfl | cases own
    case h_2 => rfl
  | pass first second => cases no_pass
  | probe i reachable =>
    simp only [Relay.step, finishProbe]
    split
    · rfl
    · split
      · split <;> rfl
      · rfl
  | time | retire | network => rfl

/-- What has gone into the tunnel for the peer of a flow. -/
def writtenTo (r : Relay) (key : Key) : List Bytes :=
  r.written.filter fun packet => Key.ofPacket? packet = some key.back

private theorem Writes.writtenTo {ds : List Draft} (writes : Writes ds r after)
    (addressed : ∀ d ∈ ds, d.Legible ∧ d.key? = some key.back) (flow : Key) :
    (after.writtenTo flow).map unidentified =
      (if flow = key then ds.map fun d => unidentified (d.toBytes 0) else []) ++
        (r.writtenTo flow).map unidentified := by
  obtain ⟨packets, written, sent⟩ := writes
  have split : (after.writtenTo flow) =
      packets.filter (fun packet => Key.ofPacket? packet = some flow.back) ++ r.writtenTo flow := by
    unfold Relay.writtenTo
    rw [written, List.filter_append]
  rw [split, List.map_append]
  congr 1
  clear written split
  induction sent with
  | nil => split <;> rfl
  | @cons packet d packets ds same _ ih =>
    obtain ⟨⟨legible, own⟩, addressed⟩ := List.forall_mem_cons.1 addressed
    obtain ⟨identification, rfl⟩ := same
    have read := (legible.ofPacket? identification).trans own
    have ih := ih addressed
    by_cases mine : flow = key
    · subst mine
      rw [if_pos rfl] at ih ⊢
      rw [List.filter_cons_of_pos (by simpa using read), List.map_cons, List.map_cons, ih,
        d.unidentified_toBytes identification 0]
    · rw [if_neg mine] at ih ⊢
      rw [List.filter_cons_of_neg, ih]
      rw [read, decide_eq_true_eq]
      exact fun same => mine (Key.back_inj (Option.some.inj same)).symm

/-- The registered session of a flow. -/
def registered? (r : Relay) (key : Key) : Option Session :=
  (r.registered.find? key).bind (r.sessions[·]?)

private theorem Consistent.registered?_eq (h : Consistent r) (key : Key) :
    r.registered? key = r.open? key := by
  unfold registered?
  rw [h.registered]
  rfl

/-- Two relays agree about a flow, apart from the numbers of sockets and the identifications of
packets. -/
structure AgreeOn (a b : Relay) (flow : Key) : Prop where
  opened : (a.open? flow).map (·.unnumbered) = (b.open? flow).map (·.unnumbered)
  registered : (a.registered? flow).map (·.unnumbered) = (b.registered? flow).map (·.unnumbered)
  written : (a.writtenTo flow).map unidentified = (b.writtenTo flow).map unidentified

section Two

variable {first second : Inbound} {isn' : UInt32} {prospect' : Socket.Prospect}

variable (h : Consistent r) (differ : key ≠ other) (own : first.key? = some key)
  (theirs : second.key? = some other) (read : first.Read)

include read in
private theorem changes_handle (h : Consistent r) :
    Changes (fun _ => .anything) r (r.handle first isn prospect) :=
  h.toListed.handle read fun _ _ _ => trivial

include read in
private theorem Consistent.after_handle (h : Consistent r) :
    Consistent (r.handle first isn prospect) :=
  Changes.consistent h (changes_handle read h)

include read in
private theorem Traced.after_handle (h : Consistent r) (traced : Traced r) :
    Traced (r.handle first isn prospect) :=
  Changes.traced traced (changes_handle read h)

include h differ own theirs read

private theorem Consistent.session_handle_two {session : Session}
    (at_id : r.sessions[id]? = some session) :
    ((r.handle first isn prospect).handle second isn' prospect').sessions[id]? =
      some (if r.lookup key = some id then r.settings.handled r.now first session
        else if r.lookup other = some id then r.settings.handled r.now second session
        else session) := by
  obtain ⟨settings, now⟩ := h.clock_handle own isn prospect
  have between := h.session_handle own isn prospect at_id
  have after := (h.after_handle read).session_handle theirs isn' prospect' between
  rw [h.lookup_handle_other own isn prospect differ.symm, settings, now] at after
  rw [after]
  by_cases mine : r.lookup key = some id
  · rw [if_neg (h.lookup_apart differ mine), if_pos mine, if_pos mine]
  · rw [if_neg mine, if_neg mine]

private theorem Consistent.open?_handle_two :
    (((r.handle first isn prospect).handle second isn' prospect').open? other).map (·.unnumbered) =
      ((r.handle second isn' prospect').open? other).map (·.unnumbered) := by
  obtain ⟨settings, now⟩ := h.clock_handle own isn prospect
  rw [(h.after_handle read).open?_handle theirs isn' prospect', settings, now,
    h.open?_handle_other own isn prospect differ.symm, h.open?_handle theirs isn' prospect']
  exact outcome_number ..

private theorem Consistent.writtenTo_two (traced : Traced r) (also : second.Read) (flow : Key) :
    (((r.handle first isn prospect).handle second isn' prospect').writtenTo flow).map unidentified =
      (if flow = other then
        (drafts (r.settings.reaction r.now r.socketCount (r.open? other) second isn' prospect')).map
          fun d => unidentified (d.toBytes 0) else []) ++
      ((if flow = key then
        (drafts (r.settings.reaction r.now r.socketCount (r.open? key) first isn prospect)).map
          fun d => unidentified (d.toBytes 0) else []) ++
      (r.writtenTo flow).map unidentified) := by
  have consistent : Consistent (r.handle first isn prospect) := h.after_handle read
  obtain ⟨settings, now⟩ := h.clock_handle own isn prospect
  have before := (h.handle_writes own isn prospect).writtenTo
    (h.reaction_addressed traced read own r.socketCount isn prospect) flow
  have after := (consistent.handle_writes theirs isn' prospect').writtenTo
    (consistent.reaction_addressed (Traced.after_handle read h traced) also theirs _ isn' prospect')
    flow
  rw [settings, now, h.open?_handle_other own isn prospect differ.symm,
    drafts_reaction_number r.settings r.now r.socketCount] at after
  rw [after, before]

private theorem Consistent.length_handle_two :
    ((r.handle first isn prospect).handle second isn' prospect').sessions.length =
      r.sessions.length +
        (if (r.open? key).isNone && ((r.handle first isn prospect).open? key).isSome then 1 else 0) +
        if (r.open? other).isNone && ((r.handle second isn' prospect').open? other).isSome then 1
        else 0 := by
  have same : (((r.handle first isn prospect).handle second isn' prospect').open? other).isSome =
      ((r.handle second isn' prospect').open? other).isSome := by
    rw [← Option.isSome_map (f := Session.unnumbered), h.open?_handle_two differ own theirs read,
      Option.isSome_map]
  rw [(h.after_handle read).length_handle theirs isn' prospect', h.length_handle own isn prospect,
    h.open?_handle_other own isn prospect differ.symm, same]

end Two

/-- Packets of two flows come to the same in either order. -/
private theorem Consistent.handle_swap (h : Consistent r) (traced : Traced r)
    {first second : Inbound} (differ : key ≠ other) (own : first.key? = some key)
    (theirs : second.key? = some other)
    (read : first.Read) (also : second.Read) (isn isn' : UInt32)
    (prospect prospect' : Socket.Prospect) :
    let a := (r.handle first isn prospect).handle second isn' prospect'
    let b := (r.handle second isn' prospect').handle first isn prospect
    a.sessions.length = b.sessions.length ∧
      (∀ id, id < r.sessions.length → a.sessions[id]? = b.sessions[id]?) ∧
      ∀ flow, AgreeOn a b flow := by
  intro a b
  have opened : ∀ flow, (a.open? flow).map (·.unnumbered) = (b.open? flow).map (·.unnumbered) := by
    intro flow
    by_cases mine : flow = key
    · subst mine
      rw [h.open?_handle_two differ.symm theirs own also,
        (h.after_handle read).open?_handle_other theirs isn' prospect' differ]
    · by_cases its : flow = other
      · subst its
        rw [h.open?_handle_two differ own theirs read,
          (h.after_handle also).open?_handle_other own isn prospect mine]
      · rw [(h.after_handle read).open?_handle_other theirs isn' prospect' its,
          h.open?_handle_other own isn prospect mine,
          (h.after_handle also).open?_handle_other own isn prospect mine,
          h.open?_handle_other theirs isn' prospect' its]
  have consistent_a : Consistent a := (h.after_handle read).after_handle also
  have consistent_b : Consistent b := (h.after_handle also).after_handle read
  refine ⟨?_, fun id within => ?_, fun flow => ⟨opened flow, ?_, ?_⟩⟩
  · rw [h.length_handle_two differ own theirs read, h.length_handle_two differ.symm theirs own also,
      Nat.add_right_comm]
  · have at_id := List.getElem?_eq_getElem within
    rw [h.session_handle_two differ own theirs read at_id,
      h.session_handle_two differ.symm theirs own also at_id]
    by_cases mine : r.lookup key = some id
    · have apart : r.lookup other ≠ some id := h.lookup_apart differ mine
      rw [if_pos mine, if_neg apart, if_pos mine]
    · rw [if_neg mine, if_neg mine]
  · rw [consistent_a.registered?_eq, consistent_b.registered?_eq]
    exact opened flow
  · rw [h.writtenTo_two differ own theirs read traced also,
      h.writtenTo_two differ.symm theirs own also traced read]
    by_cases mine : flow = key
    · rw [if_neg fun its => differ (mine.symm.trans its), List.nil_append, if_pos mine]
      rfl
    · rw [if_neg mine, List.nil_append, List.nil_append]

/-- Flows are isolated: a packet leaves the sessions, table entries and registrations of other flows
as they are, and packets of two flows come to the same in either order. -/
theorem run_isolated (settings : Settings) (now coreWorkers maxWorkers : Nat)
    (events : List Event) :
    let r := (start settings now coreWorkers maxWorkers).run events
    (∀ e key, e.key? = some key →
      (∀ (id : SessionId) (session : Session), r.sessions[id]? = some session → session.key ≠ key →
        (r.step e).sessions[id]? = some session) ∧
      ∀ other, other ≠ key → (r.step e).lookup other = r.lookup other ∧
        (r.step e).registered.find? other = r.registered.find? other) ∧
    ∀ first second key other, first.key? = some key → second.key? = some other → key ≠ other →
      let a := (r.step first).step second
      let b := (r.step second).step first
      a.sessions.length = b.sessions.length ∧
        (∀ id, id < r.sessions.length → a.sessions[id]? = b.sessions[id]?) ∧
        ∀ flow, AgreeOn a b flow := by
  intro r
  have h : Consistent r := consistent_run settings now coreWorkers maxWorkers events
  have traced : Traced r := traced_run settings now coreWorkers maxWorkers events
  refine ⟨fun e key flow => ⟨fun id session at_id apart => ?_, fun other differ => ?_⟩,
    fun first second key other mine theirs differ => ?_⟩
  · obtain ⟨packet, isn, prospect, read, own, handled⟩ := Event.key?_eq_some flow
    rw [handled, h.session_handle own isn prospect at_id, if_neg fun listed => apart ?_]
    obtain ⟨t, known, own, -⟩ := h.found key id listed
    obtain rfl := Option.some.inj (known.symm.trans (history_of_session at_id))
    exact own
  · obtain ⟨packet, isn, prospect, read, own, handled⟩ := Event.key?_eq_some flow
    have consistent : Consistent (r.handle packet isn prospect) := h.after_handle read
    have same := h.lookup_handle_other own isn prospect differ
    rw [handled, consistent.registered, h.registered]
    exact ⟨same, same⟩
  · obtain ⟨packet, isn, prospect, read, own, handled⟩ := Event.key?_eq_some mine
    obtain ⟨packet', isn', prospect', also, its, handled'⟩ := Event.key?_eq_some theirs
    simp only [handled, handled']
    exact h.handle_swap traced differ own its read also isn isn' prospect prospect'

/-- Two connections are opened in either order: their sockets and the answers get other numbers, and
are the same otherwise. -/
theorem run_isolated_order :
    let packet (port : UInt8) (flags : UInt8) : Event := .packet
      ((sampleSegment flags 1000 0 []).set 21 port) 500 (.smooth [])
    let key (port : UInt16) : Key :=
      { sampleFlow with sourcePort := 0x1300 + port }
    let r := (start .plain 0 1 1).run []
    let a := (r.step (packet 1 2)).step (packet 2 2)
    let b := (r.step (packet 2 2)).step (packet 1 2)
    ((a.open? (key 1)).bind (·.socket)).map (·.number) = some 0 ∧
      ((b.open? (key 1)).bind (·.socket)).map (·.number) = some 1 ∧
      (∀ flow, AgreeOn a b flow) ∧ a.writtenTo (key 1) ≠ b.writtenTo (key 1) ∧
      (a.step (packet 1 4)).lookup (key 2) = some 1 := by
  intro packet key r a b
  have first : (packet 1 2).key? = some (key 1) := by decide +kernel
  have second : (packet 2 2).key? = some (key 2) := by decide +kernel
  have third : (packet 1 4).key? = some (key 1) := by decide +kernel
  obtain ⟨-, swapped⟩ := run_isolated .plain 0 1 1 []
  obtain ⟨-, -, agree⟩ := swapped _ _ _ _ first second (by decide +kernel)
  obtain ⟨isolated, -⟩ := run_isolated .plain 0 1 1 [packet 1 2, packet 2 2]
  obtain ⟨-, entries⟩ := isolated _ _ third
  obtain ⟨same, -⟩ := entries (key 2) (by decide +kernel)
  exact ⟨by decide +kernel, by decide +kernel, agree, by decide +kernel,
    same.trans (by decide +kernel)⟩

end Relay
end PacketRelay
