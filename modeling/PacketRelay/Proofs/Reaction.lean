import PacketRelay.Proofs.Written

/-!
What a relay writes at once.

Nothing is ever taken out of the journal. What one session or none enters is found there as it
happened, and what goes into the tunnel is what was drafted. So a packet or a service writes what
the flow concerned makes it write: `Settings.reaction` tells it from the session of the flow alone.
-/

set_option autoImplicit false

namespace PacketRelay

open Session (Key Turn)

def Effect.draft? : Effect → Option Draft
  | write _ draft => some draft
  | _ => none

/-- The drafts among effects, in their order. -/
def drafts (effects : List Effect) : List Draft := effects.filterMap (·.draft?)

@[simp] theorem drafts_append (new effects : List Effect) :
    drafts (new ++ effects) = drafts new ++ drafts effects :=
  List.filterMap_append

theorem mem_drafts {effects : List Effect} {draft : Draft} :
    draft ∈ drafts effects ↔ ∃ purpose, .write purpose draft ∈ effects := by
  constructor
  · intro member
    obtain ⟨e, inside, same⟩ := List.mem_filterMap.1 member
    cases e with
    | write purpose d =>
      obtain rfl := Option.some.inj same
      exact ⟨purpose, inside⟩
    | _ => cases same
  · rintro ⟨purpose, member⟩
    exact List.mem_filterMap.2 ⟨_, member, rfl⟩

theorem drafts_eq_nil {effects : List Effect}
    (quiet : ∀ purpose draft, .write purpose draft ∉ effects) : drafts effects = [] :=
  List.eq_nil_iff_forall_not_mem.2 fun draft member => by
    obtain ⟨purpose, member⟩ := mem_drafts.1 member
    exact quiet purpose draft member

theorem Session.Turn.drafts_of_adds {t u : Turn} (adds : Turn.Adds (fun e => e.draft? = none) t u) :
    drafts u.effects = drafts t.effects := by
  obtain ⟨new, added, silent⟩ := adds
  have none_new : drafts new = [] := List.filterMap_eq_nil_iff.2 silent
  rw [added, drafts_append, none_new, List.nil_append]

namespace Relay

variable {r mid after ready : Relay} {owner : Option SessionId} {id : SessionId} {t u : Turn}
  {effects later : List Effect} {key : Key}

/-- Effects of one session, or of none, have been entered into the journal. -/
def Enters (owner : Option SessionId) (effects : List Effect) (r after : Relay) : Prop :=
  ∃ new, after.journal = new ++ r.journal ∧ (∀ entry ∈ new, entry.session = owner) ∧
    new.map (·.effect) = effects

/-- Drafts have gone into the tunnel. -/
def Writes (ds : List Draft) (r after : Relay) : Prop :=
  ∃ packets, after.written = packets ++ r.written ∧
    List.Forall₂ (fun packet d => ∃ identification, packet = d.toBytes identification) packets ds

private theorem Writes.trans {ds es : List Draft} (first : Writes ds r mid)
    (second : Writes es mid after) : Writes (es ++ ds) r after := by
  obtain ⟨packets, written, sent⟩ := first
  obtain ⟨more, next, also⟩ := second
  refine ⟨more ++ packets, by rw [next, written, List.append_assoc], ?_⟩
  exact List.rel_append also sent

theorem Enters.writes (enters : Enters owner effects r after) :
    Writes (drafts effects) r after := by
  obtain ⟨new, journal, -, rfl⟩ := enters
  refine ⟨new.filterMap (·.packet?), ?_, ?_⟩
  · rw [Relay.written, journal, List.filterMap_append]
    rfl
  · clear journal
    induction new with
    | nil => exact .nil
    | cons entry rest ih =>
      obtain ⟨session, identification, effect⟩ := entry
      cases effect with
      | write purpose d => exact .cons ⟨identification, rfl⟩ ih
      | _ => exact ih

private theorem effectsOf_append {new : List Entry} (journal : after.journal = new ++ r.journal)
    (owner : Option SessionId) : after.effectsOf owner =
      (new.filter fun entry => entry.session == owner).map (·.effect) ++ r.effectsOf owner := by
  simp only [effectsOf, journal, List.filter_append, List.map_append]

private theorem Enters.of_grows (grows : r.journal <:+ after.journal)
    (others : ∀ other, other ≠ owner → after.effectsOf other = r.effectsOf other)
    (own : after.effectsOf owner = effects ++ r.effectsOf owner) :
    Enters owner effects r after := by
  obtain ⟨new, journal⟩ := grows
  have journal : after.journal = new ++ r.journal := journal.symm
  have owned : ∀ entry ∈ new, entry.session = owner := by
    intro entry member
    by_contra differ
    have same := others entry.session differ
    rw [effectsOf_append journal] at same
    have none_new := List.append_cancel_right (same.trans (List.nil_append _).symm)
    rw [List.map_eq_nil_iff, List.filter_eq_nil_iff] at none_new
    exact none_new entry member (beq_self_eq_true entry.session)
  refine ⟨new, journal, owned, ?_⟩
  have all : (new.filter fun entry => entry.session == owner) = new :=
    List.filter_eq_self.2 fun entry member => beq_iff_eq.2 (owned entry member)
  rw [effectsOf_append journal, all] at own
  exact List.append_cancel_right own

theorem Stands.enters (stands : Stands r after id u) (known : r.history id = some t)
    (added : u.effects = effects ++ t.effects) : Enters (some id) effects r after := by
  refine .of_grows stands.grows (fun other differ => stands.effectsOf_other differ) ?_
  rw [stands.effects, (history_eq_some.1 known).2, added]

private theorem Admits.enters (admits : Admits ready after t)
    (unborn : ready.effectsOf (some ready.sessions.length) = []) :
    Enters (some ready.sessions.length) t.effects ready after := by
  have effects : after.effectsOf =
      Function.update ready.effectsOf (some ready.sessions.length) t.effects :=
    congrArg (·.effects) admits.histories
  refine .of_grows admits.grows (fun other differ => ?_) ?_
  · rw [effects, Function.update_of_ne differ]
  · rw [effects, Function.update_self, unborn, List.append_nil]

private theorem enters_asides (effects : List Effect) :
    Enters none effects r (r.asides effects) := by
  induction effects with
  | nil => exact ⟨[], rfl, fun _ member => (by cases member), rfl⟩
  | cons effect rest ih =>
    obtain ⟨new, journal, owned, same⟩ := ih
    refine ⟨⟨none, (r.asides rest).identification, effect⟩ :: new, ?_,
      List.forall_mem_cons.2 ⟨rfl, owned⟩, ?_⟩
    · exact congrArg (_ :: ·) journal
    · exact congrArg (effect :: ·) same

theorem enters_asking (packet : Inbound) (effects : List Effect) :
    Enters none effects r (r.asking packet effects) :=
  enters_asides (r := { r with socketCount := r.socketCount + packet.opens.toNat }) effects

section Packets

variable {packet : Inbound} {isn : UInt32} {prospect : Socket.Prospect}

/-- The open session of a flow. -/
def open? (r : Relay) (key : Key) : Option Session := (r.lookup key).bind (r.sessions[·]?)

/-- All that a packet of a flow makes a relay do, latest first. -/
def Settings.reaction (settings : Settings) (now number : Nat) (session : Option Session)
    (packet : Inbound) (isn : UInt32) (prospect : Socket.Prospect) : List Effect :=
  match session with
  | some session => ((Turn.start session).handle settings.egressClassifier now packet).effects
  | none =>
    let admission := settings.admission now number packet isn prospect
    (admission.opened.map (·.effects)).getD [] ++ admission.aside

theorem Consistent.open?_eq_some (h : Consistent r) {session : Session}
    (found : r.open? key = some session) : ∃ id t, r.lookup key = some id ∧
      r.history id = some t ∧ t.session = session ∧ t.session.key = key ∧
        t.session.socket.isSome = true := by
  obtain ⟨id, found, at_id⟩ := Option.bind_eq_some_iff.1 found
  obtain ⟨t, known, own, opened⟩ := h.found key id found
  exact ⟨id, t, found, known, Option.some.inj ((history_eq_some.1 known).1.symm.trans at_id), own,
    opened⟩

theorem Consistent.open?_eq_none (h : Consistent r) (none_open : r.open? key = none) :
    r.lookup key = none := by
  cases found : r.lookup key with
  | none => rfl
  | some id =>
    obtain ⟨t, known, -⟩ := h.found key id found
    simp only [open?, found, Option.bind_some, (history_eq_some.1 known).1] at none_open
    cases none_open

/-- A packet makes a relay write what its flow makes it write. -/
theorem Consistent.handle_writes (h : Consistent r) (own : packet.key? = some key) (isn : UInt32)
    (prospect : Socket.Prospect) :
    Writes (drafts (r.settings.reaction r.now r.socketCount (r.open? key) packet isn prospect)) r
      (r.handle packet isn prospect) := by
  cases found : r.open? key with
  | some session =>
    obtain ⟨id, t, -, known, rfl, rfl, opened⟩ := h.open?_eq_some found
    obtain ⟨stands, -⟩ := h.handle_found known opened own isn prospect
    rw [t.handle_start] at stands
    exact (stands.enters known rfl).writes
  | none =>
    have received := h.handle_fresh own (h.open?_eq_none found) isn prospect
    have asked := (r.enters_asking packet
      (r.settings.admission r.now r.socketCount packet isn prospect).aside).writes
    simp only [Settings.reaction, drafts_append]
    unfold Receives at received
    cases opened : (r.settings.admission r.now r.socketCount packet isn prospect).opened with
    | none =>
      rw [opened] at received
      rw [received]
      exact asked
    | some t =>
      rw [opened] at received
      obtain ⟨ready, made, -, -, -, unborn⟩ := h.readied packet
        (r.settings.admission r.now r.socketCount packet isn prospect).aside
      rw [← made] at unborn
      exact asked.trans (received.enters unborn).writes

end Packets

end Relay
end PacketRelay
