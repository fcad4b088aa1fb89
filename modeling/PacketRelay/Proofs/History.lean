import Mathlib.Logic.Function.Basic
import PacketRelay.Proofs.Move

/-!
Histories: what has happened to each session of a relay.

A session and its effects, latest first, are one long turn. The operations of a relay extend the
turn of one session and leave all others alone: `Stands` follows that turn through them. What a
relay is besides is its scene.
-/

set_option autoImplicit false

namespace PacketRelay.Relay

open Session (Key Turn)

/-- The effects that belong to a session, or to none, latest first. -/
def effectsOf (r : Relay) (owner : Option SessionId) : List Effect :=
  (r.journal.filter fun entry => entry.session == owner).map (·.effect)

/-- All sessions, and the effects of each. -/
structure Histories where
  sessions : List Session
  effects : Option SessionId → List Effect

namespace Histories

/-- What has happened to a session. -/
def of? (h : Histories) (id : SessionId) : Option Turn :=
  h.sessions[id]?.map fun s => ⟨s, h.effects (some id)⟩

def put (h : Histories) (id : SessionId) (t : Turn) : Histories where
  sessions := h.sessions.set id t.session
  effects := Function.update h.effects (some id) t.effects

def add (h : Histories) (t : Turn) : Histories where
  sessions := h.sessions ++ [t.session]
  effects := Function.update h.effects (some h.sessions.length) t.effects

def aside (h : Histories) (effect : Effect) : Histories :=
  { h with effects := Function.update h.effects none (effect :: h.effects none) }

variable {h : Histories} {id other : SessionId} {t u : Turn}

private theorem put_put : (h.put id t).put id u = h.put id u := by
  simp [put]

theorem put_self (known : h.of? id = some t) : h.put id t = h := by
  obtain ⟨s, at_id, rfl⟩ := Option.map_eq_some_iff.1 known
  obtain ⟨within, rfl⟩ := List.getElem?_eq_some_iff.1 at_id
  simp [put]

private theorem of?_put_self (within : id < h.sessions.length) : (h.put id t).of? id = some t := by
  simp [of?, put, within]

theorem of?_put_other (differ : other ≠ id) : (h.put id t).of? other = h.of? other := by
  have : (h.sessions.set id t.session)[other]? = h.sessions[other]? :=
    List.getElem?_set_ne (Ne.symm differ)
  simp [of?, put, this, Function.update_of_ne, differ]

theorem add_put : (h.add t).put h.sessions.length u = h.add u := by
  simp [add, put]

theorem of?_add_self : (h.add t).of? h.sessions.length = some t := by
  simp [of?, add]

theorem of?_add_other (differ : other ≠ h.sessions.length) : (h.add t).of? other = h.of? other := by
  rcases Nat.lt_or_gt_of_ne differ with below | above
  · simp [of?, add, List.getElem?_append_left below, Function.update_of_ne, differ]
  · have : h.sessions[other]? = none := List.getElem?_eq_none (Nat.le_of_lt above)
    have : (h.sessions ++ [t.session])[other]? = none := by
      refine List.getElem?_eq_none ?_
      simp only [List.length_append, List.length_singleton]
      omega
    simp [of?, add, *]

theorem of?_aside (effect : Effect) : (h.aside effect).of? id = h.of? id := by
  simp [of?, aside]

end Histories

def histories (r : Relay) : Histories := ⟨r.sessions, r.effectsOf⟩

def history (r : Relay) (id : SessionId) : Option Turn := r.histories.of? id

section Operations

variable (r : Relay) (owner : Option SessionId) (key : Key) (id : SessionId)

/-- What a relay is besides its histories. -/
structure Scene where
  settings : Settings
  now : Nat
  table : Table
  registered : Table
  pings : Ping.Pool Inbound.Echo

def scene (r : Relay) : Scene := ⟨r.settings, r.now, r.table, r.registered, r.pings⟩

@[simp] theorem scene_emit (effect : Effect) : (r.emit owner effect).scene = r.scene := rfl

@[simp] theorem scene_modify (f : Session → Session) : (r.modify id f).scene = r.scene := rfl

theorem emits_frame (effects : List Effect) : ∃ journal identification,
    effects.foldr (fun effect r => r.emit owner effect) r =
      { r with journal := journal, identification := identification } := by
  induction effects with
  | nil => exact ⟨r.journal, r.identification, rfl⟩
  | cons effect rest ih =>
    obtain ⟨journal, identification, eq⟩ := ih
    rw [List.foldr_cons, eq]
    exact ⟨_, _, rfl⟩

private theorem journal_emits (effects : List Effect) :
    r.journal <:+ (effects.foldr (fun effect r => r.emit owner effect) r).journal := by
  induction effects with
  | nil => exact List.suffix_rfl
  | cons effect rest ih => exact ih.trans (List.suffix_cons _ _)

@[simp] theorem scene_commit (t : Turn) : (r.commit id t).scene = r.scene := by
  obtain ⟨_, _, eq⟩ :=
    { r with sessions := r.sessions.set id t.session }.emits_frame (some id) t.effects
  unfold commit
  rw [eq]
  rfl

@[simp] theorem scene_turn (f : Turn → Turn) : (r.turn id f).scene = r.scene := by
  unfold turn
  split
  · exact r.scene_commit id _
  · rfl

@[simp] theorem scene_keepAlive : (r.keepAlive id).scene = r.scene := by
  unfold keepAlive
  split <;> rfl

@[simp] theorem scene_cancel :
    (r.cancel key).scene = { r.scene with registered := r.scene.registered.erase key } := rfl

theorem scene_close (found : r.lookup key = some id) :
    (r.close key).scene = { r.scene with table := r.scene.table.erase key } := by
  unfold close
  rw [found]
  simp only
  split <;> rfl

theorem effectsOf_emit (effect : Effect) : (r.emit owner effect).effectsOf =
    Function.update r.effectsOf owner (effect :: r.effectsOf owner) := by
  funext other
  by_cases same : other = owner
  · simp [same, emit, effectsOf]
  · have : (owner == other) = false := by simpa using Ne.symm same
    simp [Function.update_of_ne same, emit, effectsOf, this]

theorem effectsOf_emits (effects : List Effect) :
    (effects.foldr (fun effect r => r.emit owner effect) r).effectsOf =
      Function.update r.effectsOf owner (effects ++ r.effectsOf owner) := by
  induction effects with
  | nil => simp
  | cons effect rest ih => simp [effectsOf_emit, ih]

theorem histories_emit_none (effect : Effect) :
    (r.emit none effect).histories = r.histories.aside effect := by
  unfold histories
  rw [effectsOf_emit]
  rfl

end Operations

/-- A relay that differs from another in what has happened to one session only. -/
structure Stands (r after : Relay) (id : SessionId) (t : Turn) : Prop where
  within : id < r.sessions.length
  histories : after.histories = r.histories.put id t
  /-- What has been entered stays entered. -/
  grows : r.journal <:+ after.journal

namespace Stands

variable {r after : Relay} {id : SessionId} {t : Turn}

theorem refl (known : r.history id = some t) : Stands r r id t where
  within := by
    obtain ⟨s, at_id, -⟩ := Option.map_eq_some_iff.1 known
    exact (List.getElem?_eq_some_iff.1 at_id).1
  histories := (Histories.put_self known).symm
  grows := List.suffix_rfl

theorem history (stands : Stands r after id t) : after.history id = some t := by
  unfold Relay.history
  rw [stands.histories, Histories.of?_put_self stands.within]

theorem session (stands : Stands r after id t) : after.sessions[id]? = some t.session := by
  obtain ⟨s, at_id, rfl⟩ := Option.map_eq_some_iff.1 stands.history
  exact at_id

theorem effects (stands : Stands r after id t) : after.effectsOf (some id) = t.effects := by
  obtain ⟨s, at_id, rfl⟩ := Option.map_eq_some_iff.1 stands.history
  rfl

private theorem replace (stands : Stands r after id t) {later : Relay} {u : Turn}
    (sessions : later.sessions = after.sessions.set id u.session)
    (effects : later.effectsOf = Function.update after.effectsOf (some id) u.effects)
    (grows : after.journal <:+ later.journal) : Stands r later id u where
  within := stands.within
  grows := stands.grows.trans grows
  histories := by
    have : later.histories = after.histories.put id u := by
      simp only [Relay.histories, Histories.put, sessions, effects]
    rw [this, stands.histories, Histories.put_put]

theorem emit (stands : Stands r after id t) (effect : Effect) :
    Stands r (after.emit (some id) effect) id (t.emit effect) := by
  refine stands.replace ?_ ?_ (List.suffix_cons _ _)
  · obtain ⟨within, eq⟩ := List.getElem?_eq_some_iff.1 stands.session
    have : t.session = after.sessions[id] := eq.symm
    simp [Relay.emit, Turn.emit, this]
  · rw [effectsOf_emit, stands.effects]
    rfl

theorem commit (stands : Stands r after id t) (u : Turn) :
    Stands r (after.commit id u) id (u.on t.effects) := by
  refine stands.replace ?_ ?_
    (journal_emits { after with sessions := after.sessions.set id u.session } (some id) u.effects)
  · obtain ⟨_, _, eq⟩ :=
      { after with sessions := after.sessions.set id u.session }.emits_frame (some id) u.effects
    unfold Relay.commit
    rw [eq]
    rfl
  · unfold Relay.commit
    rw [effectsOf_emits]
    have : after.effectsOf (some id) = t.effects := stands.effects
    exact congrArg (fun past => Function.update after.effectsOf (some id) (u.effects ++ past)) this

theorem turn (stands : Stands r after id t) {f : Turn → Turn}
    (uniform : ∀ u past, f (u.on past) = (f u).on past) :
    Stands r (after.turn id f) id (f t) := by
  have committed := stands.commit (f (.start t.session))
  rw [← uniform, Turn.on_start] at committed
  unfold Relay.turn
  rw [stands.session]
  exact committed

theorem modify (stands : Stands r after id t) (f : Session → Session) :
    Stands r (after.modify id f) id { t with session := f t.session } := by
  refine stands.replace ?_ ?_ List.suffix_rfl
  · obtain ⟨within, eq⟩ := List.getElem?_eq_some_iff.1 stands.session
    refine List.ext_getElem? fun i => ?_
    by_cases same : id = i
    · subst same
      simp [Relay.modify, within, eq]
    · simp [Relay.modify, same]
  · have : after.effectsOf (some id) = t.effects := stands.effects
    rw [← this, Function.update_eq_self]
    rfl

theorem keepAlive (stands : Stands r after id t)
    (current : after.lookup t.session.key = some id) :
    Stands r (after.keepAlive id) id (t.touch after.now) := by
  have : after.isCurrent id = true := by
    unfold isCurrent
    rw [stands.session]
    simp [current]
  unfold Relay.keepAlive
  rw [if_pos this]
  exact stands.modify _

theorem close (stands : Stands r after id t) {key : Key} (found : after.lookup key = some id) :
    Stands r (after.close key) id t.shut := by
  unfold Relay.close Turn.shut
  rw [found]
  simp only [stands.session, Option.bind_some]
  have erased : Stands r { after with table := after.table.erase key } id t :=
    ⟨stands.within, stands.histories, stands.grows⟩
  have closed := erased.modify fun s => { s with socket := none }
  cases shut : t.session.socket with
  | some socket => exact closed.emit _
  | none =>
    have : { t.session with socket := none } = t.session := by rw [← shut]
    rw [this] at closed
    exact closed

end Stands

end PacketRelay.Relay
