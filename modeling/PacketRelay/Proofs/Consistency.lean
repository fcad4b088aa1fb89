import PacketRelay.Proofs.History

/-!
The table, the registrations and the sessions agree.

`Change` lists what can happen to a relay at once, and `Consistent` is kept by each change. Every
event of a run is a chain of changes: in particular, whatever the order of a pass, it finds each
session that it visits open.
-/

set_option autoImplicit false

namespace PacketRelay

open Relation (ReflTransGen)
open Session (Key Turn)

namespace Table

variable {t : Table} {key : Key} {id : SessionId}

/-- No flow has two entries. -/
def KeysDiffer (t : Table) : Prop := (t.entries.map (·.1)).Nodup

private theorem keysDiffer_empty : empty.KeysDiffer := List.nodup_nil

private theorem KeysDiffer.erase (differ : t.KeysDiffer) (key : Key) : (t.erase key).KeysDiffer :=
  differ.sublist ((List.filter_sublist).map _)

private theorem KeysDiffer.insert (differ : t.KeysDiffer) (key : Key) (id : SessionId) :
    (t.insert key id).KeysDiffer := by
  have rest := differ.erase key
  have gone : key ∉ (t.erase key).entries.map (·.1) := by
    simp [Table.erase]
  unfold KeysDiffer Table.insert
  rw [List.map_append, List.nodup_append]
  refine ⟨rest, List.nodup_singleton _, fun old member new is => ?_⟩
  obtain rfl : new = key := by simpa using is
  exact fun same => gone (same ▸ member)

private theorem find?_eq_some (differ : t.KeysDiffer) :
    t.find? key = some id ↔ (key, id) ∈ t.entries := by
  obtain ⟨entries⟩ := t
  unfold KeysDiffer at differ
  unfold find?
  simp only at differ ⊢
  induction entries with
  | nil => simp
  | cons entry rest ih =>
    obtain ⟨first, number⟩ := entry
    rw [List.map_cons, List.nodup_cons] at differ
    by_cases same : first = key
    · subst same
      have : (first, id) ∉ rest := fun member =>
        differ.1 (List.mem_map.2 ⟨_, member, rfl⟩)
      simp [this, eq_comm]
    · rw [List.find?_cons_of_neg (by simpa using same), ih differ.2]
      simp [Ne.symm same]

theorem mem_ids (differ : t.KeysDiffer) : id ∈ t.ids ↔ ∃ key, t.find? key = some id := by
  simp [ids, find?_eq_some differ]

theorem nodup_ids (differ : t.KeysDiffer)
    (apart : ∀ key other id, t.find? key = some id → t.find? other = some id → key = other) :
    t.ids.Nodup := by
  refine List.Nodup.map_on ?_ (List.Nodup.of_map _ differ)
  rintro ⟨key, id⟩ member ⟨other, _⟩ also rfl
  rw [apart key other id ((find?_eq_some differ).2 member) ((find?_eq_some differ).2 also)]

end Table

/-- All jobs that are not done yet. -/
def Ping.Pool.jobs {Job : Type} (p : Ping.Pool Job) : List Job := p.refused ++ p.starting ++ p.busy

namespace Relay

variable {r after : Relay} {id : SessionId} {t u : Turn} {key : Key}

/-- What happens on behalf of no session. -/
inductive Aside : Effect → Prop
  | connect (attempt : Socket.Attempt) : Aside (.connect attempt)
  | reset (s : Inbound.Segment) (read : s.Read) (n : Nat) :
      Aside (.write .reset (.reset s.ip s.tcp n))
  | acknowledgment (s : Inbound.Segment) (read : s.Read) :
      Aside (.write .acknowledgment (.ack s.ip s.tcp (s.tcp.seq + 1) none))
  | finAnswer (s : Inbound.Segment) (read : s.Read) :
      Aside (.write .finAnswer (.finAck s.ip s.tcp s.tcp.ack (s.tcp.seq + 1)))
  | probe (address : Address) (timeout : Nat) (reachable : Bool) :
      Aside (.probe address timeout reachable)
  | echoReply (e : Inbound.Echo) (read : e.Read) (draft : Draft) (reply : e.reply = .ok draft) :
      Aside (.write .echoReply draft)

def Scene.without (s : Scene) (key : Key) : Scene :=
  { s with table := s.table.erase key, registered := s.registered.erase key }

def Scene.having (s : Scene) (key : Key) (id : SessionId) : Scene :=
  { s with table := s.table.insert key id, registered := s.registered.insert key id }

/-- What can happen to a relay at once. Each session is reached by what may reach it from `outside`
only. -/
inductive Change (outside : SessionId → Outside) (r after : Relay) : Prop
  /-- Time passes, or a ping worker turns to something else. -/
  | quiet (histories : after.histories = r.histories)
      (scene : ∃ now pings, r.now ≤ now ∧ after.scene = { r.scene with now := now, pings := pings } ∧
        ∀ e ∈ pings.jobs, e ∈ r.pings.jobs ∨ e.Read)
  | aside (effect : Effect) (aside : Aside effect)
      (histories : after.histories = r.histories.aside effect) (scene : after.scene = r.scene)
  | opening (t : Turn) (opened : Turn.Opened r.settings t) (fresh : r.lookup t.session.key = none)
      (histories : after.histories = r.histories.add t)
      (scene : after.scene = r.scene.having t.session.key r.sessions.length)
  | moving (id : SessionId) (t u : Turn) (known : r.history id = some t)
      (current : r.lookup t.session.key = some id) (moves : Turn.Moves r.settings (outside id) t u)
      (stays : u.session.socket.isSome = true) (stands : Stands r after id u)
      (scene : after.scene = r.scene)
  | leaving (id : SessionId) (t u : Turn) (known : r.history id = some t)
      (current : r.lookup t.session.key = some id) (moves : Turn.Moves r.settings (outside id) t u)
      (closed : u.session.socket = none) (stands : Stands r after id u)
      (scene : after.scene = r.scene.without t.session.key)

abbrev Changes (outside : SessionId → Outside) : Relay → Relay → Prop :=
  ReflTransGen (Change outside)

/-- The table tells which session of a flow is open. -/
structure Listed (r : Relay) : Prop where
  differ : r.table.KeysDiffer
  /-- What is in the table is open. -/
  found : ∀ key id, r.lookup key = some id →
    ∃ t, r.history id = some t ∧ t.session.key = key ∧ t.session.socket.isSome = true
  /-- What is open is in the table. -/
  listed : ∀ id t, r.history id = some t → t.session.socket.isSome = true →
    r.lookup t.session.key = some id
  /-- Nothing has happened to sessions to come. -/
  unborn : ∀ id, r.sessions.length ≤ id → r.effectsOf (some id) = []
  /-- Only echo requests from the tunnel are worked on. -/
  asked : ∀ e ∈ r.pings.jobs, e.Read

/-- The registrations tell what the table tells. -/
structure Consistent (r : Relay) : Prop extends Listed r where
  registered : r.registered = r.table

end Relay

namespace Session.Turn

variable {settings : Relay.Settings} {outside : Outside} {t u : Turn}

private theorem key_deliver (bytes : Bytes) (classifier : Classifier) (current : Bool) (now : Nat) :
    (t.deliver bytes classifier current now).session.key = t.session.key := by
  obtain ⟨_, _, _, _, _, frame⟩ := t.deliver_frame now bytes classifier current
  rw [frame]
  rfl

private theorem key_flush : t.flush.1.session.key = t.session.key := by
  cases h : t.session.socket with
  | none => rw [flush_none t h]
  | some socket => rw [flush_some t h rfl]

private theorem key_shut : t.shut.session.key = t.session.key := by
  unfold shut
  split <;> rfl

theorem Move.key (move : Move settings outside t u) : u.session.key = t.session.key := by
  cases move with
  | resendAck => unfold Turn.resendAck; split <;> rfl
  | takePayload s now => exact (alike_takePayload s _ now).key
  | takeAck s now => exact (alike_takeAck s now).key
  | takePush s now => exact (alike_takePush s now).key
  | takeEnd s inOrder => exact (alike_takeEnd s inOrder).key
  | takeDatagram d => exact key_takeDatagram d _ _
  | flush => exact key_flush
  | deliver bytes after now => exact key_deliver bytes _ true now
  | remoteClose after => exact alike_remoteClose.key
  | resetPeer => unfold Turn.resetPeer; split <;> rfl
  | leave => exact key_shut
  | remember | refusePayload | cancel | refresh | touch | abandon | check | connect | readNothing
  | network => rfl

theorem Moves.key (moves : Moves settings outside t u) : u.session.key = t.session.key := by
  induction moves with
  | refl => rfl
  | tail _ move ih => exact move.key.trans ih

theorem Passed.key {pass : Pass} (passed : Passed settings outside t u pass) :
    u.session.key = t.session.key := by
  have moved := passed.moves.key
  split at moved
  · exact alike_remoteClose.key.symm.trans moved
  · exact moved

end Session.Turn

namespace Relay

variable {r after : Relay} {id : SessionId} {t u : Turn} {key : Key}

theorem lookup_scene {table : Table} (scene : after.scene.table = table) (key : Key) :
    after.lookup key = table.find? key := by
  rw [← scene]
  rfl

theorem history_add (histories : after.histories = r.histories.add t) :
    after.history r.sessions.length = some t := by
  unfold history
  rw [histories]
  exact Histories.of?_add_self

theorem history_add_other (histories : after.histories = r.histories.add t)
    (differ : id ≠ r.sessions.length) : after.history id = r.history id := by
  unfold history
  rw [histories]
  exact Histories.of?_add_other differ

private theorem unborn_add (histories : after.histories = r.histories.add t)
    (unborn : ∀ id, r.sessions.length ≤ id → r.effectsOf (some id) = []) (other : SessionId)
    (later : after.sessions.length ≤ other) : after.effectsOf (some other) = [] := by
  have sessions : after.sessions = r.sessions ++ [t.session] :=
    congrArg (·.sessions) histories
  have effects : after.effectsOf =
      Function.update r.effectsOf (some r.sessions.length) t.effects :=
    congrArg (·.effects) histories
  rw [sessions, List.length_append, List.length_singleton] at later
  have differ : some other ≠ some r.sessions.length := by
    intro same
    cases same
    omega
  rw [effects, Function.update_of_ne differ]
  exact unborn other (by omega)

theorem Stands.other (stands : Stands r after id u) {other : SessionId} (differ : other ≠ id) :
    after.history other = r.history other := by
  unfold Relay.history
  rw [stands.histories, Histories.of?_put_other differ]

theorem Stands.length (stands : Stands r after id u) :
    after.sessions.length = r.sessions.length := by
  have : after.sessions = r.sessions.set id u.session := congrArg (·.sessions) stands.histories
  rw [this, List.length_set]

theorem Stands.effectsOf_other (stands : Stands r after id u) {owner : Option SessionId}
    (differ : owner ≠ some id) : after.effectsOf owner = r.effectsOf owner := by
  have : after.effectsOf = Function.update r.effectsOf (some id) u.effects :=
    congrArg (·.effects) stands.histories
  rw [this, Function.update_of_ne differ]

private theorem Stands.unborn (stands : Stands r after id u)
    (unborn : ∀ id, r.sessions.length ≤ id → r.effectsOf (some id) = []) (other : SessionId)
    (later : after.sessions.length ≤ other) : after.effectsOf (some other) = [] := by
  rw [stands.length] at later
  have : some other ≠ some id := by
    intro same
    cases same
    exact absurd stands.within (Nat.not_lt.2 later)
  rw [stands.effectsOf_other this]
  exact unborn other later

theorem length_of_history (known : r.history id = some t) : id < r.sessions.length :=
  (Stands.refl known).within

theorem consistent_start (settings : Settings) (now coreWorkers maxWorkers : Nat) :
    Consistent (start settings now coreWorkers maxWorkers) where
  differ := Table.keysDiffer_empty
  found _ _ none := by cases none
  listed id t known := absurd (length_of_history known) (Nat.not_lt_zero id)
  unborn _ _ := rfl
  asked _ none := by cases none
  registered := rfl

namespace Listed

private theorem opening (h : Listed r) (fresh : r.lookup t.session.key = none)
    (opened : t.session.socket.isSome = true)
    (histories : after.histories = r.histories.add t)
    (table : after.table = r.table.insert t.session.key r.sessions.length)
    (pings : after.pings = r.pings) : Listed after := by
  have lookup : ∀ key, after.lookup key =
      if key = t.session.key then some r.sessions.length else r.lookup key := fun key =>
    (lookup_scene table key).trans (Table.find?_insert _ _ _ _)
  refine ⟨?_, ?_, ?_, ?_, ?_⟩
  · rw [table]
    exact h.differ.insert _ _
  · intro key id found
    rw [lookup] at found
    split at found
    case isTrue same =>
      obtain rfl := Option.some.inj found
      exact ⟨t, history_add histories, same.symm, opened⟩
    case isFalse =>
      obtain ⟨u, known, own, opened⟩ := h.found key id found
      have differ := Nat.ne_of_lt (length_of_history known)
      exact ⟨u, (history_add_other histories differ).trans known, own, opened⟩
  · intro id u known opened
    rw [lookup]
    by_cases new : id = r.sessions.length
    · subst new
      obtain rfl : t = u := Option.some.inj ((history_add histories).symm.trans known)
      rw [if_pos rfl]
    · rw [history_add_other histories new] at known
      have old := h.listed id u known opened
      have differ : u.session.key ≠ t.session.key := by
        intro same
        rw [same, fresh] at old
        cases old
      rw [if_neg differ, old]
  · exact unborn_add histories h.unborn
  · rw [pings]
    exact h.asked

theorem staying (h : Listed r) (known : r.history id = some t)
    (own : u.session.key = t.session.key)
    (socket : u.session.socket.isSome = t.session.socket.isSome) (stands : Stands r after id u)
    (table : after.table = r.table) (pings : after.pings = r.pings) : Listed after := by
  have lookup : ∀ key, after.lookup key = r.lookup key := fun key =>
    congrArg (·.find? key) table
  refine ⟨?_, ?_, ?_, ?_, ?_⟩
  · rw [table]
    exact h.differ
  · intro key other found
    rw [lookup] at found
    obtain ⟨v, before, mine, opened⟩ := h.found key other found
    by_cases same : other = id
    · subst same
      obtain rfl : t = v := Option.some.inj (known.symm.trans before)
      exact ⟨u, stands.history, own.trans mine, socket.trans opened⟩
    · exact ⟨v, (stands.other same).trans before, mine, opened⟩
  · intro other v after_other opened
    rw [lookup]
    by_cases same : other = id
    · subst same
      obtain rfl : u = v := Option.some.inj (stands.history.symm.trans after_other)
      rw [own]
      exact h.listed other t known (socket.symm.trans opened)
    · rw [stands.other same] at after_other
      exact h.listed other v after_other opened
  · exact stands.unborn h.unborn
  · rw [pings]
    exact h.asked

theorem leaving (h : Listed r) (known : r.history id = some t)
    (current : r.lookup t.session.key = some id) (closed : u.session.socket = none)
    (stands : Stands r after id u) (table : after.table = r.table.erase t.session.key)
    (pings : after.pings = r.pings) : Listed after := by
  have lookup : ∀ key, after.lookup key = if key = t.session.key then none else r.lookup key :=
    fun key => (lookup_scene table key).trans (Table.find?_erase _ _ _)
  refine ⟨?_, ?_, ?_, ?_, ?_⟩
  · rw [table]
    exact h.differ.erase _
  · intro key other found
    rw [lookup] at found
    split at found
    case isTrue => cases found
    case isFalse differ =>
      obtain ⟨v, before, mine, opened⟩ := h.found key other found
      have apart : other ≠ id := by
        rintro rfl
        obtain rfl : t = v := Option.some.inj (known.symm.trans before)
        exact differ mine.symm
      exact ⟨v, (stands.other apart).trans before, mine, opened⟩
  · intro other v after_other opened
    rw [lookup]
    by_cases same : other = id
    · subst same
      obtain rfl : u = v := Option.some.inj (stands.history.symm.trans after_other)
      rw [closed] at opened
      cases opened
    · rw [stands.other same] at after_other
      have listed := h.listed other v after_other opened
      have differ : v.session.key ≠ t.session.key := by
        intro mine
        rw [mine, current] at listed
        exact same (Option.some.inj listed).symm
      rw [if_neg differ, listed]
  · exact stands.unborn h.unborn
  · rw [pings]
    exact h.asked

theorem quiet (h : Listed r) (sessions : after.sessions = r.sessions)
    (effects : ∀ id, after.effectsOf (some id) = r.effectsOf (some id))
    (table : after.table = r.table) (asked : ∀ e ∈ after.pings.jobs, e.Read) : Listed after := by
  have history : ∀ id, after.history id = r.history id := by
    intro id
    unfold Relay.history Relay.histories Histories.of?
    simp only [sessions, effects]
  have lookup : ∀ key, after.lookup key = r.lookup key := fun key =>
    congrArg (·.find? key) table
  refine ⟨?_, ?_, ?_, ?_, asked⟩
  · rw [table]
    exact h.differ
  · intro key id found
    rw [lookup] at found
    rw [history]
    exact h.found key id found
  · intro id t known opened
    rw [history] at known
    rw [lookup]
    exact h.listed id t known opened
  · intro id unborn
    rw [sessions] at unborn
    rw [effects]
    exact h.unborn id unborn

end Listed

theorem socket_opened {settings : Settings} (opened : Turn.Opened settings t) :
    t.session.socket.isSome = true := by
  cases opened with
  | stream => rfl
  | datagram d read prospect number now session fresh =>
    show (Turn.takeDatagram _ d true settings.egressClassifier).session.socket.isSome = true
    rw [Turn.socket_takeDatagram, fresh]
    rfl

variable {outside : SessionId → Outside}

private theorem Change.listed (h : Listed r) (change : Change outside r after) : Listed after := by
  cases change with
  | quiet histories scene =>
    obtain ⟨now, pings, -, scene, asked⟩ := scene
    refine h.quiet (congrArg (·.sessions) histories) (fun id => ?_) (congrArg (·.table) scene)
      fun e job => ?_
    · exact congrArg (·.effects (some id)) histories
    · have : after.pings = pings := congrArg (·.pings) scene
      rw [this] at job
      exact (asked e job).elim (h.asked e) id
  | aside effect aside histories scene =>
    refine h.quiet (congrArg (·.sessions) histories) (fun id => ?_) (congrArg (·.table) scene) ?_
    · have : after.effectsOf = Function.update r.effectsOf none (effect :: r.effectsOf none) :=
        congrArg (·.effects) histories
      rw [this, Function.update_of_ne (by simp)]
    · have : after.pings = r.pings := congrArg (·.pings) scene
      rw [this]
      exact h.asked
  | opening t opened fresh histories scene =>
    exact h.opening fresh (socket_opened opened) histories (congrArg (·.table) scene)
      (congrArg (·.pings) scene)
  | moving id t u known current moves stays stands scene =>
    obtain ⟨v, there, -, opened⟩ := h.found _ _ current
    obtain rfl : t = v := Option.some.inj (known.symm.trans there)
    exact h.staying known moves.key (stays.trans opened.symm) stands (congrArg (·.table) scene)
      (congrArg (·.pings) scene)
  | leaving id t u known current moves closed stands scene =>
    exact h.leaving known current closed stands (congrArg (·.table) scene) (congrArg (·.pings) scene)

private theorem Change.registered (change : Change outside r after)
    (same : r.registered = r.table) : after.registered = after.table := by
  have tables : ∀ scene : Scene, after.scene = scene → scene.registered = scene.table →
      after.registered = after.table := by
    rintro _ rfl agree
    exact agree
  cases change with
  | quiet _ scene =>
    obtain ⟨now, pings, -, scene, -⟩ := scene
    exact tables _ scene same
  | aside _ _ _ scene => exact tables _ scene same
  | opening t _ _ _ scene =>
    exact tables _ scene
      (congrArg (fun table : Table => table.insert t.session.key r.sessions.length) same)
  | moving _ _ _ _ _ _ _ _ scene => exact tables _ scene same
  | leaving _ t _ _ _ _ _ _ scene =>
    exact tables _ scene (congrArg (fun table : Table => table.erase t.session.key) same)

private theorem Change.consistent (h : Consistent r) (change : Change outside r after) :
    Consistent after :=
  ⟨change.listed h.toListed, change.registered h.registered⟩

theorem Changes.listed (h : Listed r) (changes : Changes outside r after) : Listed after := by
  induction changes with
  | refl => exact h
  | tail _ change ih => exact change.listed ih

/-- Changes keep the table, the registrations and the sessions in agreement. -/
theorem Changes.consistent (h : Consistent r) (changes : Changes outside r after) :
    Consistent after := by
  induction changes with
  | refl => exact h
  | tail _ change ih => exact change.consistent ih

private theorem Change.mono {p q : SessionId → Outside} (within : ∀ id, (p id).Within (q id))
    (change : Change p r after) :
    Change q r after := by
  cases change with
  | quiet histories scene => exact .quiet histories scene
  | aside effect aside histories scene => exact .aside effect aside histories scene
  | opening t opened fresh histories scene => exact .opening t opened fresh histories scene
  | moving id t u known current moves stays stands scene =>
    exact .moving id t u known current (moves.mono (within id)) stays stands scene
  | leaving id t u known current moves closed stands scene =>
    exact .leaving id t u known current (moves.mono (within id)) closed stands scene

theorem Changes.mono {p q : SessionId → Outside} (within : ∀ id, (p id).Within (q id))
    (changes : Changes p r after) : Changes q r after := by
  induction changes with
  | refl => exact .refl
  | tail _ change ih => exact ih.tail (change.mono within)

end Relay
end PacketRelay
