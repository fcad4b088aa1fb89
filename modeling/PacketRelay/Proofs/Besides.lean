import PacketRelay.Proofs.Happening

/-!
What happens besides the sessions.

Some of what an event does belongs to no session: the answers to packets whose flow has none, and
the work of the ping workers. Both are told by the event and by how it finds the relay, and a pass
has no part in them.
-/

set_option autoImplicit false

namespace PacketRelay

open Session (Key Turn)

/-- The packet that answers an echo request whose destination was reached. -/
def Inbound.Echo.answer (e : Inbound.Echo) : List Effect :=
  e.reply.toOption.toList.map (.write .echoReply)

namespace Relay

variable {r : Relay} {id : SessionId} {t : Turn} {e : Event}

/-- What an event does for no session, latest first. -/
def besides (r : Relay) : Event → List Effect
  | .packet buffer isn prospect => match Inbound.parse buffer with
    | .ok packet => match packet.key?.bind r.lookup with
      | none => (r.settings.admission r.now r.socketCount packet isn prospect).aside
      | some _ => []
    | .error _ => []
  | .probe i reachable => match r.pings.busy[i]? with
    | some job => (if reachable then job.answer else []) ++
        [.probe job.ip.destination r.settings.probeTimeout reachable]
    | none => []
  | _ => []

/-- The ping workers after an event. -/
def workers (r : Relay) : Event → Ping.Pool Inbound.Echo
  | .packet buffer _ _ => match Inbound.parse buffer with
    | .ok (.echoRequest e) => (r.pings.submit e).1
    | _ => r.pings
  | .probe i _ => r.pings.complete i
  | .retire => r.pings.retire
  | _ => r.pings

private theorem Stands.besides {after : Relay} (stands : Stands r after id t)
    (scene : after.scene = r.scene ∨ ∃ key, after.scene = r.scene.without key) :
    (after.effectsOf none, after.pings) = (r.effectsOf none, r.pings) := by
  have pings : after.pings = r.pings := by
    obtain same | ⟨key, same⟩ := scene <;> exact congrArg (·.pings) same
  rw [stands.effectsOf_other (by simp), pings]

private theorem Listed.service_besides (h : Listed r) (known : r.history id = some t)
    (opened : t.session.socket.isSome = true) :
    ((r.service id).effectsOf none, (r.service id).pings) = (r.effectsOf none, r.pings) := by
  obtain ⟨stands, scene⟩ := h.service known opened
  refine stands.besides ?_
  split at scene
  · exact .inl scene
  · exact .inr ⟨_, scene⟩

private theorem Listed.evictIdle_besides (h : Listed r) (known : r.history id = some t)
    (opened : t.session.socket.isSome = true) :
    ((r.evictIdle id).effectsOf none, (r.evictIdle id).pings) = (r.effectsOf none, r.pings) := by
  have stands := Stands.refl known
  have found := h.listed id t known opened
  unfold Relay.evictIdle
  rw [stands.session]
  simp only
  split
  · rfl
  · exact (stands.drop found).besides (.inr ⟨_, scene_drop found⟩)

private theorem Consistent.pass_besides (h : Consistent r) (first second : SessionId → Nat) :
    ((r.step (.pass first second)).effectsOf none, (r.step (.pass first second)).pings) =
      (r.effectsOf none, r.pings) := by
  have changes : Changes (fun _ => .nothing) r (r.serviceBy first) := h.serviceBy first
  have later := changes.consistent h
  have served : ((r.serviceBy first).effectsOf none, (r.serviceBy first).pings) =
      (r.effectsOf none, r.pings) := by
    unfold Relay.serviceBy
    rw [h.registered]
    exact h.keeps_byRank (fun r => (r.effectsOf none, r.pings)) visits_service
      (fun r id t h known opened => h.service_besides known opened) first
  have swept := later.keeps_byRank (fun r => (r.effectsOf none, r.pings)) visits_evictIdle
    (fun r id t h known opened => h.evictIdle_besides known opened) second
  exact swept.trans served

private theorem effectsOf_none_asking (r : Relay) (packet : Inbound) (effects : List Effect) :
    (r.asking packet effects).effectsOf none = effects ++ r.effectsOf none := by
  unfold asking asides
  rw [effectsOf_emits, Function.update_self]
  rfl

private theorem Consistent.handle_besides (h : Consistent r) {packet : Inbound} {key : Key}
    (own : packet.key? = some key) (isn : UInt32) (prospect : Socket.Prospect) :
    (r.handle packet isn prospect).effectsOf none =
      (match r.lookup key with
        | none => (r.settings.admission r.now r.socketCount packet isn prospect).aside
        | some _ => []) ++ r.effectsOf none ∧
      (r.handle packet isn prospect).pings = r.pings := by
  cases found : r.lookup key with
  | some id =>
    obtain ⟨t, known, rfl, opened⟩ := h.found key id found
    obtain ⟨stands, scene⟩ := h.handle_found known opened own isn prospect
    have besides := stands.besides (by
      split at scene
      · exact .inl scene
      · exact .inr ⟨_, scene⟩)
    exact ⟨congrArg (·.1) besides, congrArg (·.2) besides⟩
  | none =>
    have received := h.handle_fresh own found isn prospect
    have pings : ∀ effects, (r.asking packet effects).pings = r.pings := fun effects =>
      congrArg (·.pings) (r.scene_asking packet effects)
    unfold Receives at received
    split at received
    · rw [received, pings]
      exact ⟨effectsOf_none_asking r packet _, rfl⟩
    · refine ⟨?_, (congrArg (·.pings) received.scene).trans (pings _)⟩
      have effects : (r.handle packet isn prospect).effectsOf =
          Function.update (r.asking packet _).effectsOf (some (r.asking packet _).sessions.length) _ :=
        congrArg (·.effects) received.histories
      rw [effects, Function.update_of_ne (by simp)]
      exact effectsOf_none_asking r packet _

private theorem finishProbe_besides (r : Relay) (i : Nat) (reachable : Bool) :
    (r.finishProbe i reachable).effectsOf none =
      r.besides (.probe i reachable) ++ r.effectsOf none ∧
      (r.finishProbe i reachable).pings = r.pings.complete i := by
  have emitted : ∀ (r : Relay) (effect : Effect),
      (r.emit none effect).effectsOf none = effect :: r.effectsOf none := fun r effect => by
    rw [effectsOf_emit, Function.update_self]
  simp only [finishProbe, besides]
  cases busy : r.pings.busy[i]? with
  | none =>
    have same : r.pings.complete i = r.pings := by
      unfold Ping.Pool.complete
      rw [if_neg (Nat.not_lt.2 (List.getElem?_eq_none_iff.1 busy))]
    exact ⟨rfl, same.symm⟩
  | some job =>
    cases reachable with
    | false => exact ⟨emitted _ _, rfl⟩
    | true =>
      simp only [if_true, Inbound.Echo.answer]
      cases job.reply with
      | ok draft => exact ⟨(emitted _ _).trans (congrArg _ (emitted _ _)), rfl⟩
      | error e => exact ⟨emitted _ _, rfl⟩

/-- All that an event does besides the sessions. -/
theorem Consistent.step_besides (h : Consistent r) (e : Event) :
    (r.step e).effectsOf none = r.besides e ++ r.effectsOf none ∧
      (r.step e).pings = r.workers e := by
  cases e with
  | packet buffer isn prospect =>
    cases parsed : Inbound.parse buffer with
    | error e =>
      rw [r.step_refused parsed]
      simp only [besides, workers, parsed, List.nil_append, and_self]
    | ok packet =>
      rw [r.step_packet parsed]
      simp only [besides, workers, parsed]
      cases packet with
      | segment s =>
        have own : (Inbound.segment s).key? = some s.key := rfl
        exact h.handle_besides own isn prospect
      | datagram d =>
        have own : (Inbound.datagram d).key? = some d.key := rfl
        exact h.handle_besides own isn prospect
      | echoRequest e => exact ⟨rfl, rfl⟩
      | ignored => exact ⟨rfl, rfl⟩
  | pass first second =>
    have kept := h.pass_besides first second
    exact ⟨congrArg (·.1) kept, congrArg (·.2) kept⟩
  | probe i reachable => exact r.finishProbe_besides i reachable
  | time | retire | network => exact ⟨rfl, rfl⟩

end Relay
end PacketRelay
