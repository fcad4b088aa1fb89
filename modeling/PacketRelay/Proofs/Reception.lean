import PacketRelay.Proofs.Consistency

/-!
What a packet does to the flow that it belongs to.

A packet of a flow with an open session is handled by that session: `Turn.handle` says how, and
nothing else changes. A packet of another flow is answered or dropped at once, or it opens a
session: `Settings.admission` says which. Neither looks at anything but the flow itself, the
settings and the clock.
-/

set_option autoImplicit false

namespace PacketRelay

open Session (Key Turn State Verdict Classifier)
open Relation (ReflTransGen)

/-- The flow of a packet, if its protocol has flows. -/
def Inbound.key? : Inbound → Option Key
  | segment s => some s.key
  | datagram d => some d.key
  | _ => none

theorem Inbound.exists_segment {packet : Inbound} {key : Key} (own : packet.key? = some key)
    (stream : key.protocol = .tcp) : ∃ s, packet = .segment s ∧ s.key = key := by
  cases packet with
  | segment s => exact ⟨s, rfl, Option.some.inj own⟩
  | datagram d =>
    obtain rfl : d.key = key := Option.some.inj own
    cases stream
  | echoRequest | ignored => cases own

theorem Inbound.exists_datagram {packet : Inbound} {key : Key} (own : packet.key? = some key)
    (datagrams : key.protocol = .udp) : ∃ d, packet = .datagram d ∧ d.key = key := by
  cases packet with
  | segment s =>
    obtain rfl : s.key = key := Option.some.inj own
    cases datagrams
  | datagram d => exact ⟨d, rfl, Option.some.inj own⟩
  | echoRequest | ignored => cases own

/-- A packet that came out of the tunnel. -/
def Inbound.Read (packet : Inbound) : Prop := ∃ buffer, Inbound.parse buffer = .ok packet

/-- Whether a packet opens a session if its flow has none. -/
def Inbound.opens : Inbound → Bool
  | segment s => s.tcp.isSyn
  | datagram _ => true
  | _ => false

namespace Session.Turn

/-- The watcher of the sockets is asked for a flush, if one is due. -/
def tell (t : Turn) (refresh : Bool) : Turn :=
  if refresh then t.emit (.refresh t.session.key) else t

/-- Once it has handled a segment with ACK, a session is finished, or it has shown life, unless it
is to be aborted. -/
def conclude (t : Turn) (now : Nat) : Verdict → Turn
  | .close => t.finish.shut
  | .stay refresh => if t.state.aborting then t.tell refresh else (t.tell refresh).touch now

def hear (t : Turn) (s : Inbound.Segment) (classifier : Classifier) (now : Nat) : Turn :=
  (t.receiveAck s classifier now).1.conclude now (t.receiveAck s classifier now).2

/-- What a packet of its flow does to an open session. -/
def handle (t : Turn) (classifier : Classifier) (now : Nat) : Inbound → Turn
  | .segment s =>
    if s.tcp.isSyn then t.resendAck
    else if s.tcp.isAck then t.hear s classifier now
    else if s.tcp.isFin then t.touch now
    else if s.tcp.isRst then t.update fun st => { st with aborting := true }
    else t
  | .datagram d => ((t.takeDatagram d false classifier).emit (.refresh d.key)).touch now
  | _ => t

theorem handle_hear (t : Turn) {s : Inbound.Segment} (notSyn : s.tcp.isSyn = false)
    (isAck : s.tcp.isAck = true) {classifier : Classifier} {now : Nat} :
    t.handle classifier now (.segment s) = t.hear s classifier now := by
  unfold handle
  simp only [notSyn, isAck, Bool.false_eq_true, if_false, if_true]

/-- The session that a datagram opens. -/
def started (settings : Relay.Settings) (d : Inbound.Datagram) (prospect : Socket.Prospect)
    (number now : Nat) : Turn :=
  let session :=
    Relay.newSession d.key (prospect.begun number false true) true d.ip.totalLength now
  ((((Turn.mk session [.flowCreated session.state.flow]).takeDatagram d true
    settings.egressClassifier).emit (.register d.key)).emit (.refresh d.key)).touch now

theorem key_started (settings : Relay.Settings) (d : Inbound.Datagram) (prospect : Socket.Prospect)
    (number now : Nat) : (started settings d prospect number now).session.key = d.key :=
  key_takeDatagram d true settings.egressClassifier

theorem socket_shut {t : Turn} : t.shut.session.socket = none := by
  unfold Turn.shut
  split
  · rfl
  · assumption

section Past

variable (t : Turn) (past : List Effect) (now : Nat) (classifier : Classifier)

@[simp] theorem on_shut : (t.on past).shut = t.shut.on past := by
  unfold shut
  rw [on_session]
  split <;> rfl

@[simp] theorem on_conclude (verdict : Verdict) :
    (t.on past).conclude now verdict = (t.conclude now verdict).on past := by
  cases verdict with
  | close => simp [conclude]
  | stay refresh =>
    have told : (t.on past).tell refresh = (t.tell refresh).on past := by
      cases refresh <;> rfl
    simp only [conclude, told, on_state]
    exact on_ite past _ (t.tell refresh) ((t.tell refresh).touch now)

@[simp] theorem on_hear (s : Inbound.Segment) :
    (t.on past).hear s classifier now = (t.hear s classifier now).on past := by
  simp only [hear, on_receiveAck, on_conclude]

@[simp] theorem on_handle (packet : Inbound) :
    (t.on past).handle classifier now packet = (t.handle classifier now packet).on past := by
  cases packet with
  | segment s =>
    simp only [handle, on_resendAck, on_hear]
    split
    · rfl
    · split
      · rfl
      · split
        · rfl
        · split <;> rfl
  | datagram d =>
    simp only [handle, on_takeDatagram, on_emit]
    rfl
  | echoRequest | ignored => rfl

theorem hear_start (s : Inbound.Segment) : t.hear s classifier now =
    ((start t.session).hear s classifier now).on t.effects := by
  rw [← on_hear, on_start]

theorem handle_start (packet : Inbound) : t.handle classifier now packet =
    ((start t.session).handle classifier now packet).on t.effects := by
  rw [← on_handle, on_start]

end Past

section Chains

variable {settings : Relay.Settings} {outside : Outside} {t : Turn}

theorem session_tell (t : Turn) (refresh : Bool) : (t.tell refresh).session = t.session := by
  cases refresh <;> rfl

private theorem conclude_moves (opened : t.session.socket.isSome = true) (now : Nat)
    (verdict : Verdict) : Moves settings outside t (t.conclude now verdict) := by
  cases verdict with
  | close => exact finish_moves opened
  | stay refresh =>
    have told : Moves settings outside t (t.tell refresh) := by
      cases refresh with
      | false => exact .refl
      | true => exact .single (.refresh t)
    simp only [conclude]
    split
    · exact told
    · exact told.tail (.touch _ now)

theorem socket_conclude (now : Nat) (refresh : Bool) :
    (t.conclude now (.stay refresh)).session.socket = t.session.socket := by
  have same := congrArg Session.socket (t.session_tell refresh)
  simp only [conclude]
  split
  · exact same
  · exact same

theorem hear_moves (opened : t.session.socket.isSome = true) (s : Inbound.Segment)
    (classifier : Classifier) (now : Nat) :
    Moves settings outside (t.receiveAck s classifier now).1 (t.hear s classifier now) :=
  conclude_moves (by rw [socket_receiveAck]; exact opened) now _

theorem handle_moves {packet : Inbound} (read : packet.Read)
    (own : packet.key? = some t.session.key) (opened : t.session.socket.isSome = true)
    (brought : ∀ s, packet = .segment s → outside.brings s) (now : Nat) :
    Moves settings outside t (t.handle settings.egressClassifier now packet) := by
  cases packet with
  | segment s =>
    have own : s.key = t.session.key := Option.some.inj own
    have stream : t.session.key.protocol = .tcp := by rw [← own]; rfl
    simp only [handle]
    split
    · exact .single (.resendAck t stream)
    · split
      case isTrue isSyn isAck =>
        have hears : t.Hears outside s := ⟨read, brought s rfl, own, isAck, by simpa using isSyn⟩
        exact (receiveAck_moves hears now).trans (hear_moves opened s _ now)
      case isFalse =>
        split
        · exact .single (.touch t now)
        · split
          · exact .single (.abandon t stream)
          · exact .refl
  | datagram d =>
    have own : d.key = t.session.key := Option.some.inj own
    have key := t.key_takeDatagram d false settings.egressClassifier
    have taken : Moves settings outside t (t.takeDatagram d false settings.egressClassifier) :=
      .single (.takeDatagram t d read own)
    have told := taken.tail (.refresh _)
    rw [key, ← own] at told
    exact told.tail (.touch _ now)
  | echoRequest | ignored => exact .refl

end Chains

end Session.Turn

namespace Relay

variable {outside : SessionId → Outside} {r after : Relay} {id : SessionId} {t u : Turn} {key : Key}

def resetStream (r : Relay) (id : SessionId) (key : Key) : Relay :=
  match key.protocol with
  | .tcp => r.turn id (·.resetPeer)
  | .udp => r

theorem abort_eq : r.abort id key = (r.resetStream id key).drop id key := rfl

theorem scene_resetStream : (r.resetStream id key).scene = r.scene := by
  unfold resetStream
  split
  · exact r.scene_turn id _
  · rfl

theorem scene_drop (found : r.lookup key = some id) :
    (r.drop id key).scene = r.scene.without key := by
  unfold drop
  rw [scene_close _ key id]
  · rw [scene_turn]
    rfl
  · refine (lookup_scene ?_ key).trans found
    rw [scene_turn]
    rfl

theorem scene_abort (found : r.lookup key = some id) :
    (r.abort id key).scene = r.scene.without key := by
  rw [abort_eq, scene_drop, scene_resetStream]
  refine (lookup_scene ?_ key).trans found
  rw [scene_resetStream]
  rfl

namespace Stands

private theorem register (stands : Stands r after id t) : Stands r (after.register id) id t := by
  unfold Relay.register
  rw [stands.session]
  exact ⟨stands.within, stands.histories, stands.grows⟩

private theorem scene_register (stands : Stands r after id t) : (after.register id).scene =
    { after.scene with registered := after.scene.registered.insert t.session.key id } := by
  unfold Relay.register
  rw [stands.session]
  rfl

private theorem announce (stands : Stands r after id t) (key : Key) :
    Stands r (after.announce id key) id (t.emit (.register key)) :=
  (stands.emit (.register key)).register

private theorem scene_announce (stands : Stands r after id t) (key : Key) :
    (after.announce id key).scene =
    { after.scene with registered := after.scene.registered.insert t.session.key id } :=
  (stands.emit (.register key)).scene_register

theorem cancel (stands : Stands r after id t) (key : Key) : Stands r (after.cancel key) id t :=
  ⟨stands.within, stands.histories, stands.grows⟩

theorem drop (stands : Stands r after id t) (found : after.lookup key = some id) :
    Stands r (after.drop id key) id t.report.shut := by
  have reported := (stands.cancel key).turn fun u past => u.on_report past
  refine reported.close ((lookup_scene ?_ key).trans found)
  rw [scene_turn]
  rfl

theorem resetStream (stands : Stands r after id t) :
    Stands r (after.resetStream id t.session.key) id t.resetStream := by
  unfold Relay.resetStream Turn.resetStream
  cases t.session.key.protocol with
  | tcp => exact stands.turn fun u past => u.on_resetPeer past
  | udp => exact stands

theorem abort (stands : Stands r after id t) (found : after.lookup t.session.key = some id) :
    Stands r (after.abort id t.session.key) id t.abort := by
  rw [abort_eq]
  refine stands.resetStream.drop ((lookup_scene ?_ _).trans found)
  rw [scene_resetStream]
  rfl

private theorem finish (stands : Stands r after id t) (found : after.lookup key = some id) :
    Stands r (after.finish id key) id t.finish.shut := by
  have finished := stands.turn fun u past => u.on_finish past
  refine (finished.cancel key).close ((lookup_scene ?_ key).trans found)
  rw [scene_cancel, scene_turn]
  rfl

end Stands

private theorem scene_finish (found : r.lookup key = some id) :
    (r.finish id key).scene = r.scene.without key := by
  unfold finish
  rw [scene_close _ key id]
  · rw [scene_cancel, scene_turn]
    rfl
  · refine (lookup_scene ?_ key).trans found
    rw [scene_cancel, scene_turn]
    rfl

theorem openSession_found (found : r.lookup key = some id) (length : Nat)
    (prospect : Socket.Prospect) :
    r.openSession key length prospect = (r, .ok (.existing id)) := by
  simp only [openSession, found]

section Found

private theorem Stands.tell {after : Relay} {key : Key} (stands : Stands r after id t)
    (own : t.session.key = key) (refresh : Bool) :
    let told := if refresh then after.emit (some id) (.refresh key) else after
    Stands r told id (t.tell refresh) ∧ told.scene = after.scene := by
  cases refresh with
  | false => exact ⟨stands, rfl⟩
  | true => exact ⟨own ▸ stands.emit (.refresh t.session.key), rfl⟩

theorem Listed.hear (h : Listed r) {s : Inbound.Segment} (known : r.history id = some t)
    (opened : t.session.socket.isSome = true) (own : t.session.key = s.key) :
    Stands r (r.handleAck s) id (t.hear s r.settings.egressClassifier r.now) ∧
      (r.handleAck s).scene =
        if (t.hear s r.settings.egressClassifier r.now).session.socket.isSome then r.scene
        else r.scene.without s.key := by
  have found : r.lookup s.key = some id := own ▸ h.listed id t known opened
  have stands := Stands.refl known
  have socket := t.socket_receiveAck s r.settings.egressClassifier r.now
  have same := t.key_receiveAck s r.settings.egressClassifier r.now
  -- The handler starts a turn of its own; on top of the history it is the turn of `hear`.
  have on := (Turn.start t.session).on_receiveAck t.effects r.now s r.settings.egressClassifier
  rw [Turn.on_start] at on
  unfold Turn.hear
  rw [on] at socket same ⊢
  unfold Relay.handleAck
  simp only [found, stands.session]
  generalize (Turn.start t.session).receiveAck s r.settings.egressClassifier r.now = result
    at socket same ⊢
  obtain ⟨v, verdict⟩ := result
  simp only at socket same ⊢
  have committed := stands.commit v
  have scene := r.scene_commit id v
  have current : ∀ after : Relay, after.scene = r.scene → after.lookup s.key = some id :=
    fun after same => (lookup_scene (congrArg (·.table) same) _).trans found
  have same : (v.on t.effects).session.key = s.key := same.trans own
  cases verdict with
  | close =>
    refine ⟨committed.finish (current _ scene), ?_⟩
    rw [scene_finish (current _ scene), scene]
    simp only [Turn.conclude, Turn.socket_shut]
    rfl
  | stay refresh =>
    have open_still : ((v.on t.effects).conclude r.now (.stay refresh)).session.socket.isSome =
        true := by
      rw [Turn.socket_conclude, socket, opened]
    rw [if_pos open_still]
    obtain ⟨told, still⟩ := committed.tell same refresh
    have scene := still.trans scene
    have session := (v.on t.effects).session_tell refresh
    simp only [Turn.conclude, Turn.on_state]
    generalize (if refresh then (r.commit id v).emit (some id) (.refresh s.key)
      else r.commit id v) = after at told scene
    by_cases aborting : v.state.aborting = true
    · simp only [aborting, if_true]
      exact ⟨told, scene⟩
    · simp only [aborting]
      have now : after.now = r.now := congrArg (·.now) scene
      have alive := told.keepAlive (by rw [session, same]; exact current after scene)
      rw [now] at alive
      exact ⟨alive, (scene_keepAlive after id).trans scene⟩

private theorem Listed.handleSegment_found (h : Listed r) {s : Inbound.Segment}
    (known : r.history id = some t) (opened : t.session.socket.isSome = true)
    (own : t.session.key = s.key) (isn : UInt32) (prospect : Socket.Prospect) :
    Stands r (r.handleSegment s isn prospect) id
        (t.handle r.settings.egressClassifier r.now (.segment s)) ∧
      (r.handleSegment s isn prospect).scene =
        if (t.handle r.settings.egressClassifier r.now (.segment s)).session.socket.isSome then
          r.scene
        else r.scene.without s.key := by
  have stands := Stands.refl known
  have found : r.lookup s.key = some id := own ▸ h.listed id t known opened
  simp only [handleSegment, Turn.handle]
  split
  case isTrue =>
    have socket : t.resendAck.session.socket.isSome = true := by
      unfold Turn.resendAck
      split <;> exact opened
    simp only [handleSyn, openSession_found found]
    rw [if_pos socket]
    exact ⟨stands.turn fun u past => u.on_resendAck past, r.scene_turn id _⟩
  case isFalse =>
    split
    case isTrue => exact h.hear known opened own
    case isFalse =>
      split
      case isTrue =>
        have touched : (t.touch r.now).session.socket.isSome = true := opened
        simp only [handleFin, found]
        rw [if_pos touched]
        exact ⟨stands.keepAlive (own ▸ found), r.scene_keepAlive id⟩
      case isFalse =>
        split
        case isTrue =>
          have marked : (t.update fun st =>
              { st with aborting := true }).session.socket.isSome = true := opened
          simp only [handleRst, found]
          rw [if_pos marked]
          exact ⟨stands.modify _, rfl⟩
        case isFalse => exact ⟨stands, rfl⟩

private theorem Listed.handleDatagram_found (h : Listed r) {d : Inbound.Datagram}
    (known : r.history id = some t) (opened : t.session.socket.isSome = true)
    (own : t.session.key = d.key) (prospect : Socket.Prospect) :
    Stands r (r.handleDatagram d prospect) id
        (t.handle r.settings.egressClassifier r.now (.datagram d)) ∧
      (r.handleDatagram d prospect).scene = r.scene ∧
      (t.handle r.settings.egressClassifier r.now (.datagram d)).session.socket.isSome = true := by
  have stands := Stands.refl known
  have found : r.lookup d.key = some id := own ▸ h.listed id t known opened
  have taken := stands.turn (f := (·.takeDatagram d false r.settings.egressClassifier))
    fun u past => u.on_takeDatagram past d false _
  have key : (t.takeDatagram d false r.settings.egressClassifier).session.key = d.key := by
    rw [Turn.key_takeDatagram, own]
  have scene := r.scene_turn id (·.takeDatagram d false r.settings.egressClassifier)
  have alive := (taken.emit (.refresh d.key)).keepAlive
    ((lookup_scene (congrArg (·.table) scene) _).trans (key ▸ found))
  have now : (r.turn id (·.takeDatagram d false r.settings.egressClassifier)).now = r.now :=
    congrArg (·.now) scene
  simp only [handleDatagram, openSession_found found, Turn.handle]
  refine ⟨now ▸ alive, ?_, ?_⟩
  · rw [scene_keepAlive]
    exact scene
  · show (t.takeDatagram d false _).session.socket.isSome = true
    rw [Turn.socket_takeDatagram, opened]

/-- A packet of a flow with an open session is handled by that session, and nothing else changes. -/
theorem Listed.handle_found (h : Listed r) {packet : Inbound} (known : r.history id = some t)
    (opened : t.session.socket.isSome = true) (own : packet.key? = some t.session.key)
    (isn : UInt32) (prospect : Socket.Prospect) :
    Stands r (r.handle packet isn prospect) id
        (t.handle r.settings.egressClassifier r.now packet) ∧
      (r.handle packet isn prospect).scene =
        if (t.handle r.settings.egressClassifier r.now packet).session.socket.isSome then r.scene
        else r.scene.without t.session.key := by
  cases packet with
  | segment s =>
    have own : t.session.key = s.key := (Option.some.inj own).symm
    rw [own]
    exact h.handleSegment_found known opened own isn prospect
  | datagram d =>
    have own : t.session.key = d.key := (Option.some.inj own).symm
    obtain ⟨stands, scene, socket⟩ := h.handleDatagram_found known opened own prospect
    rw [if_pos socket]
    exact ⟨stands, scene⟩
  | echoRequest | ignored => cases own

end Found

section Fresh

/-- What a packet of a flow without a session comes to: the session that it opens, if it opens one,
and what is done for no session, latest first. -/
structure Admission where
  opened : Option Turn
  aside : List Effect

/-- What opening the socket of a flow meets. -/
def Settings.opening (settings : Settings) (number : Nat) (key : Key) (prospect : Socket.Prospect) :
    Socket.Opening :=
  match key.protocol with
  | .tcp => prospect.openStream number (settings.target key) settings.receiveBuffer
  | .udp => prospect.openDatagram number (settings.target key)

/-- The call to connect, if opening a socket came so far. -/
def attempted (opening : Socket.Opening) : List Effect := opening.attempt.toList.map .connect

/-- The answer to a segment with ACK of no session. -/
def orphanAnswer (s : Inbound.Segment) : List Effect :=
  if s.tcp.isFin then [.write .acknowledgment (.ack s.ip s.tcp (s.tcp.seq + 1) none)]
  else if s.tcp.isRst then []
  else [.write .reset (.reset s.ip s.tcp s.payload.length)]

def Settings.admitSyn (settings : Settings) (now number : Nat) (s : Inbound.Segment) (isn : UInt32)
    (prospect : Socket.Prospect) : Admission :=
  let opening := settings.opening number s.key prospect
  match opening.result with
  | .error _ => ⟨none, .write .reset (.reset s.ip s.tcp 0) :: attempted opening⟩
  | .ok (_, connected) =>
    ⟨some (.begun settings s isn prospect number connected now), attempted opening⟩

def Settings.admitDatagram (settings : Settings) (now number : Nat) (d : Inbound.Datagram)
    (prospect : Socket.Prospect) : Admission :=
  let opening := settings.opening number d.key prospect
  match opening.result with
  | .error _ => ⟨none, attempted opening⟩
  | .ok _ => ⟨some (.started settings d prospect number now), attempted opening⟩

def Settings.admission (settings : Settings) (now number : Nat) (packet : Inbound) (isn : UInt32)
    (prospect : Socket.Prospect) : Admission :=
  match packet with
  | .segment s =>
    if s.tcp.isSyn then settings.admitSyn now number s isn prospect
    else if s.tcp.isAck then ⟨none, orphanAnswer s⟩
    else if s.tcp.isFin then
      ⟨none, [.write .finAnswer (.finAck s.ip s.tcp s.tcp.ack (s.tcp.seq + 1))]⟩
    else ⟨none, []⟩
  | .datagram d => settings.admitDatagram now number d prospect
  | _ => ⟨none, []⟩

theorem key_admission {settings : Settings} {now number : Nat} {packet : Inbound} {isn : UInt32}
    {prospect : Socket.Prospect} (own : packet.key? = some key)
    (admitted : (settings.admission now number packet isn prospect).opened = some t) :
    t.session.key = key := by
  cases packet with
  | segment s =>
    obtain rfl : s.key = key := Option.some.inj own
    simp only [Settings.admission] at admitted
    split at admitted
    · simp only [Settings.admitSyn] at admitted
      split at admitted
      · cases admitted
      · obtain rfl := Option.some.inj admitted
        rfl
    · split at admitted
      · cases admitted
      · split at admitted <;> cases admitted
  | datagram d =>
    obtain rfl : d.key = key := Option.some.inj own
    simp only [Settings.admission, Settings.admitDatagram] at admitted
    split at admitted
    · cases admitted
    · obtain rfl := Option.some.inj admitted
      exact Turn.key_started settings d prospect number now
  | echoRequest | ignored => cases own

def asides (r : Relay) (effects : List Effect) : Relay :=
  effects.foldr (fun effect r => r.emit none effect) r

/-- A relay that has asked for the socket that a packet needs, and has done what else is done for no
session. -/
def asking (r : Relay) (packet : Inbound) (effects : List Effect) : Relay :=
  ({ r with socketCount := r.socketCount + packet.opens.toNat }).asides effects

@[simp] theorem scene_asides (effects : List Effect) : (r.asides effects).scene = r.scene := by
  obtain ⟨_, _, eq⟩ := r.emits_frame none effects
  rw [asides, eq]
  rfl

@[simp] theorem sessions_asides (effects : List Effect) :
    (r.asides effects).sessions = r.sessions := by
  obtain ⟨_, _, eq⟩ := r.emits_frame none effects
  rw [asides, eq]

theorem effectsOf_asides (effects : List Effect) (id : SessionId) :
    (r.asides effects).effectsOf (some id) = r.effectsOf (some id) := by
  simp [asides, effectsOf_emits]

@[simp] theorem scene_asking (packet : Inbound) (effects : List Effect) :
    (r.asking packet effects).scene = r.scene := scene_asides effects

@[simp] theorem sessions_asking (packet : Inbound) (effects : List Effect) :
    (r.asking packet effects).sessions = r.sessions := sessions_asides effects

/-- A new session is entered into the table. -/
def enter (r : Relay) (session : Session) : Relay :=
  ({ r with
    sessions := r.sessions ++ [session]
    table := r.table.insert session.key r.sessions.length }).emit
      (some r.sessions.length) (.flowCreated session.state.flow)

theorem openSession_fresh (fresh : r.lookup key = none) {packet : Inbound}
    (opens : packet.opens = true) (length : Nat) (prospect : Socket.Prospect) :
    let opening := r.settings.opening r.socketCount key prospect
    let ready := r.asking packet (attempted opening)
    r.openSession key length prospect =
      match opening.result with
      | .error e => (ready, .error e)
      | .ok (socket, connected) =>
        (ready.enter (newSession key socket connected length r.now), .ok (.new r.sessions.length)) := by
  intro opening ready
  have same : r.openSocket key prospect = opening := rfl
  simp only [openSession, fresh, same]
  simp only [ready, asking, opens, attempted]
  rcases opening with ⟨_ | attempt, e | ⟨socket, connected⟩⟩ <;> rfl

private theorem openStream_result (prospect : Socket.Prospect) (number : Nat)
    (target : Socket.Target) (receiveBuffer : Nat) {socket : Socket} {connected : Bool}
    (result : (prospect.openStream number target receiveBuffer).result = .ok (socket, connected)) :
    socket = prospect.begun number true connected := by
  unfold Socket.Prospect.openStream at result
  split at result
  · cases result
  · simp only at result
    split at result <;> cases result <;> rfl

theorem openDatagram_result (prospect : Socket.Prospect) (number : Nat) (target : Socket.Target)
    {socket : Socket} {connected : Bool}
    (result : (prospect.openDatagram number target).result = .ok (socket, connected)) :
    socket = prospect.begun number false true ∧ connected = true := by
  unfold Socket.Prospect.openDatagram at result
  simp only at result
  split at result
  · cases result
  · simp only at result
    split at result <;> cases result
    exact ⟨rfl, rfl⟩

private theorem Stands.added (stands : Stands r after id u) {before : Relay}
    (added : r.histories = before.histories.add t) (new : id = before.sessions.length) :
    after.histories = before.histories.add u := by
  subst new
  rw [stands.histories, added]
  exact Histories.add_put

/-- A relay in which a new session stands, compared with the relay in which its socket was there. -/
structure Admits (ready after : Relay) (t : Turn) : Prop where
  histories : after.histories = ready.histories.add t
  grows : ready.journal <:+ after.journal
  scene : after.scene = ready.scene.having t.session.key ready.sessions.length

/-- What a packet of a flow without a session comes to. -/
def Receives (r : Relay) (packet : Inbound) (admission : Admission) (after : Relay) : Prop :=
  match admission.opened with
  | none => after = r.asking packet admission.aside
  | some t => Admits (r.asking packet admission.aside) after t

variable {ready : Relay} {session : Session}

private theorem histories_enter (unborn : ready.effectsOf (some ready.sessions.length) = []) :
    (ready.enter session).histories =
      ready.histories.add ⟨session, [.flowCreated session.state.flow]⟩ := by
  unfold Relay.histories enter
  rw [effectsOf_emit]
  have same : ({ ready with
      sessions := ready.sessions ++ [session]
      table := ready.table.insert session.key ready.sessions.length } : Relay).effectsOf =
      ready.effectsOf := rfl
  rw [same, unborn]
  rfl

private theorem stands_enter (unborn : ready.effectsOf (some ready.sessions.length) = []) :
    Stands (ready.enter session) (ready.enter session) ready.sessions.length
      ⟨session, [.flowCreated session.state.flow]⟩ :=
  .refl (history_add (histories_enter unborn))

private theorem Stands.admits (unborn : ready.effectsOf (some ready.sessions.length) = [])
    (stands : Stands (ready.enter session) after ready.sessions.length t)
    (scene : after.scene = ready.scene.having t.session.key ready.sessions.length) :
    Admits ready after t where
  histories := stands.added (histories_enter unborn) rfl
  grows := (List.suffix_cons _ _).trans stands.grows
  scene := scene

private theorem admits_begun (unborn : ready.effectsOf (some ready.sessions.length) = [])
    (s : Inbound.Segment) (isn : UInt32) (prospect : Socket.Prospect) (number : Nat)
    (connected : Bool) :
    let id := ready.sessions.length
    let entered := ready.enter (newSession s.key (prospect.begun number true connected) connected
      s.ip.totalLength ready.now)
    let begun := entered.modify id fun session =>
      session.update fun state => state.begin s isn ready.settings.mssLimit ready.now
    Admits ready
      ((begun.announce id s.key).emit (some id)
        (.write .handshake (.synAck s.ip s.tcp isn (State.clock ready.now))))
      (.begun ready.settings s isn prospect number connected ready.now) := by
  intro id entered begun
  have new : Stands entered entered id _ := stands_enter unborn
  have stands := new.modify fun session =>
    session.update fun state => state.begin s isn ready.settings.mssLimit ready.now
  refine Stands.admits unborn ((stands.announce s.key).emit _) ?_
  rw [scene_emit, stands.scene_announce s.key]
  rfl

private theorem admits_started (unborn : ready.effectsOf (some ready.sessions.length) = [])
    (d : Inbound.Datagram) (prospect : Socket.Prospect) (number : Nat) :
    let id := ready.sessions.length
    let entered := ready.enter (newSession d.key (prospect.begun number false true) true
      d.ip.totalLength ready.now)
    let told := (entered.turn id (·.takeDatagram d true ready.settings.egressClassifier)).announce
      id d.key
    Admits ready ((told.emit (some id) (.refresh d.key)).keepAlive id)
      (.started ready.settings d prospect number ready.now) := by
  intro id entered told
  have new : Stands entered entered id _ := stands_enter unborn
  have taken := new.turn
    (f := (·.takeDatagram d true ready.settings.egressClassifier))
    fun u past => u.on_takeDatagram past d true _
  have key : (Turn.takeDatagram _ d true ready.settings.egressClassifier).session.key = d.key :=
    Turn.key_started ready.settings d prospect number ready.now
  have scene : told.scene = ready.scene.having d.key id := by
    have announced := taken.scene_announce d.key
    rw [scene_turn, key] at announced
    exact announced
  have listed : (ready.scene.having d.key id).table.find? d.key = some id :=
    (Table.find?_insert ready.table d.key d.key id).trans (if_pos rfl)
  have current : told.lookup d.key = some id :=
    (lookup_scene (congrArg (·.table) scene) _).trans listed
  have alive := ((taken.announce d.key).emit (.refresh d.key)).keepAlive (key.symm ▸ current)
  have now : (told.emit (some id) (.refresh d.key)).now = ready.now := congrArg (·.now) scene
  rw [now] at alive
  exact Stands.admits unborn alive
    ((scene_keepAlive _ _).trans (scene.trans (congrArg (ready.scene.having · id) key.symm)))

theorem Listed.readied (h : Listed r) (packet : Inbound) (effects : List Effect) :
    ∃ ready, r.asking packet effects = ready ∧ ready.settings = r.settings ∧ ready.now = r.now ∧
      ready.sessions.length = r.sessions.length ∧
      ready.effectsOf (some ready.sessions.length) = [] := by
  have scene := r.scene_asking packet effects
  have sessions := r.sessions_asking packet effects
  refine ⟨_, rfl, congrArg (·.settings) scene, congrArg (·.now) scene, congrArg List.length sessions,
    ?_⟩
  rw [sessions, asking, effectsOf_asides]
  exact h.unborn r.sessions.length (Nat.le_refl _)

private theorem Listed.handleSyn_fresh (h : Listed r) {s : Inbound.Segment}
    (isSyn : s.tcp.isSyn = true) (fresh : r.lookup s.key = none) (isn : UInt32)
    (prospect : Socket.Prospect) :
    r.Receives (.segment s) (r.settings.admitSyn r.now r.socketCount s isn prospect)
      (r.handleSyn s isn prospect) := by
  have opens : (Inbound.segment s).opens = true := isSyn
  simp only [Settings.admitSyn, handleSyn, openSession_fresh fresh opens]
  cases result : (r.settings.opening r.socketCount s.key prospect).result with
  | error e => rfl
  | ok opened =>
    obtain ⟨socket, connected⟩ := opened
    obtain rfl := openStream_result prospect _ _ _ result
    obtain ⟨ready, made, settings, now, length, unborn⟩ := h.readied (.segment s)
      (attempted (r.settings.opening r.socketCount s.key prospect))
    have settled : ∀ session, (ready.enter session).settings = r.settings := fun _ => settings
    have unhurried : ∀ session, (ready.enter session).now = r.now := fun _ => now
    have later : ∀ session id f, ((ready.enter session).modify id f).now = r.now :=
      fun _ _ _ => now
    have admits := admits_begun unborn s isn prospect r.socketCount connected
    simp only [settings, now, length] at admits
    simp only [made, settled, unhurried, later]
    show Admits (r.asking _ _) _ _
    rw [made]
    exact admits

theorem Listed.handleDatagram_fresh (h : Listed r) {d : Inbound.Datagram}
    (fresh : r.lookup d.key = none) (prospect : Socket.Prospect) :
    r.Receives (.datagram d) (r.settings.admitDatagram r.now r.socketCount d prospect)
      (r.handleDatagram d prospect) := by
  have opens : (Inbound.datagram d).opens = true := rfl
  simp only [Settings.admitDatagram, handleDatagram, openSession_fresh fresh opens]
  cases result : (r.settings.opening r.socketCount d.key prospect).result with
  | error e => rfl
  | ok opened =>
    obtain ⟨socket, connected⟩ := opened
    obtain ⟨rfl, rfl⟩ := openDatagram_result prospect _ _ result
    obtain ⟨ready, made, settings, now, length, unborn⟩ := h.readied (.datagram d)
      (attempted (r.settings.opening r.socketCount d.key prospect))
    have settled : ∀ session, (ready.enter session).settings = r.settings := fun _ => settings
    have admits := admits_started unborn d prospect r.socketCount
    simp only [settings, now, length] at admits
    simp only [made, settled]
    show Admits (r.asking _ _) _ _
    rw [made]
    exact admits

/-- A packet of a flow without a session opens one, or is answered or dropped for no session. -/
theorem Listed.handle_fresh (h : Listed r) {packet : Inbound} (own : packet.key? = some key)
    (fresh : r.lookup key = none) (isn : UInt32) (prospect : Socket.Prospect) :
    r.Receives packet (r.settings.admission r.now r.socketCount packet isn prospect)
      (r.handle packet isn prospect) := by
  cases packet with
  | segment s =>
    obtain rfl : s.key = key := Option.some.inj own
    simp only [Settings.admission, Relay.handle, handleSegment]
    split
    case isTrue isSyn => exact h.handleSyn_fresh isSyn fresh isn prospect
    case isFalse notSyn =>
      -- Nothing but a SYN opens a session, so all that is left is the answer.
      have idle : ∀ effects after, after = r.asides effects →
          r.Receives (.segment s) ⟨none, effects⟩ after := by
        intro effects after same
        have closed : (Inbound.segment s).opens = false := by simpa [Inbound.opens] using notSyn
        simp only [Receives, asking, closed]
        exact same
      split
      case isTrue =>
        refine idle _ _ ?_
        simp only [handleAck, fresh, handleOrphan, orphanAnswer]
        split
        · rfl
        · split <;> rfl
      case isFalse =>
        split
        case isTrue =>
          refine idle _ _ ?_
          simp only [handleFin, fresh]
          rfl
        case isFalse =>
          refine idle _ _ ?_
          simp only [handleRst, fresh]
          split <;> rfl
  | datagram d =>
    obtain rfl : d.key = key := Option.some.inj own
    exact h.handleDatagram_fresh fresh prospect
  | echoRequest | ignored => cases own

theorem Listed.begun_handleSyn (h : Listed r) {s : Inbound.Segment}
    (isSyn : s.tcp.isSyn = true) (isn : UInt32) (prospect : Socket.Prospect)
    (fresh : r.lookup s.key = none) (opened : (r.handleSyn s isn prospect).lookup s.key = some id) :
    ∃ connected, (r.handleSyn s isn prospect).history id =
      some (.begun r.settings s isn prospect r.socketCount connected r.now) := by
  have received := h.handleSyn_fresh isSyn fresh isn prospect
  simp only [Settings.admitSyn] at received
  split at received
  case h_1 =>
    have same : r.handleSyn s isn prospect = r.asking (.segment s) _ := received
    have scene := r.scene_asking (.segment s) (.write .reset (.reset s.ip s.tcp 0) ::
      attempted (r.settings.opening r.socketCount s.key prospect))
    rw [same, lookup_scene (congrArg (·.table) scene)] at opened
    cases fresh.symm.trans opened
  case h_2 socket connected result =>
    have scene := received.scene
    rw [scene_asking, sessions_asking] at scene
    have number : (r.scene.having s.key r.sessions.length).table.find? s.key =
        some r.sessions.length := (Table.find?_insert r.table s.key s.key _).trans (if_pos rfl)
    rw [lookup_scene (congrArg (·.table) scene)] at opened
    obtain rfl : r.sessions.length = id := Option.some.inj (number.symm.trans opened)
    have known := history_add received.histories
    rw [sessions_asking] at known
    exact ⟨connected, known⟩

end Fresh

end Relay
end PacketRelay
