import PacketRelay.Proofs.Unnumbered

/-!
Relays that are alike do the same.

Two relays that differ in numbers of sockets, in identifications of packets and in what they did
before do the same in every run that follows: `Relay.Alike` is kept by every operation of a relay.
-/

set_option autoImplicit false

namespace PacketRelay

open Session (Key Turn State Classifier Direction Outbound Verdict Pass)

namespace Relay

/-- Two relays have done the same since they had done what is past, and are the same, but for
numbers of sockets and identifications of packets. -/
structure Alike (past past' : List Entry) (a b : Relay) : Prop where
  settings : a.settings = b.settings
  now : a.now = b.now
  table : a.table = b.table
  registered : a.registered = b.registered
  pings : a.pings = b.pings
  sessions : a.sessions.map (·.unnumbered) = b.sessions.map (·.unnumbered)
  journal : ∃ new new', a.journal = new ++ past ∧ b.journal = new' ++ past' ∧
    new.map (·.unnumbered) = new'.map (·.unnumbered)

namespace Alike

variable {past past' : List Entry} {a b : Relay} {t t' : Turn} (alike : Alike past past' a b)

include alike

section Looking

private theorem lookup (key : Key) :
    a.lookup key = b.lookup key := congrArg (·.find? key) alike.table

private theorem session_cases (id : SessionId) : a.sessions[id]? = none ∧ b.sessions[id]? = none ∨
    ∃ s s', a.sessions[id]? = some s ∧ b.sessions[id]? = some s' ∧ s.unnumbered = s'.unnumbered := by
  have same : a.sessions[id]?.map (·.unnumbered) = b.sessions[id]?.map (·.unnumbered) := by
    rw [← List.getElem?_map, alike.sessions, List.getElem?_map]
  cases mine : a.sessions[id]? with
  | none =>
    rw [mine] at same
    exact .inl ⟨rfl, Option.map_eq_none_iff.1 same.symm⟩
  | some s =>
    rw [mine] at same
    obtain ⟨s', its, also⟩ := Option.map_eq_some_iff.1 same.symm
    exact .inr ⟨s, s', rfl, its, also.symm⟩

theorem written : ∃ new new', a.written = new ++ past.filterMap (·.packet?) ∧
    b.written = new' ++ past'.filterMap (·.packet?) ∧
    new.map unidentified = new'.map unidentified := by
  obtain ⟨new, new', mine, its, same⟩ := alike.journal
  have apart : ∀ entries : List Entry, (entries.filterMap (·.packet?)).map unidentified =
      (entries.map (·.unnumbered)).filterMap fun entry => entry.packet?.map unidentified := by
    intro entries
    rw [List.map_filterMap, List.filterMap_map]
    exact List.filterMap_congr fun entry _ => entry.packet?_unnumbered.symm
  refine ⟨new.filterMap (·.packet?), new'.filterMap (·.packet?), ?_, ?_, ?_⟩
  · rw [Relay.written, mine, List.filterMap_append]
  · rw [Relay.written, its, List.filterMap_append]
  · rw [apart, apart, same]

private theorem length : a.sessions.length = b.sessions.length := by
  have same := congrArg List.length alike.sessions
  rwa [List.length_map, List.length_map] at same

private theorem isCurrent (id : SessionId) : a.isCurrent id = b.isCurrent id := by
  unfold Relay.isCurrent
  obtain ⟨mine, its⟩ | ⟨s, s', mine, its, same⟩ := alike.session_cases id
  · rw [mine, its]
  · have key : s.key = s'.key := congrArg (·.key) same
    simp only [mine, its, key, alike.lookup]

end Looking

section Operations

private theorem emit (owner : Option SessionId) {e e' : Effect}
    (same : e.unnumbered = e'.unnumbered) :
    Alike past past' (a.emit owner e) (b.emit owner e') := by
  obtain ⟨new, new', mine, its, also⟩ := alike.journal
  refine { alike with journal := ⟨⟨owner, a.identification, e⟩ :: new,
    ⟨owner, b.identification, e'⟩ :: new', congrArg _ mine, congrArg _ its, ?_⟩ }
  rw [List.map_cons, List.map_cons, also]
  exact congrArg (fun effect => Entry.mk owner 0 effect :: _) same

private theorem emits (owner : Option SessionId) {effects effects' : List Effect}
    (same : effects.map (·.unnumbered) = effects'.map (·.unnumbered)) :
    Alike past past' (effects.foldr (fun effect r => r.emit owner effect) a)
      (effects'.foldr (fun effect r => r.emit owner effect) b) := by
  induction effects generalizing effects' with
  | nil =>
    obtain rfl := List.map_eq_nil_iff.1 same.symm
    exact alike
  | cons e rest ih =>
    obtain ⟨e', rest', rfl, also, later⟩ := List.map_eq_cons_iff.1 same.symm
    exact (ih later.symm).emit owner also.symm

private theorem commit (id : SessionId) (same : t.unnumbered = t'.unnumbered) :
    Alike past past' (a.commit id t) (b.commit id t') := by
  have session : t.session.unnumbered = t'.session.unnumbered := congrArg (·.session) same
  have stored : Alike past past' { a with sessions := a.sessions.set id t.session }
      { b with sessions := b.sessions.set id t'.session } :=
    { alike with sessions := by simp only [List.map_set, alike.sessions, session] }
  exact stored.emits (some id) (congrArg (·.effects) same)

private theorem turn (id : SessionId) {f : Turn → Turn}
    (natural : ∀ t : Turn, f t.unnumbered = (f t).unnumbered) :
    Alike past past' (a.turn id f) (b.turn id f) := by
  unfold Relay.turn
  obtain ⟨mine, its⟩ | ⟨s, s', mine, its, same⟩ := alike.session_cases id
  · rw [mine, its]
    exact alike
  · rw [mine, its]
    refine alike.commit id ?_
    have start : (Turn.start s).unnumbered = (Turn.start s').unnumbered :=
      congrArg Turn.start same
    rw [← natural, start, natural]

private theorem modify (id : SessionId) {f : Session → Session}
    (natural : ∀ s : Session, f s.unnumbered = (f s).unnumbered) :
    Alike past past' (a.modify id f) (b.modify id f) := by
  have commutes : ∀ sessions : List Session, (sessions.modify id f).map (·.unnumbered) =
      (sessions.map (·.unnumbered)).modify id f := by
    intro sessions
    refine List.ext_getElem? fun i => ?_
    simp only [List.getElem?_map, List.getElem?_modify]
    cases sessions[i]? with
    | none => rfl
    | some s =>
      by_cases same : id = i
      · simp only [same, if_true]
        exact congrArg some (natural s).symm
      · simp only [same, if_false]
        rfl
  refine { alike with sessions := ?_ }
  show (a.sessions.modify id f).map _ = (b.sessions.modify id f).map _
  rw [commutes, commutes, alike.sessions]

private theorem keepAlive (id : SessionId) :
    Alike past past' (a.keepAlive id) (b.keepAlive id) := by
  unfold Relay.keepAlive
  rw [alike.isCurrent id, alike.now]
  split
  · exact alike.modify id fun _ => rfl
  · exact alike

private theorem register (id : SessionId) : Alike past past' (a.register id) (b.register id) := by
  unfold Relay.register
  obtain ⟨mine, its⟩ | ⟨s, s', mine, its, same⟩ := alike.session_cases id
  · rw [mine, its]
    exact alike
  · have key : s.key = s'.key := congrArg (·.key) same
    simp only [mine, its]
    exact { alike with registered := by simp only [alike.registered, key] }

private theorem cancel (key : Key) : Alike past past' (a.cancel key) (b.cancel key) :=
  { alike with registered := congrArg (·.erase key) alike.registered }

private theorem close (key : Key) : Alike past past' (a.close key) (b.close key) := by
  unfold Relay.close
  rw [alike.lookup key]
  split
  · exact alike
  case h_2 id found =>
    have erased : Alike past past' { a with table := a.table.erase key }
        { b with table := b.table.erase key } :=
      { alike with table := congrArg (·.erase key) alike.table }
    have closed := erased.modify id (f := fun s => { s with socket := none }) fun _ => rfl
    obtain ⟨mine, its⟩ | ⟨s, s', mine, its, same⟩ := alike.session_cases id
    · simp only [mine, its, Option.bind_none]
      exact closed
    · have socket : s.socket.map (·.unnumbered) = s'.socket.map (·.unnumbered) :=
        congrArg (·.socket) same
      simp only [mine, its, Option.bind_some]
      cases opened : s.socket with
      | none =>
        rw [opened] at socket
        rw [Option.map_eq_none_iff.1 socket.symm]
        exact closed
      | some one =>
        rw [opened] at socket
        obtain ⟨other, also, -⟩ := Option.map_eq_some_iff.1 socket.symm
        rw [also]
        exact closed.emit (some id) rfl

private theorem answer (purpose : Purpose) (draft : Draft) :
    Alike past past' (a.answer purpose draft) (b.answer purpose draft) := alike.emit none rfl

private theorem announce (id : SessionId) (key : Key) :
    Alike past past' (a.announce id key) (b.announce id key) :=
  (alike.emit (some id) rfl).register id

private theorem enter {session session' : Session}
    (same : session.unnumbered = session'.unnumbered) :
    Alike past past' (a.enter session) (b.enter session') := by
  have key : session.key = session'.key := congrArg (·.key) same
  have state : session.state = session'.state := congrArg (·.state) same
  have entered : Alike past past'
      { a with
        sessions := a.sessions ++ [session], table := a.table.insert session.key a.sessions.length }
      { b with
        sessions := b.sessions ++ [session']
        table := b.table.insert session'.key b.sessions.length } :=
    { alike with
      sessions := by simp only [List.map_append, alike.sessions, List.map_cons, same, List.map_nil]
      table := by simp only [alike.table, alike.length, key] }
  unfold Relay.enter
  rw [state, alike.length]
  rw [alike.length] at entered
  exact entered.emit _ rfl

private theorem openSession {packet : Inbound} (opens : packet.opens = true) (key : Key)
    (length : Nat) (prospect : Socket.Prospect) :
    Alike past past' (a.openSession key length prospect).1 (b.openSession key length prospect).1 ∧
      (a.openSession key length prospect).2 = (b.openSession key length prospect).2 := by
  cases found : b.lookup key with
  | some id =>
    rw [openSession_found found, openSession_found ((alike.lookup key).trans found)]
    exact ⟨alike, rfl⟩
  | none =>
    obtain ⟨attempts, results⟩ :=
      opening_number b.settings a.socketCount b.socketCount key prospect
    rw [openSession_fresh found opens, openSession_fresh ((alike.lookup key).trans found) opens,
      alike.settings]
    generalize b.settings.opening a.socketCount key prospect = mine at attempts results
    generalize b.settings.opening b.socketCount key prospect = its at attempts results
    have asked : Alike past past' (a.asking packet (attempted mine))
        (b.asking packet (attempted its)) :=
      emits (a := { a with socketCount := a.socketCount + packet.opens.toNat })
        (b := { b with socketCount := b.socketCount + packet.opens.toNat }) { alike with } none attempts
    obtain ⟨e, mine_fails, its_fails⟩ | ⟨socket, socket', connected, mine_opens, its_opens, same⟩ :=
      results
    · rw [mine_fails, its_fails]
      exact ⟨asked, rfl⟩
    · rw [mine_opens, its_opens]
      refine ⟨asked.enter ?_, congrArg (fun id => Except.ok (Opened.new id)) alike.length⟩
      rw [alike.now]
      exact congrArg (fun socket => newSession key socket connected length b.now) same

end Operations

section Handling

variable (isn : UInt32) (prospect : Socket.Prospect)

private theorem handleSyn {s : Inbound.Segment} (isSyn : s.tcp.isSyn = true) :
    Alike past past' (a.handleSyn s isn prospect) (b.handleSyn s isn prospect) := by
  have opens : (Inbound.segment s).opens = true := isSyn
  obtain ⟨opened, same⟩ := alike.openSession opens s.key s.ip.totalLength prospect
  unfold Relay.handleSyn
  generalize a.openSession s.key s.ip.totalLength prospect = mine at opened same
  generalize b.openSession s.key s.ip.totalLength prospect = its at opened same
  obtain ⟨a', result⟩ := mine
  obtain ⟨b', result'⟩ := its
  obtain rfl : result = result' := same
  simp only at opened
  match result with
  | .error _ => exact opened.answer _ _
  | .ok (.existing id) => exact opened.turn id Turn.resendAck_unnumbered
  | .ok (.new id) =>
    simp only [opened.settings, opened.now]
    have begun := opened.modify id (f := fun session =>
      session.update fun state => state.begin s isn b'.settings.mssLimit b'.now) fun _ => rfl
    have now := begun.now
    simp only [now]
    exact (begun.announce id s.key).emit (some id) rfl

private theorem handleOrphan (s : Inbound.Segment) :
    Alike past past' (a.handleOrphan s) (b.handleOrphan s) := by
  unfold Relay.handleOrphan
  split
  · exact alike.answer _ _
  · split
    · exact alike
    · exact alike.answer _ _

private theorem finish (id : SessionId) (key : Key) :
    Alike past past' (a.finish id key) (b.finish id key) :=
  ((alike.turn id Turn.finish_unnumbered).cancel key).close key

private theorem handleAck (s : Inbound.Segment) :
    Alike past past' (a.handleAck s) (b.handleAck s) := by
  unfold Relay.handleAck
  rw [alike.lookup s.key]
  split
  · exact alike.handleOrphan s
  case h_2 id found =>
    obtain ⟨mine, its⟩ | ⟨session, session', mine, its, same⟩ := alike.session_cases id
    · rw [mine, its]
      exact alike
    · obtain ⟨turned, verdict⟩ := Turn.natural_start
        (f := fun t => t.receiveAck s b.settings.egressClassifier b.now)
        (fun t => t.receiveAck_unnumbered b.now s b.settings.egressClassifier) same
      have state := congrArg (·.state) turned
      simp only [Turn.state_unnumbered] at state
      have committed := alike.commit id turned
      simp only [mine, its, alike.settings, alike.now, verdict, state]
      cases ((Turn.start session').receiveAck s b.settings.egressClassifier b.now).2 with
      | close => exact committed.finish id s.key
      | stay refresh =>
        have refreshed : ∀ {a b : Relay}, Alike past past' a b → Alike past past'
            (if refresh then a.emit (some id) (.refresh s.key) else a)
            (if refresh then b.emit (some id) (.refresh s.key) else b) := by
          intro a b alike
          split
          · exact alike.emit (some id) rfl
          · exact alike
        show Alike past past' (if _ then _ else _) (if _ then _ else _)
        split
        · exact refreshed committed
        · exact (refreshed committed).keepAlive id

private theorem handleFin (s : Inbound.Segment) :
    Alike past past' (a.handleFin s) (b.handleFin s) := by
  unfold Relay.handleFin
  rw [alike.lookup s.key]
  split
  · exact alike.keepAlive _
  · exact alike.answer _ _

private theorem handleRst (s : Inbound.Segment) :
    Alike past past' (a.handleRst s) (b.handleRst s) := by
  unfold Relay.handleRst
  rw [alike.lookup s.key]
  split
  · exact alike.modify _ fun _ => rfl
  · exact alike

private theorem handleSegment (s : Inbound.Segment) :
    Alike past past' (a.handleSegment s isn prospect) (b.handleSegment s isn prospect) := by
  unfold Relay.handleSegment
  split
  case isTrue isSyn => exact alike.handleSyn isn prospect isSyn
  case isFalse =>
    split
    · exact alike.handleAck s
    · split
      · exact alike.handleFin s
      · split
        · exact alike.handleRst s
        · exact alike

private theorem handleDatagram (d : Inbound.Datagram) :
    Alike past past' (a.handleDatagram d prospect) (b.handleDatagram d prospect) := by
  have opens : (Inbound.datagram d).opens = true := rfl
  obtain ⟨opened, same⟩ := alike.openSession opens d.key d.ip.totalLength prospect
  unfold Relay.handleDatagram
  generalize a.openSession d.key d.ip.totalLength prospect = mine at opened same
  generalize b.openSession d.key d.ip.totalLength prospect = its at opened same
  obtain ⟨a', result⟩ := mine
  obtain ⟨b', result'⟩ := its
  obtain rfl : result = result' := same
  simp only at opened
  match result with
  | .error _ => exact opened
  | .ok (.existing id) =>
    simp only [opened.settings]
    have taken := opened.turn id (f := (·.takeDatagram d false b'.settings.egressClassifier)) fun t =>
      t.takeDatagram_unnumbered d false b'.settings.egressClassifier
    exact (taken.emit (some id) rfl).keepAlive id
  | .ok (.new id) =>
    simp only [opened.settings]
    have taken := opened.turn id (f := (·.takeDatagram d true b'.settings.egressClassifier)) fun t =>
      t.takeDatagram_unnumbered d true b'.settings.egressClassifier
    exact ((taken.announce id d.key).emit (some id) rfl).keepAlive id

private theorem handle (packet : Inbound) :
    Alike past past' (a.handle packet isn prospect) (b.handle packet isn prospect) := by
  cases packet with
  | segment s => exact alike.handleSegment isn prospect s
  | datagram d => exact alike.handleDatagram prospect d
  | echoRequest e =>
    exact { alike with pings := congrArg (fun pool : Ping.Pool _ => (pool.submit e).1) alike.pings }
  | ignored => exact alike

end Handling

section Passing

private theorem drop (id : SessionId) (key : Key) :
    Alike past past' (a.drop id key) (b.drop id key) :=
  ((alike.cancel key).turn id Turn.report_unnumbered).close key

private theorem abort (id : SessionId) (key : Key) :
    Alike past past' (a.abort id key) (b.abort id key) := by
  unfold Relay.abort
  cases key.protocol with
  | tcp => exact (alike.turn id Turn.resetPeer_unnumbered).drop id key
  | udp => exact alike.drop id key

private theorem service (id : SessionId) : Alike past past' (a.service id) (b.service id) := by
  unfold Relay.service
  obtain ⟨mine, its⟩ | ⟨session, session', mine, its, same⟩ := alike.session_cases id
  · rw [mine, its]
    exact alike
  · have key : session.key = session'.key := congrArg (·.key) same
    have state : session.state = session'.state := congrArg (·.state) same
    obtain ⟨pumped, pass⟩ := Turn.natural_start
      (f := fun t => t.pump b.settings.ingressClassifier (b.isCurrent id) b.now)
      (fun t => t.pump_unnumbered b.now b.settings.ingressClassifier (b.isCurrent id)) same
    have committed := alike.commit id pumped
    simp only [mine, its, key, state, alike.settings, alike.now, alike.isCurrent, pass]
    split
    · exact alike.abort id _
    · split
      · exact committed
      · exact committed.turn id Turn.remoteClose_unnumbered
      · exact committed.abort id _
      · exact committed.cancel _

private theorem evictIdle (id : SessionId) :
    Alike past past' (a.evictIdle id) (b.evictIdle id) := by
  unfold Relay.evictIdle
  obtain ⟨mine, its⟩ | ⟨session, session', mine, its, same⟩ := alike.session_cases id
  · rw [mine, its]
    exact alike
  · have key : session.key = session'.key := congrArg (·.key) same
    have created : session.created = session'.created := congrArg (·.created) same
    have seen : session.lastSeen = session'.lastSeen := congrArg (·.lastSeen) same
    have idle : session.idleFor a.now = session'.idleFor b.now := by
      unfold Session.idleFor Session.age
      rw [created, seen, alike.now]
    simp only [mine, its, key]
    rw [idle, alike.settings]
    split
    · exact alike
    · exact alike.drop id _

private theorem foldl {visit : Relay → SessionId → Relay}
    (visits : ∀ {a b : Relay}, Alike past past' a b → ∀ id, Alike past past' (visit a id) (visit b id))
    (ids : List SessionId) : Alike past past' (ids.foldl visit a) (ids.foldl visit b) := by
  induction ids generalizing a b with
  | nil => exact alike
  | cons id rest ih => exact ih (visits alike id)

private theorem pass (first second : SessionId → Nat) :
    Alike past past' (a.step (.pass first second)) (b.step (.pass first second)) := by
  have served : Alike past past' (a.serviceBy first) (b.serviceBy first) := by
    unfold Relay.serviceBy
    rw [alike.registered]
    exact alike.foldl (fun alike => alike.service) _
  show Alike past past' ((a.serviceBy first).sweepBy second) ((b.serviceBy first).sweepBy second)
  unfold Relay.sweepBy
  rw [served.table]
  exact served.foldl (fun alike => alike.evictIdle) _

end Passing

private theorem finishProbe (i : Nat) (reachable : Bool) :
    Alike past past' (a.finishProbe i reachable) (b.finishProbe i reachable) := by
  unfold Relay.finishProbe
  rw [alike.pings]
  split
  · exact alike
  case h_2 job _ =>
    have done : Alike past past' { a with pings := b.pings.complete i }
        { b with pings := b.pings.complete i } := { alike with pings := rfl }
    have same : (Effect.probe job.ip.destination a.settings.probeTimeout reachable).unnumbered =
        (Effect.probe job.ip.destination b.settings.probeTimeout reachable).unnumbered := by
      rw [alike.settings]
    have told := done.emit none same
    simp only
    split
    · split
      · exact told.emit none rfl
      · exact told
    · exact told

private theorem step (e : Event) : Alike past past' (a.step e) (b.step e) := by
  cases e with
  | packet buffer isn prospect =>
    cases parsed : Inbound.parse buffer with
    | error e =>
      rw [a.step_refused parsed, b.step_refused parsed]
      exact alike
    | ok packet =>
      rw [a.step_packet parsed, b.step_packet parsed]
      exact alike.handle isn prospect packet
  | pass first second => exact alike.pass first second
  | time span => exact { alike with now := congrArg (· + span) alike.now }
  | probe i reachable => exact alike.finishProbe i reachable
  | retire => exact { alike with pings := congrArg Ping.Pool.retire alike.pings }
  | network id outlook =>
    refine alike.modify id fun ⟨key, created, seen, state, socket⟩ => ?_
    cases socket <;> rfl

/-- Relays that are alike stay so in every run. -/
theorem run (events : List Event) : Alike past past' (a.run events) (b.run events) := by
  induction events generalizing a b with
  | nil => exact alike
  | cons e rest ih => exact ih (alike.step e)

end Alike

end Relay
end PacketRelay
