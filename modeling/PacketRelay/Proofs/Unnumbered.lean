import PacketRelay.Proofs.Addressing

/-!
Numbers do not matter.

The number of a socket tells it apart from others, and the identification of an IPv4 packet does the
same for packets. Neither decides anything: a session comes to the same under every number, which is
to say that leaving the number out commutes with every turn.
-/

set_option autoImplicit false

namespace PacketRelay

open Session (Key Turn State Classifier Direction Outbound)

/-- A session apart from the number of its socket. -/
def Session.unnumbered (s : Session) : Session :=
  { s with socket := s.socket.map fun socket => { socket with number := 0 } }

/-- A socket apart from its number. -/
def Socket.unnumbered (s : Socket) : Socket := { s with number := 0 }

/-- An effect apart from the number of the socket that it is about. -/
def Effect.unnumbered : Effect → Effect
  | connect attempt => connect { attempt with number := 0 }
  | send _ bytes => send 0 bytes
  | shutdown _ => shutdown 0
  | e => e

/-- A packet apart from its identification and the header checksum, if it is an IPv4 packet. -/
def unidentified (packet : Bytes) : Bytes :=
  if packet.head?.any (· / 16 = 4) then
    packet.take 4 ++ [0, 0] ++ (packet.drop 6).take 4 ++ [0, 0] ++ packet.drop 12
  else packet

private theorem Ip.V4Header.unidentified_write (h : Ip.V4Header) (rest : Bytes)
    (identification checksum : UInt16) :
    unidentified ({ h with identification, checksum }.write ++ rest) =
      unidentified (h.write ++ rest) := by
  have version : (4 * 16 + h.ihl % 16) / 16 = 4 := Wire.nibble_div (by decide) _
  have four : ∀ packet : Bytes, packet.head? = some (4 * 16 + h.ihl % 16) →
      unidentified packet =
        packet.take 4 ++ [0, 0] ++ (packet.drop 6).take 4 ++ [0, 0] ++ packet.drop 12 := by
    intro packet head
    unfold unidentified
    rw [head]
    exact if_pos (decide_eq_true version)
  exact (four _ rfl).trans (four (h.write ++ rest) rfl).symm

namespace Draft

theorem unidentified_toBytes (d : Draft) (i j : UInt16) :
    unidentified (d.toBytes i) = unidentified (d.toBytes j) := by
  have body : d.body i = d.body j := by
    cases d with
    | segment ip | datagram ip | echo ip => cases ip <;> rfl
  rw [toBytes_eq, toBytes_eq, body]
  unfold sealedIp
  cases d.ip with
  | v4 h =>
    let plain (identification : UInt16) : Ip.V4Header :=
      { h with totalLength := Ip.Header.saturate (h.headerLength + d.bodyLength), identification }
    have same : ∀ identification,
        unidentified ((plain identification).withChecksum.write ++ d.body j) =
        unidentified ((plain 0).write ++ d.body j) := fun identification =>
      (plain 0).unidentified_write (d.body j) identification _
    exact (same i).trans (same j).symm
  | v6 h => rfl

end Draft

theorem drafts_unnumbered (effects : List Effect) :
    drafts (effects.map (·.unnumbered)) = drafts effects := by
  unfold drafts
  rw [List.filterMap_map]
  refine List.filterMap_congr fun e _ => ?_
  cases e <;> rfl

/-- An entry apart from numbers and identifications. -/
def Entry.unnumbered (entry : Entry) : Entry := ⟨entry.session, 0, entry.effect.unnumbered⟩

theorem Entry.packet?_unnumbered (entry : Entry) :
    entry.unnumbered.packet?.map unidentified = entry.packet?.map unidentified := by
  obtain ⟨session, identification, effect⟩ := entry
  cases effect with
  | write purpose d => exact congrArg some (d.unidentified_toBytes 0 identification)
  | _ => rfl

namespace Socket

variable (s : Socket)

private theorem read_unnumbered : s.unnumbered.read = (s.read.1, s.read.2.unnumbered) := by
  unfold read
  have same : s.unnumbered.arrivals = s.arrivals := rfl
  rw [same]
  split <;> rfl

private theorem send_unnumbered (chunk : Bytes) :
    s.unnumbered.send chunk = ((s.send chunk).1, (s.send chunk).2.unnumbered) := by
  unfold send
  have same : s.unnumbered.room = s.room := rfl
  rw [same]
  split <;> rfl

private theorem checkConnected_unnumbered :
    s.unnumbered.checkConnected = (s.checkConnected.1, s.checkConnected.2.unnumbered) := by
  unfold checkConnected
  have query : s.unnumbered.queryError = s.queryError := rfl
  have pending : s.unnumbered.pendingError = s.pendingError := rfl
  have peer : s.unnumbered.peerError = s.peerError := rfl
  rw [query, pending, peer]
  split <;> rfl

end Socket

namespace Session.Outbound

private theorem flush_front {q : Outbound} {chunk : Bytes} {rest : List Bytes}
    (chunks : q.chunks = chunk :: rest) (s : Socket) (sent : List Bytes) :
    q.flush s sent = match s.send chunk with
      | (.error .wouldBlock, after) => ⟨q, after, sent, .blocked⟩
      | (.error e, after) => ⟨q, after, sent, .failed e⟩
      | (.ok n, after) => if n = 0 then ⟨q, after, sent, .blocked⟩
        else flush (q.consume n) after (chunk.take n :: sent) := by
  conv => lhs; unfold flush
  split
  case h_1 other => cases chunks.symm.trans other
  case h_2 front left same =>
    obtain ⟨rfl, -⟩ := List.cons.inj (chunks.symm.trans same)
    split <;> simp_all

private theorem flush_unnumbered (q : Outbound) (s : Socket) (sent : List Bytes) :
    q.flush s.unnumbered sent =
      { q.flush s sent with socket := (q.flush s sent).socket.unnumbered } := by
  fun_induction flush q s sent with
  | case1 q s sent chunks =>
    unfold flush
    split
    · rfl
    case h_2 other => cases chunks.symm.trans other
  | case2 q s sent chunk rest chunks after blocked =>
    rw [flush_front chunks, s.send_unnumbered, blocked]
  | case3 q s sent chunk rest chunks e after differ failed =>
    rw [flush_front chunks, s.send_unnumbered, failed]
    cases e <;> first | exact absurd rfl differ | rfl
  | case4 q s sent chunk rest chunks after taken =>
    rw [flush_front chunks, s.send_unnumbered, taken]
    rfl
  | case5 q s sent chunk rest chunks n after taken some_taken ih =>
    rw [flush_front chunks, s.send_unnumbered, taken]
    simp only [some_taken, if_false]
    exact ih

end Session.Outbound

namespace Session.Turn

variable (t : Turn) (now : Nat)

/-- A session and its effects apart from the number of its socket. -/
def unnumbered (t : Turn) : Turn := ⟨t.session.unnumbered, t.effects.map (·.unnumbered)⟩

@[simp] theorem state_unnumbered : t.unnumbered.state = t.state := rfl

@[simp] theorem key_unnumbered : t.unnumbered.session.key = t.session.key := rfl

@[simp] theorem socket_unnumbered :
    t.unnumbered.session.socket = t.session.socket.map (·.unnumbered) := rfl

@[simp] theorem accept_unnumbered (payload : Bytes) (length : Nat) :
    t.unnumbered.emit (.accept payload length) = (t.emit (.accept payload length)).unnumbered := rfl

@[simp] theorem updated_unnumbered (flow : Flow) :
    t.unnumbered.emit (.flowUpdated flow) = (t.emit (.flowUpdated flow)).unnumbered := rfl

@[simp] theorem update_unnumbered (f : State → State) :
    t.unnumbered.update f = (t.update f).unnumbered := rfl

@[simp] theorem write_unnumbered (purpose : Purpose) (draft : Draft) :
    t.unnumbered.write purpose draft = (t.write purpose draft).unnumbered := rfl

@[simp] theorem withSocket_unnumbered (socket : Socket) :
    t.unnumbered.withSocket socket.unnumbered = (t.withSocket socket).unnumbered := rfl

@[simp] theorem report_unnumbered : t.unnumbered.report = t.report.unnumbered := rfl

private theorem ite_unnumbered (c : Prop) [Decidable c] (t u : Turn) :
    (if c then t.unnumbered else u.unnumbered) = (if c then t else u).unnumbered := by
  split <;> rfl

@[simp] theorem classify_unnumbered (classifier : Classifier) (direction : Direction)
    (payload : Bytes) : t.unnumbered.classify classifier direction payload =
      (t.classify classifier direction payload).unnumbered := by
  rcases h : t.state.classifyOnce classifier direction payload with ⟨state, _ | _⟩ <;>
    simp [classify, h]

private theorem flush_unnumbered : t.unnumbered.flush = (t.flush.1.unnumbered, t.flush.2) := by
  cases h : t.session.socket with
  | none => rw [flush_none t h, flush_none t.unnumbered (by rw [socket_unnumbered, h]; rfl)]
  | some socket =>
    have opened : t.unnumbered.session.socket = some socket.unnumbered := by
      rw [socket_unnumbered, h]
      rfl
    rw [flush_some t h rfl, flush_some t.unnumbered opened rfl]
    simp only [state_unnumbered, Session.Outbound.flush_unnumbered]
    simp [unnumbered, Session.unnumbered, Socket.unnumbered, Effect.unnumbered]

@[simp] theorem sendFin_unnumbered : t.unnumbered.sendFin = t.sendFin.unnumbered := by
  unfold sendFin
  rw [state_unnumbered]
  split <;> rfl

@[simp] theorem resendAck_unnumbered : t.unnumbered.resendAck = t.resendAck.unnumbered := by
  unfold resendAck
  rw [state_unnumbered]
  split <;> rfl

@[simp] theorem resetPeer_unnumbered : t.unnumbered.resetPeer = t.resetPeer.unnumbered := by
  unfold resetPeer
  rw [state_unnumbered]
  split <;> rfl

@[simp] theorem takePayload_unnumbered (s : Inbound.Segment) (classifier : Classifier) :
    t.unnumbered.takePayload s classifier now = (t.takePayload s classifier now).unnumbered := by
  simp [takePayload]

@[simp] theorem refusePayload_unnumbered (s : Inbound.Segment) :
    t.unnumbered.refusePayload s = (t.refusePayload s).unnumbered := rfl

@[simp] theorem takeAck_unnumbered (s : Inbound.Segment) :
    t.unnumbered.takeAck s now = (t.takeAck s now).unnumbered := by
  simp only [takeAck, update_unnumbered, state_unnumbered, sendFin_unnumbered]
  split <;> rfl

@[simp] theorem takePush_unnumbered (s : Inbound.Segment) :
    t.unnumbered.takePush s now = (t.takePush s now).unnumbered := by
  unfold takePush
  split <;> rfl

@[simp] theorem takeEnd_unnumbered (s : Inbound.Segment) (inOrder : Bool) :
    t.unnumbered.takeEnd s inOrder = (t.takeEnd s inOrder).unnumbered := by
  unfold takeEnd
  split
  · split <;> rfl
  · split <;> rfl

theorem receiveAck_unnumbered (s : Inbound.Segment) (classifier : Classifier) :
    t.unnumbered.receiveAck s classifier now =
      ((t.receiveAck s classifier now).1.unnumbered, (t.receiveAck s classifier now).2) := by
  simp only [receiveAck, update_unnumbered, state_unnumbered, takeAck_unnumbered,
    takePayload_unnumbered, refusePayload_unnumbered]
  split
  · simp
  · split <;> simp

@[simp] theorem finish_unnumbered : t.unnumbered.finish = t.finish.unnumbered := by
  have cancelled : t.unnumbered.emit (.cancel t.session.key) =
      (t.emit (.cancel t.session.key)).unnumbered := rfl
  simp only [finish, key_unnumbered, cancelled, state_unnumbered, flush_unnumbered]
  exact congrArg report (ite_unnumbered _ _ _)

@[simp] theorem takeDatagram_unnumbered (d : Inbound.Datagram) (opened : Bool)
    (classifier : Classifier) : t.unnumbered.takeDatagram d opened classifier =
      (t.takeDatagram d opened classifier).unnumbered := by
  simp [takeDatagram]

@[simp] theorem sendSegment_unnumbered (ip : Ip.Header) (tcp : Tcp.Header) (chunk : Bytes) :
    t.unnumbered.sendSegment ip tcp chunk = (t.sendSegment ip tcp chunk).unnumbered := rfl

@[simp] theorem sendSegments_unnumbered (ip : Ip.Header) (tcp : Tcp.Header) (bytes : Bytes) :
    t.unnumbered.sendSegments ip tcp bytes = (t.sendSegments ip tcp bytes).unnumbered := by
  fun_induction sendSegments t ip tcp bytes with
  | case1 t => rw [sendSegments]
  | case2 t first rest more ih =>
    rw [sendSegments, sendSegment_unnumbered]
    exact ih

@[simp] theorem deliver_unnumbered (bytes : Bytes) (classifier : Classifier) (current : Bool) :
    t.unnumbered.deliver bytes classifier current now =
      (t.deliver bytes classifier current now).unnumbered := by
  have received : t.unnumbered.emit (.receive bytes) = (t.emit (.receive bytes)).unnumbered := rfl
  unfold deliver
  rw [received, classify_unnumbered]
  generalize (t.emit (.receive bytes)).classify classifier .ingress bytes = t
  simp only [key_unnumbered, state_unnumbered]
  cases t.session.key.protocol with
  | tcp => cases t.state.lastSegment? <;> cases current <;> simp <;> rfl
  | udp => cases t.state.lastDatagram? <;> cases current <;> simp <;> rfl

private theorem readAll_unnumbered (classifier : Classifier) (current : Bool) (n : Nat) :
    readAll classifier current now n t.unnumbered =
      ((readAll classifier current now n t).1.unnumbered,
        (readAll classifier current now n t).2) := by
  induction n generalizing t with
  | zero => rfl
  | succ n ih =>
    cases h : t.session.socket with
    | none => simp [readAll, h]
    | some socket =>
      have again := socket.read_unnumbered
      rcases r : socket.read with ⟨e | bytes, after⟩
      · rw [r] at again
        cases e <;> simp [readAll, h, r, again, ih]
      · rw [r] at again
        simp only [readAll, socket_unnumbered, h, Option.map_some, r, again, withSocket_unnumbered,
          key_unnumbered, deliver_unnumbered, ih]
        split <;> rfl

private theorem exchange_unnumbered (classifier : Classifier) (current : Bool) :
    t.unnumbered.exchange classifier current now =
      ((t.exchange classifier current now).1.unnumbered,
        (t.exchange classifier current now).2) := by
  have flushed :
      (if 0 < t.state.outbound.size || t.state.dataReady then t.unnumbered.flush
        else (t.unnumbered, none)) =
      ((if 0 < t.state.outbound.size || t.state.dataReady then t.flush else (t, none)).1.unnumbered,
        (if 0 < t.state.outbound.size || t.state.dataReady then t.flush else (t, none)).2) := by
    rw [flush_unnumbered]
    split <;> rfl
  unfold exchange
  rw [state_unnumbered, flushed]
  rcases (if 0 < t.state.outbound.size || t.state.dataReady then t.flush else (t, none)) with
    ⟨t, _ | e⟩
  · simp only [state_unnumbered, readAll_unnumbered]
    split <;> rfl
  · rfl

theorem pump_unnumbered (classifier : Classifier) (current : Bool) :
    t.unnumbered.pump classifier current now =
      ((t.pump classifier current now).1.unnumbered, (t.pump classifier current now).2) := by
  cases h : t.session.socket with
  | none => simp [pump, h]
  | some socket =>
    cases connected : t.state.connected with
    | true =>
      simp only [pump, socket_unnumbered, h, Option.map_some, state_unnumbered, connected, if_true]
      exact exchange_unnumbered t now classifier current
    | false =>
      have again := socket.checkConnected_unnumbered
      rcases checked : socket.checkConnected with ⟨e | _ | _, after⟩ <;> rw [checked] at again
      · simp [pump, h, connected, checked, again]
      · simp [pump, h, connected, checked, again]
      · simp [pump, h, connected, checked, again, exchange_unnumbered]

@[simp] theorem remoteClose_unnumbered : t.unnumbered.remoteClose = t.remoteClose.unnumbered := by
  simp only [remoteClose, state_unnumbered, update_unnumbered, sendFin_unnumbered]
  split <;> rfl

theorem unnumbered_started (settings : Relay.Settings) (d : Inbound.Datagram)
    (prospect : Socket.Prospect) (n m now : Nat) :
    (started settings d prospect n now).unnumbered =
      (started settings d prospect m now).unnumbered := by
  let fresh (number : Nat) : Turn :=
    let session :=
      Relay.newSession d.key (prospect.begun number false true) true d.ip.totalLength now
    ⟨session, [.flowCreated session.state.flow]⟩
  let complete (t : Turn) : Turn :=
    (((t.takeDatagram d true settings.egressClassifier).emit (.register d.key)).emit
      (.refresh d.key)).touch now
  have natural : ∀ t : Turn, complete t.unnumbered = (complete t).unnumbered := by
    intro t
    simp only [complete, takeDatagram_unnumbered]
    rfl
  have same : (fresh n).unnumbered = (fresh m).unnumbered := rfl
  exact (natural (fresh n)).symm.trans ((congrArg complete same).trans (natural (fresh m)))

theorem natural_start {β : Type} {f : Turn → Turn × β}
    (natural : ∀ t : Turn, f t.unnumbered = ((f t).1.unnumbered, (f t).2)) {s s' : Session}
    (same : s.unnumbered = s'.unnumbered) :
    (f (.start s)).1.unnumbered = (f (.start s')).1.unnumbered ∧
      (f (.start s)).2 = (f (.start s')).2 := by
  have start : (Turn.start s).unnumbered = (Turn.start s').unnumbered := congrArg Turn.start same
  exact Prod.mk.inj ((natural (.start s)).symm.trans
    ((congrArg f start).trans (natural (.start s'))))

end Session.Turn

namespace Relay

variable (settings : Settings) (now n m : Nat)

theorem opening_number (key : Key) (prospect : Socket.Prospect) :
    (attempted (settings.opening n key prospect)).map (·.unnumbered) =
      (attempted (settings.opening m key prospect)).map (·.unnumbered) ∧
    ((∃ e, (settings.opening n key prospect).result = .error e ∧
      (settings.opening m key prospect).result = .error e) ∨
    ∃ socket socket' connected, (settings.opening n key prospect).result = .ok (socket, connected) ∧
      (settings.opening m key prospect).result = .ok (socket', connected) ∧
      socket.unnumbered = socket'.unnumbered) := by
  unfold Settings.opening
  cases key.protocol with
  | tcp =>
    simp only [Socket.Prospect.openStream]
    split
    · exact ⟨rfl, .inl ⟨_, rfl, rfl⟩⟩
    · refine ⟨rfl, ?_⟩
      simp only
      split
      · exact .inr ⟨_, _, _, rfl, rfl, rfl⟩
      · exact .inr ⟨_, _, _, rfl, rfl, rfl⟩
      · exact .inr ⟨_, _, _, rfl, rfl, rfl⟩
      · exact .inl ⟨_, rfl, rfl⟩
  | udp =>
    simp only [Socket.Prospect.openDatagram]
    split
    · exact ⟨rfl, .inl ⟨_, rfl, rfl⟩⟩
    · refine ⟨rfl, ?_⟩
      simp only
      split
      · exact .inr ⟨_, _, _, rfl, rfl, rfl⟩
      · exact .inl ⟨_, rfl, rfl⟩

end Relay
end PacketRelay
