import PacketRelay.Proofs.Removal

/-!
The SYN of an open session.

Whatever else it carries, and whatever has become of the session, it changes nothing: no socket is
opened, and the session is what it was. The latest acknowledgment is written once more, drafted from
the headers that the peer sent last.
-/

set_option autoImplicit false

namespace PacketRelay

open Session (Key State Turn)

private theorem Tcp.Header.timestamps?_reply (h : Header) (seq ack : UInt32) (flags : Flags)
    (timestamps : Option Timestamps) :
    ((h.reply seq ack flags).withTimestamps? timestamps).timestamps? = timestamps := by
  have extended := (h.extensible_reply seq ack flags).addAll (timestamps.toList.map .timestamps)
  rw [withTimestamps?_eq, timestamps?, extended.parsedOptions]
  cases timestamps <;> rfl

/-- The timestamps that the peer reads in a packet. -/
def Sent.timestamps? (buffer : Bytes) : Option Tcp.Timestamps :=
  match Packet.parse buffer with
  | .ok packet => match packet.transport with
    | .tcp tcp => tcp.timestamps?
    | .udp _ => none
  | .error _ => none

private theorem Draft.Legible.timestamps? {ip : Ip.Header} {tcp : Tcp.Header} {payload : Bytes}
    (legible : (Draft.segment ip tcp payload).Legible) (identification : UInt16) :
    Sent.timestamps? ((Draft.segment ip tcp payload).toBytes identification) = tcp.timestamps? := by
  unfold Sent.timestamps?
  rw [legible.parse identification]
  rfl

/-- The latest acknowledgment of a session, as an answer to the given headers. -/
def Session.State.latestAck (st : State) (ip : Ip.Header) (tcp : Tcp.Header) : Draft :=
  .answer ip ((tcp.reply st.sendNext st.recvNext .ack).withTimestamps? st.replyTimestamps) []

namespace Session.Turn

variable {t : Turn} {ip : Ip.Header} {tcp : Tcp.Header}

private theorem lastTcp_of_lastSegment (last : t.state.lastSegment? = some (ip, tcp)) :
    t.state.lastTcp = some tcp := by
  unfold State.lastSegment? at last
  split at last
  case h_1 stored =>
    cases last
    exact stored
  case h_2 => cases last

private theorem resendAck_eq (last : t.state.lastSegment? = some (ip, tcp)) :
    t.resendAck = t.write .acknowledgment (t.state.latestAck ip tcp) := by
  unfold resendAck
  rw [last]
  rfl

private theorem Headed.reads_latestAck (headed : t.Headed) (stream : t.session.key.protocol = .tcp)
    (last : t.state.lastSegment? = some (ip, tcp)) (identification : UInt16) :
    let packet := (t.state.latestAck ip tcp).toBytes identification
    Key.ofPacket? packet = some t.session.key.back ∧
      Sent.ofBytes? packet = some ⟨.ack, t.state.sendNext, t.state.recvNext, []⟩ ∧
      Sent.timestamps? packet = t.state.replyTimestamps := by
  obtain ⟨s, read, own, rfl, rfl⟩ := headed.last stream last
  have replies : (t.state.latestAck s.ip s.tcp).Replies t.session.key fun _ => False :=
    .segment s read own _ (Tcp.Header.answeredBy_withTimestamps? ..) [] (Nat.zero_le _)
  obtain ⟨reads, addressed⟩ := replies.read_back identification
  have legible := replies.addressed.1
  exact ⟨addressed, reads.trans (Sent.ofDraft?_withTimestamps? ..),
    (legible.timestamps? identification).trans (Tcp.Header.timestamps?_reply ..)⟩

end Session.Turn

namespace Relay

private theorem turn_emit {r : Relay} {id : SessionId} {session : Session} {f : Turn → Turn}
    {e : Effect} (at_id : r.sessions[id]? = some session)
    (only : f (.start session) = (Turn.start session).emit e) :
    r.turn id f = r.emit (some id) e := by
  have unchanged : r.sessions.set id session = r.sessions := by
    obtain ⟨within, rfl⟩ := List.getElem?_eq_some_iff.1 at_id
    exact List.set_getElem_self within
  unfold turn commit
  simp only [at_id, only]
  show Relay.emit { r with sessions := r.sessions.set id session } (some id) e = _
  rw [unchanged]

/-- The SYN of an open session changes nothing and opens no socket. One packet is written, to the
peer: it acknowledges what is expected from where the session stands, and has timestamps if the
headers of the peer's last segment have some. -/
theorem run_repeats (settings : Settings) (now coreWorkers maxWorkers : Nat) (events : List Event)
    {e : Event} {s : Inbound.Segment} {id : SessionId}
    (found : ((start settings now coreWorkers maxWorkers).run events).lookup s.key = some id)
    (brings : e.segment? = some s) (isSyn : s.tcp.isSyn = true) :
    let r := (start settings now coreWorkers maxWorkers).run events
    let after := r.step e
    ∃ session tcp draft packet, r.sessions[id]? = some session ∧
      session.state.lastTcp = some tcp ∧
      after = r.emit (some id) (.write .acknowledgment draft) ∧
      after.sessions = r.sessions ∧ after.table = r.table ∧ after.registered = r.registered ∧
      after.socketCount = r.socketCount ∧
      after.written = packet :: r.written ∧ Key.ofPacket? packet = some s.key.back ∧
      Sent.ofBytes? packet = some ⟨.ack, session.state.sendNext, session.state.recvNext, []⟩ ∧
      Sent.timestamps? packet = tcp.timestamps?.map fun _ =>
        ⟨session.state.timestampSender, session.state.timestampReplyTo⟩ := by
  intro r after
  have h : Consistent r := consistent_run settings now coreWorkers maxWorkers events
  obtain ⟨t, known, own, -⟩ := h.found s.key id found
  have at_id : r.sessions[id]? = some t.session := (Stands.refl known).session
  have stream : t.session.key.protocol = .tcp := by rw [own]; rfl
  have lives := (traced_run settings now coreWorkers maxWorkers events).lives id t known
  obtain ⟨isn, closes⟩ := lives.closes stream
  obtain ⟨⟨ip, tcp⟩, last⟩ := Option.isSome_iff_exists.1 closes.heard
  have repeated : after = r.emit (some id) (.write .acknowledgment (t.state.latestAck ip tcp)) := by
    obtain ⟨buffer, isn, prospect, rfl, parsed⟩ := Event.segment?_eq_some brings
    have syn : after = r.handleSyn s isn prospect :=
      (r.step_segment parsed isn prospect).trans (if_pos isSyn)
    rw [syn, handleSyn, openSession_found found]
    exact turn_emit at_id (Session.Turn.resendAck_eq (t := .start t.session) last)
  have remembered : t.state.lastTcp = some tcp := Session.Turn.lastTcp_of_lastSegment last
  let packet := (t.state.latestAck ip tcp).toBytes r.identification
  obtain ⟨addressed, reads, stamped⟩ := lives.headed.reads_latestAck stream last r.identification
  refine ⟨t.session, tcp, t.state.latestAck ip tcp, packet, at_id, remembered, repeated, ?_⟩
  rw [repeated]
  refine ⟨rfl, rfl, rfl, rfl, rfl, own ▸ addressed, reads, stamped.trans ?_⟩
  unfold State.replyTimestamps
  rw [remembered]
  rfl

/-- The peer has sent a SYN with timestamps and then a reset, so its session is to be aborted.
Another SYN, with FIN, PSH and payload and far off in the sequence, is acknowledged with
timestamps. -/
theorem run_repeats_aborting :
    let packet (offset flags : UInt8) (seq : UInt32) (rest : Bytes) : Event := .packet
      ((sampleSegment flags seq 0 rest).set 32 offset) 500 (.smooth [])
    let stamps : Bytes := [1, 1, 8, 10, 0, 0, 0, 7, 0, 0, 0, 0]
    let r := (start .plain (3000 * millisecond) 1 1).run
      [packet 0x80 2 1000 stamps, packet 0x50 4 1001 []]
    let after := r.step (packet 0x50 11 77777 [97])
    r.sessions[0]?.map (·.state.aborting) = some true ∧
      after.sessions = r.sessions ∧ after.table = r.table ∧ after.registered = r.registered ∧
      after.socketCount = r.socketCount ∧
      ∃ packet, after.written = packet :: r.written ∧
        Sent.ofBytes? packet = some ⟨.ack, 501, 1001, []⟩ ∧
        Sent.timestamps? packet = some ⟨3000, 7⟩ := by
  intro packet stamps r after
  have there : r.sessions[0]?.map (fun s => (s.state.aborting, s.state.sendNext, s.state.recvNext,
      s.state.replyTimestamps)) = some (true, 501, 1001, some ⟨3000, 7⟩) := by decide +kernel
  have brings : (packet 0x50 11 77777 [97]).segment? =
      some ((packet 0x50 11 77777 [97]).segment?.get (by decide +kernel)) :=
    (Option.some_get _).symm
  have found : r.lookup ((packet 0x50 11 77777 [97]).segment?.get (by decide +kernel)).key =
      some 0 := by decide +kernel
  obtain ⟨session, tcp, _, packet, at_zero, last, -, sessions, table, registered, sockets, written,
    -, reads, stamped⟩ := run_repeats .plain (3000 * millisecond) 1 1
      [packet 0x80 2 1000 stamps, packet 0x50 4 1001 []] found brings (by decide +kernel)
  have known : r.sessions[0]? = some session := at_zero
  rw [known] at there
  simp only [Option.map_some, Option.some.injEq, Prod.mk.injEq] at there
  obtain ⟨aborting, next, expected, echoed⟩ := there
  refine ⟨by rw [known, Option.map_some, aborting], sessions, table, registered, sockets, packet,
    written, by rw [reads, next, expected], ?_⟩
  rw [stamped, ← echoed, State.replyTimestamps, last]
  rfl

end Relay
end PacketRelay
