import PacketRelay.Proofs.Addition
import PacketRelay.Proofs.Life
import PacketRelay.Proofs.Packet
import PacketRelay.Relay.Pinging

/-!
Answers are sound.

Every answer is drafted from the headers of a packet that was read, so its own headers fit the wire.
What is left to see to is the length: payload of a stream is bounded by the segment size, and an
echo reply is no longer than its request.
-/

set_option autoImplicit false

namespace PacketRelay

open Wire
open Session (Key)

namespace Inbound

variable {buffer : Bytes}

theorem parse_eq_ok {packet : Inbound} (parsed : Inbound.parse buffer = .ok packet) :
    ∃ ip, Ip.Header.parse buffer = .ok ip ∧
      match ip.protocol with
      | .tcp => ∃ tcp, Tcp.Header.parse (body ip buffer) = .ok tcp ∧
          packet = .segment ⟨ip, tcp, body ip buffer⟩
      | .udp => ∃ udp, Udp.Header.parse (body ip buffer) = .ok udp ∧
          packet = .datagram ⟨ip, udp, (body ip buffer).drop Udp.Header.headerLength⟩
      | .icmp => parseIcmp ip (body ip buffer) = .ok packet
      | .other _ => packet = .ignored := by
  unfold Inbound.parse at parsed
  cases read : Ip.Header.parse buffer with
  | error e => rw [read] at parsed; cases parsed
  | ok ip =>
    rw [read] at parsed
    simp only [bind, Except.bind] at parsed
    refine ⟨ip, rfl, ?_⟩
    cases protocol : ip.protocol with
    | tcp =>
      rw [protocol] at parsed
      simp only at parsed ⊢
      cases header : Tcp.Header.parse (body ip buffer) with
      | error e => rw [header] at parsed; cases parsed
      | ok tcp =>
        rw [header] at parsed
        exact ⟨tcp, rfl, (Except.ok.inj parsed).symm⟩
    | udp =>
      rw [protocol] at parsed
      simp only at parsed ⊢
      cases header : Udp.Header.parse (body ip buffer) with
      | error e => rw [header] at parsed; cases parsed
      | ok udp =>
        rw [header] at parsed
        exact ⟨udp, rfl, (Except.ok.inj parsed).symm⟩
    | icmp =>
      rw [protocol] at parsed
      exact parsed
    | other number =>
      rw [protocol] at parsed
      exact (Except.ok.inj parsed).symm

theorem parseIcmp_eq_ok {ip : Ip.Header} {bytes : Bytes} {packet : Inbound}
    (parsed : parseIcmp ip bytes = .ok packet) :
    packet = .ignored ∨ ∃ message, Icmp.Message.parse ip.version bytes = .ok message ∧
      message.kind = .echoRequest ∧ packet = .echoRequest ⟨ip, message⟩ := by
  unfold parseIcmp at parsed
  cases read : Icmp.Message.parse ip.version bytes with
  | error e => rw [read] at parsed; cases parsed
  | ok message =>
    rw [read] at parsed
    simp only [bind, Except.bind] at parsed
    cases kind : message.kind with
    | echoRequest =>
      rw [kind] at parsed
      exact .inr ⟨message, rfl, kind, (Except.ok.inj parsed).symm⟩
    | destinationUnreachable =>
      rw [kind] at parsed
      exact .inl (Except.ok.inj parsed).symm
    | routerSolicitation =>
      rw [kind] at parsed
      exact .inl (Except.ok.inj parsed).symm
    | echoReply => rw [kind] at parsed; cases parsed
    | unsupported type => rw [kind] at parsed; cases parsed

theorem Segment.Read.parts {s : Segment} (read : s.Read) : ∃ buffer,
    Ip.Header.parse buffer = .ok s.ip ∧ s.ip.protocol = .tcp ∧ s.bytes = body s.ip buffer ∧
      Tcp.Header.parse s.bytes = .ok s.tcp := by
  obtain ⟨buffer, parsed⟩ := read
  obtain ⟨ip, header, rest⟩ := parse_eq_ok parsed
  refine ⟨buffer, ?_⟩
  cases protocol : ip.protocol with
  | tcp =>
    rw [protocol] at rest
    obtain ⟨tcp, read, same⟩ := rest
    obtain rfl := Inbound.segment.inj same
    exact ⟨header, protocol, rfl, read⟩
  | udp =>
    rw [protocol] at rest
    obtain ⟨_, _, same⟩ := rest
    cases same
  | icmp =>
    rw [protocol] at rest
    rcases parseIcmp_eq_ok rest with same | ⟨_, _, _, same⟩ <;> cases same
  | other number =>
    rw [protocol] at rest
    cases rest

theorem Datagram.Read.parts {d : Datagram} (read : d.Read) : ∃ buffer,
    Ip.Header.parse buffer = .ok d.ip ∧ d.ip.protocol = .udp ∧
      Udp.Header.parse (body d.ip buffer) = .ok d.udp ∧
      d.payload = (body d.ip buffer).drop Udp.Header.headerLength := by
  obtain ⟨buffer, parsed⟩ := read
  obtain ⟨ip, header, rest⟩ := parse_eq_ok parsed
  refine ⟨buffer, ?_⟩
  cases protocol : ip.protocol with
  | tcp =>
    rw [protocol] at rest
    obtain ⟨_, _, same⟩ := rest
    cases same
  | udp =>
    rw [protocol] at rest
    obtain ⟨udp, read, same⟩ := rest
    obtain rfl := Inbound.datagram.inj same
    exact ⟨header, protocol, read, rfl⟩
  | icmp =>
    rw [protocol] at rest
    rcases parseIcmp_eq_ok rest with same | ⟨_, _, _, same⟩ <;> cases same
  | other number =>
    rw [protocol] at rest
    cases rest

theorem Echo.Read.parts {e : Echo} (read : e.Read) : ∃ buffer,
    Ip.Header.parse buffer = .ok e.ip ∧ e.ip.protocol = .icmp ∧
      Icmp.Message.parse e.ip.version (body e.ip buffer) = .ok e.message ∧
      e.message.kind = .echoRequest := by
  obtain ⟨buffer, parsed⟩ := read
  obtain ⟨ip, header, rest⟩ := parse_eq_ok parsed
  refine ⟨buffer, ?_⟩
  cases protocol : ip.protocol with
  | tcp =>
    rw [protocol] at rest
    obtain ⟨_, _, same⟩ := rest
    cases same
  | udp =>
    rw [protocol] at rest
    obtain ⟨_, _, same⟩ := rest
    cases same
  | icmp =>
    rw [protocol] at rest
    rcases parseIcmp_eq_ok rest with same | ⟨message, read, kind, same⟩
    · cases same
    · obtain rfl := Inbound.echoRequest.inj same
      exact ⟨header, protocol, read, kind⟩
  | other number =>
    rw [protocol] at rest
    cases rest

end Inbound

namespace Tcp

namespace Header

/-- A header to send: it fits, its options can be read, and they are no more than sixteen bytes. -/
structure Modest (h : Header) : Prop where
  fits : h.Fits
  options : h.parsedOptions.isOk = true
  short : h.headerLength ≤ 36

private theorem modest_reply (h : Header) (seq ack : UInt32) (flags : Flags) :
    (h.reply seq ack flags).Modest where
  fits := ⟨UInt8.le_refl 5, (by decide : (5 : UInt8) < 16), rfl, (by decide : (0 : UInt8) < 16)⟩
  options := by
    rw [(h.extensible_reply seq ack flags).parsedOptions]
    rfl
  short := by simp [headerLength, reply]

private theorem modest_addAll (h : Header) (seq ack : UInt32) (flags : Flags)
    {additions : List Addition} (few : (additions.flatMap (·.bytes)).length ≤ 16) :
    ((h.reply seq ack flags).addAll additions).Modest := by
  by_cases added : additions = []
  · subst added
    exact h.modest_reply seq ack flags
  have extensible := h.extensible_reply seq ack flags
  have length : ((h.reply seq ack flags).addAll additions).options.length ≤ 16 := by
    rw [options_addAll]
    exact few
  have fits := extensible.fits added (length.trans (by decide))
  have counted := fits.options
  unfold minLength at counted
  refine ⟨fits, ?_, by omega⟩
  rw [(extensible.addAll additions).parsedOptions]
  rfl

private theorem modest_withTimestamps? (h : Header) (seq ack : UInt32) (flags : Flags)
    (timestamps : Option Timestamps) :
    ((h.reply seq ack flags).withTimestamps? timestamps).Modest := by
  rw [withTimestamps?_eq]
  refine h.modest_addAll seq ack flags ?_
  cases timestamps <;> simp [Addition.bytes]

private theorem modest_withMss (h : Header) (seq ack : UInt32) (flags : Flags) (mss : UInt16)
    (timestamps : Option Timestamps) :
    (((h.reply seq ack flags).withMss mss).withTimestamps? timestamps).Modest := by
  rw [withMss_eq]
  refine h.modest_addAll seq ack flags ?_
  cases timestamps <;> simp [Addition.bytes]

/-- The header of an answer to a segment: it can be sent, between the ports of the segment the other
way round. -/
structure AnsweredBy (h reply : Header) : Prop extends Modest reply where
  source : reply.sourcePort = h.destinationPort
  destination : reply.destinationPort = h.sourcePort

private theorem answeredBy_reply (h : Header) (seq ack : UInt32) (flags : Flags) :
    h.AnsweredBy (h.reply seq ack flags) :=
  ⟨h.modest_reply seq ack flags, rfl, rfl⟩

theorem answeredBy_withTimestamps? (h : Header) (seq ack : UInt32) (flags : Flags)
    (timestamps : Option Timestamps) :
    h.AnsweredBy ((h.reply seq ack flags).withTimestamps? timestamps) := by
  have modest := h.modest_withTimestamps? seq ack flags timestamps
  cases timestamps <;> exact ⟨modest, rfl, rfl⟩

private theorem answeredBy_withMss (h : Header) (seq ack : UInt32) (flags : Flags) (mss : UInt16)
    (timestamps : Option Timestamps) :
    h.AnsweredBy (((h.reply seq ack flags).withMss mss).withTimestamps? timestamps) := by
  have modest := h.modest_withMss seq ack flags mss timestamps
  cases timestamps <;> exact ⟨modest, rfl, rfl⟩

end Header
end Tcp

theorem Inbound.Segment.Read.fits {s : Inbound.Segment} (read : s.Read) : s.ip.Fits := by
  obtain ⟨buffer, parsed, -⟩ := read.parts
  exact Ip.Header.fits_of_parse parsed

theorem Inbound.Segment.Read.protocol {s : Inbound.Segment} (read : s.Read) :
    s.ip.protocol = .tcp := by
  obtain ⟨_, _, protocol, _⟩ := read.parts
  exact protocol

/-- The longest payload of a datagram between the addresses of a flow. -/
def Session.Key.datagramLimit (key : Key) : Nat :=
  match key.destination with
  | .v4 _ => 65507
  | .v6 _ => 65527

namespace Draft

section Segments

variable {s : Inbound.Segment} (read : s.Read)

include read

private theorem sound_answer {reply : Tcp.Header} (modest : reply.Modest) {payload : Bytes}
    (short : payload.length ≤ Tcp.maxMss.toNat) : (answer s.ip reply payload).Sound := by
  have room : 65515 ≤ s.ip.replyTemplate.room := by
    cases s.ip <;> simp [Ip.Header.replyTemplate, Ip.Header.withoutOptions, Ip.Header.swapAddresses,
      Ip.Header.room]
  have protocol : s.ip.replyTemplate.protocol = .tcp := by
    rw [← read.protocol]
    cases s.ip <;> rfl
  have header := modest.short
  refine ⟨Ip.Header.bare_replyTemplate read.fits, protocol, modest.fits, modest.options, ?_⟩
  have most : Tcp.maxMss.toNat = 65415 := rfl
  omega

end Segments

private theorem sound_response {d : Inbound.Datagram} (read : d.Read) {payload : Bytes}
    (short : Udp.Header.headerLength + payload.length ≤ d.ip.room) :
    (response d.ip d.udp payload).Sound := by
  obtain ⟨buffer, parsed, protocol, -⟩ := read.parts
  have fits := Ip.Header.fits_of_parse parsed
  refine ⟨Ip.Header.bare_replyTemplate fits, ?_, ?_⟩
  · rw [← protocol]
    cases d.ip <;> rfl
  · cases ip : d.ip <;> rw [ip] at short <;> exact short

private theorem length_of_parse {version : UInt8} {bytes : Bytes} {message : Icmp.Message}
    (parsed : Icmp.Message.parse version bytes = .ok message) :
    Icmp.Message.headerLength + message.data.length = bytes.length ∧
      message.ipVersion = version := by
  unfold Icmp.Message.parse at parsed
  split at parsed
  · obtain rfl := Except.ok.inj parsed
    refine ⟨?_, rfl⟩
    simp [Icmp.Message.headerLength]
    omega
  · cases parsed

theorem length_body_le {buffer : Bytes} {ip : Ip.Header} (fits : ip.Fits) :
    (Inbound.body ip buffer).length ≤ ip.room := by
  have within : (Inbound.body ip buffer).length ≤ ip.payloadLength := by
    unfold Inbound.body Ip.Header.totalLength
    simp
    omega
  refine Nat.le_trans within ?_
  cases ip with
  | v4 h =>
    have least := fits.least
    rw [UInt8.le_iff_toNat_le] at least
    have total := h.totalLength.toNat_lt
    show h.totalLength.toNat - h.ihl.toNat * 4 ≤ 65515
    simp only [UInt8.reduceToNat] at least
    omega
  | v6 h =>
    have := h.payloadLength.toNat_lt
    show h.payloadLength.toNat ≤ 65535
    omega

theorem kind_echoReply {message : Icmp.Message} (request : message.kind = .echoRequest) :
    message.echoReply.kind = .echoReply := by
  obtain ⟨version, type, code, checksum, identifier, sequence, data⟩ := message
  unfold Icmp.Message.kind at request
  simp only at request
  split at request <;> first | rfl | cases request

theorem sound_echoReply {e : Inbound.Echo} (read : e.Read) {draft : Draft}
    (reply : e.reply = .ok draft) :
    draft.Sound := by
  obtain ⟨buffer, parsed, protocol, message, request⟩ := read.parts
  have fits := Ip.Header.fits_of_parse parsed
  obtain ⟨length, version⟩ := length_of_parse message
  have within : Icmp.Message.headerLength + e.message.data.length ≤ e.ip.room := by
    rw [length]
    exact length_body_le fits
  have kind := kind_echoReply request
  have echo : e.message.echoReply.isEcho = true := by
    unfold Icmp.Message.isEcho
    simp [kind]
  unfold Inbound.Echo.reply echoMessage at reply
  rw [if_pos echo] at reply
  obtain rfl := Except.ok.inj reply
  cases ip : e.ip with
  | v4 h =>
    rw [ip] at protocol version within fits
    exact ⟨⟨rfl, rfl, fits.dscp, fits.ecn, fits.fragmentOffset⟩, protocol, version, kind, within⟩
  | v6 h =>
    rw [ip] at protocol version within fits
    exact ⟨⟨fits.flowLabel⟩, protocol, version, kind, within⟩

private theorem room_of_limit {d : Inbound.Datagram} {n : Nat} (within : n ≤ d.key.datagramLimit) :
    Udp.Header.headerLength + n ≤ d.ip.room := by
  unfold Key.datagramLimit at within
  have same : d.key.destination = d.ip.destination := rfl
  rw [same] at within
  cases ip : d.ip with
  | v4 h =>
    rw [ip] at within
    have within : n ≤ 65507 := within
    show 8 + n ≤ 65515
    omega
  | v6 h =>
    rw [ip] at within
    have within : n ≤ 65527 := within
    show 8 + n ≤ 65535
    omega

/-- A draft that answers the flow of a packet that was read: a segment with a header of its own, or
a datagram with a payload that was delivered. -/
inductive Replies (key : Key) (delivered : Bytes → Prop) : Draft → Prop
  | segment (s : Inbound.Segment) (read : s.Read) (own : s.key = key) (reply : Tcp.Header)
      (answers : s.tcp.AnsweredBy reply) (payload : Bytes)
      (short : payload.length ≤ Tcp.maxMss.toNat) : Replies key delivered (answer s.ip reply payload)
  | datagram (d : Inbound.Datagram) (read : d.Read) (own : d.key = key) (payload : Bytes)
      (received : delivered payload) : Replies key delivered (response d.ip d.udp payload)

/-- An answer is sound, if a datagram in it is no longer than datagrams can be. -/
theorem Replies.sound {key : Key} {delivered : Bytes → Prop} {draft : Draft}
    (replies : draft.Replies key delivered)
    (fits : key.protocol = .udp → ∀ payload, delivered payload →
      payload.length ≤ key.datagramLimit) : draft.Sound := by
  cases replies with
  | segment s read own reply answers payload short =>
    exact sound_answer read answers.toModest short
  | datagram d read own payload received =>
    subst own
    exact sound_response read (room_of_limit (fits rfl payload received))

section Segments

variable {key : Key} {delivered : Bytes → Prop} {s : Inbound.Segment} (read : s.Read)
  (own : s.key = key)

include read own

theorem replies_synAck (isn now : UInt32) : (synAck s.ip s.tcp isn now).Replies key delivered :=
  .segment s read own _ (Tcp.Header.answeredBy_withMss ..) [] (Nat.zero_le _)

theorem replies_ack (ack : UInt32) (timestamps : Option Tcp.Timestamps) :
    (Draft.ack s.ip s.tcp ack timestamps).Replies key delivered :=
  .segment s read own _ (Tcp.Header.answeredBy_withTimestamps? ..) [] (Nat.zero_le _)

theorem replies_finAck (seq ack : UInt32) : (finAck s.ip s.tcp seq ack).Replies key delivered :=
  .segment s read own _ (Tcp.Header.answeredBy_reply ..) [] (Nat.zero_le _)

theorem replies_reset (n : Nat) : (reset s.ip s.tcp n).Replies key delivered := by
  unfold reset
  simp only
  split
  · exact .segment s read own _ (Tcp.Header.answeredBy_reply ..) [] (Nat.zero_le _)
  · exact .segment s read own _ (Tcp.Header.answeredBy_reply ..) [] (Nat.zero_le _)

theorem replies_data (seq ack : UInt32) {payload : Bytes} (timestamps : Option Tcp.Timestamps)
    (short : payload.length ≤ Tcp.maxMss.toNat) :
    (data s.ip s.tcp seq ack payload timestamps).Replies key delivered :=
  .segment s read own _ (Tcp.Header.answeredBy_withTimestamps? ..) payload short

end Segments

end Draft

theorem Relay.Aside.sound {purpose : Purpose} {draft : Draft}
    (aside : Relay.Aside (.write purpose draft)) : draft.Sound := by
  -- These answers are segments, whatever is delivered.
  have segments : ∀ {s : Inbound.Segment}, draft.Replies s.key (fun _ => False) → draft.Sound :=
    fun replies => replies.sound fun _ _ => False.elim
  cases aside with
  | reset s read n => exact segments (Draft.replies_reset read rfl n)
  | acknowledgment s read => exact segments (Draft.replies_ack read rfl _ none)
  | finAnswer s read => exact segments (Draft.replies_finAck read rfl _ _)
  | echoReply e read draft reply => exact Draft.sound_echoReply read reply

end PacketRelay
