import PacketRelay.Proofs.Answer
import PacketRelay.Proofs.RoundTrip
import PacketRelay.Relay.Handling

/-!
Two ways to read a packet.

A packet from the tunnel is cut at its IP total length before its transport header is read. A packet
on its own is read from the whole buffer, and only its payload is cut. Both read the same headers
and the same payload, unless the total length ends within the transport header: then only the second
succeeds.
-/

set_option autoImplicit false

namespace PacketRelay

open Wire

private theorem Wire.Exact.parse_take {H : Type} {parse : Bytes → Except PacketError H}
    {write : H → Bytes} {headerLength : H → Nat} {Fits : H → Prop}
    (codec : Exact parse write headerLength Fits)
    (bytes : Bytes) (n : Nat) (h : H) :
    parse (bytes.take n) = .ok h ↔ parse bytes = .ok h ∧ headerLength h ≤ n := by
  constructor
  · intro parsed
    obtain ⟨fits, within, front⟩ := codec.read parsed
    have short : headerLength h ≤ n := Nat.le_trans within (List.length_take_le n bytes)
    rw [List.take_take, Nat.min_eq_left short] at front
    have whole := codec.written fits (bytes.drop (headerLength h))
    rw [front, List.take_append_drop] at whole
    exact ⟨whole, short⟩
  · rintro ⟨parsed, short⟩
    obtain ⟨fits, -, front⟩ := codec.read parsed
    have cut : bytes.take n = write h ++ (bytes.take n).drop (headerLength h) := by
      rw [front, ← Nat.min_eq_left short, ← List.take_take, Nat.min_eq_left short,
        List.take_append_drop]
    rw [cut]
    exact codec.written fits _

section Reading

variable {α β : Type} {read : Except PacketError α} {b : β}

private theorem bind_eq_ok {f : α → Except PacketError β} :
    (read >>= f) = .ok b ↔ ∃ a, read = .ok a ∧ f a = .ok b := by
  cases read <;> simp [bind, Except.bind]

private theorem map_eq_ok {f : α → β} : read.map f = .ok b ↔ ∃ a, read = .ok a ∧ f a = b := by
  cases read <;> simp [Except.map]

end Reading

namespace Transport

variable {protocol : Ip.Protocol} {transport : Transport}

/-- Reads the transport header of a protocol. -/
def parse : Ip.Protocol → Bytes → Except PacketError Transport
  | .tcp, segment => (Tcp.Header.parse segment).map .tcp
  | .udp, datagram => (Udp.Header.parse datagram).map .udp
  | _, _ => .error (.malformed .notTcpOrUdp)

private theorem parse_take (bytes : Bytes) (n : Nat) :
    parse protocol (bytes.take n) = .ok transport ↔
      parse protocol bytes = .ok transport ∧ transport.headerLength ≤ n := by
  cases protocol with
  | tcp =>
    simp only [parse, map_eq_ok, Tcp.Header.exact.parse_take]
    constructor
    · rintro ⟨tcp, ⟨parsed, short⟩, rfl⟩
      exact ⟨⟨tcp, parsed, rfl⟩, short⟩
    · rintro ⟨⟨tcp, parsed, rfl⟩, short⟩
      exact ⟨tcp, ⟨parsed, short⟩, rfl⟩
  | udp =>
    simp only [parse, map_eq_ok, Udp.Header.exact.parse_take]
    constructor
    · rintro ⟨udp, ⟨parsed, short⟩, rfl⟩
      exact ⟨⟨udp, parsed, rfl⟩, short⟩
    · rintro ⟨⟨udp, parsed, rfl⟩, short⟩
      exact ⟨udp, ⟨parsed, short⟩, rfl⟩
  | icmp | other => simp [parse]

private theorem relayed_of_parse {bytes : Bytes} (parsed : parse protocol bytes = .ok transport) :
    protocol = .tcp ∨ protocol = .udp := by
  cases protocol with
  | tcp => exact .inl rfl
  | udp => exact .inr rfl
  | icmp | other => cases parsed

end Transport

section Decoders

variable {buffer payload : Bytes} {ip : Ip.Header} {transport : Transport} {p : Packet}

private theorem Packet.parse_eq_ok : Packet.parse buffer = .ok p ↔
    Ip.Header.parse buffer = .ok p.ip ∧
      Transport.parse p.ip.protocol (buffer.drop p.ip.headerLength) = .ok p.transport ∧
      buffer = p.buffer := by
  have by_parts : Packet.parse buffer = Ip.Header.parse buffer >>= fun ip =>
      (Transport.parse ip.protocol (buffer.drop ip.headerLength)).map (⟨ip, ·, buffer⟩) := by
    unfold Packet.parse
    congr 1
    funext ip
    cases ip.protocol with
    | tcp =>
      simp only [Transport.parse]
      cases Tcp.Header.parse (buffer.drop ip.headerLength) <;> rfl
    | udp =>
      simp only [Transport.parse]
      cases Udp.Header.parse (buffer.drop ip.headerLength) <;> rfl
    | icmp | other => rfl
  obtain ⟨ip, transport, bytes⟩ := p
  simp only [by_parts, bind_eq_ok, map_eq_ok, Packet.mk.injEq]
  constructor
  · rintro ⟨_, header, _, parsed, rfl, rfl, whole⟩
    exact ⟨header, parsed, whole⟩
  · rintro ⟨header, parsed, whole⟩
    exact ⟨ip, header, transport, parsed, rfl, rfl, whole⟩

namespace Inbound

/-- The headers and the payload of a TCP or UDP packet from the tunnel. -/
def content? : Inbound → Option (Ip.Header × Transport × Bytes)
  | segment s => some (s.ip, .tcp s.tcp, s.payload)
  | datagram d => some (d.ip, .udp d.udp, d.payload)
  | _ => none

/-- A packet with a transport header in front of its body. -/
def ofTransport (ip : Ip.Header) (body : Bytes) : Transport → Inbound
  | .tcp tcp => .segment ⟨ip, tcp, body⟩
  | .udp udp => .datagram ⟨ip, udp, body.drop Udp.Header.headerLength⟩

@[simp] theorem content?_ofTransport (ip : Ip.Header) (body : Bytes) (transport : Transport) :
    (ofTransport ip body transport).content? =
      some (ip, transport, body.drop transport.headerLength) := by
  cases transport <;> rfl

private theorem body_eq (ip : Ip.Header) (buffer : Bytes) :
    body ip buffer = (buffer.drop ip.headerLength).take ip.payloadLength := by
  unfold body Ip.Header.totalLength
  rw [List.drop_take, Nat.add_sub_cancel_left]

private theorem parse_eq_transport (header : Ip.Header.parse buffer = .ok ip)
    (relayed : ip.protocol = .tcp ∨ ip.protocol = .udp) :
    Inbound.parse buffer =
      (Transport.parse ip.protocol (body ip buffer)).map (ofTransport ip (body ip buffer)) := by
  unfold Inbound.parse
  rw [header]
  simp only [bind, Except.bind]
  obtain protocol | protocol := relayed <;> simp only [protocol, Transport.parse]
  · cases Tcp.Header.parse (body ip buffer) <;> rfl
  · cases Udp.Header.parse (body ip buffer) <;> rfl

private theorem header_of_content {packet : Inbound} (parsed : Inbound.parse buffer = .ok packet)
    (content : packet.content? = some (ip, transport, payload)) :
    Ip.Header.parse buffer = .ok ip ∧ (ip.protocol = .tcp ∨ ip.protocol = .udp) := by
  obtain ⟨read, header, parts⟩ := parse_eq_ok parsed
  cases protocol : read.protocol <;> simp only [protocol] at parts
  case tcp =>
    obtain ⟨tcp, -, rfl⟩ := parts
    cases content
    exact ⟨header, .inl protocol⟩
  case udp =>
    obtain ⟨udp, -, rfl⟩ := parts
    cases content
    exact ⟨header, .inr protocol⟩
  case icmp => obtain rfl | ⟨_, -, -, rfl⟩ := parseIcmp_eq_ok parts <;> cases content
  case other =>
    obtain rfl := parts
    cases content

private theorem parse_content :
    (∃ packet, Inbound.parse buffer = .ok packet ∧
        packet.content? = some (ip, transport, payload)) ↔
      ∃ p, Packet.parse buffer = .ok p ∧ p.ip = ip ∧ p.transport = transport ∧
        p.payload = payload ∧ ip.headerLength + transport.headerLength ≤ ip.totalLength := by
  have fits : transport.headerLength ≤ ip.payloadLength ↔
      ip.headerLength + transport.headerLength ≤ ip.totalLength := by
    unfold Ip.Header.totalLength
    omega
  have behind : Packet.payload ⟨ip, transport, buffer⟩ =
      (body ip buffer).drop transport.headerLength := (List.drop_drop ..).symm
  constructor
  · rintro ⟨packet, parsed, content⟩
    obtain ⟨header, relayed⟩ := header_of_content parsed content
    rw [parse_eq_transport header relayed] at parsed
    obtain ⟨transport, segment, rfl⟩ := map_eq_ok.1 parsed
    cases (content?_ofTransport ..).symm.trans content
    rw [body_eq, Transport.parse_take] at segment
    exact ⟨⟨ip, transport, buffer⟩, Packet.parse_eq_ok.2 ⟨header, segment.1, rfl⟩, rfl, rfl, behind,
      fits.1 segment.2⟩
  · rintro ⟨p, parsed, rfl, rfl, rfl, within⟩
    obtain ⟨header, segment, rfl⟩ := Packet.parse_eq_ok.1 parsed
    have cut : Transport.parse p.ip.protocol (body p.ip p.buffer) = .ok p.transport := by
      rw [body_eq, Transport.parse_take]
      exact ⟨segment, fits.2 within⟩
    rw [parse_eq_transport header (Transport.relayed_of_parse segment), cut]
    exact ⟨_, rfl, by rw [content?_ofTransport, ← behind]⟩

private theorem content_of_packet (whole : Packet.parse buffer = .ok p) {packet : Inbound}
    (parsed : Inbound.parse buffer = .ok packet) :
    packet.content? = some (p.ip, p.transport, p.payload) := by
  obtain ⟨header, segment, -⟩ := Packet.parse_eq_ok.1 whole
  have cut := parsed
  rw [parse_eq_transport header (Transport.relayed_of_parse segment)] at cut
  obtain ⟨transport, -, rfl⟩ := map_eq_ok.1 cut
  obtain ⟨same, again, -, rfl, behind, -⟩ := parse_content.1 ⟨_, parsed, content?_ofTransport ..⟩
  obtain rfl := Except.ok.inj (again.symm.trans whole)
  rw [content?_ofTransport, behind]

private theorem error_iff_of_packet (whole : Packet.parse buffer = .ok p) :
    (∃ e, Inbound.parse buffer = .error e) ↔
      p.ip.totalLength < p.ip.headerLength + p.transport.headerLength := by
  have accepted : (∃ packet, Inbound.parse buffer = .ok packet) ↔
      p.ip.headerLength + p.transport.headerLength ≤ p.ip.totalLength := by
    constructor
    · rintro ⟨packet, parsed⟩
      obtain ⟨_, -, -, -, -, within⟩ := parse_content.1 ⟨_, parsed, content_of_packet whole parsed⟩
      exact within
    · intro within
      obtain ⟨packet, parsed, -⟩ := parse_content.2 ⟨p, whole, rfl, rfl, rfl, within⟩
      exact ⟨packet, parsed⟩
  rw [← Nat.not_le, ← accepted]
  cases Inbound.parse buffer <;> simp

end Inbound

end Decoders

namespace Relay

private theorem handlePacket_error_iff {r : Relay} {buffer : Bytes} {isn : UInt32}
    {prospect : Socket.Prospect} :
    (∃ e, r.handlePacket buffer isn prospect = .error e) ↔ ∃ e, Inbound.parse buffer = .error e := by
  unfold handlePacket
  cases Inbound.parse buffer <;> simp [Except.map]

/-- Wherever a segment or a datagram is read, the packet on its own has the same headers and the
same payload. A packet on its own is refused exactly if its total length ends within its headers,
and then it has no payload. -/
theorem handlePacket_agrees (r : Relay) (buffer : Bytes) (isn : UInt32)
    (prospect : Socket.Prospect) :
    (∀ s, Inbound.parse buffer = .ok (.segment s) →
      r.handlePacket buffer isn prospect = .ok (r.handleSegment s isn prospect) ∧
        ∃ p, Packet.parse buffer = .ok p ∧ p.ip = s.ip ∧ p.transport = .tcp s.tcp ∧
          p.payload = s.payload) ∧
    (∀ d, Inbound.parse buffer = .ok (.datagram d) →
      r.handlePacket buffer isn prospect = .ok (r.handleDatagram d prospect) ∧
        ∃ p, Packet.parse buffer = .ok p ∧ p.ip = d.ip ∧ p.transport = .udp d.udp ∧
          p.payload = d.payload) ∧
    ∀ p, Packet.parse buffer = .ok p →
      ((∃ e, r.handlePacket buffer isn prospect = .error e) ↔
        p.ip.totalLength < p.ip.headerLength + p.transport.headerLength) ∧
      ((∃ e, r.handlePacket buffer isn prospect = .error e) → p.payload = []) := by
  refine ⟨fun s parsed => ?_, fun d parsed => ?_, fun p whole => ?_⟩
  · obtain ⟨p, whole, ip, transport, payload, -⟩ := Inbound.parse_content.1 ⟨_, parsed, rfl⟩
    refine ⟨?_, p, whole, ip, transport, payload⟩
    rw [handlePacket, parsed]
    rfl
  · obtain ⟨p, whole, ip, transport, payload, -⟩ := Inbound.parse_content.1 ⟨_, parsed, rfl⟩
    refine ⟨?_, p, whole, ip, transport, payload⟩
    rw [handlePacket, parsed]
    rfl
  · rw [handlePacket_error_iff, Inbound.error_iff_of_packet whole]
    refine ⟨Iff.rfl, fun short => ?_⟩
    exact List.drop_eq_nil_of_le (Nat.le_trans (List.length_take_le ..) (Nat.le_of_lt short))

/-- A datagram with three bytes behind its total length. -/
def padded : Bytes :=
  [0x45, 0, 0, 30, 0, 0, 0, 0, 64, 17, 0, 0, 10, 0, 0, 1, 10, 0, 0, 2] ++
    [0, 53, 0, 53, 0, 10, 0, 0, 1, 2] ++ [7, 7, 7]

/-- A segment whose total length ends five bytes behind its IP header. -/
def curtailed : Bytes :=
  [0x45, 0, 0, 25, 0, 0, 0, 0, 64, 6, 0, 0, 10, 0, 0, 1, 10, 0, 0, 2] ++
    [0, 80, 0, 90, 0, 0, 0, 1, 0, 0, 0, 2, 0x50, 0x10, 0, 0, 0, 0, 0, 0]

theorem handlePacket_agrees_lengths :
    (∃ d p, Inbound.parse padded = .ok (.datagram d) ∧ Packet.parse padded = .ok p ∧
      p.ip = d.ip ∧ p.transport = .udp d.udp ∧ p.payload = d.payload ∧ d.payload = [1, 2]) ∧
    ∃ p e, Packet.parse curtailed = .ok p ∧
      (start .plain 0 1 1).handlePacket curtailed 0 (.smooth []) = .error e ∧
      p.ip.totalLength < p.ip.headerLength + p.transport.headerLength ∧ p.payload = [] := by
  constructor
  · obtain ⟨-, p, whole, same⟩ :=
      (handlePacket_agrees (start .plain 0 1 1) padded 0 (.smooth [])).2.1 _ rfl
    exact ⟨_, p, rfl, whole, same.1, same.2.1, same.2.2, rfl⟩
  · obtain ⟨refused, empty⟩ :=
      (handlePacket_agrees (start .plain 0 1 1) curtailed 0 (.smooth [])).2.2 _ rfl
    obtain ⟨e, error⟩ := refused.2 (by decide)
    exact ⟨_, e, rfl, error, by decide, empty ⟨e, error⟩⟩

end Relay
end PacketRelay
