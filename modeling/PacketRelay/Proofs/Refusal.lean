import PacketRelay.Packet.Inbound

/-!
Which buffers are refused.

What is wrong with a buffer can be told from its bytes and its length alone: `HeaderFlawed` tells it
of the IP header, and `BodyFlawed` of what the lengths in the header leave as the body. A buffer is
refused if one of them holds, and it is read otherwise.
-/

set_option autoImplicit false

namespace PacketRelay

open Wire

/-- A byte of a buffer; beyond the end it counts as zero. -/
def octet (buffer : Bytes) (i : Nat) : UInt8 := buffer.getD i 0

namespace Refusal

/-- The first four bits. -/
def version (buffer : Bytes) : UInt8 := octet buffer 0 / 16

/-- An IPv4 header that is cut short or contradicts itself. -/
def V4Flawed (buffer : Bytes) : Prop :=
  buffer.length < 20 ∨ octet buffer 0 % 16 < 5 ∨
    buffer.length < (octet buffer 0 % 16).toNat * 4 ∨
    (word16 (octet buffer 2) (octet buffer 3)).toNat < (octet buffer 0 % 16).toNat * 4

def HeaderFlawed (buffer : Bytes) : Prop :=
  buffer = [] ∨ (version buffer ≠ 4 ∧ version buffer ≠ 6) ∨
    (version buffer = 4 ∧ V4Flawed buffer) ∨ (version buffer = 6 ∧ buffer.length < 40)

def headerLength (buffer : Bytes) : Nat :=
  if version buffer = 4 then (octet buffer 0 % 16).toNat * 4 else 40

/-- The length that the header states, its own included. -/
def totalLength (buffer : Bytes) : Nat :=
  if version buffer = 4 then (word16 (octet buffer 2) (octet buffer 3)).toNat
  else 40 + (word16 (octet buffer 4) (octet buffer 5)).toNat

def body (buffer : Bytes) : Bytes :=
  (buffer.take (min (totalLength buffer) buffer.length)).drop (headerLength buffer)

def protocol (buffer : Bytes) : UInt8 :=
  if version buffer = 4 then octet buffer 9 else octet buffer 6

def icmpNumber (version : UInt8) : UInt8 := if version = 4 then 1 else 58

/-- The types of the ICMP messages that are not refused: echo requests, unreachable destinations,
and in IPv6 router solicitations. -/
def heeded (version : UInt8) : List UInt8 := if version = 4 then [8, 3] else [128, 1, 133]

def TcpFlawed (segment : Bytes) : Prop :=
  segment.length < 20 ∨ octet segment 12 / 16 < 5 ∨
    segment.length < (octet segment 12 / 16).toNat * 4

def IcmpFlawed (version : UInt8) (message : Bytes) : Prop :=
  message.length < 8 ∨ octet message 0 ∉ heeded version

def BodyFlawed (buffer : Bytes) : Prop :=
  (protocol buffer = 6 ∧ TcpFlawed (body buffer)) ∨
    (protocol buffer = 17 ∧ (body buffer).length < 8) ∨
    (protocol buffer = icmpNumber (version buffer) ∧ IcmpFlawed (version buffer) (body buffer))

instance (buffer : Bytes) : Decidable (V4Flawed buffer) :=
  inferInstanceAs (Decidable (_ ∨ _ ∨ _ ∨ _))

instance (buffer : Bytes) : Decidable (HeaderFlawed buffer) :=
  inferInstanceAs (Decidable (_ ∨ _ ∨ _ ∨ _))

instance (segment : Bytes) : Decidable (TcpFlawed segment) :=
  inferInstanceAs (Decidable (_ ∨ _ ∨ _))

instance (version : UInt8) (message : Bytes) : Decidable (IcmpFlawed version message) :=
  inferInstanceAs (Decidable (_ ∨ _))

instance (buffer : Bytes) : Decidable (BodyFlawed buffer) :=
  inferInstanceAs (Decidable (_ ∨ _ ∨ _))

end Refusal

def Refused (buffer : Bytes) : Prop := Refusal.HeaderFlawed buffer ∨ Refusal.BodyFlawed buffer

instance (buffer : Bytes) : Decidable (Refused buffer) := inferInstanceAs (Decidable (_ ∨ _))

section Lengths

variable {buffer : Bytes}

theorem Bytes.eight (long : 8 ≤ buffer.length) : ∃ b0 b1 b2 b3 b4 b5 b6 b7 rest,
    buffer = b0 :: b1 :: b2 :: b3 :: b4 :: b5 :: b6 :: b7 :: rest := by
  match buffer, long with
  | b0 :: b1 :: b2 :: b3 :: b4 :: b5 :: b6 :: b7 :: rest, _ =>
    exact ⟨b0, b1, b2, b3, b4, b5, b6, b7, rest, rfl⟩

theorem Bytes.twenty (long : 20 ≤ buffer.length) :
    ∃ b0 b1 b2 b3 b4 b5 b6 b7 b8 b9 b10 b11 b12 b13 b14 b15 b16 b17 b18 b19 rest,
      buffer = b0 :: b1 :: b2 :: b3 :: b4 :: b5 :: b6 :: b7 :: b8 :: b9 :: b10 :: b11 :: b12 ::
        b13 :: b14 :: b15 :: b16 :: b17 :: b18 :: b19 :: rest := by
  obtain ⟨b0, b1, b2, b3, b4, b5, b6, b7, rest, rfl⟩ :=
    Bytes.eight (Nat.le_trans (by decide : 8 ≤ 20) long)
  have long : 12 ≤ rest.length := by simpa using long
  obtain ⟨b8, b9, b10, b11, b12, b13, b14, b15, rest, rfl⟩ :=
    Bytes.eight (Nat.le_trans (by decide : 8 ≤ 12) long)
  have long : 4 ≤ rest.length := by simpa using long
  match rest, long with
  | b16 :: b17 :: b18 :: b19 :: rest, _ =>
    exact ⟨b0, b1, b2, b3, b4, b5, b6, b7, b8, b9, b10, b11, b12, b13, b14, b15, b16, b17, b18, b19,
      rest, rfl⟩

theorem Ip.V4Header.parse_short (short : buffer.length < minLength) :
    parse buffer = .error (.truncated .ipv4Header minLength buffer.length) := by
  unfold parse
  split
  · simp [minLength] at short
    omega
  · rfl

theorem Tcp.Header.parse_short (short : buffer.length < minLength) :
    parse buffer = .error (.truncated .tcpHeader minLength buffer.length) := by
  unfold parse
  split
  · simp [minLength] at short
    omega
  · rfl

theorem Udp.Header.parse_short (short : buffer.length < headerLength) :
    parse buffer = .error (.truncated .udpHeader headerLength buffer.length) := by
  unfold parse
  split
  · simp [headerLength] at short
    omega
  · rfl

theorem Icmp.Message.parse_short {ipVersion : UInt8} (short : buffer.length < headerLength) :
    parse ipVersion buffer = .error (.truncated .icmpHeader headerLength buffer.length) := by
  unfold parse
  split
  · simp [headerLength] at short
    omega
  · rfl

end Lengths

namespace Refusal

variable {buffer segment : Bytes} {ip : Ip.Header}

private theorem v4_flawed (four : version buffer = 4) (flawed : V4Flawed buffer) :
    ∃ e, Ip.V4Header.parse buffer = .error e := by
  by_cases short : buffer.length < 20
  · exact ⟨_, Ip.V4Header.parse_short short⟩
  obtain ⟨b0, b1, b2, b3, b4, b5, b6, b7, b8, b9, b10, b11, s0, s1, s2, s3, d0, d1, d2, d3, rest,
    rfl⟩ := Bytes.twenty (Nat.not_lt.1 short)
  have four : b0 / 16 = 4 := four
  unfold Ip.V4Header.parse
  simp only
  rw [if_neg (not_not_intro four)]
  by_cases least : b0 % 16 < 5
  · exact ⟨_, if_pos least⟩
  rw [if_neg least]
  by_cases cut : rest.length < (b0 % 16).toNat * 4 - Ip.V4Header.minLength
  · exact ⟨_, if_pos cut⟩
  rw [if_neg cut]
  refine ⟨_, if_pos ?_⟩
  refine ((flawed.resolve_left short).resolve_left least).resolve_left fun long => cut ?_
  have long : rest.length + 20 < (b0 % 16).toNat * 4 := long
  simp only [Ip.V4Header.minLength]
  omega

private theorem v4_sound (four : version buffer = 4) (sound : ¬ V4Flawed buffer) :
    ∃ h, Ip.V4Header.parse buffer = .ok h ∧ h.ihl = octet buffer 0 % 16 ∧
      h.totalLength = word16 (octet buffer 2) (octet buffer 3) ∧ h.protocol = octet buffer 9 := by
  unfold V4Flawed at sound
  simp only [not_or] at sound
  obtain ⟨long, least, within, total⟩ := sound
  obtain ⟨b0, b1, b2, b3, b4, b5, b6, b7, b8, b9, b10, b11, s0, s1, s2, s3, d0, d1, d2, d3, rest,
    rfl⟩ := Bytes.twenty (Nat.not_lt.1 long)
  have four : b0 / 16 = 4 := four
  have within : ¬ rest.length + 20 < (b0 % 16).toNat * 4 := within
  unfold Ip.V4Header.parse
  simp only
  rw [if_neg (not_not_intro four), if_neg (show ¬ b0 % 16 < 5 from least),
    if_neg (by simp only [Ip.V4Header.minLength]; omega),
    if_neg (show ¬ (word16 b2 b3).toNat < (b0 % 16).toNat * 4 from total)]
  exact ⟨_, rfl, rfl, rfl, rfl⟩

private theorem v6_sound (six : version buffer = 6) (long : 40 ≤ buffer.length) :
    ∃ h, Ip.V6Header.parse buffer = .ok h ∧
      h.payloadLength = word16 (octet buffer 4) (octet buffer 5) ∧
      h.nextHeader = octet buffer 6 := by
  obtain ⟨b0, b1, b2, b3, b4, b5, b6, b7, addresses, rfl⟩ :=
    Bytes.eight (Nat.le_trans (by decide : 8 ≤ 40) long)
  have six : b0 / 16 = 6 := six
  unfold Ip.V6Header.parse
  rw [if_neg (show ¬ (b0 :: b1 :: b2 :: b3 :: b4 :: b5 :: b6 :: b7 :: addresses).length <
    Ip.V6Header.length from Nat.not_lt.2 long)]
  simp only
  rw [if_neg (not_not_intro six)]
  exact ⟨_, rfl, rfl, rfl⟩

/-- A header is what the bytes say. -/
structure Tells (buffer : Bytes) (ip : Ip.Header) : Prop where
  version : ip.version = Refusal.version buffer
  known : Refusal.version buffer = 4 ∨ Refusal.version buffer = 6
  headerLength : ip.headerLength = Refusal.headerLength buffer
  totalLength : ip.totalLength = Refusal.totalLength buffer
  protocol : ip.protocol =
    Ip.Protocol.ofNumber (Refusal.protocol buffer) (icmpNumber (Refusal.version buffer))
  within : ip.headerLength ≤ buffer.length

private theorem header_flawed (flawed : HeaderFlawed buffer) :
    ∃ e, Ip.Header.parse buffer = .error e := by
  cases buffer with
  | nil => exact ⟨_, rfl⟩
  | cons first rest =>
    unfold Ip.Header.parse
    simp only
    rcases flawed with none_there | ⟨not4, not6⟩ | ⟨four, flawed⟩ | ⟨six, short⟩
    · cases none_there
    · rw [if_neg (show first / 16 ≠ 4 from not4), if_neg (show first / 16 ≠ 6 from not6)]
      exact ⟨_, rfl⟩
    · obtain ⟨e, refused⟩ := v4_flawed four flawed
      rw [if_pos (show first / 16 = 4 from four), refused]
      exact ⟨e, rfl⟩
    · have six : first / 16 = 6 := six
      have refused : Ip.V6Header.parse (first :: rest) = .error _ := if_pos short
      rw [if_neg (by rw [six]; decide), if_pos six, refused]
      exact ⟨_, rfl⟩

private theorem header_sound (sound : ¬ HeaderFlawed buffer) :
    ∃ ip, Ip.Header.parse buffer = .ok ip ∧ Tells buffer ip := by
  cases buffer with
  | nil => exact absurd (.inl rfl) sound
  | cons first rest =>
    unfold HeaderFlawed at sound
    simp only [not_or, not_and] at sound
    obtain ⟨-, known, sound4, sound6⟩ := sound
    unfold Ip.Header.parse
    simp only
    by_cases four : version (first :: rest) = 4
    · obtain ⟨h, parsed, ihl, total, protocol_eq⟩ := v4_sound four (sound4 four)
      have sound := sound4 four
      simp only [V4Flawed, not_or] at sound
      obtain ⟨-, -, within, enough⟩ := sound
      rw [if_pos (show first / 16 = 4 from four), parsed]
      refine ⟨.v4 h, rfl, four.symm, .inl four, ?_, ?_, ?_, ?_⟩
      · rw [headerLength, if_pos four, ← ihl]
        rfl
      · show h.ihl.toNat * 4 + (h.totalLength.toNat - h.ihl.toNat * 4) = _
        rw [totalLength, if_pos four, ihl, total]
        omega
      · rw [protocol, if_pos four, icmpNumber, if_pos four, ← protocol_eq]
        rfl
      · show h.ihl.toNat * 4 ≤ _
        rw [ihl]
        exact Nat.not_lt.1 within
    · have six : version (first :: rest) = 6 := Decidable.not_not.1 (known four)
      have long := Nat.not_lt.1 (sound6 six)
      obtain ⟨h, parsed, payload, next⟩ := v6_sound six long
      rw [if_neg (show first / 16 ≠ 4 from four), if_pos (show first / 16 = 6 from six), parsed]
      refine ⟨.v6 h, rfl, six.symm, .inr six, ?_, ?_, ?_, long⟩
      · rw [headerLength, if_neg four]
        rfl
      · show 40 + h.payloadLength.toNat = _
        rw [totalLength, if_neg four, payload]
      · rw [protocol, if_neg four, icmpNumber, if_neg four, ← next]
        rfl

theorem tells_of_parse (parsed : Ip.Header.parse buffer = .ok ip) : Tells buffer ip := by
  have sound : ¬ HeaderFlawed buffer := by
    intro flawed
    obtain ⟨e, refused⟩ := header_flawed flawed
    rw [refused] at parsed
    cases parsed
  obtain ⟨header, same, tells⟩ := header_sound sound
  obtain rfl : ip = header := Except.ok.inj (parsed.symm.trans same)
  exact tells

private theorem Tells.body (tells : Tells buffer ip) : Inbound.body ip buffer = body buffer := by
  unfold Inbound.body Refusal.body
  rw [tells.totalLength, tells.headerLength, List.take_eq_take_min]

private theorem tcp_flawed
    (flawed : TcpFlawed segment) : ∃ e, Tcp.Header.parse segment = .error e := by
  by_cases short : segment.length < 20
  · exact ⟨_, Tcp.Header.parse_short short⟩
  obtain ⟨b0, b1, b2, b3, b4, b5, b6, b7, b8, b9, b10, b11, b12, b13, b14, b15, b16, b17, b18, b19,
    rest, rfl⟩ := Bytes.twenty (Nat.not_lt.1 short)
  unfold Tcp.Header.parse
  simp only
  by_cases least : b12 / 16 < 5
  · exact ⟨_, if_pos least⟩
  rw [if_neg least]
  have long : rest.length + 20 < (b12 / 16).toNat * 4 :=
    (flawed.resolve_left short).resolve_left least
  refine ⟨_, if_pos ?_⟩
  simp only [Tcp.Header.minLength]
  omega

private theorem tcp_sound (sound : ¬ TcpFlawed segment) :
    ∃ h, Tcp.Header.parse segment = .ok h ∧ h.headerLength ≤ segment.length := by
  unfold TcpFlawed at sound
  simp only [not_or] at sound
  obtain ⟨long, least, within⟩ := sound
  obtain ⟨b0, b1, b2, b3, b4, b5, b6, b7, b8, b9, b10, b11, b12, b13, b14, b15, b16, b17, b18, b19,
    rest, rfl⟩ := Bytes.twenty (Nat.not_lt.1 long)
  have within : ¬ rest.length + 20 < (b12 / 16).toNat * 4 := within
  unfold Tcp.Header.parse
  simp only
  rw [if_neg (show ¬ b12 / 16 < 5 from least), if_neg (by simp only [Tcp.Header.minLength]; omega)]
  exact ⟨_, rfl, Nat.not_lt.1 within⟩

theorem tcp_within {tcp : Tcp.Header} (parsed : Tcp.Header.parse segment = .ok tcp) :
    tcp.headerLength ≤ segment.length := by
  have sound : ¬ TcpFlawed segment := by
    intro flawed
    obtain ⟨e, refused⟩ := tcp_flawed flawed
    rw [refused] at parsed
    cases parsed
  obtain ⟨header, same, within⟩ := tcp_sound sound
  obtain rfl : tcp = header := Except.ok.inj (parsed.symm.trans same)
  exact within

private theorem udp_flawed
    (short : segment.length < 8) : ∃ e, Udp.Header.parse segment = .error e :=
  ⟨_, Udp.Header.parse_short short⟩

private theorem udp_sound (long : 8 ≤ segment.length) : ∃ h, Udp.Header.parse segment = .ok h := by
  obtain ⟨b0, b1, b2, b3, b4, b5, b6, b7, rest, rfl⟩ := Bytes.eight long
  exact ⟨_, rfl⟩

theorem udp_within {udp : Udp.Header} (parsed : Udp.Header.parse segment = .ok udp) :
    Udp.Header.headerLength ≤ segment.length := by
  refine Nat.not_lt.1 fun short => ?_
  obtain ⟨e, refused⟩ := udp_flawed short
  rw [refused] at parsed
  cases parsed

private theorem heeded_iff (m : Icmp.Message) (known : m.ipVersion = 4 ∨ m.ipVersion = 6) :
    m.type ∈ heeded m.ipVersion ↔
      m.kind = .echoRequest ∨ m.kind = .destinationUnreachable ∨ m.kind = .routerSolicitation := by
  obtain ⟨version, type, _, _, _, _, _⟩ := m
  unfold Icmp.Message.kind heeded
  rcases known with rfl | rfl
  · show type ∈ [8, 3] ↔ _
    split <;> simp_all
  · show type ∈ [128, 1, 133] ↔ _
    split <;> simp_all

private theorem icmp_error_iff (known : ip.version = 4 ∨ ip.version = 6) (message : Bytes) :
    (∃ e, Inbound.parseIcmp ip message = .error e) ↔ IcmpFlawed ip.version message := by
  by_cases short : message.length < 8
  · have refused : Icmp.Message.parse ip.version message = .error _ :=
      Icmp.Message.parse_short short
    unfold Inbound.parseIcmp
    rw [refused]
    exact ⟨fun _ => .inl short, fun _ => ⟨_, rfl⟩⟩
  obtain ⟨b0, b1, b2, b3, b4, b5, b6, b7, data, rfl⟩ := Bytes.eight (Nat.not_lt.1 short)
  obtain ⟨m, version, type, parsed⟩ : ∃ m : Icmp.Message, m.ipVersion = ip.version ∧ m.type = b0 ∧
      Icmp.Message.parse ip.version (b0 :: b1 :: b2 :: b3 :: b4 :: b5 :: b6 :: b7 :: data) =
        .ok m := ⟨_, rfl, rfl, rfl⟩
  have heeded := heeded_iff m (version ▸ known)
  unfold IcmpFlawed Inbound.parseIcmp
  rw [parsed, or_iff_right short]
  show _ ↔ b0 ∉ Refusal.heeded ip.version
  rw [← type, ← version, heeded]
  show (∃ e, ((pure m : Except PacketError Icmp.Message) >>= _) = Except.error e) ↔ _
  rw [pure_bind]
  cases m.kind with
  | echoRequest | destinationUnreachable | routerSolicitation =>
    constructor
    · rintro ⟨e, refused⟩
      cases refused
    · intro other
      simp at other
  | echoReply | unsupported =>
    constructor
    · simp
    · intro _
      exact ⟨_, rfl⟩

private theorem error_bind_iff {α : Type} {result : Except PacketError α} {flawed : Prop}
    (bad : flawed → ∃ e, result = .error e) (good : ¬ flawed → ∃ a, result = .ok a)
    (f : α → Inbound) : (∃ e, (result >>= fun a => pure (f a)) = .error e) ↔ flawed := by
  by_cases wrong : flawed
  · obtain ⟨e, refused⟩ := bad wrong
    rw [refused]
    exact ⟨fun _ => wrong, fun _ => ⟨e, rfl⟩⟩
  · obtain ⟨a, read⟩ := good wrong
    rw [read]
    refine ⟨?_, fun flawed => absurd flawed wrong⟩
    rintro ⟨e, refused⟩
    cases refused

private theorem icmpNumber_ne (version : UInt8) :
    icmpNumber version ≠ 6 ∧ icmpNumber version ≠ 17 := by
  unfold icmpNumber
  split <;> decide

/-- A buffer cannot be read exactly if something is wrong with it. -/
theorem error_iff (buffer : Bytes) : (∃ e, Inbound.parse buffer = .error e) ↔ Refused buffer := by
  by_cases flawed : HeaderFlawed buffer
  · obtain ⟨e, refused⟩ := header_flawed flawed
    unfold Inbound.parse
    rw [refused]
    exact ⟨fun _ => .inl flawed, fun _ => ⟨e, rfl⟩⟩
  obtain ⟨ip, parsed, tells⟩ := header_sound flawed
  obtain ⟨not_tcp, not_udp⟩ := icmpNumber_ne (version buffer)
  unfold Refused BodyFlawed Inbound.parse
  rw [or_iff_right flawed, parsed]
  simp only [bind, Except.bind, tells.protocol, tells.body, Ip.Protocol.ofNumber]
  by_cases tcp : protocol buffer = 6
  · simp only [tcp, not_tcp.symm, Ip.protocolTcp, if_true, true_and, false_and, or_false,
      show ¬ (6 : UInt8) = 17 by decide]
    exact error_bind_iff tcp_flawed (fun sound => (tcp_sound sound).imp fun _ h => h.1) _
  by_cases udp : protocol buffer = 17
  · simp only [udp, not_udp.symm, Ip.protocolTcp, Ip.protocolUdp, if_true, true_and, false_and,
      or_false, false_or, show ¬ (17 : UInt8) = 6 by decide, if_false]
    exact error_bind_iff udp_flawed (fun long => udp_sound (Nat.not_lt.1 long)) _
  by_cases icmp : protocol buffer = icmpNumber (version buffer)
  · simp only [icmp, not_tcp, not_udp, Ip.protocolTcp, Ip.protocolUdp, if_true, if_false, true_and,
      false_and, false_or]
    rw [← tells.version]
    exact icmp_error_iff (tells.version ▸ tells.known) (body buffer)
  · simp only [tcp, udp, icmp, Ip.protocolTcp, Ip.protocolUdp, if_false, false_and, or_false,
      iff_false]
    rintro ⟨e, refused⟩
    cases refused

/-- An echo reply is refused, and so is a header that counts more than there is. -/
example : Refused ([0x45, 0, 0, 28, 0, 0, 0, 0, 64, 1, 0, 0, 10, 0, 0, 1, 10, 0, 0, 2] ++
      [0, 0, 0, 0, 0, 0, 0, 0]) ∧
    Refused [0x46, 0, 0, 28, 0, 0, 0, 0, 64, 99, 0, 0, 10, 0, 0, 1, 10, 0, 0, 2] := by
  decide

end Refusal
end PacketRelay
