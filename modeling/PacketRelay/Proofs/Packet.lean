import PacketRelay.Packet.Inbound
import PacketRelay.Packet.Draft
import PacketRelay.Proofs.Checksum
import PacketRelay.Proofs.Codec

/-!
Drafts become well-formed packets.

A draft is sound if its headers fit the wire, its IP header has no options and its length can be
written down. Whatever identification a sound draft is sent under, what goes out is a well-formed
packet.
-/

set_option autoImplicit false

namespace PacketRelay

open Wire

namespace Ip.Header

/-- What stands behind an IP header is of its protocol, and its checksum verifies. -/
def Carries (ip : Header) (body : Bytes) : Prop :=
  match ip.protocol with
  | .tcp => ∃ tcp, Tcp.Header.parse body = .ok tcp ∧
      Checksum.ofSegment ip.source ip.destination protocolTcp body = some 0 ∧
      Tcp.isCorrupted ip tcp body = false
  | .udp => ∃ udp, Udp.Header.parse body = .ok udp ∧
      Checksum.ofSegment ip.source ip.destination protocolUdp body = some 0 ∧ udp.checksum ≠ 0
  | .icmp => ∃ message, Icmp.Message.parse ip.version body = .ok message ∧
      message.kind = .echoReply ∧
      match ip with
      | v4 _ => Checksum.ofBytes body = 0
      | v6 _ => Checksum.ofSegment ip.source ip.destination protocolIcmpV6 body = some 0
  | .other _ => False

def plainLength : Header → Nat
  | v4 _ => V4Header.minLength
  | v6 _ => V6Header.length

end Ip.Header

/-- A buffer is a packet: it has an IP header without options, that header and what stands behind it
verify, and its length is the one that the header states. -/
structure IsPacket (ip : Ip.Header) (buffer : Bytes) : Prop where
  parse : Ip.Header.parse buffer = .ok ip
  total : ip.totalLength = buffer.length
  plain : ip.headerLength = ip.plainLength
  header : ∀ h, ip = .v4 h → Checksum.ofBytes (buffer.take ip.headerLength) = 0
  body : ip.Carries (buffer.drop ip.headerLength)

def WellFormed (buffer : Bytes) : Prop := ∃ ip, IsPacket ip buffer

private theorem Ip.V4Header.ofBytes_write_withChecksum (h : V4Header)
    (short : h.options.length ≤ 40) : Checksum.ofBytes h.withChecksum.write = 0 := by
  have split : ∀ checksum : UInt16, { h with checksum }.write =
      ([4 * 16 + h.ihl % 16, h.dscp * 4 + h.ecn % 4] ++ octets16 h.totalLength ++
        octets16 h.identification ++ octets16 h.fragmentWord ++ [h.ttl, h.protocol]) ++
      octets16 checksum ++ (h.source.toList ++ h.destination.toList ++ h.options) := by
    intro checksum
    simp only [write, List.append_assoc]
    rfl
  unfold withChecksum computedChecksum
  rw [split, split]
  refine Checksum.ofBytes_filled (by simp) ?_
  simp
  omega

namespace Ip.Header

variable {ip : Header}

/-- A header without options whose fields fit. -/
def Bare : Header → Prop
  | v4 h => h.ihl = 5 ∧ h.options = [] ∧ h.dscp < 64 ∧ h.ecn < 4 ∧ h.fragmentOffset < 0x2000
  | v6 h => h.Fits

def room : Header → Nat
  | v4 _ => 65515
  | v6 _ => 65535

theorem bare_replyTemplate (fits : ip.Fits) : ip.replyTemplate.Bare := by
  cases ip with
  | v4 h => exact ⟨rfl, rfl, fits.dscp, fits.ecn, fits.fragmentOffset⟩
  | v6 h => exact ⟨fits.flowLabel⟩

private theorem toNat_saturate {n : Nat} (small : n ≤ 65535) : (saturate n).toNat = n := by
  simp [saturate]
  omega

/-- The header that goes out in front of a body of `n` bytes. -/
structure Sealed (ip out : Header) (n : Nat) : Prop where
  fits : out.Fits
  headerLength : out.headerLength = ip.plainLength
  plain : out.plainLength = ip.plainLength
  payloadLength : out.payloadLength = n
  protocol : out.protocol = ip.protocol
  version : out.version = ip.version
  source : out.source = ip.source
  destination : out.destination = ip.destination
  verifies : ∀ h, out = .v4 h → Checksum.ofBytes h.write = 0

theorem Bare.fits (bare : ip.Bare) (n : Nat) (identification : UInt16) :
    ((ip.withPayloadLength n identification).withChecksum).Fits := by
  cases ip with
  | v4 h =>
    obtain ⟨ihl, options, dscp, ecn, fragmentOffset⟩ := bare
    have length : h.headerLength = 20 := by simp [V4Header.headerLength, ihl]
    refine ⟨?_, ?_, ?_, ?_, dscp, ecn, fragmentOffset⟩
    · show 5 ≤ h.ihl
      rw [ihl]
      decide
    · show h.ihl < 16
      rw [ihl]
      decide
    · show h.options.length = h.headerLength - V4Header.minLength
      rw [options, length]
      rfl
    · show h.headerLength ≤ (saturate (h.headerLength + n)).toNat
      rw [length]
      simp [saturate]
      omega
  | v6 h => exact ⟨bare.flowLabel⟩

private theorem Bare.seal (bare : ip.Bare) {n : Nat} (short : n ≤ ip.room)
    (identification : UInt16) :
    Sealed ip ((ip.withPayloadLength n identification).withChecksum) n := by
  have fits := bare.fits n identification
  cases ip with
  | v4 h =>
    obtain ⟨ihl, options, -⟩ := bare
    have length : h.headerLength = 20 := by simp [V4Header.headerLength, ihl]
    have short : n ≤ 65515 := short
    have total : (saturate (h.headerLength + n)).toNat = 20 + n := by
      rw [length]
      exact toNat_saturate (by omega)
    refine ⟨fits, length, rfl, ?_, rfl, rfl, rfl, rfl, ?_⟩
    · show (saturate (h.headerLength + n)).toNat - h.headerLength = n
      rw [total, length]
      omega
    · intro out eq
      obtain rfl := Header.v4.inj eq
      exact V4Header.ofBytes_write_withChecksum _ (by rw [options]; simp)
  | v6 h =>
    refine ⟨fits, rfl, rfl, ?_, rfl, rfl, rfl, rfl, fun _ eq => by cases eq⟩
    exact toNat_saturate short

end Ip.Header

namespace Draft

/-- A draft that can be written down. -/
def Sound : Draft → Prop
  | segment ip tcp payload =>
    ip.Bare ∧ ip.protocol = .tcp ∧ tcp.Fits ∧ tcp.parsedOptions.isOk = true ∧
      tcp.headerLength + payload.length ≤ ip.room
  | datagram ip _ payload => ip.Bare ∧ ip.protocol = .udp ∧
      Udp.Header.headerLength + payload.length ≤ ip.room
  | echo ip message => ip.Bare ∧ ip.protocol = .icmp ∧ message.ipVersion = ip.version ∧
      message.kind = .echoReply ∧ Icmp.Message.headerLength + message.data.length ≤ ip.room

/-- A draft whose headers can be read once it has gone out, whatever its length. -/
def Legible : Draft → Prop
  | segment ip tcp _ => ip.Bare ∧ ip.protocol = .tcp ∧ tcp.Fits
  | datagram ip _ _ => ip.Bare ∧ ip.protocol = .udp
  | echo ip _ => ip.Bare ∧ ip.protocol = .icmp

variable {ip : Ip.Header} {identification : UInt16}

theorem room_le (ip : Ip.Header) : ip.room ≤ 65535 := by
  cases ip <;> simp [Ip.Header.room]

private theorem sameFamily (ip : Ip.Header) : ip.source.isV4 = ip.destination.isV4 := by
  cases ip <;> rfl

/-- The part of a packet behind its IP header. -/
def body (d : Draft) (identification : UInt16) : Bytes :=
  let ip := d.sealedIp identification
  match d with
  | segment _ tcp payload => (sealedTcp ip tcp payload).write ++ payload
  | datagram _ udp payload => (sealedUdp ip udp payload).write ++ payload
  | echo _ message => message.toBytes ip

theorem toBytes_eq (d : Draft) : d.toBytes identification =
    (d.sealedIp identification).write ++ d.body identification := by
  cases d <;> simp only [toBytes, body, List.append_assoc]

theorem fits_sealedTcp {tcp : Tcp.Header} (fits : tcp.Fits) (payload : Bytes) :
    (sealedTcp ip tcp payload).Fits :=
  ⟨fits.least, fits.most, fits.options, fits.reserved⟩

theorem Sound.legible {d : Draft} (sound : d.Sound) : d.Legible := by
  cases d with
  | segment => exact ⟨sound.1, sound.2.1, sound.2.2.1⟩
  | datagram | echo => exact ⟨sound.1, sound.2.1⟩

theorem Legible.bare {d : Draft} (legible : d.Legible) : d.ip.Bare := by
  cases d <;> exact legible.1

private theorem Sound.bare {d : Draft} (sound : d.Sound) : d.ip.Bare := by
  cases d <;> exact sound.1

private theorem Sound.short {d : Draft} (sound : d.Sound) : d.bodyLength ≤ d.ip.room := by
  cases d with
  | segment => exact sound.2.2.2.2
  | datagram => exact sound.2.2
  | echo => exact sound.2.2.2.2

theorem Sound.sealed {d : Draft} (sound : d.Sound) (identification : UInt16) :
    Ip.Header.Sealed d.ip (d.sealedIp identification) d.bodyLength :=
  sound.bare.seal sound.short identification

private theorem Legible.length_body {d : Draft} (legible : d.Legible) :
    (d.body identification).length = d.bodyLength := by
  cases d with
  | segment ip tcp payload =>
    have fits := legible.2.2
    simp only [body, List.length_append, bodyLength]
    rw [Tcp.Header.length_write (fits_sealedTcp fits payload)]
    rfl
  | datagram ip udp payload => simp [body, bodyLength, Udp.Header.length_write]
  | echo ip message =>
    simp [body, bodyLength, Icmp.Message.toBytes, Icmp.Message.length_write]

theorem Legible.length_toBytes {d : Draft} (legible : d.Legible) (identification : UInt16) :
    (d.toBytes identification).length = d.length := by
  have fits : (d.sealedIp identification).Fits := legible.bare.fits d.bodyLength identification
  have header : (d.sealedIp identification).headerLength = d.ip.headerLength := by
    unfold sealedIp
    cases d.ip <;> rfl
  rw [toBytes_eq, List.length_append, Ip.Header.length_write fits, header, legible.length_body]
  rfl

private theorem ofSegment_sealedTcp (ip : Ip.Header) {tcp : Tcp.Header} {payload : Bytes}
    (fits : tcp.Fits) (short : tcp.headerLength + payload.length ≤ 65535) :
    Checksum.ofSegment ip.source ip.destination Ip.protocolTcp
      ((sealedTcp ip tcp payload).write ++ payload) = some 0 := by
  have split : ∀ checksum : UInt16, { tcp with checksum }.write ++ payload =
      (octets16 tcp.sourcePort ++ octets16 tcp.destinationPort ++ octets32 tcp.seq ++
        octets32 tcp.ack ++ [tcp.dataOffset * 16 + tcp.reserved % 16, tcp.flags.bits] ++
        octets16 tcp.window) ++ octets16 checksum ++
      (octets16 tcp.urgent ++ tcp.options ++ payload) := by
    intro checksum
    simp only [Tcp.Header.write, List.append_assoc]
  have options := fits.options
  unfold sealedTcp
  simp only
  rw [split, split]
  -- The checksum field stands at an even place, behind sixteen bytes.
  refine Checksum.ofSegment_filled (sameFamily ip) (by simp) ?_
  simp only [List.length_append, length_octets16, length_octets32, List.length_cons,
    List.length_nil,
    options]
  omega

private theorem ofSegment_isSome (ip : Ip.Header) (protocol : UInt8) (bytes : Bytes) :
    ∃ checksum, Checksum.ofSegment ip.source ip.destination protocol bytes = some checksum := by
  obtain ⟨header, eq⟩ : ∃ header,
      Checksum.pseudoHeader? ip.source ip.destination protocol bytes.length = some header :=
    Checksum.pseudoHeader?_isSome (sameFamily ip) _
  unfold Checksum.ofSegment
  rw [eq]
  exact ⟨_, rfl⟩

private theorem checksumField_of_ne {checksum : UInt16} (some_sum : checksum ≠ 0) :
    Udp.checksumField (some checksum) = checksum := by
  unfold Udp.checksumField
  split
  case h_1 zero => exact absurd (Option.some.inj zero) some_sum
  case h_2 same => exact (Option.some.inj same).symm
  case h_3 none => cases none

private theorem checksum_sealedUdp (ip : Ip.Header) (udp : Udp.Header) (payload : Bytes) :
    (sealedUdp ip udp payload).checksum ≠ 0 := by
  unfold sealedUdp
  simp only
  obtain ⟨checksum, eq⟩ :=
    ofSegment_isSome ip Ip.protocolUdp ({ udp with checksum := 0 }.write ++ payload)
  rw [eq]
  by_cases zero : checksum = 0
  · rw [zero]
    decide
  · rw [checksumField_of_ne zero]
    exact zero

private theorem ofSegment_sealedUdp (ip : Ip.Header) (udp : Udp.Header) {payload : Bytes}
    (short : Udp.Header.headerLength + payload.length ≤ 65535) :
    Checksum.ofSegment ip.source ip.destination Ip.protocolUdp
      ((sealedUdp ip udp payload).write ++ payload) = some 0 := by
  have split : ∀ checksum : UInt16, { udp with checksum }.write ++ payload =
      (octets16 udp.sourcePort ++ octets16 udp.destinationPort ++ octets16 udp.length) ++
        octets16 checksum ++ payload := fun checksum => rfl
  have even : (octets16 udp.sourcePort ++ octets16 udp.destinationPort ++
      octets16 udp.length).length % 2 = 0 := by simp
  have within : (octets16 udp.sourcePort ++ octets16 udp.destinationPort ++
      octets16 udp.length).length + payload.length ≤ 120000 := by
    simp [Udp.Header.headerLength] at short ⊢
    omega
  unfold sealedUdp
  simp only
  rw [split, split]
  generalize octets16 udp.sourcePort ++ octets16 udp.destinationPort ++ octets16 udp.length = front
    at even within ⊢
  obtain ⟨checksum, eq⟩ := ofSegment_isSome ip Ip.protocolUdp (front ++ octets16 0 ++ payload)
  rw [eq]
  by_cases zero : checksum = 0
  · subst zero
    exact Checksum.ofSegment_filled_ones (sameFamily ip) even within eq
  · rw [checksumField_of_ne zero]
    have filled : Checksum.ofSegment ip.source ip.destination Ip.protocolUdp (front ++ octets16
        ((Checksum.ofSegment ip.source ip.destination Ip.protocolUdp
          (front ++ octets16 0 ++ payload)).getD 0) ++ payload) = some 0 :=
      Checksum.ofSegment_filled (sameFamily ip) even within
    rw [eq] at filled
    exact filled

private theorem echo_verifies (ip : Ip.Header) {message : Icmp.Message}
    (short : message.data.length ≤ 65535) :
    match ip with
    | .v4 _ => Checksum.ofBytes (message.toBytes ip) = 0
    | .v6 _ => Checksum.ofSegment ip.source ip.destination Ip.protocolIcmpV6 (message.toBytes ip) =
        some 0 := by
  have split : ∀ checksum : UInt16, { message with checksum }.write =
      [message.type, message.code] ++ octets16 checksum ++
        (octets16 message.identifier ++ octets16 message.sequence ++ message.data) := by
    intro checksum
    simp only [Icmp.Message.write, List.append_assoc]
  have within : [message.type, message.code].length +
      (octets16 message.identifier ++ octets16 message.sequence ++ message.data).length ≤
        120000 := by
    simp
    omega
  unfold Icmp.Message.toBytes Icmp.Message.computedChecksum
  cases ip with
  | v4 h =>
    simp only
    rw [split, split]
    exact Checksum.ofBytes_filled (by simp) (Nat.le_trans within (by decide))
  | v6 h =>
    simp only
    rw [split, split]
    exact Checksum.ofSegment_filled rfl (by simp) within

private theorem Sound.carries {d : Draft} (sound : d.Sound) :
    (d.sealedIp identification).Carries (d.body identification) := by
  have sealed := sound.sealed identification
  have short := Nat.le_trans sound.short (room_le d.ip)
  cases d with
  | segment ip tcp payload =>
    obtain ⟨-, protocol, fits, options, -⟩ := sound
    have verifies :=
      ofSegment_sealedTcp ((segment ip tcp payload).sealedIp identification) fits short
    unfold Ip.Header.Carries
    rw [sealed.protocol, show (segment ip tcp payload).ip.protocol = .tcp from protocol]
    refine ⟨_, Tcp.Header.parse_write (fits_sealedTcp fits payload) payload, verifies, ?_⟩
    unfold Tcp.isCorrupted body
    simp only
    rw [verifies]
    have : (sealedTcp ((segment ip tcp payload).sealedIp identification) tcp
        payload).parsedOptions.isOk =
        true := options
    rw [this]
    rfl
  | datagram ip udp payload =>
    obtain ⟨-, protocol, -⟩ := sound
    have verifies :=
      ofSegment_sealedUdp ((datagram ip udp payload).sealedIp identification) udp short
    unfold Ip.Header.Carries
    rw [sealed.protocol, show (datagram ip udp payload).ip.protocol = .udp from protocol]
    exact ⟨_, Udp.Header.parse_write _ payload, verifies, checksum_sealedUdp _ udp payload⟩
  | echo ip message =>
    obtain ⟨-, protocol, version, kind, within⟩ := sound
    have verifies := echo_verifies ((echo ip message).sealedIp identification)
      (Nat.le_trans (Nat.le_add_left _ Icmp.Message.headerLength) short)
    unfold Ip.Header.Carries
    rw [sealed.protocol, show (echo ip message).ip.protocol = .icmp from protocol, sealed.version,
      show (echo ip message).ip.version = message.ipVersion from version.symm]
    exact ⟨_, Icmp.Message.parse_write { message with
      checksum := message.computedChecksum ((echo ip message).sealedIp identification) },
      kind, verifies⟩

theorem Sound.isPacket {d : Draft} (sound : d.Sound) (identification : UInt16) :
    IsPacket (d.sealedIp identification) (d.toBytes identification) := by
  have sealed := sound.sealed identification
  have length : (d.sealedIp identification).write.length =
      (d.sealedIp identification).headerLength :=
    Ip.Header.length_write sealed.fits
  rw [toBytes_eq]
  refine ⟨Ip.Header.parse_write sealed.fits _, ?_, ?_, fun h eq => ?_, ?_⟩
  · rw [List.length_append, length, sound.legible.length_body, Ip.Header.totalLength, sealed.payloadLength]
  · rw [sealed.headerLength, sealed.plain]
  · rw [List.take_left' length]
    have verifies := sealed.verifies h eq
    rw [eq]
    exact verifies
  · rw [List.drop_left' length]
    exact sound.carries

theorem protocol_sealedIp (d : Draft) (identification : UInt16) :
    (d.sealedIp identification).protocol = d.ip.protocol := by
  unfold sealedIp
  cases d.ip <;> rfl

theorem Legible.parse_header {d : Draft} (legible : d.Legible) (identification : UInt16) :
    Ip.Header.parse (d.toBytes identification) = .ok (d.sealedIp identification) := by
  rw [toBytes_eq]
  exact Ip.Header.parse_write (legible.bare.fits d.bodyLength identification) _

theorem Legible.drop_header {d : Draft} (legible : d.Legible) (identification : UInt16) :
    (d.toBytes identification).drop (d.sealedIp identification).headerLength =
      d.body identification := by
  have fits : (d.sealedIp identification).Fits := legible.bare.fits d.bodyLength identification
  rw [toBytes_eq, List.drop_left' (Ip.Header.length_write fits)]

/-- What goes out is read as the headers that it was sealed with. -/
theorem Legible.parse {d : Draft} (legible : d.Legible) (identification : UInt16) :
    Packet.parse (d.toBytes identification) =
      match d.toPacket? identification with
      | some packet => .ok packet
      | none => .error (.malformed .notTcpOrUdp) := by
  have header := legible.parse_header identification
  have behind := legible.drop_header identification
  have protocol := d.protocol_sealedIp identification
  simp only [Packet.parse, header, bind, Except.bind, behind, protocol]
  cases d with
  | segment ip tcp payload =>
    obtain ⟨-, protocol, fits⟩ := legible
    have fits : (sealedTcp ((segment ip tcp payload).sealedIp identification) tcp payload).Fits :=
      fits_sealedTcp fits payload
    have parsed := Tcp.Header.parse_write fits payload
    rw [show (segment ip tcp payload).ip.protocol = .tcp from protocol]
    simp only [body, parsed]
    rfl
  | datagram ip udp payload =>
    obtain ⟨-, protocol⟩ := legible
    rw [show (datagram ip udp payload).ip.protocol = .udp from protocol]
    simp only [body, Udp.Header.parse_write]
    rfl
  | echo ip message =>
    obtain ⟨-, protocol⟩ := legible
    rw [show (echo ip message).ip.protocol = .icmp from protocol]
    rfl

theorem Sound.wellFormed {d : Draft} (sound : d.Sound) (identification : UInt16) :
    WellFormed (d.toBytes identification) :=
  ⟨_, sound.isPacket identification⟩

end Draft
end PacketRelay
