import PacketRelay.Proofs.Codec
import PacketRelay.Proofs.History
import PacketRelay.Proofs.Refusal

/-!
Packets handled access by access.

The handler is told here once more, with each byte and each slice of a buffer as an access of its
own. An access beyond the end has no outcome, and a refusal leaves the relay as it is by then. No
access is ever beyond the end: access by access comes to what the relay does, whatever the buffer.
-/

set_option autoImplicit false

namespace PacketRelay

open Wire

private theorem Octets.read_take (n : Nat) (bytes : Bytes) :
    Octets.read n (bytes.take n) = Octets.read n bytes := by
  ext i within
  simp [Octets.read]

/-- What is done with a buffer, access by access, on the way to a relay. -/
abbrev Access (α : Type) := ExceptT PacketError (StateT Relay Option) α

namespace Access

variable {α β : Type}

/-- An access out of range. -/
def fault : Access α := fun _ => none

def refuse (flawed : Prop) [Decidable flawed] (e : PacketError) : Access Unit :=
  if flawed then throw e else pure ()

def byte (buffer : Bytes) (i : Nat) : Access UInt8 :=
  match buffer[i]? with
  | some b => pure b
  | none => fault

/-- The bytes from `first` up to `last`. -/
def slice (buffer : Bytes) (first last : Nat) : Access Bytes :=
  if first ≤ last ∧ last ≤ buffer.length then pure ((buffer.drop first).take (last - first))
  else fault

/-- The buffer with bytes put at `first`. -/
def store (buffer : Bytes) (first : Nat) (bytes : Bytes) : Access Bytes :=
  if first + bytes.length ≤ buffer.length then
    pure (buffer.take first ++ bytes ++ buffer.drop (first + bytes.length))
  else fault

def word (buffer : Bytes) (i : Nat) : Access UInt16 :=
  return word16 (← byte buffer i) (← byte buffer (i + 1))

def long (buffer : Bytes) (i : Nat) : Access UInt32 :=
  return word32 (← byte buffer i) (← byte buffer (i + 1)) (← byte buffer (i + 2))
    (← byte buffer (i + 3))

def octets (n : Nat) (buffer : Bytes) (i : Nat) : Access (Octets n) :=
  return Octets.read n (← slice buffer i (i + n))

section Headers

def v4Header (buffer : Bytes) : Access Ip.V4Header := do
  let minLength := Ip.V4Header.minLength
  refuse (buffer.length < minLength) (.truncated .ipv4Header minLength buffer.length)
  let first ← byte buffer 0
  refuse (first / 16 ≠ 4) (.invalidVersion 4 (first / 16))
  let ihl := first % 16
  refuse (ihl < 5) (.malformed .ipv4LengthBelowMinimum)
  let headerLength := ihl.toNat * 4
  refuse (buffer.length < headerLength) (.truncated .ipv4Options headerLength buffer.length)
  let totalLength ← word buffer 2
  refuse (totalLength.toNat < headerLength) (.malformed .ipv4TotalBelowHeader)
  let fragment ← word buffer 6
  let source ← octets 4 buffer 12
  let destination ← octets 4 buffer 16
  let second ← byte buffer 1
  return {
    ihl
    dscp := second / 4
    ecn := second % 4
    totalLength
    identification := ← word buffer 4
    reservedFlag := fragment / 0x8000 % 2 == 1
    dontFragment := fragment / 0x4000 % 2 == 1
    moreFragments := fragment / 0x2000 % 2 == 1
    fragmentOffset := fragment % 0x2000
    ttl := ← byte buffer 8
    protocol := ← byte buffer 9
    checksum := ← word buffer 10
    source
    destination
    options := ← slice buffer minLength headerLength }

def v6Header (buffer : Bytes) : Access Ip.V6Header := do
  let length := Ip.V6Header.length
  refuse (buffer.length < length) (.truncated .ipv6Header length buffer.length)
  let first ← byte buffer 0
  refuse (first / 16 ≠ 6) (.invalidVersion 6 (first / 16))
  let source ← octets 16 buffer 8
  let destination ← octets 16 buffer 24
  let second ← byte buffer 1
  return {
    trafficClass := first % 16 * 16 + second / 16
    flowLabel := (second % 16).toUInt32 * 65536 + (← word buffer 2).toUInt32
    payloadLength := ← word buffer 4
    nextHeader := ← byte buffer 6
    hopLimit := ← byte buffer 7
    source
    destination }

def ipHeader (buffer : Bytes) : Access Ip.Header := do
  match buffer.head? with
  | none => throw (.truncated .ipHeader 1 0)
  | some first =>
    if first / 16 = 4 then return .v4 (← v4Header buffer)
    else if first / 16 = 6 then return .v6 (← v6Header buffer)
    else throw (.unknownIpVersion (first / 16))

def tcpHeader (segment : Bytes) : Access Tcp.Header := do
  let minLength := Tcp.Header.minLength
  refuse (segment.length < minLength) (.truncated .tcpHeader minLength segment.length)
  let twelfth ← byte segment 12
  let dataOffset := twelfth / 16
  refuse (dataOffset < 5) (.malformed .tcpOffsetBelowMinimum)
  let headerLength := dataOffset.toNat * 4
  refuse (segment.length < headerLength) (.truncated .tcpOptions headerLength segment.length)
  return {
    sourcePort := ← word segment 0
    destinationPort := ← word segment 2
    seq := ← long segment 4
    ack := ← long segment 8
    dataOffset
    reserved := twelfth % 16
    flags := ⟨← byte segment 13⟩
    window := ← word segment 14
    checksum := ← word segment 16
    urgent := ← word segment 18
    options := ← slice segment minLength headerLength }

def udpHeader (datagram : Bytes) : Access Udp.Header := do
  let headerLength := Udp.Header.headerLength
  refuse (datagram.length < headerLength) (.truncated .udpHeader headerLength datagram.length)
  return {
    sourcePort := ← word datagram 0
    destinationPort := ← word datagram 2
    length := ← word datagram 4
    checksum := ← word datagram 6 }

def icmpMessage (ipVersion : UInt8) (buffer : Bytes) : Access Icmp.Message := do
  let headerLength := Icmp.Message.headerLength
  refuse (buffer.length < headerLength) (.truncated .icmpHeader headerLength buffer.length)
  return {
    ipVersion
    type := ← byte buffer 0
    code := ← byte buffer 1
    checksum := ← word buffer 2
    identifier := ← word buffer 4
    sequence := ← word buffer 6
    data := ← slice buffer headerLength buffer.length }

end Headers

section Options

open Tcp.Options

/-- Takes an option into account by its kind and the length of its body. -/
def record (seen : Tcp.Options) (kind : UInt8) (body : Bytes) : Access Tcp.Options := do
  if kind = kindMss ∧ body.length = 2 then return { seen with mss := some (← word body 0) }
  else if kind = kindWindowScale ∧ body.length = 1 then
    return { seen with windowScale := some (← byte body 0) }
  else if kind = kindSackPermitted ∧ body.length = 0 then return { seen with sackPermitted := true }
  else if kind = kindSack ∧ body.length % 8 = 0 then return seen
  else if kind = kindTimestamps ∧ body.length = 8 then
    return { seen with timestamps := some ⟨← long body 0, ← long body 4⟩ }
  else if kind ∈ [kindMss, kindWindowScale, kindSackPermitted, kindSack, kindTimestamps] then
    throw (.malformed .optionWrongLength)
  else return seen

/-- Walks the option bytes from an index on. -/
def optionsFrom (bytes : Bytes) (i : Nat) (seen : Tcp.Options) : Access Tcp.Options :=
  if _ : i < bytes.length then do
    let kind ← byte bytes i
    if kind = kindEnd then return seen
    else if kind = kindNop then optionsFrom bytes (i + 1) seen
    else match bytes[i + 1]? with
      | none => throw (.malformed .optionWithoutLength)
      | some length =>
        if _ : length < 2 ∨ bytes.length < i + length.toNat then
          throw (.malformed .optionLengthOutOfRange)
        else
          let body ← slice bytes (i + 2) (i + length.toNat)
          optionsFrom bytes (i + length.toNat) (← record seen kind body)
  else return seen
termination_by bytes.length - i
decreasing_by
  · omega
  · have within := not_or.1 ‹¬ (length < 2 ∨ bytes.length < i + length.toNat)›
    have : 2 ≤ length.toNat := UInt8.le_iff_toNat_le.1 (UInt8.not_lt.1 within.1)
    omega

def options (bytes : Bytes) : Access Tcp.Options := optionsFrom bytes 0 empty

end Options

/-- Drops bytes of the front chunk of a queue, as a flush does. -/
def consume (q : Session.Outbound) (n : Nat) : Access Session.Outbound :=
  match q.chunks with
  | [] => pure q
  | front :: rest => do
    let left ← slice front (min n front.length) front.length
    return ⟨if left.isEmpty then rest else left :: rest, q.size - min n front.length⟩

section Equations

variable {buffer bytes : Bytes} {i first last : Nat}

private theorem byte_of_lt (within : i < buffer.length) : byte buffer i = pure buffer[i] := by
  unfold byte
  rw [List.getElem?_eq_getElem within]

@[simp] theorem byte_zero (b : UInt8) (rest : Bytes) : byte (b :: rest) 0 = pure b := rfl

@[simp] theorem byte_succ (b : UInt8) (rest : Bytes) (i : Nat) :
    byte (b :: rest) (i + 1) = byte rest i := rfl

private theorem slice_of_le (order : first ≤ last) (within : last ≤ buffer.length) :
    slice buffer first last = pure ((buffer.drop first).take (last - first)) :=
  if_pos ⟨order, within⟩

private theorem store_of_le (within : first + bytes.length ≤ buffer.length) :
    store buffer first bytes =
      pure (buffer.take first ++ bytes ++ buffer.drop (first + bytes.length)) :=
  if_pos within

@[simp] theorem throw_bind (e : PacketError) (f : α → Access β) : (throw e >>= f) = throw e := rfl

private theorem refuse_bind (flawed : Prop) [Decidable flawed] (e : PacketError)
    (f : Unit → Access α) : (refuse flawed e >>= f) = if flawed then throw e else f () := by
  unfold refuse
  split
  · rfl
  · exact pure_bind () f

private theorem octets_of_le {n : Nat} (within : i + n ≤ buffer.length) :
    octets n buffer i = pure (Octets.read n ((buffer.drop i).take n)) := by
  unfold octets
  rw [slice_of_le (Nat.le_add_right i n) within, pure_bind, Nat.add_sub_cancel_left]

@[simp] theorem ofExcept_ok (a : α) : (MonadExcept.ofExcept (.ok a) : Access α) = pure a := rfl

private theorem ofExcept_bind (result : Except PacketError α) (f : α → Except PacketError β) :
    (MonadExcept.ofExcept (result >>= f) : Access β) =
      MonadExcept.ofExcept result >>= fun a => MonadExcept.ofExcept (f a) := by
  cases result <;> rfl

private theorem ofExcept_ite (c : Prop) [Decidable c] (e : PacketError)
    (result : Except PacketError α) :
    (MonadExcept.ofExcept (if c then .error e else result) : Access α) =
      if c then throw e else MonadExcept.ofExcept result := by
  split <;> rfl

private theorem v4Header_eq (buffer : Bytes) :
    v4Header buffer = MonadExcept.ofExcept (Ip.V4Header.parse buffer) := by
  by_cases short : buffer.length < Ip.V4Header.minLength
  · rw [v4Header, refuse_bind, if_pos short, Ip.V4Header.parse_short short]
    rfl
  obtain ⟨b0, b1, b2, b3, b4, b5, b6, b7, b8, b9, b10, b11, s0, s1, s2, s3, d0, d1, d2, d3, rest,
    rfl⟩ := Bytes.twenty (Nat.not_lt.1 short)
  have length : (b0 :: b1 :: b2 :: b3 :: b4 :: b5 :: b6 :: b7 :: b8 :: b9 :: b10 :: b11 ::
      s0 :: s1 :: s2 :: s3 :: d0 :: d1 :: d2 :: d3 :: rest).length = 20 + rest.length :=
    Nat.add_comm rest.length 20
  rw [v4Header, refuse_bind, if_neg short]
  simp only [refuse_bind, word, byte_zero, byte_succ, pure_bind, Ip.V4Header.parse, ofExcept_ite]
  simp only [Ip.V4Header.minLength, length]
  refine ite_congr rfl (fun _ => rfl) fun _ => ite_congr rfl (fun _ => rfl) fun least =>
    ite_congr (propext ⟨by omega, by omega⟩) (fun _ => rfl) fun enough =>
      ite_congr rfl (fun _ => rfl) fun _ => ?_
  have least : 5 ≤ (b0 % 16).toNat := by simpa [UInt8.le_iff_toNat_le] using least
  rw [octets_of_le (by omega), octets_of_le (by omega), slice_of_le (by omega) (by omega)]
  rfl

private theorem v6Header_eq (buffer : Bytes) :
    v6Header buffer = MonadExcept.ofExcept (Ip.V6Header.parse buffer) := by
  by_cases short : buffer.length < Ip.V6Header.length
  · unfold Ip.V6Header.parse
    rw [v6Header, refuse_bind, if_pos short, if_pos short]
    rfl
  have long : 40 ≤ buffer.length := Nat.not_lt.1 short
  obtain ⟨b0, b1, b2, b3, b4, b5, b6, b7, addresses, rfl⟩ :=
    Bytes.eight (Nat.le_trans (by decide : 8 ≤ 40) long)
  unfold Ip.V6Header.parse
  rw [v6Header, refuse_bind, if_neg short, if_neg short]
  simp only [refuse_bind, word, byte_zero, byte_succ, pure_bind, ofExcept_ite]
  refine ite_congr rfl (fun _ => rfl) fun _ => ?_
  rw [octets_of_le (by omega), octets_of_le (by omega), Octets.read_take, Octets.read_take]
  rfl

private theorem ipHeader_eq (buffer : Bytes) :
    ipHeader buffer = MonadExcept.ofExcept (Ip.Header.parse buffer) := by
  cases buffer with
  | nil => rfl
  | cons first rest =>
    simp only [ipHeader, List.head?_cons, Ip.Header.parse, v4Header_eq, v6Header_eq]
    split
    · cases Ip.V4Header.parse (first :: rest) <;> rfl
    · split
      · cases Ip.V6Header.parse (first :: rest) <;> rfl
      · rfl

private theorem tcpHeader_eq (segment : Bytes) :
    tcpHeader segment = MonadExcept.ofExcept (Tcp.Header.parse segment) := by
  by_cases short : segment.length < Tcp.Header.minLength
  · rw [tcpHeader, refuse_bind, if_pos short, Tcp.Header.parse_short short]
    rfl
  obtain ⟨b0, b1, b2, b3, b4, b5, b6, b7, b8, b9, b10, b11, b12, b13, b14, b15, b16, b17, b18, b19,
    rest, rfl⟩ := Bytes.twenty (Nat.not_lt.1 short)
  have length : (b0 :: b1 :: b2 :: b3 :: b4 :: b5 :: b6 :: b7 :: b8 :: b9 :: b10 :: b11 ::
      b12 :: b13 :: b14 :: b15 :: b16 :: b17 :: b18 :: b19 :: rest).length = 20 + rest.length :=
    Nat.add_comm rest.length 20
  rw [tcpHeader, refuse_bind, if_neg short]
  simp only [refuse_bind, word, long, byte_zero, byte_succ, pure_bind, Tcp.Header.parse,
    ofExcept_ite]
  simp only [Tcp.Header.minLength, length]
  refine ite_congr rfl (fun _ => rfl) fun least =>
    ite_congr (propext ⟨by omega, by omega⟩) (fun _ => rfl) fun enough => ?_
  have least : 5 ≤ (b12 / 16).toNat := by simpa [UInt8.le_iff_toNat_le] using least
  rw [slice_of_le (by omega) (by omega)]
  rfl

private theorem udpHeader_eq (datagram : Bytes) :
    udpHeader datagram = MonadExcept.ofExcept (Udp.Header.parse datagram) := by
  by_cases short : datagram.length < Udp.Header.headerLength
  · rw [udpHeader, refuse_bind, if_pos short, Udp.Header.parse_short short]
    rfl
  obtain ⟨b0, b1, b2, b3, b4, b5, b6, b7, rest, rfl⟩ := Bytes.eight (Nat.not_lt.1 short)
  rw [udpHeader, refuse_bind, if_neg short]
  rfl

private theorem icmpMessage_eq (ipVersion : UInt8) (buffer : Bytes) :
    icmpMessage ipVersion buffer =
      MonadExcept.ofExcept (Icmp.Message.parse ipVersion buffer) := by
  by_cases short : buffer.length < Icmp.Message.headerLength
  · rw [icmpMessage, refuse_bind, if_pos short, Icmp.Message.parse_short short]
    rfl
  obtain ⟨b0, b1, b2, b3, b4, b5, b6, b7, data, rfl⟩ := Bytes.eight (Nat.not_lt.1 short)
  rw [icmpMessage, refuse_bind, if_neg short]
  simp only [word, byte_zero, byte_succ, pure_bind]
  rw [slice_of_le (Nat.not_lt.1 short) (Nat.le_refl _), pure_bind, List.take_of_length_le (by simp)]
  rfl

open Tcp.Options in
private theorem record_eq (seen : Tcp.Options) (kind : UInt8)
    (body : Bytes) : record seen kind body = match seen.record kind body with
    | some seen => pure seen
    | none => throw (.malformed .optionWrongLength) := by
  by_cases mss : kind = kindMss
  · subst mss
    match body with
    | [a, b] => rfl
    | [] | [_] | _ :: _ :: _ :: _ => rfl
  by_cases scale : kind = kindWindowScale
  · subst scale
    match body with
    | [a] => rfl
    | [] | _ :: _ :: _ => rfl
  by_cases permitted : kind = kindSackPermitted
  · subst permitted
    match body with
    | [] | _ :: _ => rfl
  by_cases sack : kind = kindSack
  · subst sack
    have walked : seen.record kindSack body = if body.length % 8 = 0 then some seen else none := rfl
    have checked : record seen kindSack body =
        if body.length % 8 = 0 then pure seen else throw (.malformed .optionWrongLength) := by
      simp [record, mss, scale, permitted, show kindSack ≠ kindTimestamps by decide]
    rw [walked, checked]
    split <;> rfl
  by_cases stamps : kind = kindTimestamps
  · subst stamps
    by_cases whole : body.length = 8
    · obtain ⟨a, b, c, d, e, f, g, h, rest, rfl⟩ := Bytes.eight (Nat.le_of_eq whole.symm)
      obtain rfl : rest = [] := by simpa using whole
      rfl
    · have refused : seen.record kindTimestamps body = none := by
        simp only [Tcp.Options.record, mss, scale, permitted, sack, if_false, if_true]
        split
        · simp at whole
        · rfl
      rw [refused]
      simp [record, mss, scale, permitted, sack, whole]
  simp [record, Tcp.Options.record, mss, scale, permitted, sack, stamps]

private theorem optionsFrom_eq (bytes : Bytes) (i : Nat) (seen : Tcp.Options) :
    optionsFrom bytes i seen = MonadExcept.ofExcept (Tcp.Options.walk seen (bytes.drop i)) := by
  induction left : bytes.length - i using Nat.strongRecOn generalizing i seen with
  | ind n ih =>
    by_cases within : i < bytes.length
    · rw [optionsFrom, dif_pos within, byte_of_lt within, pure_bind,
        List.drop_eq_getElem_cons within]
      by_cases more : i + 1 < bytes.length
      · rw [List.getElem?_eq_getElem more, List.drop_eq_getElem_cons more, Tcp.Options.walk]
        by_cases ends : bytes[i] = Tcp.Options.kindEnd
        · rw [if_pos ends, if_pos ends]
          rfl
        rw [if_neg ends, if_neg ends]
        by_cases nop : bytes[i] = Tcp.Options.kindNop
        · rw [if_pos nop, if_pos nop, ih (bytes.length - (i + 1)) (by omega) (i + 1) seen rfl,
            List.drop_eq_getElem_cons more]
        rw [if_neg nop, if_neg nop]
        simp only
        have left_over : (bytes.drop (i + 1 + 1)).length + 2 = bytes.length - i := by
          rw [List.length_drop]
          omega
        by_cases outside : bytes[i + 1] < 2 ∨ bytes.length < i + bytes[i + 1].toNat
        · rw [dif_pos outside, if_pos (outside.imp_right fun long => by omega)]
          rfl
        rw [dif_neg outside, if_neg (fun short => outside (short.imp_right fun long => by omega))]
        obtain ⟨least, most⟩ := not_or.1 outside
        have least : 2 ≤ bytes[i + 1].toNat := UInt8.le_iff_toNat_le.1 (UInt8.not_lt.1 least)
        have width : i + bytes[i + 1].toNat - (i + 2) = bytes[i + 1].toNat - 2 := by omega
        have behind : i + 1 + 1 + (bytes[i + 1].toNat - 2) = i + bytes[i + 1].toNat := by omega
        rw [slice_of_le (by omega) (Nat.not_lt.1 most), pure_bind, record_eq, width]
        cases seen.record bytes[i] ((bytes.drop (i + 2)).take (bytes[i + 1].toNat - 2)) with
        | none => rfl
        | some seen =>
          simp only
          rw [pure_bind, ih _ (by omega) _ seen rfl, List.drop_drop, behind]
      · have last : bytes.drop (i + 1) = [] := List.drop_eq_nil_of_le (Nat.not_lt.1 more)
        rw [last, List.getElem?_eq_none (Nat.not_lt.1 more), Tcp.Options.walk]
        by_cases ends : bytes[i] = Tcp.Options.kindEnd
        · rw [if_pos ends, if_pos (.inl ends)]
          rfl
        rw [if_neg ends]
        by_cases nop : bytes[i] = Tcp.Options.kindNop
        · rw [if_pos nop, if_pos (.inr nop), ih (bytes.length - (i + 1)) (by omega) (i + 1) seen rfl,
            last, Tcp.Options.walk]
        · rw [if_neg nop, if_neg (not_or.2 ⟨ends, nop⟩)]
          rfl
    · rw [optionsFrom, dif_neg within, List.drop_eq_nil_of_le (Nat.not_lt.1 within),
        Tcp.Options.walk]
      rfl

theorem options_eq (bytes : Bytes) :
    options bytes = MonadExcept.ofExcept (Tcp.Options.parse bytes) :=
  optionsFrom_eq bytes 0 Tcp.Options.empty

private theorem consume_eq (q : Session.Outbound) (n : Nat) : consume q n = pure (q.consume n) := by
  unfold consume Session.Outbound.consume
  cases q.chunks with
  | nil => rfl
  | cons front rest =>
    have left : (front.drop (min n front.length)).take (front.length - min n front.length) =
        front.drop n := by
      rw [List.take_of_length_le (by simp)]
      rcases Nat.le_total n front.length with short | long
      · rw [Nat.min_eq_left short]
      · rw [Nat.min_eq_right long, List.drop_length, List.drop_eq_nil_of_le long]
    simp only
    rw [slice_of_le (Nat.min_le_right _ _) (Nat.le_refl _), pure_bind, left]

end Equations

section Handling

/-- What a relay does with a packet. The outcome and the relay stand side by side, so that a refusal
does not hide what was done before it. -/
def handlePacket (buffer : Bytes) (isn : UInt32) (prospect : Socket.Prospect) : Access Unit := do
  let ip ← ipHeader buffer
  let body ← slice buffer ip.headerLength (min ip.totalLength buffer.length)
  match ip.protocol with
  | .tcp =>
    let tcp ← tcpHeader body
    -- The payload of the segment, which `Inbound.Segment.payload` cuts out of its bytes again.
    let _ ← slice body tcp.headerLength body.length
    modify (·.handleSegment ⟨ip, tcp, body⟩ isn prospect)
  | .udp =>
    let udp ← udpHeader body
    let payload ← slice body Udp.Header.headerLength body.length
    modify (·.handleDatagram ⟨ip, udp, payload⟩ prospect)
  | .icmp =>
    let message ← icmpMessage ip.version body
    match message.kind with
    | .destinationUnreachable => return
    | .routerSolicitation => return
    | .echoRequest => modify (·.handleEcho ⟨ip, message⟩)
    | .echoReply => throw (.unsupportedIcmp message.type)
    | .unsupported _ => throw (.unsupportedIcmp message.type)
  | .other _ => return

/-- The packet that goes out under an identification, its checksum stored into the bytes. -/
def packet (d : Draft) (identification : UInt16) : Access Bytes := do
  let ip := d.sealedIp identification
  match d with
  | .segment _ tcp payload =>
    let bare := { tcp with checksum := 0 }
    let checksum := (Draft.sealedTcp ip tcp payload).checksum
    return ip.write ++ (← store (bare.write ++ payload) 16 (octets16 checksum))
  | .datagram _ udp payload =>
    let bare := { udp with checksum := 0 }
    let checksum := (Draft.sealedUdp ip udp payload).checksum
    return ip.write ++ (← store (bare.write ++ payload) 6 (octets16 checksum))
  | .echo _ message =>
    let bare := { message with checksum := 0 }
    return ip.write ++ (← store bare.write 2 (octets16 (message.computedChecksum ip)))

private theorem store_middle (front old new back : Bytes) (same : old.length = new.length) :
    store (front ++ old ++ back) front.length new = pure (front ++ new ++ back) := by
  rw [store_of_le (by simp [same])]
  simp [List.append_assoc, ← same]

private theorem packet_eq (d : Draft) (identification : UInt16) :
    packet d identification = pure (d.toBytes identification) := by
  cases d with
  | segment ip tcp payload =>
    have split : ∀ checksum : UInt16, { tcp with checksum }.write ++ payload =
        (octets16 tcp.sourcePort ++ octets16 tcp.destinationPort ++ octets32 tcp.seq ++
          octets32 tcp.ack ++ [tcp.dataOffset * 16 + tcp.reserved % 16, tcp.flags.bits] ++
          octets16 tcp.window) ++ octets16 checksum ++
        (octets16 tcp.urgent ++ tcp.options ++ payload) := by
      intro checksum
      simp only [Tcp.Header.write, List.append_assoc]
    have stored : ∀ checksum : UInt16,
        store ({ tcp with checksum := 0 }.write ++ payload) 16 (octets16 checksum) =
          pure ({ tcp with checksum }.write ++ payload) := by
      intro checksum
      rw [split 0, split checksum]
      exact store_middle _ _ _ _ rfl
    unfold packet Draft.toBytes
    simp only
    rw [stored, pure_bind, List.append_assoc]
    rfl
  | datagram ip udp payload =>
    have stored : ∀ checksum : UInt16,
        store ({ udp with checksum := 0 }.write ++ payload) 6 (octets16 checksum) =
          pure ({ udp with checksum }.write ++ payload) := fun checksum =>
      store_middle (octets16 udp.sourcePort ++ octets16 udp.destinationPort ++
        octets16 udp.length) (octets16 0) (octets16 checksum) payload rfl
    unfold packet Draft.toBytes
    simp only
    rw [stored, pure_bind, List.append_assoc]
    rfl
  | echo ip message =>
    have split : ∀ checksum : UInt16, { message with checksum }.write =
        [message.type, message.code] ++ octets16 checksum ++
          (octets16 message.identifier ++ octets16 message.sequence ++ message.data) := by
      intro checksum
      simp only [Icmp.Message.write, List.append_assoc]
    have stored : ∀ checksum : UInt16,
        store { message with checksum := 0 }.write 2 (octets16 checksum) =
          pure { message with checksum }.write := by
      intro checksum
      rw [split 0, split checksum]
      exact store_middle _ _ _ _ rfl
    unfold packet Draft.toBytes
    simp only
    rw [stored, pure_bind]
    rfl

private theorem body_eq {buffer : Bytes} {ip : Ip.Header}
    (parsed : Ip.Header.parse buffer = .ok ip) :
    slice buffer ip.headerLength (min ip.totalLength buffer.length) =
      pure (Inbound.body ip buffer) := by
  have order : ip.headerLength ≤ ip.totalLength := Nat.le_add_right _ _
  have within := (Refusal.tells_of_parse parsed).within
  rw [slice_of_le (Nat.le_min.2 ⟨order, within⟩) (Nat.min_le_right _ _), ← List.drop_take,
    ← List.take_eq_take_min]
  rfl

private theorem handlePacket_eq (buffer : Bytes) (isn : UInt32) (prospect : Socket.Prospect) :
    handlePacket buffer isn prospect = (MonadExcept.ofExcept (Inbound.parse buffer) >>=
      fun packet => modify fun r => r.handle packet isn prospect) := by
  unfold handlePacket Inbound.parse
  rw [ipHeader_eq, ofExcept_bind]
  cases parsed : Ip.Header.parse buffer with
  | error e => rfl
  | ok ip =>
    simp only [ofExcept_ok, pure_bind, body_eq parsed]
    generalize Inbound.body ip buffer = body
    cases ip.protocol with
    | tcp =>
      simp only [tcpHeader_eq, ofExcept_bind]
      cases read : Tcp.Header.parse body with
      | error e => rfl
      | ok tcp =>
        simp only [ofExcept_ok, pure_bind]
        rw [slice_of_le (Refusal.tcp_within read) (Nat.le_refl _)]
        rfl
    | udp =>
      simp only [udpHeader_eq, ofExcept_bind]
      cases read : Udp.Header.parse body with
      | error e => rfl
      | ok udp =>
        simp only [ofExcept_ok, pure_bind]
        rw [slice_of_le (Refusal.udp_within read) (Nat.le_refl _), pure_bind,
          List.take_of_length_le (by simp)]
        rfl
    | icmp =>
      simp only [icmpMessage_eq, Inbound.parseIcmp, ofExcept_bind]
      cases Icmp.Message.parse ip.version body with
      | error e => rfl
      | ok message =>
        simp only [ofExcept_ok, pure_bind]
        cases message.kind <;> rfl
    | other => rfl

/-- There always is an outcome. It is an error where the buffer cannot be read, and the relay is the
one that has taken the step. -/
private theorem run_handlePacket (r : Relay) (buffer : Bytes) (isn : UInt32)
    (prospect : Socket.Prospect) : (handlePacket buffer isn prospect).run.run r =
      some ((Inbound.parse buffer).map fun _ => (), r.step (.packet buffer isn prospect)) := by
  rw [handlePacket_eq]
  simp only [Relay.step, Relay.handlePacket]
  cases Inbound.parse buffer <;> rfl

end Handling

end Access

namespace Relay

/-- What the tunnel brings never makes the handling of a packet fail half-way.

Whatever the buffer and whatever happened before, there is an outcome: no access is out of range, be
it in reading the headers, in walking the options of a segment, in emptying a queue, or in putting
together the packets that are written. The outcome is an error exactly if the buffer is refused, and
then the relay is what it was. -/
theorem run_refuses (settings : Settings) (now coreWorkers maxWorkers : Nat) (events : List Event)
    (buffer : Bytes) (isn : UInt32) (prospect : Socket.Prospect) :
    let r := (start settings now coreWorkers maxWorkers).run events
    let arrival := Event.packet buffer isn prospect
    (∃ result, (Access.handlePacket buffer isn prospect).run.run r = some (result, r.step arrival) ∧
      ((∃ e, result = .error e) ↔ Refused buffer)) ∧
    (∀ s, arrival.segment? = some s →
      Access.options s.tcp.options = MonadExcept.ofExcept s.tcp.parsedOptions) ∧
    (∀ queue n, Access.consume queue n = pure (queue.consume n)) ∧
    (∀ entry ∈ (r.step arrival).journal, ∀ purpose draft, entry.effect = .write purpose draft →
      Access.packet draft entry.identification = pure (draft.toBytes entry.identification)) ∧
    (Refused buffer → r.step arrival = r) := by
  intro r arrival
  refine ⟨⟨_, Access.run_handlePacket r buffer isn prospect, ?_⟩,
    fun s _ => Access.options_eq s.tcp.options, Access.consume_eq,
    fun entry _ _ draft _ => Access.packet_eq draft entry.identification, fun refused => ?_⟩
  · rw [← Refusal.error_iff]
    cases Inbound.parse buffer with
    | error e => exact ⟨fun _ => ⟨e, rfl⟩, fun _ => ⟨e, rfl⟩⟩
    | ok packet =>
      constructor <;>
      · rintro ⟨e, refused⟩
        cases refused
  · obtain ⟨e, unread⟩ := (Refusal.error_iff buffer).2 refused
    simp only [arrival, step, handlePacket, unread]
    rfl

end Relay
end PacketRelay
