import PacketRelay.Proofs.Codec

/-!
Headers are written as they were read.

For each kind of header, reading and writing are inverse to each other between the headers that fit
the wire and the buffers that are accepted: what is read from a buffer is written as the bytes that
it was read from, and what is written of a header that fits is read back, whatever follows it.
-/

set_option autoImplicit false

namespace PacketRelay

open Wire

/-- Reading and writing headers of one kind are inverse to each other. -/
structure Wire.Exact {H : Type} (parse : Bytes → Except PacketError H) (write : H → Bytes)
    (headerLength : H → Nat) (Fits : H → Prop) : Prop where
  /-- A header that was read fits, and it is written as the front of the buffer. -/
  read : ∀ {b : Bytes} {h : H}, parse b = .ok h →
    Fits h ∧ headerLength h ≤ b.length ∧ write h = b.take (headerLength h)
  /-- A header that fits is read back, whatever follows it. -/
  written : ∀ {h : H}, Fits h → ∀ rest : Bytes, parse (write h ++ rest) = .ok h

private theorem Octets.toList_read {n : Nat} {bytes : Bytes} (enough : n ≤ bytes.length) :
    (Octets.read n bytes).toList = bytes.take n := by
  apply List.ext_getElem
  · simp [enough]
  · intro i here there
    have within : i < bytes.length := by
      have : i < n := by simpa using here
      omega
    simp [Octets.read, within]

namespace Wire

private theorem toNat_bit (w d : UInt16) : (w / d % 2 == 1).toNat = w.toNat / d.toNat % 2 := by
  have value : (w / d % 2).toNat = w.toNat / d.toNat % 2 := by
    simp [UInt16.toNat_mod, UInt16.toNat_div]
  rw [← value]
  by_cases one : w / d % 2 = 1
  · rw [one]
    rfl
  · have zero : (w / d % 2).toNat ≠ 1 := fun same => one (UInt16.toNat.inj same)
    rw [beq_eq_false_iff_ne.2 one]
    simp only [Bool.toNat_false]
    omega

private theorem nibbles {b high : UInt8} (upper : b / 16 = high) : high * 16 + b % 16 % 16 = b := by
  subst upper
  apply UInt8.toNat.inj
  have := b.toNat_lt
  simp
  omega

end Wire

namespace Ip

private theorem V4Header.fragmentWord_of_parse {h : V4Header} {w : UInt16}
    (reserved : h.reservedFlag = (w / 0x8000 % 2 == 1))
    (dont : h.dontFragment = (w / 0x4000 % 2 == 1))
    (more : h.moreFragments = (w / 0x2000 % 2 == 1))
    (offset : h.fragmentOffset = w % 0x2000) : h.fragmentWord = w := by
  have small : h.fragmentOffset < 0x2000 := by
    rw [offset]
    exact UInt16.mod_lt _ (by decide)
  apply UInt16.toNat.inj
  rw [toNat_fragmentWord small, reserved, dont, more, offset]
  simp only [toNat_bit, UInt16.toNat_mod, UInt16.reduceToNat]
  have := w.toNat_lt
  omega

private theorem V4Header.write_of_parse {buffer : Bytes} {h : V4Header}
    (parsed : V4Header.parse buffer = .ok h) :
    h.headerLength ≤ buffer.length ∧ h.write = buffer.take h.headerLength := by
  unfold V4Header.parse at parsed
  split at parsed
  case h_2 => cases parsed
  case h_1 b0 b1 b2 b3 b4 b5 b6 b7 b8 b9 b10 b11 s0 s1 s2 s3 d0 d1 d2 d3 rest =>
    simp only at parsed
    split at parsed
    · cases parsed
    · split at parsed
      · cases parsed
      · split at parsed
        · cases parsed
        · split at parsed
          · cases parsed
          case isFalse version least enough total =>
            obtain rfl := Except.ok.inj parsed
            have first : 4 * 16 + b0 % 16 % 16 = b0 := nibbles (Decidable.not_not.1 version)
            have second : b1 / 4 * 4 + b1 % 4 % 4 = b1 := by
              apply UInt8.toNat.inj
              have := b1.toNat_lt
              simp
              omega
            have words : ∃ n, (b0 % 16).toNat * 4 = n + 20 := by
              rw [UInt8.not_lt, UInt8.le_iff_toNat_le] at least
              exact ⟨(b0 % 16).toNat * 4 - 20, by simp only [UInt8.reduceToNat] at least; omega⟩
            obtain ⟨n, words⟩ := words
            simp only [words, minLength, Nat.add_sub_cancel] at enough
            constructor
            · simp only [headerLength, words, List.length_cons]
              omega
            · simp only [write, headerLength, words, minLength, Nat.add_sub_cancel, first, second,
                octets16_word16, List.take_succ_cons]
              rw [fragmentWord_of_parse (w := word16 b6 b7) rfl rfl rfl rfl, octets16_word16]
              rfl

private theorem V4Header.exact :
    Exact V4Header.parse V4Header.write V4Header.headerLength V4Header.Fits where
  read parsed := ⟨fits_of_parse parsed, write_of_parse parsed⟩
  written := parse_write

private theorem V6Header.write_of_parse {buffer : Bytes} {h : V6Header}
    (parsed : V6Header.parse buffer = .ok h) :
    length ≤ buffer.length ∧ h.write = buffer.take length := by
  unfold V6Header.parse at parsed
  split at parsed
  · cases parsed
  case isFalse enough =>
    refine ⟨Nat.not_lt.1 enough, ?_⟩
    split at parsed
    case h_2 => cases parsed
    case h_1 b0 b1 b2 b3 b4 b5 b6 b7 addresses =>
      split at parsed
      · cases parsed
      case isFalse version =>
        obtain rfl := Except.ok.inj parsed
        have upper : b0 / 16 = 6 := Decidable.not_not.1 version
        have b0_lt := b0.toNat_lt
        have b1_lt := b1.toNat_lt
        have word_lt := (word16 b2 b3).toNat_lt
        have first : 6 * 16 + (b0 % 16 * 16 + b1 / 16) / 16 = b0 := by
          apply UInt8.toNat.inj
          rw [← upper]
          simp
          omega
        have second : (b0 % 16 * 16 + b1 / 16) % 16 * 16 +
            (((b1 % 16).toUInt32 * 65536 + (word16 b2 b3).toUInt32) / 65536).toUInt8 % 16 = b1 := by
          apply UInt8.toNat.inj
          simp
          omega
        have label : ((b1 % 16).toUInt32 * 65536 + (word16 b2 b3).toUInt32).toUInt16 =
            word16 b2 b3 := by
          apply UInt16.toNat.inj
          simp
        have long : 32 ≤ addresses.length := by
          simpa [length] using enough
        have source : (Octets.read 16 addresses).toList = addresses.take 16 :=
          Octets.toList_read (by omega)
        have destination : (Octets.read 16 (addresses.drop 16)).toList =
            (addresses.drop 16).take 16 :=
          Octets.toList_read (by simp only [List.length_drop]; omega)
        have both : addresses.take 16 ++ (addresses.drop 16).take 16 = addresses.take 32 :=
          List.take_add.symm
        simp only [write, first, second, label, octets16_word16, source, destination,
          both, length, List.cons_append, List.nil_append, List.take_succ_cons]

private theorem V6Header.exact :
    Exact V6Header.parse V6Header.write (fun _ => V6Header.length) V6Header.Fits where
  read parsed := ⟨fits_of_parse parsed, write_of_parse parsed⟩
  written := parse_write

end Ip

namespace Tcp.Header

private theorem write_of_parse {segment : Bytes} {h : Header}
    (parsed : Header.parse segment = .ok h) :
    h.headerLength ≤ segment.length ∧ h.write = segment.take h.headerLength := by
  unfold Header.parse at parsed
  split at parsed
  case h_2 => cases parsed
  case h_1 b0 b1 b2 b3 b4 b5 b6 b7 b8 b9 b10 b11 b12 b13 b14 b15 b16 b17 b18 b19 rest =>
    simp only at parsed
    split at parsed
    · cases parsed
    · split at parsed
      · cases parsed
      case isFalse least enough =>
        obtain rfl := Except.ok.inj parsed
        have middle : b12 / 16 * 16 + b12 % 16 % 16 = b12 := nibbles rfl
        have words : ∃ n, (b12 / 16).toNat * 4 = n + 20 := by
          rw [UInt8.not_lt, UInt8.le_iff_toNat_le] at least
          exact ⟨(b12 / 16).toNat * 4 - 20, by simp only [UInt8.reduceToNat] at least; omega⟩
        obtain ⟨n, words⟩ := words
        simp only [words, minLength, Nat.add_sub_cancel] at enough
        constructor
        · simp only [headerLength, words, List.length_cons]
          omega
        · simp only [write, headerLength, words, minLength, Nat.add_sub_cancel, middle,
            octets16_word16, octets32_word32, List.take_succ_cons]
          rfl

theorem exact : Exact Header.parse Header.write Header.headerLength Fits where
  read parsed := ⟨fits_of_parse parsed, write_of_parse parsed⟩
  written := parse_write

end Tcp.Header

namespace Udp.Header

private theorem write_of_parse {datagram : Bytes} {h : Header}
    (parsed : Header.parse datagram = .ok h) :
    headerLength ≤ datagram.length ∧ h.write = datagram.take headerLength := by
  unfold Header.parse at parsed
  split at parsed
  case h_2 => cases parsed
  case h_1 b0 b1 b2 b3 b4 b5 b6 b7 rest =>
    obtain rfl := Except.ok.inj parsed
    constructor
    · simp only [headerLength, List.length_cons]
      omega
    · simp [write, headerLength]

theorem exact :
    Exact Header.parse Header.write (fun _ => headerLength) (fun _ => True) where
  read parsed := ⟨trivial, write_of_parse parsed⟩
  written _ := parse_write _

end Udp.Header

namespace Icmp.Message

private theorem write_of_parse {version : UInt8} {buffer : Bytes} {m : Message}
    (parsed : Message.parse version buffer = .ok m) : m.ipVersion = version ∧ m.write = buffer := by
  unfold Message.parse at parsed
  split at parsed
  case h_2 => cases parsed
  case h_1 b0 b1 b2 b3 b4 b5 b6 b7 data =>
    obtain rfl := Except.ok.inj parsed
    exact ⟨rfl, by simp [write]⟩

end Icmp.Message

/-- Headers of every kind are written as they were read and read as they were written. ICMP messages
are read and written whole. -/
theorem headers_exact :
    Exact Ip.V4Header.parse Ip.V4Header.write Ip.V4Header.headerLength Ip.V4Header.Fits ∧
    Exact Ip.V6Header.parse Ip.V6Header.write (fun _ => Ip.V6Header.length) Ip.V6Header.Fits ∧
    Exact Tcp.Header.parse Tcp.Header.write Tcp.Header.headerLength Tcp.Header.Fits ∧
    Exact Udp.Header.parse Udp.Header.write (fun _ => Udp.Header.headerLength) (fun _ => True) ∧
    (∀ {version : UInt8} {buffer : Bytes} {m : Icmp.Message},
      Icmp.Message.parse version buffer = .ok m → m.ipVersion = version ∧ m.write = buffer) ∧
    ∀ m : Icmp.Message, Icmp.Message.parse m.ipVersion m.write = .ok m :=
  ⟨Ip.V4Header.exact, Ip.V6Header.exact, Tcp.Header.exact, Udp.Header.exact,
    Icmp.Message.write_of_parse, Icmp.Message.parse_write⟩

/-- The bytes of an IPv4 header with options and all flags set, and four bytes behind it. -/
def Ip.V4Header.optioned : Bytes :=
  [0x46, 0xbb, 0x00, 0x1c, 0xab, 0xcd, 0xff, 0xff, 0x40, 0x11, 0x12, 0x34,
    10, 0, 0, 2, 8, 8, 8, 8, 0x94, 0x04, 0x00, 0x00, 0xde, 0xad, 0xbe, 0xef]

theorem headers_exact_options :
    (∃ h, Ip.V4Header.parse Ip.V4Header.optioned = .ok h ∧ h.Fits ∧ h.headerLength = 24 ∧
      h.write = Ip.V4Header.optioned.take 24 ∧ Ip.V4Header.parse (h.write ++ [1, 2, 3]) = .ok h) ∧
    ∃ m, Icmp.Message.parse 6 [128, 0, 1, 2, 3, 4, 5, 6, 7] = .ok m ∧
      m.ipVersion = 6 ∧ m.write = [128, 0, 1, 2, 3, 4, 5, 6, 7] := by
  constructor
  · refine ⟨_, rfl, ?_⟩
    obtain ⟨fits, _, written⟩ := headers_exact.1.read (b := Ip.V4Header.optioned) rfl
    exact ⟨fits, rfl, written, headers_exact.1.written fits [1, 2, 3]⟩
  · exact ⟨_, rfl, headers_exact.2.2.2.2.1 rfl⟩

end PacketRelay
