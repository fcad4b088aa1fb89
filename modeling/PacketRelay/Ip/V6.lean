import PacketRelay.Address
import PacketRelay.Packet.Error

/-!
The IPv6 header, always forty bytes long.
-/

set_option autoImplicit false

namespace PacketRelay.Ip

open Wire

structure V6Header where
  trafficClass : UInt8
  /-- Twenty bits on the wire. -/
  flowLabel : UInt32
  payloadLength : UInt16
  nextHeader : UInt8
  hopLimit : UInt8
  source : Octets 16
  destination : Octets 16
  deriving DecidableEq

namespace V6Header

def length : Nat := 40

def write (h : V6Header) : Bytes :=
  [6 * 16 + h.trafficClass / 16,
    h.trafficClass % 16 * 16 + (h.flowLabel / 65536).toUInt8 % 16] ++
    octets16 h.flowLabel.toUInt16 ++ octets16 h.payloadLength ++ [h.nextHeader, h.hopLimit] ++
    h.source.toList ++ h.destination.toList

def parse (buffer : Bytes) : Except PacketError V6Header :=
  if buffer.length < length then .error (.truncated .ipv6Header length buffer.length)
  else match buffer with
    | b0 :: b1 :: b2 :: b3 :: b4 :: b5 :: b6 :: b7 :: addresses =>
      if b0 / 16 ≠ 6 then .error (.invalidVersion 6 (b0 / 16))
      else .ok {
        trafficClass := b0 % 16 * 16 + b1 / 16
        flowLabel := (b1 % 16).toUInt32 * 65536 + (word16 b2 b3).toUInt32
        payloadLength := word16 b4 b5
        nextHeader := b6
        hopLimit := b7
        source := Octets.read 16 addresses
        destination := Octets.read 16 (addresses.drop 16) }
    | _ => .error (.truncated .ipv6Header length buffer.length)

end V6Header
end PacketRelay.Ip
