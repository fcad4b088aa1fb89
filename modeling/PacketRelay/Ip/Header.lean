import PacketRelay.Ip.V4
import PacketRelay.Ip.V6

/-!
An IP header of either version, and what turns it into the header of an answer.

Every IPv4 packet that is built takes the next identification; IPv6 packets have none.
-/

set_option autoImplicit false

namespace PacketRelay.Ip

/-- Assigned protocol numbers. -/
def protocolIcmp : UInt8 := 1
def protocolTcp : UInt8 := 6
def protocolUdp : UInt8 := 17
def protocolIcmpV6 : UInt8 := 58

/-- What a packet carries, as far as the relay is concerned. -/
inductive Protocol
  | icmp
  | tcp
  | udp
  | other (number : UInt8)
  deriving DecidableEq

/-- The protocol with a number, where ICMP has a number of its own in each version. -/
def Protocol.ofNumber (number icmpNumber : UInt8) : Protocol :=
  if number = protocolTcp then .tcp
  else if number = protocolUdp then .udp
  else if number = icmpNumber then .icmp
  else .other number

inductive Header
  | v4 (header : V4Header)
  | v6 (header : V6Header)
  deriving DecidableEq

namespace Header

/-- Reads the header at the front of a buffer; its first four bits choose the version. -/
def parse : Bytes → Except PacketError Header
  | [] => .error (.truncated .ipHeader 1 0)
  | first :: rest =>
    if first / 16 = 4 then (V4Header.parse (first :: rest)).map v4
    else if first / 16 = 6 then (V6Header.parse (first :: rest)).map v6
    else .error (.unknownIpVersion (first / 16))

def version : Header → UInt8
  | v4 _ => 4
  | v6 _ => 6

def protocol : Header → Protocol
  | v4 h => Protocol.ofNumber h.protocol protocolIcmp
  | v6 h => Protocol.ofNumber h.nextHeader protocolIcmpV6

def source : Header → Address
  | v4 h => .v4 h.source
  | v6 h => .v6 h.source

def destination : Header → Address
  | v4 h => .v4 h.destination
  | v6 h => .v6 h.destination

def headerLength : Header → Nat
  | v4 h => h.headerLength
  | v6 _ => V6Header.length

def payloadLength : Header → Nat
  | v4 h => h.payloadLength
  | v6 h => h.payloadLength.toNat

def totalLength (h : Header) : Nat := h.headerLength + h.payloadLength

def write : Header → Bytes
  | v4 h => h.write
  | v6 h => h.write

/-- A length in a 16-bit field; lengths beyond it stop at its largest value. -/
def saturate (n : Nat) : UInt16 := UInt16.ofNat (min n 65535)

/-- The header of a packet that carries `n` payload bytes, an IPv4 one under `identification`. -/
def withPayloadLength (h : Header) (n : Nat) (identification : UInt16) : Header :=
  match h with
  | v4 h => v4 { h with totalLength := saturate (h.headerLength + n), identification }
  | v6 h => v6 { h with payloadLength := saturate n }

/-- The identification of the packet after one built from this header. -/
def nextIdentification : Header → UInt16 → UInt16
  | v4 _, identification => identification + 1
  | v6 _, identification => identification

def swapAddresses : Header → Header
  | v4 h => v4 { h with source := h.destination, destination := h.source }
  | v6 h => v6 { h with source := h.destination, destination := h.source }

/-- The header without IPv4 options. -/
def withoutOptions : Header → Header
  | v4 h => v4 { h with ihl := 5, options := [] }
  | v6 h => v6 h

/-- The header of an answer: addressed back to the sender, without IPv4 options, otherwise alike. -/
def replyTemplate (h : Header) : Header := h.withoutOptions.swapAddresses

def withChecksum : Header → Header
  | v4 h => v4 h.withChecksum
  | v6 h => v6 h

end Header
end PacketRelay.Ip
