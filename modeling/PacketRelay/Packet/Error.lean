/-!
Why a buffer is not a packet the relay can work with.

A packet error concerns one packet only; no session is touched by it.
-/

set_option autoImplicit false

namespace PacketRelay

/-- A part of a packet that may be cut short. -/
inductive PacketPart
  | ipHeader
  | ipv4Header
  | ipv4Options
  | ipv6Header
  | tcpHeader
  | tcpOptions
  | udpHeader
  | icmpHeader
  deriving DecidableEq

/-- A header that contradicts itself or is of the wrong kind. -/
inductive HeaderFlaw
  | ipv4LengthBelowMinimum
  | ipv4TotalBelowHeader
  | tcpOffsetBelowMinimum
  | optionWithoutLength
  | optionLengthOutOfRange
  | optionWrongLength
  | notTcpOrUdp
  deriving DecidableEq

inductive PacketError
  /-- Fewer bytes than a part needs. -/
  | truncated (part : PacketPart) (need available : Nat)
  /-- An IPv4 header (`expected` 4) or IPv6 header (6) with another version number. -/
  | invalidVersion (expected actual : UInt8)
  | unknownIpVersion (version : UInt8)
  | malformed (flaw : HeaderFlaw)
  /-- An ICMP message that is neither an echo request nor one that may be ignored. -/
  | unsupportedIcmp (type : UInt8)
  /-- An ICMP message that cannot be sent because it is not an echo message. -/
  | notAnEcho (type : UInt8)
  deriving DecidableEq

def PacketPart.name : PacketPart → String
  | ipHeader => "IP header"
  | ipv4Header => "IPv4 header"
  | ipv4Options => "IPv4 options"
  | ipv6Header => "IPv6 header"
  | tcpHeader => "TCP header"
  | tcpOptions => "TCP options"
  | udpHeader => "UDP header"
  | icmpHeader => "ICMP header"

def HeaderFlaw.text : HeaderFlaw → String
  | ipv4LengthBelowMinimum => "IPv4 header length below 5 words"
  | ipv4TotalBelowHeader => "IPv4 total length shorter than header"
  | tcpOffsetBelowMinimum => "TCP data offset below 5 words"
  | optionWithoutLength => "TCP option without length"
  | optionLengthOutOfRange => "TCP option length out of range"
  | optionWrongLength => "TCP option has the wrong length"
  | notTcpOrUdp => "not a TCP or UDP packet"

def PacketError.message : PacketError → String
  | truncated part need available =>
    "truncated " ++ part.name ++ ": need " ++ toString need ++ " bytes, have " ++ toString available
  | invalidVersion expected actual =>
    "invalid IPv" ++ toString expected.toNat ++ " version: expected " ++ toString expected.toNat ++
      ", got " ++ toString actual.toNat
  | unknownIpVersion version => "unknown IP version " ++ toString version.toNat
  | malformed flaw => "malformed header: " ++ flaw.text
  | unsupportedIcmp type =>
    "unsupported ICMP type " ++ toString type.toNat ++ ", only echo requests are supported"
  | notAnEcho type => "cannot serialize ICMP type " ++ toString type.toNat ++ " as a reply"

end PacketRelay
