import PacketRelay.Ip.Header

/-!
The identity of a flow, and its text.

A flow is named from the peer's side: first where its packets go, then where they come from.
-/

set_option autoImplicit false

namespace PacketRelay.Session

/-- The transport protocols that have sessions. -/
inductive Protocol
  | tcp
  | udp
  deriving DecidableEq

def Protocol.chars : Protocol → List Char
  | tcp => ['T', 'C', 'P']
  | udp => ['U', 'D', 'P']

structure Key where
  protocol : Protocol
  destination : Address
  destinationPort : UInt16
  source : Address
  sourcePort : UInt16
  deriving DecidableEq

namespace Key

def endpointChars (address : Address) (port : UInt16) : List Char :=
  address.chars ++ ':' :: Nat.toDigits 10 port.toNat

def chars (k : Key) : List Char :=
  k.protocol.chars ++ '|' :: endpointChars k.destination k.destinationPort ++
    '|' :: endpointChars k.source k.sourcePort

/-- The text of a key: `TCP|destination:port|source:port`. -/
def text (k : Key) : String := String.ofList k.chars

/-- The flow of a packet with the given IP header and ports. -/
def ofHeaders (protocol : Protocol) (ip : Ip.Header) (sourcePort destinationPort : UInt16) : Key :=
  { protocol, destination := ip.destination, destinationPort, source := ip.source, sourcePort }

end Key
end PacketRelay.Session
