import PacketRelay.Tcp.Header

/-!
Damage that shows in a TCP segment.
-/

set_option autoImplicit false

namespace PacketRelay.Tcp

/-- A segment is damaged if its checksum does not verify or its options cannot be read. -/
def isCorrupted (ip : Ip.Header) (tcp : Header) (segment : Bytes) : Bool :=
  Checksum.ofSegment ip.source ip.destination Ip.protocolTcp segment != some 0 ||
    !tcp.parsedOptions.isOk

end PacketRelay.Tcp
