import PacketRelay.Ip.Header
import PacketRelay.Tcp.Flags
import PacketRelay.Tcp.Options

/-!
The TCP header, and the header of an answer to it.

As with IPv4, the header length is the word count `dataOffset`, whatever the options are.
-/

set_option autoImplicit false

namespace PacketRelay.Tcp

open Wire

/-- The window on every segment sent. -/
def defaultWindow : UInt16 := 0xffff

/-- The segment size assumed of a peer that does not state one. -/
def defaultMss : UInt16 := 536

/-- The largest payload that fits the 16-bit IP length behind the longest IP and TCP headers. -/
def maxMss : UInt16 := 65535 - 60 - 60

/-- What an IPv6 header, a TCP header and the timestamp option take from a packet. -/
def replyOverhead : Nat := 40 + 20 + 12

/-- The segment size that keeps packets within `mtu` bytes. -/
def mssForMtu (mtu : Nat) : UInt16 :=
  let room := mtu - replyOverhead
  if room < 65536 then max 1 (min maxMss (UInt16.ofNat room)) else maxMss

structure Header where
  sourcePort : UInt16
  destinationPort : UInt16
  seq : UInt32
  ack : UInt32
  /-- Header length in 32-bit words. -/
  dataOffset : UInt8
  /-- The low four bits of the byte that holds the data offset. -/
  reserved : UInt8
  flags : Flags
  window : UInt16
  checksum : UInt16
  urgent : UInt16
  options : Bytes
  deriving DecidableEq

namespace Header

def minLength : Nat := 20

def headerLength (h : Header) : Nat := h.dataOffset.toNat * 4

/-- The header on the wire, with its checksum as stored. -/
def write (h : Header) : Bytes :=
  octets16 h.sourcePort ++ octets16 h.destinationPort ++ octets32 h.seq ++ octets32 h.ack ++
    [h.dataOffset * 16 + h.reserved % 16, h.flags.bits] ++ octets16 h.window ++
    octets16 h.checksum ++ octets16 h.urgent ++ h.options

def parse : Bytes → Except PacketError Header
  | b0 :: b1 :: b2 :: b3 :: b4 :: b5 :: b6 :: b7 :: b8 :: b9 :: b10 :: b11 :: b12 :: b13 :: b14 ::
      b15 :: b16 :: b17 :: b18 :: b19 :: rest =>
    let dataOffset := b12 / 16
    let optionsLength := dataOffset.toNat * 4 - minLength
    if dataOffset < 5 then .error (.malformed .tcpOffsetBelowMinimum)
    else if rest.length < optionsLength then
      .error (.truncated .tcpOptions (dataOffset.toNat * 4) (minLength + rest.length))
    else .ok {
      sourcePort := word16 b0 b1
      destinationPort := word16 b2 b3
      seq := word32 b4 b5 b6 b7
      ack := word32 b8 b9 b10 b11
      dataOffset
      reserved := b12 % 16
      flags := ⟨b13⟩
      window := word16 b14 b15
      checksum := word16 b16 b17
      urgent := word16 b18 b19
      options := rest.take optionsLength }
  | segment => .error (.truncated .tcpHeader minLength segment.length)

def isFin (h : Header) : Bool := h.flags.has .fin
def isSyn (h : Header) : Bool := h.flags.has .syn
def isRst (h : Header) : Bool := h.flags.has .rst
def isPsh (h : Header) : Bool := h.flags.has .psh
def isAck (h : Header) : Bool := h.flags.has .ack

/-- The options, or the fault in them. -/
def parsedOptions (h : Header) : Except PacketError Options := Options.parse h.options

/-- The segment size the peer states, if its options can be read. -/
def mss? (h : Header) : Option UInt16 := h.parsedOptions.toOption.bind (·.mss)

/-- The peer's timestamps, if its options can be read. -/
def timestamps? (h : Header) : Option Timestamps := h.parsedOptions.toOption.bind (·.timestamps)

/-- The header of a segment back to the sender of this one. -/
def reply (h : Header) (seq ack : UInt32) (flags : Flags) : Header where
  sourcePort := h.destinationPort
  destinationPort := h.sourcePort
  seq
  ack
  dataOffset := 5
  reserved := 0
  flags
  window := defaultWindow
  checksum := 0
  urgent := 0
  options := []

/-- The header with more option bytes, its data offset following the options. -/
def addOption (h : Header) (bytes : Bytes) : Header :=
  let options := h.options ++ bytes
  { h with options, dataOffset := UInt8.ofNat (5 + options.length / 4) }

def withMss (h : Header) (mss : UInt16) : Header := h.addOption (Options.writeMss mss)

def withTimestamps (h : Header) (t : Timestamps) : Header :=
  h.addOption (Options.writeTimestamps t)

/-- The header with the timestamp option, if there are timestamps to send. -/
def withTimestamps? (h : Header) : Option Timestamps → Header
  | some t => h.withTimestamps t
  | none => h

end Header
end PacketRelay.Tcp
