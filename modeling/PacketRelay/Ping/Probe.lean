import PacketRelay.Icmp
import PacketRelay.Socket

/-!
Probing whether a destination answers.

A destination is sent an echo request. If that cannot be done, or reading fails, a connection to its
echo port is tried instead; then a refusal is an answer too. What the network does is given as an
outlook, from which each operation takes its outcome.
-/

set_option autoImplicit false

namespace PacketRelay.Ping

namespace Probe

/-- One receive on the echo socket: it takes some milliseconds and brings a message or a failure. -/
structure Receive where
  after : Nat
  result : Except Errno Bytes

/-- What a probe meets. -/
structure Outlook where
  /-- Makes the opening of the echo socket fail. -/
  openError : Option Errno
  sendError : Option Errno
  /-- The receives to come; afterwards there is nothing to read. -/
  receives : List Receive
  /-- The outcome of connecting to the echo port: none if it succeeds. -/
  connectError : Option Errno

/-- How waiting for an echo reply ended. -/
inductive Wait
  | answered
  | silent
  | failed
  deriving DecidableEq

/-- What a probe did and found. -/
structure Outcome where
  reachable : Bool
  /-- The message given to the echo socket. -/
  sent : Option Bytes
  /-- Whether the echo port was tried. -/
  triedPort : Bool
  /-- The receives that were not used. -/
  unread : Nat

def payload : Bytes := "tun-relay reachability probe".toUTF8.toList

def echoPort : UInt16 := 7

/-- The longest message that is received whole. -/
def bufferLength : Nat := 1500

/-- The IP version that a probe of an address uses. -/
def ipVersion (destination : Address) : UInt8 := if destination.isV4 then 4 else 6

/-- The echo request for a destination. In IPv6 its checksum is left to the socket. -/
def request (destination : Address) (sequence : UInt16) : Bytes :=
  let message := Icmp.Message.echoRequest (ipVersion destination) 0 sequence payload
  if destination.isV4 then { message with checksum := Checksum.ofBytes message.write }.write
  else message.write

/-- Whether a message is the reply to the request with a sequence number. -/
def isAnswer (version : UInt8) (sequence : UInt16) (bytes : Bytes) : Bool :=
  match Icmp.Message.parse version (bytes.take bufferLength) with
  | .ok message => message.kind == .echoReply && message.sequence == sequence
  | .error _ => false

/-- Receives until the reply comes or no time remains. Having nothing to read counts as silence. -/
def await (version : UInt8) (sequence : UInt16) (remaining : Nat) :
    List Receive → Wait × List Receive
  | [] => (.silent, [])
  | next :: rest =>
    if remaining = 0 then (.silent, next :: rest)
    else match next.result with
      | .error .wouldBlock => (.silent, rest)
      | .error .timedOut => (.silent, rest)
      | .error _ => (.failed, rest)
      | .ok bytes =>
        if isAnswer version sequence bytes then (.answered, rest)
        else await version sequence (remaining - next.after) rest

/-- Whether the echo port answers: it takes the connection or refuses it. -/
def Outlook.portAnswers (o : Outlook) : Bool :=
  o.connectError.isNone || o.connectError == some .refused

/-- The outcome of trying the echo port. -/
def Outlook.tryPort (o : Outlook) (sent : Option Bytes) (unread : Nat) : Outcome :=
  { reachable := o.portAnswers, sent, triedPort := true, unread }

end Probe

open Probe in
/-- Probes a destination, for at most `timeout` milliseconds. -/
def probe (destination : Address) (sequence : UInt16) (timeout : Nat) (o : Outlook) : Outcome :=
  let message := request destination sequence
  if o.openError.isSome then o.tryPort none o.receives.length
  else if o.sendError.isSome then o.tryPort (some message) o.receives.length
  else
    match await (ipVersion destination) sequence timeout o.receives with
    | (.answered, rest) => ⟨true, some message, false, rest.length⟩
    | (.silent, rest) => ⟨false, some message, false, rest.length⟩
    | (.failed, rest) => o.tryPort (some message) rest.length

end PacketRelay.Ping
