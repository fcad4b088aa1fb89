import PacketRelay.Packet.Draft
import PacketRelay.Session.Flow
import PacketRelay.Socket

/-!
What the relay does to the world around it: the tunnel, the sockets, the flow statistics and whoever
watches the sockets.
-/

set_option autoImplicit false

namespace PacketRelay

/-- Why a packet is written to the tunnel. -/
inductive Purpose
  /-- Answers the SYN of a new session. -/
  | handshake
  | acknowledgment
  | reset
  /-- Carries bytes from the socket of a TCP session. -/
  | data
  /-- Our own FIN, after the socket has ended. -/
  | ownFin
  /-- Answers the peer's FIN. -/
  | finAnswer
  /-- Carries a datagram from the socket of a UDP session. -/
  | datagram
  | echoReply
  deriving DecidableEq

inductive Effect
  | connect (attempt : Socket.Attempt)
  /-- A packet goes into the tunnel. -/
  | write (purpose : Purpose) (draft : Draft)
  /-- A payload from the tunnel is accepted, out of a packet of the given length. -/
  | accept (payload : Bytes) (length : Nat)
  | send (socket : Nat) (bytes : Bytes)
  | receive (bytes : Bytes)
  | shutdown (socket : Nat)
  /-- The watcher of the sockets is told of a session, asked to flush one, or told to forget one. -/
  | register (key : Session.Key)
  | refresh (key : Session.Key)
  | cancel (key : Session.Key)
  /-- A flow is new, or its record has changed. -/
  | flowCreated (flow : Session.Flow)
  | flowUpdated (flow : Session.Flow)
  /-- A destination was probed, for at most the given number of milliseconds. -/
  | probe (address : Address) (timeout : Nat) (reachable : Bool)
  deriving DecidableEq

def Effect.nextIdentification (identification : UInt16) : Effect → UInt16
  | write _ draft => draft.ip.nextIdentification identification
  | _ => identification

end PacketRelay
