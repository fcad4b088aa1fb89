import PacketRelay.Address

/-!
Real sockets, as far as a session depends on them.

What the network does to a socket is not decided here. A socket carries the outcomes that its next
operations will have: what arrives on it, how much it accepts, how its connection stands. Each
operation takes its outcome from there, so a relay that is right for every socket of this form is
right whatever the network does.
-/

set_option autoImplicit false

namespace PacketRelay

/-- Causes of failing socket operations, told apart as far as anything depends on them. -/
inductive Errno
  | wouldBlock
  | inProgress
  | interrupted
  | notConnected
  | refused
  | reset
  | unreachable
  | timedOut
  | brokenPipe
  | denied
  | noFiles
  | messageSize
  deriving DecidableEq

namespace Socket

/-- What a read meets: bytes, none of them at the end of a stream, or a failure. -/
inductive Arrival
  | data (bytes : Bytes)
  | failure (errno : Errno)
  deriving DecidableEq

/-- What a send meets: room for a number of bytes, or a failure. -/
inductive Room
  | upTo (n : Nat)
  | failure (errno : Errno)
  deriving DecidableEq

end Socket

structure Socket where
  number : Nat
  /-- A stream socket; otherwise one for datagrams. -/
  stream : Bool
  /-- Whether the peer's address can be read. -/
  connected : Bool
  /-- An error that the next query for one reports and clears. -/
  pendingError : Option Errno
  /-- Makes the query for a pending error fail. -/
  queryError : Option Errno
  /-- Makes reading the peer's address fail. -/
  peerError : Option Errno
  /-- What reads meet; an empty list blocks. -/
  arrivals : List Socket.Arrival
  /-- What sends meet; an empty list accepts everything. -/
  room : List Socket.Room
  deriving DecidableEq

namespace Socket

/-- The most that one read takes. -/
def readLimit : Nat := 65536

/-- Reads once. A stream keeps what is beyond the limit, a datagram socket loses it. -/
def read (s : Socket) : Except Errno Bytes × Socket :=
  match s.arrivals with
  | [] => (.error .wouldBlock, s)
  | .failure e :: rest => (.error e, { s with arrivals := rest })
  | .data bytes :: rest =>
    let left := bytes.drop readLimit
    let arrivals := if s.stream && !left.isEmpty then .data left :: rest else rest
    (.ok (bytes.take readLimit), { s with arrivals })

/-- Sends a chunk once; gives the number of bytes accepted. -/
def send (s : Socket) (chunk : Bytes) : Except Errno Nat × Socket :=
  match s.room with
  | [] => (.ok chunk.length, s)
  | .upTo n :: rest => (.ok (min n chunk.length), { s with room := rest })
  | .failure e :: rest => (.error e, { s with room := rest })

/-- Whether a connection that was begun has completed. A pending error means that it failed; a peer
without address means that it is still under way. -/
def checkConnected (s : Socket) : Except Errno Bool × Socket :=
  match s.queryError, s.pendingError, s.peerError with
  | some e, _, _ => (.error e, s)
  | none, some e, _ => (.error e, { s with pendingError := none })
  | none, none, some .notConnected => (.ok false, s)
  | none, none, some e => (.error e, s)
  | none, none, none => (.ok s.connected, s)

/-- What opening a socket meets. -/
structure Prospect where
  /-- Makes the creation of the socket fail. -/
  creation : Option Errno
  /-- The outcome of connecting: none where the connection stands at once. -/
  connection : Option Errno
  /-- Options whose setting fails, and the failure. -/
  keepAlive : Option Errno
  noDelay : Option Errno
  receiveBuffer : Option Errno
  nonblocking : Option Errno
  broadcast : Option Errno
  /-- The outcomes of later operations; its number, its type and whether it is connected are set when
  the socket is opened. -/
  socket : Socket
  deriving DecidableEq

structure Target where
  address : Address
  port : UInt16
  /-- The interface of a link-local address, or zero. -/
  scope : UInt32
  deriving DecidableEq

/-- A call to connect, with the options that were set before it. -/
structure Attempt where
  number : Nat
  target : Target
  stream : Bool
  keepAlive : Bool
  noDelay : Bool
  nonblocking : Bool
  broadcast : Bool
  receiveBuffer : Option Nat
  deriving DecidableEq

/-- The result of opening a socket: the call to connect, if it came so far, and then the cause of
the failure or the socket, with whether its connection stands already. -/
structure Opening where
  attempt : Option Attempt
  result : Except Errno (Socket × Bool)

namespace Prospect

/-- Stops at the first failure in a list of steps. -/
def firstFailure (steps : List (Option Errno)) : Option Errno := steps.findSome? id

/-- A socket whose connection has been begun or made. -/
def begun (p : Prospect) (number : Nat) (stream connected : Bool) : Socket :=
  { p.socket with number, stream, connected := connected || p.socket.connected }

/-- Opens a non-blocking stream socket with keep-alive and without delay, and begins to connect it.
A receive buffer that cannot be set is no failure, and neither is a connection still in progress. -/
def openStream (p : Prospect) (number : Nat) (target : Target) (receiveBuffer : Nat) : Opening :=
  match firstFailure [p.creation, p.keepAlive, p.noDelay, p.nonblocking] with
  | some e => ⟨none, .error e⟩
  | none =>
    let attempt : Attempt := {
      number, target, stream := true, keepAlive := true, noDelay := true, nonblocking := true
      broadcast := false
      receiveBuffer := if p.receiveBuffer.isNone then some receiveBuffer else none }
    let result := match p.connection with
      | none => .ok (p.begun number true true, true)
      | some .wouldBlock => .ok (p.begun number true false, false)
      | some .inProgress => .ok (p.begun number true false, false)
      | some e => .error e
    ⟨some attempt, result⟩

/-- Opens a connected, non-blocking datagram socket; broadcasts are allowed in IPv4. -/
def openDatagram (p : Prospect) (number : Nat) (target : Target) : Opening :=
  let broadcast := target.address.isV4
  match firstFailure [p.creation, if broadcast then p.broadcast else none, p.nonblocking] with
  | some e => ⟨none, .error e⟩
  | none =>
    let attempt : Attempt := {
      number, target, stream := false, keepAlive := false, noDelay := false, nonblocking := true
      broadcast, receiveBuffer := none }
    let result := match p.connection with
      | none => .ok (p.begun number false true, true)
      | some e => .error e
    ⟨some attempt, result⟩

end Prospect
end Socket
end PacketRelay
