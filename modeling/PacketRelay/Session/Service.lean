import PacketRelay.Session.Conversation

/-!
The socket's side of a session: what one pass over it does.

A pass completes a pending connection, flushes what is queued and reads a bounded number of times.
Bytes from a stream go to the peer in segments of bounded size, a datagram goes as it is.
-/

set_option autoImplicit false

namespace PacketRelay.Session

/-- How a pass over a session ended. -/
inductive Pass
  | keep
  /-- The stream has ended. -/
  | remoteClosed
  | failed (errno : Errno)
  /-- The session has no socket any more. -/
  | gone
  deriving DecidableEq

/-- The number of reads in one pass, so that a busy socket leaves time for the others. -/
def readsPerPass : Nat := 16

namespace Turn

/-- Writes one data segment to the peer. -/
def sendSegment (t : Turn) (ip : Ip.Header) (tcp : Tcp.Header) (chunk : Bytes) : Turn :=
  let draft :=
    Draft.data ip tcp t.state.sendNext t.state.recvNext chunk t.state.replyTimestamps
  (t.update fun s =>
    { s with sendNext := s.sendNext + UInt32.ofNat chunk.length }.record .ingress
      draft.length).write .data draft

/-- Writes bytes to the peer in segments of at most one maximum segment size. -/
def sendSegments (t : Turn) (ip : Ip.Header) (tcp : Tcp.Header) : Bytes → Turn
  | [] => t
  | first :: rest =>
    let more := t.state.maxSegmentSize.toNat - 1
    (t.sendSegment ip tcp (first :: rest.take more)).sendSegments ip tcp (rest.drop more)
termination_by bytes => bytes.length
decreasing_by simp only [List.length_drop, List.length_cons]; omega

/-- Writes the answer to the peer's last datagram. -/
def sendResponse (t : Turn) (ip : Ip.Header) (udp : Udp.Header) (payload : Bytes) : Turn :=
  let draft := Draft.response ip udp payload
  (t.write .datagram draft).update fun s => s.record .ingress draft.length

/-- Hands on what was read from the socket. Without a header from the peer it is lost, but it is a
sign of life, which counts while the session is the current one of its flow. -/
def deliver (t : Turn) (bytes : Bytes) (classifier : Classifier) (current : Bool) (now : Nat) :
    Turn :=
  let t := (t.emit (.receive bytes)).classify classifier .ingress bytes
  let t := match t.session.key.protocol with
    | .tcp => match t.state.lastSegment? with
      | some (ip, tcp) => t.sendSegments ip tcp bytes
      | none => t
    | .udp => match t.state.lastDatagram? with
      | some (ip, udp) => t.sendResponse ip udp bytes
      | none => t
  if current then { t with session := t.session.touch now } else t

/-- Reads up to `n` times. A read of no bytes ends a stream and is an empty datagram otherwise. -/
def readAll (classifier : Classifier) (current : Bool) (now : Nat) : Nat → Turn → Turn × Pass
  | 0, t => (t, .keep)
  | n + 1, t =>
    match t.session.socket with
    | none => (t, .gone)
    | some socket =>
      match socket.read with
      | (.error .wouldBlock, after) => (t.withSocket after, .keep)
      | (.error .interrupted, after) => readAll classifier current now n (t.withSocket after)
      | (.error e, after) => (t.withSocket after, .failed e)
      | (.ok bytes, after) =>
        let t := t.withSocket after
        if bytes.isEmpty && t.session.key.protocol == .tcp then (t, .remoteClosed)
        else readAll classifier current now n (t.deliver bytes classifier current now)

/-- Flushes and reads on a connected socket. Once our FIN is out or pending nothing more is read. -/
def exchange (t : Turn) (classifier : Classifier) (current : Bool) (now : Nat) : Turn × Pass :=
  let (t, failure) :=
    if 0 < t.state.outbound.size || t.state.dataReady then t.flush else (t, none)
  match failure with
  | some e => (t, .failed e)
  | none =>
    if t.state.ackedToFin || t.state.closing then (t, .keep)
    else readAll classifier current now readsPerPass t

def pump (t : Turn) (classifier : Classifier) (current : Bool) (now : Nat) : Turn × Pass :=
  match t.session.socket with
  | none => (t, .gone)
  | some socket =>
    if t.state.connected then t.exchange classifier current now
    else match socket.checkConnected with
      | (.error e, after) => (t.withSocket after, .failed e)
      | (.ok false, after) => (t.withSocket after, .keep)
      | (.ok true, after) =>
        ((t.withSocket after).update fun s => s.setConnected true).exchange classifier current now

/-- The stream has ended. With nothing unacknowledged our FIN goes out at once, otherwise it
waits. -/
def remoteClose (t : Turn) : Turn :=
  if 0 < t.state.unacknowledged then t.update fun s => { s with closing := true }
  else
    let next := t.state.sendNext
    t.sendFin.update fun s => { s with sendNext := next + 1 }

end Turn
end PacketRelay.Session
