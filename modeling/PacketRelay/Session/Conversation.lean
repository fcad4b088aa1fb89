import PacketRelay.Packet.Inbound
import PacketRelay.Session
import PacketRelay.Session.Flush

/-!
The peer's side of a session: what its segments and datagrams do.

The real socket does the work of TCP with the remote host. Here only the peer's view is kept
consistent: payload in order is queued and acknowledged, other payload is acknowledged and dropped,
and an end of the connection on either side is carried over to the other.
-/

set_option autoImplicit false

namespace PacketRelay.Session

namespace State

/-- The state of a session opened by a SYN, our side starting at `isn`. -/
def begin (s : State) (syn : Inbound.Segment) (isn : UInt32) (mssLimit : UInt16) (now : Nat) :
    State :=
  { ((s.setMaxSegmentSize (min (syn.tcp.mss?.getD Tcp.defaultMss) mssLimit)).stampTimestamps
      syn.tcp.timestamps? now).rememberTcp syn.ip syn.tcp with
    sendUnacknowledged := isn
    sendNext := isn + 1
    recvNext := syn.tcp.seq + 1 }

end State

/-- What becomes of a session after a segment: it is finished, or it stays, perhaps due for a
flush. -/
inductive Verdict
  | close
  | stay (refresh : Bool)
  deriving DecidableEq

namespace Turn

/-- Sends what the socket takes. Gives the failure, if there was one. -/
def flush (t : Turn) : Turn × Option Errno :=
  match t.session.socket with
  | none => (t, none)
  | some socket =>
    let flushed := t.state.outbound.flush socket []
    let t := (t.withSocket flushed.socket).update fun s =>
      { s with
        outbound := flushed.queue
        dataReady := s.dataReady && flushed.finish != .drained }
    let t := { t with effects := flushed.sent.map (.send socket.number) ++ t.effects }
    match flushed.finish with
    | .failed e => (t, some e)
    | _ => (t, none)

/-- Writes our FIN, if the peer has been heard of. -/
def sendFin (t : Turn) : Turn :=
  match t.state.lastSegment? with
  | none => t
  | some (ip, tcp) =>
    (t.write .ownFin (.finAck ip tcp t.state.sendNext t.state.recvNext)).update fun s =>
      { s with closing := false, ackedToFin := true }

def resendAck (t : Turn) : Turn :=
  match t.state.lastSegment? with
  | none => t
  | some (ip, tcp) =>
    let reply := tcp.reply t.state.sendNext t.state.recvNext .ack
    t.write .acknowledgment (.answer ip (reply.withTimestamps? t.state.replyTimestamps) [])

/-- Resets the peer's side of the connection, if the peer has been heard of. -/
def resetPeer (t : Turn) : Turn :=
  match t.state.lastSegment? with
  | none => t
  | some (ip, tcp) => t.write .reset (.reset ip tcp 0)

/-- Queues the payload of a segment and acknowledges it. The payload counts from where the last one
ended, even if it starts ahead of that. -/
def takePayload (t : Turn) (s : Inbound.Segment) (classifier : Classifier) (now : Nat) : Turn :=
  let base := if t.state.recvNext == 0 then s.tcp.seq else t.state.recvNext
  let next := base + UInt32.ofNat s.payload.length
  let t := (t.emit (.accept s.payload s.ip.totalLength)).update fun st =>
    ({ st with recvNext := next }.appendOutbound s.payload).record .egress s.ip.totalLength
  let t := (t.classify classifier .egress s.payload).update fun st =>
    { st.stampTimestamps s.tcp.timestamps? now with dataReady := true }
  t.write .acknowledgment (.ack s.ip s.tcp t.state.recvNext t.state.replyTimestamps)

/-- Acknowledges a payload that is not taken. -/
def refusePayload (t : Turn) (s : Inbound.Segment) : Turn :=
  t.write .acknowledgment (.ack s.ip s.tcp s.nextSeq t.state.replyTimestamps)

/-- Handles the acknowledgment of a segment without payload. A FIN that waits for acknowledgments
goes out with the last of them. -/
def takeAck (t : Turn) (s : Inbound.Segment) (now : Nat) : Turn :=
  let t := t.update fun st =>
    { st with corrupted := s.isCorrupted }.acceptAck s.tcp.ack s.tcp.seq s.tcp.timestamps? now
  if t.state.closing && t.state.acked && t.state.unacknowledged == 0 then
    t.sendFin.update fun st => { st with sendNext := s.tcp.ack + 1 }
  else t

/-- A pushed segment asks for a flush, whatever became of its payload. -/
def takePush (t : Turn) (s : Inbound.Segment) (now : Nat) : Turn :=
  if s.tcp.isPsh then
    t.update fun st => { st.stampTimestamps s.tcp.timestamps? now with dataReady := true }
  else t

/-- Carries out the FIN or the reset of a segment. A FIN sits behind the payload, so it counts only
if the payload was in order; a pushed reset counts for nothing. -/
def takeEnd (t : Turn) (s : Inbound.Segment) (inOrder : Bool) : Turn :=
  if s.tcp.isFin then
    if inOrder then t.write .finAnswer (.finAck s.ip s.tcp s.tcp.ack (s.nextSeq + 1)) else t
  else if s.tcp.isRst && !s.tcp.isPsh then t.update fun st => { st with aborting := true }
  else t

/-- Handles a segment with the ACK flag. -/
def receiveAck (t : Turn) (s : Inbound.Segment) (classifier : Classifier) (now : Nat) :
    Turn × Verdict :=
  let t := t.update fun st => st.rememberTcp s.ip s.tcp
  let bare := s.payload.isEmpty
  let accepted := !bare && t.state.acceptsData s.tcp.seq
  let finAnswered := bare && !t.state.closing && t.state.ackedToFin && !s.tcp.isFin
  let t :=
    if bare then t.takeAck s now
    else if accepted then t.takePayload s classifier now
    else t.refusePayload s
  let t := (t.takePush s now).takeEnd s (bare || accepted)
  let verdict :=
    if finAnswered || (s.tcp.isFin && (bare || accepted)) then .close
    else .stay (accepted || s.tcp.isPsh)
  (t, verdict)

/-- Takes leave of a session: it is watched no longer, and what is queued gets one last flush. -/
def finish (t : Turn) : Turn :=
  let t := t.emit (.cancel t.session.key)
  let t := if t.state.connected && 0 < t.state.outbound.size then t.flush.1 else t
  t.report

/-- Queues a datagram for the socket. The packet that opened the session is counted already. -/
def takeDatagram (t : Turn) (d : Inbound.Datagram) (opened : Bool) (classifier : Classifier) : Turn :=
  let t := (t.emit (.accept d.payload d.ip.totalLength)).update fun st =>
    let st := st.rememberUdp d.ip d.udp
    let st := if opened then st else st.record .egress d.ip.totalLength
    st.appendOutbound d.payload
  (t.classify classifier .egress d.payload).update fun st => { st with dataReady := true }

end Turn
end PacketRelay.Session
