import PacketRelay.Relay.Opening
import PacketRelay.Session.Conversation

/-!
What a relay does with a packet from the tunnel.

A packet that cannot be read is refused with an error and changes nothing. The initial sequence
number and the prospects of a socket, which a packet may need, are given with it.
-/

set_option autoImplicit false

namespace PacketRelay

open Session (Key Turn Verdict)

def Inbound.Segment.key (s : Inbound.Segment) : Key :=
  Key.ofHeaders .tcp s.ip s.tcp.sourcePort s.tcp.destinationPort

def Inbound.Datagram.key (d : Inbound.Datagram) : Key :=
  Key.ofHeaders .udp d.ip d.udp.sourcePort d.udp.destinationPort

namespace Relay

/-- Writes a packet that belongs to no session. -/
def answer (r : Relay) (purpose : Purpose) (draft : Draft) : Relay :=
  r.emit none (.write purpose draft)

/-- Registers a new session and says so. -/
def announce (r : Relay) (id : SessionId) (key : Key) : Relay :=
  (r.emit (some id) (.register key)).register id

/-- A SYN opens a session and is answered, or is reset if no socket can be opened. The SYN of an
open session repeats its latest acknowledgment and changes nothing. -/
def handleSyn (r : Relay) (s : Inbound.Segment) (isn : UInt32) (prospect : Socket.Prospect) :
    Relay :=
  match r.openSession s.key s.ip.totalLength prospect with
  | (r, .error _) => r.answer .reset (.reset s.ip s.tcp 0)
  | (r, .ok (.existing id)) => r.turn id (·.resendAck)
  | (r, .ok (.new id)) =>
    let r := r.modify id fun session =>
      session.update fun state => state.begin s isn r.settings.mssLimit r.now
    (r.announce id s.key).emit (some id)
      (.write .handshake (.synAck s.ip s.tcp isn (Session.State.clock r.now)))

/-- A segment with ACK of no open session: a FIN is acknowledged, so that the peer need not wait,
and anything else but a reset is reset. -/
def handleOrphan (r : Relay) (s : Inbound.Segment) : Relay :=
  if s.tcp.isFin then r.answer .acknowledgment (.ack s.ip s.tcp (s.tcp.seq + 1) none)
  else if s.tcp.isRst then r
  else r.answer .reset (.reset s.ip s.tcp s.payload.length)

/-- Finishes a session: it is not registered any more, and it is closed. -/
def finish (r : Relay) (id : SessionId) (key : Key) : Relay :=
  ((r.turn id (·.finish)).cancel key).close key

/-- A segment with ACK is handled by its session. Afterwards the session is finished, or it has
shown life, unless it is to be aborted. -/
def handleAck (r : Relay) (s : Inbound.Segment) : Relay :=
  match r.lookup s.key with
  | none => r.handleOrphan s
  | some id =>
    match r.sessions[id]? with
    | none => r
    | some session =>
      let (turn, verdict) :=
        (Turn.start session).receiveAck s r.settings.egressClassifier r.now
      let r := r.commit id turn
      match verdict with
      | .close => r.finish id s.key
      | .stay refresh =>
        let r := if refresh then r.emit (some id) (.refresh s.key) else r
        if turn.state.aborting then r else r.keepAlive id

/-- A FIN without ACK is a sign of life of its session, and is answered if there is none. -/
def handleFin (r : Relay) (s : Inbound.Segment) : Relay :=
  match r.lookup s.key with
  | some id => r.keepAlive id
  | none => r.answer .finAnswer (.finAck s.ip s.tcp s.tcp.ack (s.tcp.seq + 1))

/-- A reset without ACK has its session aborted in the next pass. -/
def handleRst (r : Relay) (s : Inbound.Segment) : Relay :=
  match r.lookup s.key with
  | some id => r.modify id fun session => session.update fun state => { state with aborting := true }
  | none => r

/-- The flags decide, in the order SYN, ACK, FIN, RST; a segment with none of them is dropped. -/
def handleSegment (r : Relay) (s : Inbound.Segment) (isn : UInt32) (prospect : Socket.Prospect) :
    Relay :=
  if s.tcp.isSyn then r.handleSyn s isn prospect
  else if s.tcp.isAck then r.handleAck s
  else if s.tcp.isFin then r.handleFin s
  else if s.tcp.isRst then r.handleRst s
  else r

/-- A datagram opens a session if it needs one, and is queued. Without a socket it is dropped. -/
def handleDatagram (r : Relay) (d : Inbound.Datagram) (prospect : Socket.Prospect) : Relay :=
  match r.openSession d.key d.ip.totalLength prospect with
  | (r, .error _) => r
  | (r, .ok (.existing id)) =>
    let r := r.turn id (·.takeDatagram d false r.settings.egressClassifier)
    (r.emit (some id) (.refresh d.key)).keepAlive id
  | (r, .ok (.new id)) =>
    let r := r.turn id (·.takeDatagram d true r.settings.egressClassifier)
    ((r.announce id d.key).emit (some id) (.refresh d.key)).keepAlive id

/-- An echo request is a job for the ping workers, or is dropped if they are all busy. -/
def handleEcho (r : Relay) (e : Inbound.Echo) : Relay := { r with pings := (r.pings.submit e).1 }

def handle (r : Relay) (packet : Inbound) (isn : UInt32) (prospect : Socket.Prospect) : Relay :=
  match packet with
  | .segment s => r.handleSegment s isn prospect
  | .datagram d => r.handleDatagram d prospect
  | .echoRequest e => r.handleEcho e
  | .ignored => r

def handlePacket (r : Relay) (buffer : Bytes) (isn : UInt32) (prospect : Socket.Prospect) :
    Except PacketError Relay :=
  (Inbound.parse buffer).map fun packet => r.handle packet isn prospect

end Relay
end PacketRelay
