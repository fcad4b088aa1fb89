import Mathlib.Data.List.Sort
import PacketRelay.Relay.Handling
import PacketRelay.Relay.Pinging
import PacketRelay.Relay.Polling

/-!
Runs of a relay.

A run is a list of events, done one after another. All that a relay does not decide itself is part
of an event: the bytes of a packet, the number drawn for it and what opening a socket meets; the
order in which a pass visits the sessions; how a probe ends; and what a socket meets from some
moment on.
-/

set_option autoImplicit false

namespace PacketRelay

/-- Opening a socket meets no failure; its reads meet what is given, and its sends have room. -/
def Socket.Prospect.smooth (arrivals : List Socket.Arrival) : Socket.Prospect where
  creation := none
  connection := none
  keepAlive := none
  noDelay := none
  receiveBuffer := none
  nonblocking := none
  broadcast := none
  socket := ⟨0, true, true, none, none, none, arrivals, []⟩

def Relay.Settings.plain : Relay.Settings where
  mssLimit := 1460
  idleTimeout := 60000 * millisecond
  receiveBuffer := 65536
  linkLocalScope := 0
  redirections := []
  egressClassifier := .silent
  ingressClassifier := .silent
  probeTimeout := 1000

/-- A segment from port 5000 of 10.0.0.1 to port 80 of 8.8.8.8, without checksums. -/
def sampleSegment (flags : UInt8) (seq ack : UInt32) (payload : Bytes) : Bytes :=
  [0x45, 0, 0, 40 + UInt8.ofNat payload.length, 0, 0, 0, 0, 64, 6, 0, 0, 10, 0, 0, 1, 8, 8, 8, 8,
    0x13, 0x88, 0, 80] ++ Wire.octets32 seq ++ Wire.octets32 ack ++
    [0x50, flags, 0xff, 0xff, 0, 0, 0, 0] ++ payload

/-- The flow of these segments. -/
def sampleFlow : Session.Key := ⟨.tcp, .v4 #v[8, 8, 8, 8], 80, .v4 #v[10, 0, 0, 1], 5000⟩

/-- A datagram from the same port to port 53, without checksums. -/
def sampleDatagram (payload : Bytes) : Bytes :=
  [0x45, 0, 0, 28 + UInt8.ofNat payload.length, 0, 0, 0, 0, 64, 17, 0, 0, 10, 0, 0, 1, 8, 8, 8, 8,
    0x13, 0x88, 0, 53, 0, 8 + UInt8.ofNat payload.length, 0, 0] ++ payload

/-- What a socket meets from now on. It stays the socket it was. -/
def Socket.meet (s outlook : Socket) : Socket :=
  { outlook with number := s.number, stream := s.stream }

namespace Relay

inductive Event
  | packet (buffer : Bytes) (isn : UInt32) (prospect : Socket.Prospect)
  /-- A pass over the sessions. It services them by their first ranks, and then looks for idle ones
  by their second ranks. -/
  | pass (first second : SessionId → Nat)
  | time (span : Nat)
  | probe (i : Nat) (reachable : Bool)
  | retire
  | network (id : SessionId) (outlook : Socket)

/-- Whether an event changes what the socket of a session meets. -/
def Event.disturbs : Event → SessionId → Prop
  | network id _, other => other = id
  | _, _ => False

def Event.isPass : Event → Bool
  | pass _ _ => true
  | _ => false

def Event.segment? : Event → Option Inbound.Segment
  | packet buffer _ _ => match Inbound.parse buffer with
    | .ok (.segment s) => some s
    | _ => none
  | _ => none

/-- Sessions by their ranks, those of one rank in their order. -/
def byRank (rank : SessionId → Nat) (ids : List SessionId) : List SessionId :=
  ids.insertionSort fun a b => rank a ≤ rank b

theorem byRank_perm (rank : SessionId → Nat) (ids : List SessionId) :
    (byRank rank ids).Perm ids :=
  List.perm_insertionSort _ ids

private theorem byRank_const (n : Nat) (ids : List SessionId) : byRank (fun _ => n) ids = ids := by
  induction ids with
  | nil => rfl
  | cons id rest ih =>
    have : byRank (fun _ => n) (id :: rest) =
        (byRank (fun _ => n) rest).orderedInsert (fun _ _ => n ≤ n) id := rfl
    rw [this, ih]
    cases rest <;> simp

/-- Services every registered session, by rank. -/
def serviceBy (rank : SessionId → Nat) (r : Relay) : Relay :=
  (byRank rank r.registered.ids).foldl service r

/-- Evicts every session that has been silent for too long, by rank. -/
def sweepBy (rank : SessionId → Nat) (r : Relay) : Relay :=
  (byRank rank r.table.ids).foldl evictIdle r

/-- The order in which a pass visits the sessions is one of the orders by rank. -/
theorem sweepBy_serviceBy_const (r : Relay) :
    sweepBy (fun _ => 0) (serviceBy (fun _ => 0) r) = r.poll := by
  simp [sweepBy, serviceBy, byRank_const, poll, serviceAll, sweep]

def network (r : Relay) (id : SessionId) (outlook : Socket) : Relay :=
  r.modify id fun s => { s with socket := s.socket.map (·.meet outlook) }

/-- A relay after an event. A packet that is refused changes nothing. -/
def step (r : Relay) : Event → Relay
  | .packet buffer isn prospect =>
    match r.handlePacket buffer isn prospect with
    | .ok after => after
    | .error _ => r
  | .pass first second => sweepBy second (serviceBy first r)
  | .time span => r.advance span
  | .probe i reachable => r.finishProbe i reachable
  | .retire => { r with pings := r.pings.retire }
  | .network id outlook => r.network id outlook

theorem Event.segment?_eq_some {e : Event} {s : Inbound.Segment} (brings : e.segment? = some s) :
    ∃ buffer isn prospect, e = .packet buffer isn prospect ∧
      Inbound.parse buffer = .ok (.segment s) := by
  cases e with
  | packet buffer isn prospect =>
    refine ⟨buffer, isn, prospect, rfl, ?_⟩
    simp only [Event.segment?] at brings
    split at brings
    case h_1 parsed => exact Option.some.inj brings ▸ parsed
    case h_2 => cases brings
  | _ => cases brings

theorem step_packet (r : Relay) {buffer : Bytes} {packet : Inbound}
    (parsed : Inbound.parse buffer = .ok packet) (isn : UInt32) (prospect : Socket.Prospect) :
    r.step (.packet buffer isn prospect) = r.handle packet isn prospect := by
  simp only [step, handlePacket, parsed]
  rfl

theorem step_refused (r : Relay) {buffer : Bytes} {e : PacketError}
    (refused : Inbound.parse buffer = .error e) (isn : UInt32) (prospect : Socket.Prospect) :
    r.step (.packet buffer isn prospect) = r := by
  simp only [step, handlePacket, refused]
  rfl

theorem step_segment (r : Relay) {buffer : Bytes} {s : Inbound.Segment}
    (parsed : Inbound.parse buffer = .ok (.segment s)) (isn : UInt32) (prospect : Socket.Prospect) :
    r.step (.packet buffer isn prospect) = r.handleSegment s isn prospect :=
  r.step_packet parsed isn prospect

def run (r : Relay) (events : List Event) : Relay := events.foldl step r

@[simp] theorem run_nil (r : Relay) : r.run [] = r := rfl

@[simp] theorem run_cons (r : Relay) (e : Event) (rest : List Event) :
    r.run (e :: rest) = (r.step e).run rest := rfl

theorem run_append (r : Relay) (events later : List Event) :
    r.run (events ++ later) = (r.run events).run later :=
  List.foldl_append

end Relay
end PacketRelay
