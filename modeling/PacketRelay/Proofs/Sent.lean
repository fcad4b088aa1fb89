import PacketRelay.Packet
import PacketRelay.Proofs.Written

/-!
The segments that a session has sent, as its peer reads them.

What the peer reads of a packet is what the packet was drafted with: the segments of a stream can be
looked up among the effects of its session.
-/

set_option autoImplicit false

namespace PacketRelay

open Session (Turn)

/-- What a peer reads of a segment, its ports and its window apart. -/
structure Sent where
  flags : Tcp.Flags
  seq : UInt32
  ack : UInt32
  payload : Bytes
  deriving DecidableEq

namespace Sent

def ofBytes? (buffer : Bytes) : Option Sent :=
  match Packet.parse buffer with
  | .ok packet => match packet.transport with
    | .tcp tcp => some ⟨tcp.flags, tcp.seq, tcp.ack, packet.payload⟩
    | .udp _ => none
  | .error _ => none

def ofDraft? : Draft → Option Sent
  | .segment _ tcp payload => some ⟨tcp.flags, tcp.seq, tcp.ack, payload⟩
  | _ => none

def ofEffect? : Effect → Option Sent
  | .write _ draft => ofDraft? draft
  | _ => none

section Drafts

variable (ip : Ip.Header) (tcp : Tcp.Header) (seq ack : UInt32) (timestamps : Option Tcp.Timestamps)

theorem ofDraft?_withTimestamps? (reply : Tcp.Header) (payload : Bytes) :
    ofDraft? (.answer ip (reply.withTimestamps? timestamps) payload) =
      some ⟨reply.flags, reply.seq, reply.ack, payload⟩ := by
  cases timestamps <;> rfl

@[simp] theorem ofDraft?_ack :
    ofDraft? (.ack ip tcp ack timestamps) = some ⟨.ack, tcp.ack, ack, []⟩ :=
  ofDraft?_withTimestamps? ip timestamps _ []

@[simp] theorem ofDraft?_finAck :
    ofDraft? (.finAck ip tcp seq ack) = some ⟨.fin ∪ .ack, seq, ack, []⟩ := rfl

@[simp] theorem ofDraft?_data (payload : Bytes) :
    ofDraft? (.data ip tcp seq ack payload timestamps) = some ⟨.psh ∪ .ack, seq, ack, payload⟩ :=
  ofDraft?_withTimestamps? ip timestamps _ payload

@[simp] theorem ofDraft?_synAck (isn now : UInt32) :
    ofDraft? (.synAck ip tcp isn now) = some ⟨.syn ∪ .ack, isn, tcp.seq + 1, []⟩ :=
  ofDraft?_withTimestamps? ip _ _ []

theorem ofDraft?_reset (n : Nat) : ∃ flags seq ack,
    ofDraft? (.reset ip tcp n) = some ⟨flags, seq, ack, []⟩ ∧
      (flags = .rst ∨ flags = .rst ∪ .ack) := by
  unfold Draft.reset
  simp only
  split
  · exact ⟨_, _, _, rfl, .inl rfl⟩
  · exact ⟨_, _, _, rfl, .inr rfl⟩

end Drafts

def isData (s : Sent) : Bool := s.flags = .psh ∪ .ack

theorem ofBytes?_toBytes {d : Draft} (sound : d.Sound) (identification : UInt16) :
    ofBytes? (d.toBytes identification) = ofDraft? d := by
  have packet := sound.isPacket identification
  simp only [ofBytes?, sound.legible.parse identification]
  cases d with
  | segment ip tcp payload =>
    have sealed := sound.sealed identification
    have fits : (Draft.sealedTcp ((Draft.segment ip tcp payload).sealedIp identification) tcp
        payload).Fits :=
      Draft.fits_sealedTcp sound.2.2.1 payload
    have behind : Packet.payload ⟨(Draft.segment ip tcp payload).sealedIp identification,
        .tcp (Draft.sealedTcp ((Draft.segment ip tcp payload).sealedIp identification) tcp payload),
        (Draft.segment ip tcp payload).toBytes identification⟩ = payload := by
      unfold Packet.payload
      simp only
      rw [packet.total, List.take_length, ← List.drop_drop, Draft.toBytes_eq,
        List.drop_left' (Ip.Header.length_write sealed.fits)]
      exact List.drop_left' (Tcp.Header.length_write fits)
    show some (Sent.mk _ _ _ (Packet.payload _)) = _
    rw [behind]
    rfl
  | datagram | echo => rfl

end Sent

/-- The segments among effects, earliest first. -/
def segments (effects : List Effect) : List Sent := effects.reverse.filterMap Sent.ofEffect?

theorem segments_append (new effects : List Effect) :
    segments (new ++ effects) = segments effects ++ segments new := by
  simp [segments]

theorem segments_begun (settings : Relay.Settings) (s : Inbound.Segment) (isn : UInt32)
    (prospect : Socket.Prospect) (number : Nat) (connected : Bool) (now : Nat) :
    segments (Turn.begun settings s isn prospect number connected now).effects =
      [⟨.syn ∪ .ack, isn, s.tcp.seq + 1, []⟩] := by
  have drafts := Sent.ofDraft?_synAck s.ip s.tcp isn (Session.State.clock now)
  simp [Turn.begun, segments, List.filterMap_cons, Sent.ofEffect?, drafts]

namespace Relay

/-- The packets that a session has put into the tunnel, earliest first. -/
def writtenBy (r : Relay) (id : SessionId) : List Bytes :=
  (r.journal.filter (·.session == some id)).reverse.filterMap (·.packet?)

/-- The segments that the peer of a session reads, earliest first. -/
def sentBy (r : Relay) (id : SessionId) : List Sent := (r.writtenBy id).filterMap Sent.ofBytes?

section Peer

variable {r : Relay} {id : SessionId} {session : Session}

theorem Traced.reads (traced : Traced r) (at_id : r.sessions[id]? = some session)
    (stream : session.key.protocol = .tcp) {entry : Entry} (member : entry ∈ r.journal)
    (own : entry.session = some id) :
    entry.packet?.bind Sent.ofBytes? = Sent.ofEffect? entry.effect := by
  have fit : Turn.DatagramsFit ⟨session, r.effectsOf (some id)⟩ := fun datagrams => by
    have datagrams : session.key.protocol = .udp := datagrams
    rw [stream] at datagrams
    cases datagrams
  have effect : entry.effect ∈ r.effectsOf (some id) :=
    List.mem_map.2 ⟨entry, List.mem_filter.2 ⟨member, beq_iff_eq.2 own⟩, rfl⟩
  have sound := (traced.lives id _ (history_of_session at_id)).sound fit entry.effect effect
  unfold Entry.packet?
  cases same : entry.effect with
  | write purpose draft =>
    exact Sent.ofBytes?_toBytes (sound purpose draft same) entry.identification
  | _ => rfl

/-- The peer of a stream reads the segments that were drafted for it. -/
theorem Traced.sentBy (traced : Traced r) (at_id : r.sessions[id]? = some session)
    (stream : session.key.protocol = .tcp) :
    r.sentBy id = segments (r.effectsOf (some id)) := by
  unfold Relay.sentBy writtenBy segments effectsOf
  rw [List.filterMap_filterMap, ← List.map_reverse, List.filterMap_map]
  refine List.filterMap_congr fun entry member => ?_
  obtain ⟨member, own⟩ := List.mem_filter.1 (List.mem_reverse.1 member)
  exact traced.reads at_id stream member (beq_iff_eq.1 own)

end Peer

end Relay
end PacketRelay
