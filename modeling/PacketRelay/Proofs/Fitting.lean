import PacketRelay.Proofs.Counting

/-!
Data segments fit the tunnel and the peer.

A SYN settles the segment size of its session: what the peer asks for, within what the tunnel
carries behind the longest headers of a reply. No data segment is cut longer, and none has longer
headers, whichever segment of the peer it is drafted from.
-/

set_option autoImplicit false

namespace PacketRelay

open Session (Turn State Classifier Direction)

/-- The segment size of the session that a SYN opens. -/
def Relay.Settings.segmentSize (settings : Settings) (syn : Inbound.Segment) : UInt16 :=
  max 1 (min Tcp.maxMss (min (syn.tcp.mss?.getD Tcp.defaultMss) settings.mssLimit))

private theorem Tcp.mssForMtu_le {mtu : Nat} (some_room : Tcp.replyOverhead < mtu) :
    Tcp.replyOverhead + (Tcp.mssForMtu mtu).toNat ≤ mtu := by
  have most : Tcp.maxMss.toNat = 65415 := rfl
  unfold Tcp.mssForMtu
  simp only
  split
  case isTrue small =>
    have room : (UInt16.ofNat (mtu - Tcp.replyOverhead)).toNat = mtu - Tcp.replyOverhead :=
      Nat.mod_eq_of_lt small
    rw [UInt16.toNat_max, UInt16.toNat_min, room]
    simp only [UInt16.reduceToNat]
    omega
  case isFalse => omega

private theorem Tcp.one_le_mssForMtu (mtu : Nat) : 1 ≤ (Tcp.mssForMtu mtu).toNat := by
  unfold Tcp.mssForMtu
  simp only
  split
  case isTrue =>
    rw [UInt16.toNat_max]
    exact Nat.le_max_left 1 _
  case isFalse => decide

namespace Relay.Settings

variable (settings : Settings) (syn : Inbound.Segment)

private theorem segmentSize_le_limit (some_limit : 1 ≤ settings.mssLimit.toNat) :
    (settings.segmentSize syn).toNat ≤ settings.mssLimit.toNat := by
  unfold segmentSize
  rw [UInt16.toNat_max, UInt16.toNat_min, UInt16.toNat_min]
  simp only [UInt16.reduceToNat]
  omega

private theorem segmentSize_le_mss : (settings.segmentSize syn).toNat ≤
    max 1 (syn.tcp.mss?.getD Tcp.defaultMss).toNat := by
  unfold segmentSize
  rw [UInt16.toNat_max, UInt16.toNat_min, UInt16.toNat_min]
  simp only [UInt16.reduceToNat]
  omega

end Relay.Settings

/-- If the effect writes data, that is within a size, and the headers are no longer than those of a
reply can be. -/
def Effect.Slim (size : Nat) (e : Effect) : Prop := ∀ d, e.draft? = some d →
  ∀ payload, d.data? = some payload →
    d.length ≤ Tcp.replyOverhead + payload.length ∧ payload.length ≤ size

private theorem Effect.Uncounted.slim {e : Effect} (uncounted : e.Uncounted)
    (size : Nat) : e.Slim size := by
  intro d written payload carries
  rw [uncounted.data d written] at carries
  cases carries

private theorem Effect.slim_of_empty {purpose : Purpose} {draft : Draft}
    (empty : draft.data? = none) (size : Nat) : Effect.Slim size (.write purpose draft) :=
  (uncounted_write empty).slim size

private theorem Effect.slim_of_unwritten {e : Effect} (unwritten : e.draft? = none) (size : Nat) :
    e.Slim size := by
  intro d written
  rw [unwritten] at written
  cases written

private theorem Draft.length_data_le (ip : Ip.Header) (tcp : Tcp.Header) (seq ack : UInt32)
    (payload : Bytes) (timestamps : Option Tcp.Timestamps) :
    (Draft.data ip tcp seq ack payload timestamps).length ≤ Tcp.replyOverhead + payload.length := by
  have network : ip.replyTemplate.headerLength ≤ 40 := by
    cases ip with
    | v4 h => exact (by decide : 20 ≤ 40)
    | v6 h => exact Nat.le_refl 40
  have transport : ((tcp.reply seq ack (.psh ∪ .ack)).withTimestamps? timestamps).headerLength ≤
      32 := by
    cases timestamps with
    | none => exact (by decide : 20 ≤ 32)
    | some t =>
      show (UInt8.ofNat (5 + (Tcp.Options.writeTimestamps t).length / 4)).toNat * 4 ≤ 32
      rw [Tcp.Options.length_writeTimestamps]
      decide
  show ip.replyTemplate.headerLength +
    (((tcp.reply seq ack (.psh ∪ .ack)).withTimestamps? timestamps).headerLength + payload.length) ≤
      40 + 20 + 12 + payload.length
  omega

private theorem Draft.slim_data (ip : Ip.Header) (tcp : Tcp.Header) (seq ack : UInt32)
    {payload : Bytes} (timestamps : Option Tcp.Timestamps) {size : Nat}
    (short : payload.length ≤ size) :
    Effect.Slim size (.write .data (.data ip tcp seq ack payload timestamps)) := by
  intro d written bytes carries
  obtain rfl := Option.some.inj written
  have carries : (if payload = [] then none else some payload) = some bytes := carries
  split at carries
  case isTrue => cases carries
  case isFalse =>
    obtain rfl := Option.some.inj carries
    exact ⟨Draft.length_data_le ip tcp seq ack payload timestamps, short⟩

namespace Session.Turn

variable {settings : Relay.Settings} {outside : Outside} {t u : Turn} {size : UInt16}

/-- A session cuts data into segments of one size, and has written no longer ones. -/
structure Cuts (size : UInt16) (t : Turn) : Prop where
  kept : t.state.maxSegmentSize = size
  slim : ∀ e ∈ t.effects, e.Slim size.toNat

private theorem size_of_heads (same : u.heads = t.heads) :
    u.state.maxSegmentSize = t.state.maxSegmentSize := by
  simp only [heads, Prod.mk.injEq] at same
  exact same.2.2.2.2

private theorem Uncounted.slim (uncounted : t.Uncounted u) (size : Nat) :
    Adds (Effect.Slim size) t u :=
  uncounted.effects.imp fun _ uncounted => uncounted.slim size

private theorem slim_emit {e : Effect} (unwritten : e.draft? = none) (size : Nat) :
    Adds (Effect.Slim size) t (t.emit e) :=
  .one rfl (Effect.slim_of_unwritten unwritten size)

private theorem slim_takePayload (s : Inbound.Segment) (classifier : Classifier) (now size : Nat) :
    Adds (Effect.Slim size) t (t.takePayload s classifier now) := by
  have queued : Adds (Effect.Slim size) t (t.queue s) := slim_emit (t := t.update _) rfl size
  have classified := queued.trans ((uncounted_classify classifier .egress s.payload).slim size)
  rw [takePayload_eq]
  exact classified.trans (.one rfl (Effect.slim_of_empty rfl size))

private theorem slim_sendSegments (ip : Ip.Header) (tcp : Tcp.Header) (bytes : Bytes)
    (some_size : 1 ≤ t.state.maxSegmentSize.toNat) :
    Adds (Effect.Slim t.state.maxSegmentSize.toNat) t (t.sendSegments ip tcp bytes) := by
  fun_induction sendSegments t ip tcp bytes with
  | case1 t => exact .none rfl
  | case2 t first rest more ih =>
    have short : (first :: rest.take more).length ≤ t.state.maxSegmentSize.toNat := by
      simp only [List.length_cons, List.length_take, more]
      omega
    exact Adds.trans (.one rfl (Draft.slim_data _ _ _ _ _ short)) (ih some_size)

private theorem slim_deliver (stream : t.session.key.protocol = .tcp)
    (some_size : 1 ≤ t.state.maxSegmentSize.toNat) (bytes : Bytes) (classifier : Classifier)
    (now : Nat) :
    Adds (Effect.Slim t.state.maxSegmentSize.toNat) t (t.deliver bytes classifier true now) := by
  have received := slim_emit (t := t) (e := .receive bytes) rfl t.state.maxSegmentSize.toNat
  have classified := received.trans
    ((uncounted_classify classifier .ingress bytes).slim t.state.maxSegmentSize.toNat)
  have same := heads_classify (t := t.emit (.receive bytes)) classifier .ingress bytes
  have size : ((t.emit (.receive bytes)).classify classifier .ingress bytes).state.maxSegmentSize =
      t.state.maxSegmentSize := size_of_heads same
  have key : ((t.emit (.receive bytes)).classify classifier .ingress bytes).session.key =
      t.session.key := congrArg (·.1) same
  rw [deliver_eq, if_pos rfl]
  refine classified.trans (Adds.trans ?_ (.none rfl))
  generalize (t.emit (.receive bytes)).classify classifier .ingress bytes = v at size key
  unfold handOn
  rw [key, stream, ← size]
  rw [← size] at some_size
  simp only
  split
  · exact slim_sendSegments _ _ bytes some_size
  · exact .none rfl

/-- A stream keeps its segment size, and cuts its data accordingly. -/
private theorem Cuts.move (h : Cuts size t) (lives : Lives settings t)
    (stream : t.session.key.protocol = .tcp) (move : Move settings outside t u) : Cuts size u := by
  have kept : u.state.maxSegmentSize = size := by
    obtain same | ⟨s, -, rfl⟩ | ⟨d, -, own, -⟩ := move.heads
    · exact (size_of_heads same).trans h.kept
    · exact h.kept
    · rw [← own] at stream
      cases stream
  have slim : Adds (Effect.Slim size.toNat) t u := by
    obtain uncounted | ⟨s, now, rfl⟩ | ⟨d, rfl⟩ | ⟨data, after, now, rfl⟩ := move.uncounted
    · exact uncounted.slim _
    · exact slim_takePayload s _ now _
    · have queued : Adds (Effect.Slim size.toNat) t (t.queueDatagram d false) :=
        slim_emit (t := t.update _) rfl _
      rw [takeDatagram_eq]
      exact (queued.trans ((uncounted_classify _ .egress d.payload).slim _)).trans (.none rfl)
    · rw [← h.kept]
      exact Adds.trans (.none rfl)
        (slim_deliver (t := t.withSocket after) stream lives.headed.some_size data _ now)
  exact ⟨kept, slim.forall h.slim⟩

private theorem Cuts.moves (h : Cuts size t) (lives : Lives settings t)
    (stream : t.session.key.protocol = .tcp) (moves : Moves settings outside t u) : Cuts size u := by
  induction moves with
  | refl => exact h
  | tail before move ih =>
    exact ih.move (lives.moves before) (by rw [Moves.key before, stream]) move

private theorem cuts_begun (settings : Relay.Settings) (syn : Inbound.Segment) (isn : UInt32)
    (prospect : Socket.Prospect) (number : Nat) (connected : Bool) (now : Nat) :
    Cuts (settings.segmentSize syn) (begun settings syn isn prospect number connected now) := by
  refine ⟨rfl, ?_⟩
  unfold begun
  simp only [List.forall_mem_cons]
  exact ⟨Effect.slim_of_empty rfl _, Effect.slim_of_unwritten rfl _, Effect.slim_of_unwritten rfl _,
    by simp⟩

end Session.Turn

namespace Relay

private theorem Aside.data? {purpose : Purpose} {draft : Draft}
    (aside : Aside (.write purpose draft)) : draft.data? = none := by
  cases aside with
  | reset s _ n => exact Draft.data?_reset s.ip s.tcp n
  | acknowledgment | finAnswer => rfl
  | echoReply e _ draft reply =>
    unfold Inbound.Echo.reply Draft.echoMessage at reply
    split at reply
    · obtain rfl := Except.ok.inj reply
      rfl
    · cases reply

end Relay

private theorem Draft.Legible.segment {d : Draft} (legible : d.Legible) {identification : UInt16}
    {s : Sent} (reads : Sent.ofBytes? (d.toBytes identification) = some s) :
    ∃ ip tcp payload, d = .segment ip tcp payload := by
  simp only [Sent.ofBytes?, legible.parse identification] at reads
  cases d with
  | segment ip tcp payload => exact ⟨ip, tcp, payload, rfl⟩
  | datagram | echo => cases reads

private theorem Draft.data?_of_sent {d : Draft} {s : Sent} (sent : Sent.ofDraft? d = some s)
    (payload : s.payload ≠ []) : d.data? = some s.payload := by
  cases d with
  | segment ip tcp bytes =>
    obtain rfl := Option.some.inj sent
    exact if_neg payload
  | datagram | echo => cases sent

namespace Relay

/-- No data segment is longer than a packet of the tunnel, and none carries more than its peer has
asked for in the SYN that opened the session, or than is assumed of a peer that did not ask. -/
theorem run_fits (settings : Settings) (now coreWorkers maxWorkers mtu : Nat) (events : List Event)
    (some_room : 73 ≤ mtu) (limit : settings.mssLimit = Tcp.mssForMtu mtu) :
    let start := start settings now coreWorkers maxWorkers
    ∀ entry ∈ (start.run events).journal, ∀ buffer, entry.packet? = some buffer →
      ∀ s, Sent.ofBytes? buffer = some s → s.payload ≠ [] →
        buffer.length ≤ mtu ∧
        ∃ id syn, entry.session = some id ∧ collect (openingSyn id) start events = [syn] ∧
          syn.tcp.isSyn = true ∧
          s.payload.length ≤ max 1 (syn.tcp.mss?.getD Tcp.defaultMss).toNat := by
  intro start entry member buffer written s reads payload
  have traced : Traced (start.run events) := traced_run settings now coreWorkers maxWorkers events
  have consistent : Consistent (start.run events) :=
    consistent_run settings now coreWorkers maxWorkers events
  obtain ⟨purpose, d, effect, rfl⟩ := Entry.draft_of_packet written
  have inside := effect_mem member
  rw [effect] at inside
  cases owner : entry.session with
  | none =>
    rw [owner] at inside
    have aside := traced.aside _ inside
    rw [Sent.ofBytes?_toBytes aside.sound] at reads
    have carries := Draft.data?_of_sent reads payload
    rw [aside.data?] at carries
    cases carries
  | some id =>
    rw [owner] at inside
    obtain ⟨session, at_id⟩ : ∃ session, (start.run events).sessions[id]? = some session :=
      ⟨_, List.getElem?_eq_getElem (consistent.owned member owner)⟩
    have known := history_of_session at_id
    obtain ⟨legible, addressed⟩ := traced.legible known d (mem_drafts.2 ⟨purpose, inside⟩)
    have stream : session.key.protocol = .tcp := by
      obtain ⟨ip, tcp, bytes, rfl⟩ := legible.segment reads
      exact (congrArg (·.protocol) (Option.some.inj addressed)).symm
    have sent : Sent.ofDraft? d = some s := by
      have same := traced.reads at_id stream member owner
      unfold Entry.packet? at same
      rw [effect] at same
      exact same.symm.trans reads
    obtain ⟨syn, told, isSyn, first, opened, ⟨isn, prospect, number, connected, _, rfl⟩, moves⟩ :=
      run_begun settings now coreWorkers maxWorkers events known stream
    have cuts : Turn.Cuts (settings.segmentSize syn) _ :=
      (Session.Turn.cuts_begun settings syn isn prospect number connected _).moves opened.lives
        ((congrArg (·.protocol) (Turn.Moves.key moves)).symm.trans stream) moves
    obtain ⟨length, size⟩ :=
      cuts.slim _ inside d rfl s.payload (Draft.data?_of_sent sent payload)
    have bound : Tcp.replyOverhead + settings.mssLimit.toNat ≤ mtu := by
      rw [limit]
      exact Tcp.mssForMtu_le some_room
    have some_limit : 1 ≤ settings.mssLimit.toNat := by
      rw [limit]
      exact Tcp.one_le_mssForMtu mtu
    have within := settings.segmentSize_le_limit syn some_limit
    refine ⟨?_, id, syn, rfl, told, isSyn, Nat.le_trans size (settings.segmentSize_le_mss syn)⟩
    rw [legible.length_toBytes]
    omega

/-- In the smallest tunnel, a peer with timestamps gets its data byte by byte. -/
theorem run_fits_smallest :
    let header : Bytes := [0x60, 0, 0, 0, 0, 32, 6, 64, 0xfd] ++ List.replicate 14 0 ++ [1, 0xfd] ++
      List.replicate 14 0 ++ [2, 0x13, 0x88, 0, 80]
    let syn : Bytes := header ++ [0, 0, 3, 232, 0, 0, 0, 0, 0x80, 2, 0xff, 0xff, 0, 0, 0, 0,
      1, 1, 8, 10, 0, 0, 0, 7, 0, 0, 0, 0]
    let settings := { Settings.plain with mssLimit := Tcp.mssForMtu 73 }
    let r := (start settings 0 1 1).run [.packet syn 500 (.smooth [.data [1, 2, 3]]),
      .pass (fun _ => 0) (fun _ => 0)]
    r.written.map List.length = [73, 73, 73, 76] ∧
    ∃ buffer ∈ r.written, ∃ s, Sent.ofBytes? buffer = some s ∧ s.payload = [1] ∧
      buffer.length ≤ 73 := by
  intro header syn settings r
  have payloads : (r.journal.filterMap fun entry =>
      (entry.packet?.bind Sent.ofBytes?).map (·.payload)) = [[3], [2], [1], []] := by decide +kernel
  have first : [1] ∈ [[3], [2], [1], ([] : Bytes)] := by decide
  rw [← payloads] at first
  obtain ⟨entry, member, sent⟩ := List.mem_filterMap.1 first
  obtain ⟨s, reads, payload⟩ := Option.map_eq_some_iff.1 sent
  obtain ⟨buffer, packet, reads⟩ := Option.bind_eq_some_iff.1 reads
  have some_payload : s.payload ≠ [] := by
    rw [payload]
    exact List.cons_ne_nil 1 []
  obtain ⟨fits, -⟩ := run_fits settings 0 1 1 73 _ (Nat.le_refl 73) rfl entry member buffer packet s
    reads some_payload
  exact ⟨by decide +kernel, buffer, List.mem_filterMap.2 ⟨entry, member, packet⟩, s, reads, payload,
    fits⟩

end Relay
end PacketRelay
