import Sponge.Network
import Sponge.ConnectionDiligence

namespace Sponge

open TCPSender TCPConnection Tiling

/-!
# What brings an endpoint forward

The lemmas about single calls from which progress of a whole run follows:

* a retransmission timer that expires puts a copy of the oldest outstanding segment on the wire
  (`Endpoint.Does.fires`);
* a segment that reaches across the receiver's acknowledgment number moves that number, provided
  the reader has left room (`Flow.pushes_on`);
* a segment that occupies sequence space is answered with the receiver's acknowledgment number
  (`Endpoint.Does.answers`);
* an acknowledgment number at or beyond the end of the oldest outstanding segment moves the left
  edge of what is outstanding (`Endpoint.Does.acknowledges`).

`Endpoint.Does` says what an operation of the user and a delivery have in common: both are one call
on the connection, after which its queue goes on the wire.
-/

/-! ### The receiver -/

/-- What lies beyond the acknowledgment number is sent before the stream has ended there, and is
    not the SYN. -/
theorem Flow.beyond_absAck {W taken : List UInt8} {hist : List Sent} {s : TCPSender}
    {data acks : List Flight} {r : TCPReceiver} (h : Flow W hist s data r taken acks) {x : Sent}
    (hx : x ∈ hist) (hhi : r.absAck < x.seqno + x.segment.lengthInSequenceSpace) :
    r.streamOut.inputEnded = false ∧ x.seqno ≠ 0 ∧ x.segment.header.syn = false := by
  have hend : x.seqno + x.segment.lengthInSequenceSpace ≤ s.nextSeqnoAbsolute :=
    (h.sender.ledger.tiles.mem_bounds (entry_mem hx)).2
  obtain ⟨seen, hseen, hholds⟩ := h.holds
  -- nothing is sent after the number of the FIN
  have hopen : r.streamOut.inputEnded = false := by
    by_contra hended
    have hended : r.streamOut.inputEnded = true := by simpa using hended
    have hlast := (h.sender.finSent_all (hseen (hholds.ended_iff.mp hended).1)).2.2
    have hall := (h.received_all hended).2.1
    rw [TCPReceiver.absAck, if_pos hended] at hhi
    omega
  refine ⟨hopen, ?_⟩
  rcases Flow.syn_or_later h.sender hx with ⟨hzero, hsyn, hpayload, hfin⟩ | hlater
  · rw [TCPReceiver.absAck, TCPSegment.lengthInSequenceSpace, hpayload, hsyn, hfin] at hhi
    simp at hhi
    omega
  · exact hlater

/-- A segment that starts at or before the acknowledgment number and ends after it moves it on, if
    there is room in the window. -/
theorem Flow.pushes_on {W taken : List UInt8} {hist : List Sent} {s : TCPSender}
    {data acks : List Flight} {r : TCPReceiver} (h : Flow W hist s data r taken acks) {x : Sent}
    (hx : x ∈ hist) {seg : TCPSegment} (hcopy : Copies seg x.segment)
    (hnear : Near x.seqno r.streamOut.bytesWritten)
    (hfit : x.seqno + seg.lengthInSequenceSpace < 2 ^ 64) (hroom : 0 < r.windowSize)
    (hsum : r.absAck + r.windowSize < 2 ^ 64) (hlo : x.seqno ≤ r.absAck)
    (hhi : r.absAck < x.seqno + seg.lengthInSequenceSpace) :
    r.absAck < (r.segmentReceived seg).absAck := by
  have hcarries := (h.numbered_carries (Or.inl ⟨x, hx, rfl, hcopy⟩)).1
  have hlen : seg.lengthInSequenceSpace = x.segment.lengthInSequenceSpace := hcopy.length_eq
  obtain ⟨seen, hseen, hholds⟩ := h.holds
  obtain ⟨hopen, hne, hsyn⟩ := h.beyond_absAck hx (by rwa [← hlen])
  have hack : r.absAck = r.streamOut.bytesWritten + 1 := by
    rw [TCPReceiver.absAck, hopen]
    rfl
  have hsynced := h.synced_of_sent hx hne
  -- the segment passes the window check
  have hreceived : r.segmentReceived seg = { r with
      reassembler := r.reassembler.pushSubstring seg.payload (x.seqno - 1) seg.header.fin } := by
    rw [TCPReceiver.segmentReceived, if_neg (by simp [hsynced]),
      TCPReceiver.pushSegment_eq hcarries (h.synced hsynced).1 hnear, addSize_eq hsum,
      if_neg (by omega)]
  have hbound : x.seqno - 1 + seg.payload.length < 2 ^ 64 - 1 := hcarries.end_lt hfit
  have hnew := StreamReassembler.pushSubstring_holds hholds hcarries.payload (by omega)
    hcarries.fin (fun p hp => hp.elim (fun hp => hp.2) (fun hp => by have hlt := hp.2; omega))
  have hadvances := r.segmentReceived_advances seg
  have hwritten := hadvances.2.2.2.1
  rw [hreceived] at hwritten ⊢
  generalize hr' : r.reassembler.pushSubstring seg.payload (x.seqno - 1) seg.header.fin = r'
    at hnew hwritten ⊢
  change r.streamOut.bytesWritten ≤ r'.output.bytesWritten at hwritten
  show r.absAck < r'.output.bytesWritten + 1 + (if r'.output.inputEnded then 1 else 0)
  have hexpected := hnew.expected_eq
  by_cases hbyte : r.streamOut.bytesWritten < x.seqno - 1 + seg.payload.length
  · -- the next byte is in the segment, and there is room for it
    have hlimit : r.streamOut.bytesWritten < r.reassembler.limit := by
      have hsize := r.streamOut.bytesWritten_add_remainingCapacity
      change r.streamOut.bytesWritten < r.streamOut.bytesRead + r.streamOut.capacity
      change 0 < r.streamOut.remainingCapacity at hroom
      omega
    rcases hnew.kept r.streamOut.bytesWritten (Or.inr ⟨⟨by omega, hbyte⟩, hlimit⟩) with
      hlt | ⟨e, he, hle, -⟩
    · omega
    · -- what is still waiting lies ahead of what is written
      have hahead := hnew.ahead e he
      omega
  · -- all bytes are there, and the FIN is what is missing
    have hfin : seg.header.fin = true := by
      by_contra hnone
      rw [hlen, TCPSegment.lengthInSequenceSpace, hsyn, ← hcopy.fin, ← hcopy.payload] at hhi
      simp [hnone] at hhi
      omega
    have hall := hcarries.fin hfin
    have hle := hnew.expected_le
    have hended : r'.output.inputEnded = true := hnew.ended_iff.mpr ⟨by simp [hfin], by omega⟩
    rw [if_pos hended]
    omega

namespace StreamReassembler

/-- The reader's side stays open, whatever is pushed. -/
theorem pushSubstring_endOutput (r : StreamReassembler) (data : List UInt8) (index : Nat)
    (eof : Bool) : (r.pushSubstring data index eof).output.endOutput = r.output.endOutput := by
  have hassemble : ∀ (r : StreamReassembler) (e : Nat × List UInt8),
      (r.assemble e.1 e.2).output.endOutput = r.output.endOutput := by
    intro r e
    unfold assemble
    split
    · exact ByteStream.write_endOutput _ _
    · rfl
  have hloop : ∀ (es : List (Nat × List UInt8)) (r : StreamReassembler),
      (sendLoop es r).output.endOutput = r.output.endOutput := by
    intro es
    induction es with
    | nil => exact fun _ => rfl
    | cons e rest ih =>
      intro r
      rw [sendLoop]
      split
      · exact (ih _).trans (hassemble r e)
      · rfl
  have haccept : ∀ r : StreamReassembler,
      (r.acceptBytes data index).output.endOutput = r.output.endOutput := by
    intro r
    unfold acceptBytes
    split
    · exact (hloop _ _).trans (by rw [(insert_frame r index data).2.1])
    · rfl
  have hmark : (if eof then { r with eofIndex := addSize data.length index } else r).output
      = r.output := by
    split <;> rfl
  have hsame := haccept (if eof then { r with eofIndex := addSize data.length index } else r)
  rw [hmark] at hsame
  rw [pushSubstring_eq]
  generalize acceptBytes _ data index = r1 at hsame ⊢
  dsimp only
  split <;> exact hsame

end StreamReassembler

/-- Nor does handling a segment close it. -/
theorem TCPReceiver.segmentReceived_endOutput (r : TCPReceiver) (seg : TCPSegment) :
    (r.segmentReceived seg).streamOut.endOutput = r.streamOut.endOutput := by
  have hpush : ∀ r : TCPReceiver,
      (r.pushSegment seg).streamOut.endOutput = r.streamOut.endOutput := by
    intro r
    simp only [TCPReceiver.streamOut_eq]
    rw [TCPReceiver.pushSegment]
    by_cases hlate : r.absSeq seg ≥ addSize r.absAck r.windowSize
    · rw [if_pos hlate]
    · rw [if_neg hlate]
      exact r.reassembler.pushSubstring_endOutput seg.payload (r.streamIndex seg) seg.header.fin
  rw [TCPReceiver.segmentReceived]
  by_cases hlisten : r.inListen = true
  · rw [if_pos hlisten]
    by_cases hsyn : seg.header.syn = true
    · rw [if_pos hsyn]
      exact hpush { r with inListen := false, isn := seg.header.seqno }
    · rw [if_neg hsyn]
  · rw [if_neg hlisten]
    exact hpush r

namespace TCPConnection

/-- No call closes the reader's side of the inbound stream. -/
theorem apply_readable {c : TCPConnection} (h : Inv c) (op : ConnectionOp) :
    (c.apply op).inboundStream.endOutput = c.inboundStream.endOutput := by
  unfold inboundStream
  rcases apply_receiver h op with hr | hr | ⟨op', hr⟩ <;> rw [hr]
  · rfl
  · cases op' with
    | segmentReceived seg => exact c.receiver.segmentReceived_endOutput seg
    | read len => exact ByteStream.read_endOutput _ _
    | popOutput len => rfl

/-- A connection that was given up shows the error. -/
theorem killConnection_error (c : TCPConnection) :
    c.killConnection.sender.streamIn.error = true := rfl

/-- A tick that expires the timer of an active connection puts a copy of the oldest outstanding
    segment into the outbound queue, or the connection is given up. -/
theorem tick_fires {c : TCPConnection} {ms : Nat} (hactive : c.active = true)
    (hexp : c.sender.Expires ms) {front : Nat × TCPSegment}
    (hfront : c.sender.segmentsOutstanding.head? = some front)
    (hsound : (c.tick ms).sender.streamIn.error = false) :
    stamp c.receiver (clampedWindow c.receiver) front.2 ∈ (c.tick ms).segmentsOut := by
  obtain ⟨front', hfront', hqueue, -⟩ := tick_of_expires hexp
  obtain rfl : front = front' := Option.some.inj (hfront.symm.trans hfront')
  rw [TCPConnection.tick, if_neg (by simp [hactive])] at hsound ⊢
  dsimp only at hsound ⊢
  by_cases hmany : (c.sender.tick ms).consecutiveRetransmissions > maxRetxAttempts
  · -- both streams are put into the error state
    rw [if_pos hmany, killConnection_error] at hsound
    cases hsound
  · rw [if_neg hmany, (tryCleanShutdown_frame _).2.2.2]
    refine List.mem_append_right _ (List.mem_map_of_mem ?_)
    show front.2 ∈ (c.sender.tick ms).segmentsOut
    rw [hqueue]
    exact List.mem_append_right _ (List.mem_singleton_self _)

end TCPConnection

/-! ### One call -/

/-- The call on the connection an operation of the user is. -/
def EndpointOp.call : EndpointOp → ConnectionOp
  | .connect => .connect
  | .write data => .write data
  | .endInputStream => .endInputStream
  | .tick ms => .tick ms
  | .read len => .read len
  | .pop len => .pop len

/-- The user takes bytes out of the inbound stream. -/
def EndpointOp.Takes (op : EndpointOp) : Prop :=
  ∃ len, 0 < len ∧ (op = .read len ∨ op = .pop len)

namespace Endpoint

/-- The endpoint has become `e'` by one call on its connection, after which the queue `out` has
    gone on the wire. -/
structure Does (e : Endpoint) (op : ConnectionOp) (e' : Endpoint) (out : List Flight) : Prop where
  conn : e'.conn = { e.conn.apply op with segmentsOut := [] }
  out_eq : out = (e.conn.apply op).segmentsOut.map
    (fun seg => ⟨seg, (e.conn.apply op).receiver.absAck⟩)
  history : ∃ more, e'.history = e.history ++ more

/-- An operation of the user is one call. -/
theorem act_does (e : Endpoint) (op : EndpointOp) :
    Does e op.call (e.act op).1 (e.act op).2 := by
  cases op <;> exact ⟨rfl, rfl, _, rfl⟩

/-- So is the arrival of a segment. -/
theorem receive_does (e : Endpoint) (seg : TCPSegment) :
    Does e (.segmentReceived seg) (e.receive seg).1 (e.receive seg).2 :=
  ⟨rfl, rfl, _, rfl⟩

/-- What holds of the connection of an endpoint between two calls. -/
structure Ready (e : Endpoint) : Prop where
  inv : Inv e.conn
  diligent : e.conn.sender.Diligent
  readable : e.conn.inboundStream.endOutput = false

/-- A fresh endpoint is ready. -/
theorem new_ready (cfg : TCPConfig) (randSender randReceiver : WrappingInt32) :
    Ready (Endpoint.new cfg randSender randReceiver) :=
  ⟨new_inv cfg randSender randReceiver, new_diligent _ _ _, rfl⟩

namespace Does

variable {e e' : Endpoint} {op : ConnectionOp} {out : List Flight} {ms : Nat} {seg : TCPSegment}

/-- **Step lemma.** -/
theorem ready (h : Does e op e' out) (he : Ready e) : Ready e' := by
  have hinv := he.inv.apply op
  refine ⟨?_, ?_, ?_⟩
  · rw [h.conn]
    exact { hinv with sender := hinv.sender }
  · rw [h.conn]
    exact apply_diligent he.inv he.diligent op
  · rw [h.conn]
    exact (apply_readable he.inv op).trans he.readable

/-- A call only adds to what the connection has reached; emptying its queue changes nothing of that.
    -/
theorem advances (h : Does e op e' out) (he : Ready e) : e.conn.Advances e'.conn := by
  have hadvances := apply_advances he.inv op
  rw [h.conn]
  exact ⟨hadvances.next_le, hadvances.edge_le, hadvances.written_le, hadvances.ended,
    hadvances.receiver⟩

/-- A timer that expires sends the oldest outstanding segment again, or the connection is given
    up. -/
theorem fires (h : Does e (.tick ms) e' out) (hactive : e.conn.active = true)
    (hexp : e.conn.sender.Expires ms) {front : Nat × TCPSegment}
    (hfront : e.conn.sender.segmentsOutstanding.head? = some front)
    (hsound : e'.conn.sender.streamIn.error = false) : ∃ f ∈ out, Copies f.segment front.2 := by
  rw [h.conn] at hsound
  rw [h.out_eq]
  exact ⟨_, List.mem_map_of_mem (tick_fires hactive hexp hfront hsound), copies_stamp _ _ _⟩

/-- A RST puts the connection into the error state. -/
theorem reset (h : Does e (.segmentReceived seg) e' out) (hactive : e.conn.active = true)
    (hrst : seg.header.rst = true) : e'.conn.sender.streamIn.error = true := by
  rw [h.conn, TCPConnection.apply, segmentReceived_of_rst hactive hrst]
  rfl

/-- The receiver gets what arrives. -/
theorem received (h : Does e (.segmentReceived seg) e' out) (he : Ready e)
    (hactive : e.conn.active = true) (hrst : seg.header.rst = false) :
    e'.conn.receiver = e.conn.receiver.segmentReceived seg := by
  rw [h.conn]
  exact (queues_segmentReceived he.inv hactive hrst).1

/-- What occupies sequence space is answered, once a SYN has arrived. -/
theorem answers (h : Does e (.segmentReceived seg) e' out) (he : Ready e)
    (hqueue : e.conn.segmentsOut = []) (hactive : e.conn.active = true)
    (hrst : seg.header.rst = false) (hpos : 0 < seg.lengthInSequenceSpace)
    (hheard : e'.conn.receiver.inListen = false) :
    ∃ f ∈ out, f.segment.header.ack = true ∧ f.ackno = e'.conn.receiver.absAck := by
  obtain ⟨hreceiver, hqueues⟩ := queues_segmentReceived he.inv hactive hrst
  rw [h.received he hactive hrst] at hheard ⊢
  -- the queue was empty, so it now holds what this segment has made the connection send
  have hout : (e.conn.segmentReceived seg).segmentsOut
      = ((e.conn.deliver seg).answered seg).map (stamp (e.conn.receiver.segmentReceived seg)
          (clampedWindow (e.conn.receiver.segmentReceived seg))) := by
    rw [queues, hqueue, List.length_nil, List.drop_zero, if_neg (by simp [hheard])] at hqueues
    exact hqueues
  obtain ⟨seg0, hseg0⟩ := List.exists_mem_of_ne_nil _ ((answer_queue _ seg).1 hpos)
  rw [h.out_eq, TCPConnection.apply, hreceiver, hout]
  exact ⟨_, List.mem_map_of_mem (List.mem_map_of_mem hseg0), (stamp_clamped hheard seg0).1, rfl⟩

/-- An acknowledgment that removes a segment moves the left edge of what is outstanding. -/
theorem acknowledges (h : Does e (.segmentReceived seg) e' out) (he : Ready e)
    (hactive : e.conn.active = true) (hrst : seg.header.rst = false)
    (hack : seg.header.ack = true) (hremoves : e.conn.sender.removes seg.header.ackno = true) :
    e.conn.sender.lowEdge < e'.conn.sender.lowEdge := by
  obtain ⟨W, H, hinv⟩ := he.inv.sender
  have hedge := (segmentReceived_frame he.inv hactive seg hrst).2
  rw [deliver] at hedge
  dsimp only at hedge
  rw [if_pos hack] at hedge
  rw [h.conn]
  exact lt_of_lt_of_eq (ackReceived_edge_lt hinv hremoves seg.header.win) hedge.symm

/-- Between two ticks the timer is left alone, unless the left edge moves. -/
theorem time (h : Does e op e' out) (he : Ready e) (hop : ∀ ms, op ≠ .tick ms) :
    e'.conn.sender.remainingTime = e.conn.sender.remainingTime ∨
      e.conn.sender.lowEdge < e'.conn.sender.lowEdge := by
  rw [h.conn]
  exact apply_time he.inv hop

/-- A tick that does not expire the timer of something outstanding is counted. -/
theorem counts (h : Does e (.tick ms) e' out) (he : Ready e) (hactive : e.conn.active = true)
    (hopen : e.conn.sender.state ≠ .closed) (hout : e.conn.sender.segmentsOutstanding ≠ [])
    (hms : ms < 2 ^ 16) (hnot : ¬ e.conn.sender.Expires ms) :
    e'.conn.sender.remainingTime = e.conn.sender.remainingTime + ms := by
  rw [← he.diligent.tick_time hopen hout hms hnot, h.conn]
  show (e.conn.tick ms).sender.remainingTime = _
  rcases tick_sender hactive ms with ⟨queue, hs⟩ | ⟨queue, hs⟩ <;> rw [hs]

/-- A reader who takes bytes takes at least one, if there is any. -/
theorem takes {o : EndpointOp} (h : Does e o.call e' out) (he : Ready e) (ho : o.Takes)
    (hsome : e.conn.inboundStream.bufferList ≠ []) :
    e.conn.inboundStream.bytesRead < e'.conn.inboundStream.bytesRead := by
  obtain ⟨len, hlen, rfl | rfl⟩ := ho
  · have hread := ByteStream.read_bytesRead e.conn.inboundStream len
    have hfirst : (e.conn.inboundStream.read len).1 = e.conn.inboundStream.bufferList.take len := by
      rw [ByteStream.read, if_neg (by simp [he.readable]), ByteStream.peekOutput_eq_take]
    have hpos := List.length_pos_of_ne_nil hsome
    rw [hfirst, List.length_take] at hread
    rw [h.conn]
    show _ < (e.conn.inboundStream.read len).2.bytesRead
    omega
  · have hpos := List.length_pos_of_ne_nil hsome
    rw [h.conn]
    show _ < e.conn.inboundStream.bytesRead + min len e.conn.inboundStream.bufferList.length
    omega

end Does

end Endpoint

end Sponge
