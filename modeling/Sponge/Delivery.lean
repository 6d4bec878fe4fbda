import Sponge.Flow
import Sponge.ConnectionShutdown

namespace Sponge

open TCPSender Tiling Slice

/-!
# What a flow delivers

Consequences of the invariant of a flow, at any moment of its run:

* the bytes in the receiver's stream are the first bytes of the sender's, and all of them once
  the receiver's stream has ended (`Flow.received_eq_take`, `Flow.received_all`);
* what has left the retransmission queue has arrived (`Flow.acked_arrived`), the whole stream
  if the sender has finished (`Flow.finished_arrived`);
* what was sent under a window is neither rejected nor clipped (`Flow.passes`,
  `Flow.retains`);
* the numbers on the wire are close to both ends (`Flow.onWire_near`, `Flow.ack_near`).
-/

/-- The receiver has the byte of index `p`, assembled or waiting. -/
def TCPReceiver.Has (r : TCPReceiver) (p : Nat) : Prop :=
  p < r.reassembler.expected ∨ Pieces.Covers r.reassembler.reassembleBuffer.entries p

instance (r : TCPReceiver) (p : Nat) : Decidable (r.Has p) :=
  inferInstanceAs (Decidable (_ ∨ ∃ e ∈ _, _))

namespace Flow

variable {W taken : List UInt8} {hist : List Sent} {s : TCPSender} {data acks : List Flight}
  {r : TCPReceiver}

/-! ### The stream -/

/-- The bytes ever written into the receiver's stream are the first bytes of the sender's. -/
theorem received_eq_take (h : Flow W hist s data r taken acks) :
    taken ++ r.streamOut.bufferList = W.take r.streamOut.bytesWritten ∧
      r.streamOut.bytesWritten ≤ W.length := by
  obtain ⟨seen, -, hholds⟩ := h.holds
  rw [TCPReceiver.streamOut_eq, ← hholds.expected_eq]
  exact ⟨hholds.assembled, hholds.expected_le⟩

/-- Once the receiver's stream has ended, it is the sender's stream, and that has ended. -/
theorem received_all (h : Flow W hist s data r taken acks)
    (hended : r.streamOut.inputEnded = true) :
    taken ++ r.streamOut.bufferList = W ∧ r.streamOut.bytesWritten = W.length ∧
      s.streamIn.inputEnded = true := by
  obtain ⟨seen, hseen, hholds⟩ := h.holds
  obtain ⟨hfin, hall⟩ := hholds.ended_iff.mp hended
  rw [TCPReceiver.streamOut_eq]
  refine ⟨?_, ?_, (h.sender.finSent_all (hseen hfin)).1⟩
  · rw [hholds.assembled, hall, List.take_length]
  · rw [← hholds.expected_eq, hall]

/-! ### Acknowledged segments -/

/-- A segment that is no longer outstanding ends at the left edge at the latest. -/
theorem end_le_lowEdge (h : SenderInv W (entries hist) s) {x : Sent} (hx : x ∈ hist)
    (hgone : x.entry ∉ s.segmentsOutstanding) :
    x.seqno + x.segment.lengthInSequenceSpace ≤ s.lowEdge := by
  have he := entry_mem hx
  obtain ⟨acked, hacked⟩ := h.ledger.last
  have htiles := h.ledger.tiles
  rw [← hacked] at he htiles
  obtain ⟨b, hb, hrest⟩ := tiles_append.mp htiles
  -- the outstanding segments start where the acknowledged ones end
  have hsum := hrest.eq_add_sum
  rw [← h.ledger.bytes] at hsum
  rcases List.mem_append.mp he with he | he
  · have hend : x.seqno + x.segment.lengthInSequenceSpace ≤ b := (hb.mem_bounds he).2
    unfold lowEdge
    omega
  · exact absurd he hgone

/-- A segment that was sent is the SYN, which has nothing else in it, or comes later. -/
theorem syn_or_later (h : SenderInv W (entries hist) s) {x : Sent} (hx : x ∈ hist) :
    (x.seqno = 0 ∧ x.segment.header.syn = true ∧ x.segment.payload = [] ∧
        x.segment.header.fin = false) ∨
      (x.seqno ≠ 0 ∧ x.segment.header.syn = false) :=
  (h.sent _ (entry_mem hx)).syn_or_later

/-- **What has left the retransmission queue has arrived**: its bytes stand in the receiver's
    stream, and with its FIN the receiver's stream has ended. -/
theorem acked_arrived (h : Flow W hist s data r taken acks) {x : Sent} (hx : x ∈ hist)
    (hgone : x.entry ∉ s.segmentsOutstanding) :
    x.seqno - 1 + x.segment.payload.length ≤ r.streamOut.bytesWritten ∧
      StandsAt (taken ++ r.streamOut.bufferList) (x.seqno - 1) x.segment.payload ∧
      (x.segment.header.fin = true → r.streamOut.inputEnded = true) := by
  have he := entry_mem hx
  have hcarries : Carries W s.isn x.seqno x.segment := (h.sender.sent _ he).carries
  have hend := le_trans (end_le_lowEdge h.sender hx hgone) h.edge
  unfold TCPSegment.lengthInSequenceSpace TCPReceiver.absAck at hend
  rcases syn_or_later h.sender hx with ⟨hzero, -, hpayload, hfin⟩ | ⟨hne, hsyn⟩
  · rw [hzero, hpayload, hfin]
    exact ⟨by simp, standsAt_nil _ _, fun hflag => absurd hflag (by simp)⟩
  · have hwritten : x.seqno - 1 + x.segment.payload.length ≤ r.streamOut.bytesWritten := by
      by_cases hended : r.streamOut.inputEnded = true
      · -- all of `W` is there, and no segment goes beyond it
        have hpos : seqLength x.entry ≠ 0 := Nat.ne_of_gt (h.sender.ledger.positive _ he)
        have hinside : x.seqno + x.segment.payload.length ≤ 1 + W.length :=
          (h.sender.sent _ he).end_le.resolve_right hpos
        rw [(h.received_all hended).2.1]
        omega
      · rw [if_neg hended] at hend
        omega
    refine ⟨hwritten, ?_, fun hfin => ?_⟩
    · rw [h.received_eq_take.1]
      exact hcarries.payload.of_take hwritten
    · -- the number of the FIN comes after all of `W`, so the end has been reached
      have hall := hcarries.fin hfin
      have hle := h.received_eq_take.2
      by_contra hopen
      rw [if_neg hopen, if_pos hfin] at hend
      omega

/-- **A sender that has finished** has had its whole stream delivered. -/
theorem finished_arrived (h : Flow W hist s data r taken acks) (hfinished : s.Finished) :
    taken ++ r.streamOut.bufferList = W ∧ r.streamOut.inputEnded = true := by
  obtain ⟨hstate, hflight⟩ := hfinished
  -- the left edge has moved past the FIN, and the receiver is not behind it
  obtain ⟨-, -, hnext⟩ := h.sender.finSent_all hstate
  have hedge := h.edge
  have hle := h.received_eq_take.2
  unfold lowEdge TCPReceiver.absAck at hedge
  have hended : r.streamOut.inputEnded = true := by
    by_contra hopen
    rw [if_neg hopen] at hedge
    omega
  exact ⟨(h.received_all hended).1, hended⟩

/-! ### The receiver's window -/

/-- Whatever has been sent after the SYN, the receiver has seen the SYN. -/
theorem synced_of_sent (h : Flow W hist s data r taken acks) {x : Sent} (hx : x ∈ hist)
    (hne : x.seqno ≠ 0) : r.inListen = false := by
  have he := entry_mem hx
  have hpos : 0 < x.segment.lengthInSequenceSpace := h.sender.ledger.positive _ he
  have hend : x.seqno + x.segment.lengthInSequenceSpace ≤ s.nextSeqnoAbsolute :=
    (h.sender.ledger.tiles.mem_bounds he).2
  have hphase := h.sender.phase
  rw [Phase] at hphase
  cases hstate : s.state <;> rw [hstate] at hphase <;> simp only at hphase
  case closed => omega
  case synSent => omega
  case synAcked => exact h.established (Or.inl hstate)
  case finSent => exact h.established (Or.inr hstate)

/-- What was sent after the SYN under a window ends at the receiver's right edge at the
    latest. -/
theorem end_le_edge (h : Flow W hist s data r taken acks) {x : Sent} (hx : x ∈ hist)
    (hwindow : x.window ≠ 0) (hsyn : x.segment.header.syn = false) :
    x.seqno + x.segment.lengthInSequenceSpace ≤ r.edge := by
  rcases h.fits x hx hwindow with hflag | hle
  · rw [hsyn] at hflag
    exact absurd hflag (by simp)
  · exact hle

/-- What was sent under a window, but for the SYN, lies below the receiver's right edge. -/
theorem number_lt_edge (h : Flow W hist s data r taken acks) {x : Sent} (hx : x ∈ hist)
    (hwindow : x.window ≠ 0) {n : Nat}
    (hlo : x.seqno + (if x.segment.header.syn then 1 else 0) ≤ n)
    (hhi : n < x.seqno + x.segment.lengthInSequenceSpace) : n < r.edge := by
  rcases syn_or_later h.sender hx with ⟨-, hsyn, hpayload, hfin⟩ | ⟨-, hsyn⟩
  · -- the SYN has one number only
    rw [if_pos hsyn] at hlo
    rw [TCPSegment.lengthInSequenceSpace, hpayload, hfin, if_pos hsyn] at hhi
    simp at hhi
    omega
  · have hle := h.end_le_edge hx hwindow hsyn
    omega

/-- A segment sent under a window passes the window check, as long as the sum in it fits into
    64 bits. -/
theorem inWindow (h : Flow W hist s data r taken acks) {x : Sent} (hx : x ∈ hist)
    (hwindow : x.window ≠ 0) (hsum : r.absAck + r.windowSize < 2 ^ 64) : r.InWindow x.seqno := by
  have hpos : 0 < x.segment.lengthInSequenceSpace :=
    h.sender.ledger.positive _ (entry_mem hx)
  have hedge := r.absAck_add_windowSize
  rw [TCPReceiver.InWindow, addSize_eq hsum]
  rcases syn_or_later h.sender hx with ⟨hzero, -⟩ | ⟨-, hsyn⟩
  · -- the SYN has number zero, and a window starts at one at the earliest
    unfold TCPReceiver.absAck
    omega
  · have hle := h.end_le_edge hx hwindow hsyn
    omega

/-- **A segment sent under a window is not rejected**: its payload is handed to the
    reassembler at its index. -/
theorem passes (h : Flow W hist s data r taken acks) {x : Sent} (hx : x ∈ hist)
    (hwindow : x.window ≠ 0) {seg : TCPSegment} (hcopy : Copies seg x.segment)
    (hnear : Near x.seqno r.streamOut.bytesWritten) (hsum : r.absAck + r.windowSize < 2 ^ 64) :
    (r.segmentReceived seg).reassembler
      = r.reassembler.pushSubstring seg.payload (x.seqno - 1) seg.header.fin := by
  have hcarries := (h.numbered_carries (Or.inl ⟨x, hx, rfl, hcopy⟩)).1
  have hin := h.inWindow hx hwindow hsum
  have hpush : ∀ r' : TCPReceiver, r'.reassembler = r.reassembler → r'.isn = s.isn →
      (r'.pushSegment seg).reassembler
        = r.reassembler.pushSubstring seg.payload (x.seqno - 1) seg.header.fin := by
    -- the check and the index depend on the output stream and the `isn` only
    intro r' hsame hisn
    have hout : r'.streamOut = r.streamOut := by
      rw [TCPReceiver.streamOut_eq, TCPReceiver.streamOut_eq, hsame]
    rw [TCPReceiver.pushSegment_eq hcarries hisn (by rw [hout]; exact hnear)]
    rw [TCPReceiver.absAck, TCPReceiver.windowSize, hout]
    rw [TCPReceiver.InWindow, TCPReceiver.absAck, TCPReceiver.windowSize] at hin
    rw [if_neg (by omega), hsame]
  by_cases hlisten : r.inListen = true
  · -- only the SYN is sent to a receiver that listens
    have hsyn : seg.header.syn = true := by
      rw [hcopy.syn]
      rcases syn_or_later h.sender hx with ⟨-, hsyn, -⟩ | ⟨hne, -⟩
      · exact hsyn
      · rw [h.synced_of_sent hx hne] at hlisten
        exact absurd hlisten (by simp)
    rw [TCPReceiver.segmentReceived, if_pos hlisten, if_pos hsyn]
    refine hpush _ rfl ?_
    show seg.header.seqno = s.isn
    rw [hcarries.seqno, hcarries.syn_iff.mp hsyn, wrap_zero]
  · rw [TCPReceiver.segmentReceived, if_neg hlisten]
    exact hpush r rfl (h.synced (by simpa using hlisten)).1

/-- **A segment sent under a window is not clipped**: once it has arrived, each of its bytes is
    assembled or waiting, and where the stream ends is known if it has the FIN. -/
theorem retains (h : Flow W hist s data r taken acks) {x : Sent} (hx : x ∈ hist)
    (hwindow : x.window ≠ 0) {seg : TCPSegment} (hcopy : Copies seg x.segment)
    (hnear : Near x.seqno r.streamOut.bytesWritten) (hsum : r.absAck + r.windowSize < 2 ^ 64) :
    (∀ p, StreamReassembler.Span (x.seqno - 1) seg.payload p → (r.segmentReceived seg).Has p) ∧
      (seg.header.fin = true → (r.segmentReceived seg).reassembler.eofIndex = W.length) := by
  have hcarries := (h.numbered_carries (Or.inl ⟨x, hx, rfl, hcopy⟩)).1
  obtain ⟨seen, -, hholds⟩ := h.holds
  have hfit : x.seqno + seg.lengthInSequenceSpace < 2 ^ 64 := by
    -- the right edge has 64 bits, and so has all that lies below it
    have hedge := r.absAck_add_windowSize
    rw [hcopy.length_eq]
    rcases syn_or_later h.sender hx with ⟨hzero, hsyn, hpayload, hfin⟩ | ⟨-, hsyn⟩
    · simp [TCPSegment.lengthInSequenceSpace, hzero, hsyn, hpayload, hfin]
    · have hle := h.end_le_edge hx hwindow hsyn
      omega
  have hend : x.seqno - 1 + seg.payload.length < 2 ^ 64 - 1 := hcarries.end_lt hfit
  have hnew := StreamReassembler.pushSubstring_holds hholds hcarries.payload (by omega) hcarries.fin
    (fun p hp => hp.elim (fun hp => hp.2) (fun hp => by have hhi := hp.2; omega))
  simp only [TCPReceiver.Has, h.passes hx hwindow hcopy hnear hsum]
  refine ⟨fun p hp => hnew.kept p (Or.inr ⟨hp, ?_⟩), fun hflag => ?_⟩
  · -- the byte has the number `p + 1`, which lies below the right edge
    have hlimit : r.edge = 1 + r.reassembler.limit := by
      rw [TCPReceiver.edge, StreamReassembler.limit, TCPReceiver.streamOut_eq]
      omega
    have hlt : p + 1 < r.edge := by
      obtain ⟨hlo, hhi⟩ := hp
      rw [hcopy.payload] at hhi
      rcases syn_or_later h.sender hx with ⟨-, -, hpayload, -⟩ | ⟨hne, hsyn⟩
      · rw [hpayload, List.length_nil] at hhi
        omega
      · apply h.number_lt_edge hx hwindow
        · rw [hsyn, if_neg (by simp)]
          omega
        · unfold TCPSegment.lengthInSequenceSpace
          omega
    omega
  · rw [hnew.eof_index, hflag, Bool.or_true, if_pos rfl]

/-! ### The numbers on the wire -/

/-- A segment on the wire that is no RST has an absolute number. -/
theorem onWire_numbered (h : Flow W hist s data r taken acks) {f : Flight} (hf : f ∈ data)
    (hrst : f.segment.header.rst = false) : ∃ v, Numbered hist s v f.segment := by
  rcases h.onWire f hf with hreset | ⟨seg0, hlisted, hcopy⟩
  · rw [hrst] at hreset
    exact absurd hreset (by simp)
  · rcases hlisted with ⟨e, he, rfl⟩ | ⟨v, h1, h2, rfl⟩
    · obtain ⟨x, hx, rfl⟩ := List.mem_map.mp he
      exact ⟨x.seqno, Or.inl ⟨x, hx, rfl, hcopy⟩⟩
    · exact ⟨v, Or.inr ⟨h1, h2, hcopy⟩⟩

/-- A segment on the wire that occupies sequence space is a RST, or a copy of a segment in the
    history. -/
theorem onWire_sent (h : Flow W hist s data r taken acks) {f : Flight} (hf : f ∈ data)
    (hrst : f.segment.header.rst = false) (hpos : 0 < f.segment.lengthInSequenceSpace) :
    ∃ x ∈ hist, Copies f.segment x.segment := by
  obtain ⟨v, ⟨x, hx, -, hcopy⟩ | ⟨-, -, hcopy⟩⟩ := h.onWire_numbered hf hrst
  · exact ⟨x, hx, hcopy⟩
  · rw [hcopy.length_eq] at hpos
    exact absurd hpos (by simp [TCPSegment.lengthInSequenceSpace])

/-- The numbers of a segment do not go beyond the sender's next one. -/
theorem numbered_end_le (h : SenderInv W (entries hist) s) {v : Nat} {seg : TCPSegment}
    (hv : Numbered hist s v seg) : v + seg.lengthInSequenceSpace ≤ s.nextSeqnoAbsolute := by
  rcases hv with ⟨x, hx, rfl, hcopy⟩ | ⟨-, hle, hcopy⟩
  · rw [hcopy.length_eq]
    exact (h.ledger.tiles.mem_bounds (entry_mem hx)).2
  · rw [hcopy.length_eq]
    simpa [TCPSegment.lengthInSequenceSpace] using hle

/-- What the receiver has written, the sender has read. -/
theorem bytesWritten_le (h : Flow W hist s data r taken acks) :
    r.streamOut.bytesWritten ≤ s.streamIn.bytesRead := by
  obtain ⟨seen, -, hholds⟩ := h.holds
  rw [TCPReceiver.streamOut_eq, ← hholds.expected_eq]
  by_contra hlt
  -- the last byte written was one the sender had read
  have hlast := hholds.origin (r.reassembler.expected - 1) (Or.inl (by omega))
  omega

/-- **In a short stream every number is near the receiver's checkpoint.** -/
theorem onWire_near (h : Flow W hist s data r taken acks) (hshort : W.length < 2 ^ 31) {v : Nat}
    {seg : TCPSegment} (hv : Numbered hist s v seg) :
    Near v r.streamOut.bytesWritten ∧ v + seg.lengthInSequenceSpace < 2 ^ 64 := by
  -- the sender is at most a window ahead of the receiver
  have hend := numbered_end_le h.sender hv
  have hreach := h.reach
  have hwritten := h.received_eq_take.2
  have hack := r.absAck_le_add_two
  unfold Near
  omega

/-- **In a short stream every acknowledgment is near the sender's checkpoint.** -/
theorem ack_near (h : Flow W hist s data r taken acks) (hshort : W.length < 2 ^ 31) {f : Flight}
    (hf : f ∈ acks) (hrst : f.segment.header.rst = false) (hflag : f.segment.header.ack = true) :
    Near f.ackno s.streamIn.bytesRead := by
  have hahead := (h.acked f hf hrst hflag).not_ahead
  have hwritten := h.bytesWritten_le
  have hread := h.sender.bytesRead_le
  have hack := r.absAck_le_add_two
  unfold Near
  omega

end Flow

end Sponge
