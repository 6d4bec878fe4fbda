import Sponge.ConnectionStates
import Sponge.FdAdapter

namespace Sponge

open TCPSender

/-!
# The segments of a connection and its surroundings

What those who empty the queue of a connection and feed it with segments may rely on:

* `prepend` — what is already in the queue makes no difference: every operation appends to it and
  does the same whatever it holds;
* `segmentReceived_like` — a segment is received for what is in it, whatever an adapter has done to
  its ports and its checksum;
* `Packable` — every segment fits into an IPv4 datagram;
* `Inv.segmentReceived_readOn`, `apply_over` — what arrives takes no room from the outbound stream,
  and an inbound stream that has been read to its end, or has an error, stays so.
-/

namespace TCPConnection

/-! ### The queue -/

/-- The connection with other segments in front of its queue. -/
def prepend (queue : List TCPSegment) (c : TCPConnection) : TCPConnection :=
  { c with segmentsOut := queue ++ c.segmentsOut }

section

variable (queue : List TCPSegment) (c : TCPConnection)

/-- The fetched segments go to the end of the queue. -/
theorem prepend_fetchSegment : (c.prepend queue).fetchSegment = c.fetchSegment.prepend queue := by
  simp [prepend, fetchSegment]

theorem prepend_sendSegment : (c.prepend queue).sendSegment = c.sendSegment.prepend queue :=
  prepend_fetchSegment queue { c with sender := c.sender.fillWindow }

theorem prepend_write (data : List UInt8) :
    (c.prepend queue).write data = ((c.write data).1, (c.write data).2.prepend queue) :=
  Prod.ext rfl (prepend_sendSegment queue
    { c with sender := { c.sender with streamIn := (c.sender.streamIn.write data).2 } })

theorem prepend_endInputStream :
    (c.prepend queue).endInputStream = c.endInputStream.prepend queue :=
  prepend_sendSegment queue
    { c with sender := { c.sender with streamIn := c.sender.streamIn.endInput } }

theorem prepend_connect : (c.prepend queue).connect = c.connect.prepend queue :=
  prepend_sendSegment queue c

/-- The checks at the end of a step do not look at the queue. -/
theorem prepend_tryCleanShutdown :
    (c.prepend queue).tryCleanShutdown = c.tryCleanShutdown.prepend queue := by
  unfold tryCleanShutdown prepend inboundStream
  dsimp only
  split_ifs <;> rfl

/-- The RST goes to the end of the queue, too. -/
theorem prepend_sendRstSegment :
    (c.prepend queue).sendRstSegment = c.sendRstSegment.prepend queue := by
  unfold sendRstSegment prepend
  dsimp only
  split
  · rfl
  · simp

/-- A tick does the same whatever the queue holds. -/
theorem prepend_tick (ms : Nat) : (c.prepend queue).tick ms = (c.tick ms).prepend queue := by
  unfold tick
  rw [show (c.prepend queue).active = c.active from rfl]
  split_ifs with hinactive
  · rfl
  · dsimp only
    rw [show (c.prepend queue).sender = c.sender from rfl]
    -- the tick sets the clock and the sender, and no more, before it looks at the queue
    have hlater (sender : TCPSender) : { c.prepend queue with
        timeSinceLastSegmentReceived := (c.timeSinceLastSegmentReceived + ms).bmod (2 ^ 32)
        sender := sender } = prepend queue { c with
        timeSinceLastSegmentReceived := (c.timeSinceLastSegmentReceived + ms).bmod (2 ^ 32)
        sender := sender } := rfl
    split_ifs
    · exact congrArg killConnection ((congrArg sendRstSegment (hlater _)).trans
        (prepend_sendRstSegment queue _))
    · exact (congrArg (fun d => d.fetchSegment.tryCleanShutdown) (hlater _)).trans
        ((congrArg tryCleanShutdown (prepend_fetchSegment queue _)).trans
          (prepend_tryCleanShutdown queue _))

/-- Whether a segment is answered depends on the sender's queue, not on the connection's. -/
theorem prepend_answer (seg : TCPSegment) :
    (c.prepend queue).answer seg = (c.answer seg).prepend queue := by
  unfold answer prepend
  dsimp only
  split_ifs
  · rfl
  · rfl
  · split
    · split_ifs <;> rfl
    · rfl

theorem prepend_respond (seg : TCPSegment) :
    (c.prepend queue).respond seg = (c.respond seg).prepend queue := by
  unfold respond
  rw [show (c.prepend queue).receiver = c.receiver from rfl]
  split_ifs
  · rfl
  · dsimp only
    rw [prepend_tryCleanShutdown queue c]
    show ((prepend queue { c.tryCleanShutdown with
      sender := c.tryCleanShutdown.sender.fillWindow }).answer
        seg).fetchSegment.tryCleanShutdown = _
    rw [prepend_answer, prepend_fetchSegment, prepend_tryCleanShutdown]

theorem prepend_deliver (seg : TCPSegment) :
    (c.prepend queue).deliver seg = (c.deliver seg).prepend queue := rfl

/-- **An arriving segment** does the same whatever the queue holds. -/
theorem prepend_segmentReceived (seg : TCPSegment) :
    (c.prepend queue).segmentReceived seg = (c.segmentReceived seg).prepend queue := by
  -- by the three ways through `segment_received`: ignored, a RST, and all else
  cases hactive : c.active with
  | false =>
    rw [segmentReceived_of_inactive hactive,
      segmentReceived_of_inactive (c := c.prepend queue) hactive]
  | true =>
    cases hrst : seg.header.rst with
    | true =>
      rw [segmentReceived_of_rst hactive hrst,
        segmentReceived_of_rst (c := c.prepend queue) hactive hrst]
      rfl
    | false =>
      rw [segmentReceived_eq hactive hrst, segmentReceived_eq (c := c.prepend queue) hactive hrst,
        prepend_deliver, prepend_respond]

end

/-! ### What is looked at -/

/-- **A segment is received for what is in it.** -/
theorem segmentReceived_like (c : TCPConnection) {seg seg0 : TCPSegment} (h : seg.Like seg0) :
    c.segmentReceived seg = c.segmentReceived seg0 := by
  obtain ⟨sport, dport, cksum, rfl⟩ := h
  rfl

end TCPConnection

/-! ### What fits into a datagram -/

/-- Every segment that the sender has to send, or to send again, fits into a datagram. -/
structure TCPSender.Packable (s : TCPSender) : Prop where
  queued : ∀ seg ∈ s.segmentsOut, seg.Wrappable
  outstanding : ∀ e ∈ s.segmentsOutstanding, e.2.Wrappable

namespace TCPSender

variable {s t : TCPSender}

/-- Only the two queues of the sender matter. -/
theorem Packable.of_same (h : s.Packable) (hout : t.segmentsOut = s.segmentsOut)
    (houtstanding : t.segmentsOutstanding = s.segmentsOutstanding) : t.Packable where
  queued := by
    rw [hout]
    exact h.queued
  outstanding := by
    rw [houtstanding]
    exact h.outstanding

/-- A segment without a payload, whatever its flags. -/
theorem wrappable_of_nil {seg : TCPSegment} (hdoff : seg.header.doff = 5)
    (hpayload : seg.payload = []) : seg.Wrappable where
  doff := hdoff
  size := by simp [hpayload]

/-- The payload of a new segment is cut at `maxPayloadSize`, far below the size of a datagram. -/
theorem nextSegment_wrappable (w : Nat) (s : TCPSender) : (s.nextSegment w).Wrappable where
  doff := rfl
  size := by
    have hread : ((s.streamIn.read (min maxPayloadSize (w - s.bytesInFlight))).1).length
        ≤ maxPayloadSize := by
      unfold ByteStream.read
      split
      · simp
      · rw [ByteStream.peekOutput_eq_take, List.length_take]
        omega
    exact le_trans hread (by decide)

/-- A segment that fits may be queued. -/
theorem Packable.push (h : s.Packable) {seg : TCPSegment} (hseg : seg.Wrappable) :
    (s.push seg).Packable where
  queued := List.forall_mem_append.mpr ⟨h.queued, by simpa using hseg⟩
  outstanding := List.forall_mem_append.mpr ⟨h.outstanding, by simpa using hseg⟩

/-- Filling the window: every segment of the loop fits, and so does the SYN. -/
theorem Packable.fillWindow (h : s.Packable) : s.fillWindow.Packable := by
  unfold TCPSender.fillWindow
  split_ifs
  · have hsyn : TCPSegment.Wrappable { header := { seqno := s.nextSeqno, syn := true } } :=
      wrappable_of_nil rfl rfl
    exact ⟨List.forall_mem_append.mpr ⟨h.queued, by simpa using hsyn⟩,
      List.forall_mem_append.mpr ⟨h.outstanding, by simpa using hsyn⟩⟩
  · -- the loop invariant is `Packable` itself: each round adds one segment cut from the stream
    refine Loop.run_rule (P := Packable) (fun t u ht hdone => ?_) (fun t u ht hyield => ?_) _ h
    · rw [eq_of_fillStep_done hdone]
      exact ht
    · rw [(eq_of_fillStep_yield hyield).2.2.2]
      exact (ht.of_same rfl rfl : (t.readNext _).Packable).push (nextSegment_wrappable _ t)

/-- Acknowledged segments are only taken out. -/
theorem Packable.popAcked (A : Nat) (es : List (Nat × TCPSegment)) (h : s.Packable)
    (hes : s.segmentsOutstanding = es) : (popAcked A es s).Packable := by
  induction es generalizing s with
  | nil => exact h
  | cons e rest ih =>
    rw [TCPSender.popAcked]
    split_ifs
    · exact h
    · have hout := h.outstanding
      rw [hes] at hout
      exact ih ⟨h.queued, fun e' he' => hout e' (List.mem_cons_of_mem _ he')⟩ rfl

/-- An acknowledgment takes segments out and fills the window. -/
theorem Packable.ackReceived (h : s.Packable) (ackno : WrappingInt32) (window : UInt16) :
    (s.ackReceived ackno window).Packable := by
  unfold TCPSender.ackReceived
  split_ifs
  · -- segments that have been acknowledged are only taken away
    have hacked : (s.acknowledge (s.receivedAckno ackno) window).Packable := by
      have hpop := Packable.popAcked (s := { s with
        windowSize := window.toNat, retransmissionCount := 0 }) (s.receivedAckno ackno)
        s.segmentsOutstanding ⟨h.queued, h.outstanding⟩ rfl
      unfold acknowledge
      dsimp only
      split_ifs
      · exact ⟨hpop.queued, hpop.outstanding⟩
      · exact hpop
    dsimp only
    split_ifs
    · exact hacked.fillWindow
    · exact hacked
  · exact h

/-- What is sent again has been sent before. -/
theorem Packable.tick (h : s.Packable) (ms : Nat) : (s.tick ms).Packable := by
  obtain ⟨-, -, -, houtstanding, -, -, -, hsame | ⟨front, hfront, hmore⟩⟩ := s.tick_cases ms
  · exact h.of_same hsame houtstanding
  · refine ⟨?_, by rw [houtstanding]; exact h.outstanding⟩
    rw [hmore]
    refine List.forall_mem_append.mpr ⟨h.queued, ?_⟩
    simpa using h.outstanding front (List.mem_of_mem_head? hfront)

/-- An empty segment always fits. -/
theorem Packable.sendEmptySegment (h : s.Packable) : s.sendEmptySegment.Packable := by
  have hempty : TCPSegment.Wrappable { header := { seqno := s.nextSeqno } } :=
    wrappable_of_nil rfl rfl
  exact ⟨List.forall_mem_append.mpr ⟨h.queued, by simpa using hempty⟩, h.outstanding⟩

end TCPSender

namespace TCPConnection

/-- Every segment of the connection fits into a datagram. -/
structure Packable (c : TCPConnection) : Prop where
  sender : c.sender.Packable
  queued : ∀ seg ∈ c.segmentsOut, seg.Wrappable

variable {c : TCPConnection}

/-- The acknowledgment is put into a field of the header that is there anyway. -/
theorem stamp_wrappable {r : TCPReceiver} {win : UInt16} {seg : TCPSegment} (h : seg.Wrappable) :
    (stamp r win seg).Wrappable := by
  unfold stamp
  split
  · exact ⟨h.doff, h.size⟩
  · exact h

/-- The segments change queues, and fit as before. -/
theorem Packable.fetchSegment (h : c.Packable) : c.fetchSegment.Packable where
  sender := ⟨by simp [TCPConnection.fetchSegment], h.sender.outstanding⟩
  queued := by
    refine List.forall_mem_append.mpr ⟨h.queued, fun seg hseg => ?_⟩
    obtain ⟨seg0, hseg0, rfl⟩ := List.mem_map.mp hseg
    exact stamp_wrappable (h.sender.queued seg0 hseg0)

theorem Packable.sendSegment (h : c.Packable) : c.sendSegment.Packable :=
  fetchSegment (c := { c with sender := c.sender.fillWindow }) ⟨h.sender.fillWindow, h.queued⟩

theorem Packable.write (h : c.Packable) (data : List UInt8) : (c.write data).2.Packable :=
  sendSegment (c := { c with
    sender := { c.sender with streamIn := (c.sender.streamIn.write data).2 } })
    ⟨⟨h.sender.queued, h.sender.outstanding⟩, h.queued⟩

theorem Packable.endInputStream (h : c.Packable) : c.endInputStream.Packable :=
  sendSegment (c := { c with sender := { c.sender with streamIn := c.sender.streamIn.endInput } })
    ⟨⟨h.sender.queued, h.sender.outstanding⟩, h.queued⟩

theorem Packable.tryCleanShutdown (h : c.Packable) : c.tryCleanShutdown.Packable := by
  unfold TCPConnection.tryCleanShutdown
  split_ifs
  all_goals exact ⟨h.sender, h.queued⟩

theorem Packable.killConnection (h : c.Packable) : c.killConnection.Packable :=
  ⟨⟨h.sender.queued, h.sender.outstanding⟩, h.queued⟩

/-- The RST is one of the segments that were queued, or an empty one. -/
theorem Packable.sendRstSegment (h : c.Packable) : c.sendRstSegment.Packable := by
  have hempty := h.sender.sendEmptySegment
  unfold TCPConnection.sendRstSegment
  dsimp only
  split
  · exact h
  · -- the RST is the empty segment just queued, with one more flag
    rename_i front rest hqueue
    have hall := hempty.queued
    rw [hqueue, List.forall_mem_cons] at hall
    refine ⟨⟨hall.2, hempty.outstanding⟩, List.forall_mem_append.mpr ⟨h.queued, ?_⟩⟩
    have hfront : TCPSegment.Wrappable { front with header := { front.header with rst := true } } :=
      ⟨hall.1.doff, hall.1.size⟩
    simpa using stamp_wrappable hfront

/-- **A tick keeps all segments small.** -/
theorem Packable.tick (h : c.Packable) (ms : Nat) : (c.tick ms).Packable := by
  have hticked := h.sender.tick ms
  unfold TCPConnection.tick
  split_ifs
  · exact h
  · dsimp only
    split_ifs
    · -- the segment that was sent again is dropped before the RST is sent
      refine killConnection (sendRstSegment ⟨⟨fun seg hseg => ?_, ?_⟩, ?_⟩)
      · exact hticked.queued seg (List.mem_of_mem_tail hseg)
      · exact hticked.outstanding
      · exact h.queued
    · refine tryCleanShutdown (fetchSegment ⟨?_, ?_⟩)
      · exact hticked
      · exact h.queued

/-- The answer is an empty segment. -/
theorem Packable.answer (h : c.Packable) (seg : TCPSegment) : (c.answer seg).Packable := by
  have hempty : { c with sender := c.sender.sendEmptySegment }.Packable :=
    ⟨h.sender.sendEmptySegment, h.queued⟩
  unfold TCPConnection.answer
  split_ifs
  · exact hempty
  · exact h
  · split
    · split_ifs
      · exact hempty
      · exact h
    · exact h

theorem Packable.respond (h : c.Packable) (seg : TCPSegment) : (c.respond seg).Packable := by
  unfold TCPConnection.respond
  split_ifs
  · exact h
  · have hclean := h.tryCleanShutdown
    have hfilled : { c.tryCleanShutdown with
        sender := c.tryCleanShutdown.sender.fillWindow }.Packable :=
      ⟨hclean.sender.fillWindow, hclean.queued⟩
    exact (hfilled.answer seg).fetchSegment.tryCleanShutdown

/-- **An arriving segment keeps all segments small.** -/
theorem Packable.segmentReceived (h : c.Packable) (seg : TCPSegment) :
    (c.segmentReceived seg).Packable := by
  unfold TCPConnection.segmentReceived
  split_ifs
  · exact h
  · exact h.killConnection
  · refine respond ⟨?_, ?_⟩ seg
    · unfold receiveAck
      split_ifs
      · exact h.sender.ackReceived _ _
      · exact h.sender
    · unfold receiveAck
      split_ifs <;> exact h.queued

end TCPConnection

/-! ### The outbound stream -/

/-- The outgoing stream of `t` is that of `s` with bytes read from it. -/
structure TCPSender.ReadOn (s t : TCPSender) : Prop where
  room : s.streamIn.remainingCapacity ≤ t.streamIn.remainingCapacity
  ended : t.streamIn.inputEnded = s.streamIn.inputEnded

namespace TCPSender

variable {s t u : TCPSender}

/-- A step that leaves the stream alone takes no room from it. -/
theorem ReadOn.of_same (h : t.streamIn = s.streamIn) : s.ReadOn t :=
  ⟨by rw [h], by rw [h]⟩

/-- Room that was given back stays there. -/
theorem ReadOn.trans (h : s.ReadOn t) (h' : t.ReadOn u) : s.ReadOn u :=
  ⟨le_trans h.room h'.room, h'.ended.trans h.ended⟩

/-- Reading the next payload gives room back. -/
theorem readNext_readOn (w : Nat) (s : TCPSender) : s.ReadOn (s.readNext w) where
  room := by
    have hsplit := congrArg List.length
      (s.streamIn.read_fst_append (min maxPayloadSize (w - s.bytesInFlight)))
    have hcapacity := s.streamIn.read_capacity (min maxPayloadSize (w - s.bytesInFlight))
    rw [List.length_append] at hsplit
    show s.streamIn.remainingCapacity ≤ (s.streamIn.read _).2.remainingCapacity
    rw [ByteStream.remainingCapacity, ByteStream.remainingCapacity, hcapacity]
    omega
  ended := ByteStream.read_inputEnded _ _

/-- So does the whole loop that fills the window. -/
theorem fillWindow_readOn (s : TCPSender) : s.ReadOn s.fillWindow := by
  unfold fillWindow
  split_ifs
  · exact .of_same rfl
  · refine Loop.run_rule (P := fun t => s.ReadOn t) (fun t u ht hdone => ?_)
      (fun t u ht hyield => ?_) _ (.of_same rfl)
    · rw [eq_of_fillStep_done hdone]
      exact ht
    · rw [(eq_of_fillStep_yield hyield).2.2.2]
      exact (ht.trans (readNext_readOn _ t)).trans (.of_same rfl)

/-- An acknowledgment may fill the window, and takes nothing from the stream otherwise. -/
theorem ackReceived_readOn (s : TCPSender) (ackno : WrappingInt32) (window : UInt16) :
    s.ReadOn (s.ackReceived ackno window) := by
  have hacked : (s.acknowledge (s.receivedAckno ackno) window).streamIn = s.streamIn := by
    have hpop := (popAcked_frame (s.receivedAckno ackno) s.segmentsOutstanding
      { s with windowSize := window.toNat, retransmissionCount := 0 }).2.2.1
    unfold acknowledge
    dsimp only
    split_ifs <;> exact hpop
  unfold ackReceived
  split_ifs
  · dsimp only
    split_ifs
    · exact (ReadOn.of_same hacked).trans (fillWindow_readOn _)
    · exact .of_same hacked
  · exact .of_same rfl

end TCPSender

namespace TCPConnection

variable {c : TCPConnection}

/-- **What arrives takes no room** from the outbound stream, and does not end it. -/
theorem Inv.segmentReceived_readOn (h : Inv c) (seg : TCPSegment) :
    c.sender.ReadOn (c.segmentReceived seg).sender := by
  cases hactive : c.active with
  | false =>
    rw [segmentReceived_of_inactive hactive]
    exact .of_same rfl
  | true =>
    cases hrst : seg.header.rst with
    | true =>
      rw [segmentReceived_of_rst hactive hrst]
      exact ⟨le_refl _, rfl⟩
    | false =>
      -- an acknowledgment may fill the window, which reads from the stream
      have hdeliver : c.sender.ReadOn (c.deliver seg).sender := by
        unfold deliver
        dsimp only
        split_ifs
        · exact ackReceived_readOn _ _ _
        · exact .of_same rfl
      rw [segmentReceived_eq hactive hrst]
      refine hdeliver.trans ?_
      rw [(respond_sides (h.toCore.deliver seg) hactive seg).2]
      split_ifs
      · exact .of_same rfl
      · exact (fillWindow_readOn _).trans (.of_same rfl)

end TCPConnection

/-! ### The inbound stream -/

namespace StreamReassembler

variable {r : StreamReassembler}

/-- A stream that has ended takes no more bytes from the reassembler. -/
theorem sendLoop_output_of_ended (es : List (Nat × List UInt8))
    (h : r.output.inputEnded = true) : (sendLoop es r).output = r.output := by
  -- along the entries that are left: each write is refused by the ended stream
  induction es generalizing r with
  | nil => rfl
  | cons e rest ih =>
    have hassemble : (r.assemble e.1 e.2).output = r.output := by
      unfold assemble
      split
      · exact congrArg Prod.snd (ByteStream.write_of_ended _ _ h)
      · rfl
    rw [sendLoop]
    split
    · exact (ih (hassemble ▸ h)).trans hassemble
    · rfl

/-- Nothing is written into a stream that has ended. -/
theorem pushSubstring_output_of_ended (data : List UInt8) (index : Nat) (eof : Bool)
    (h : r.output.inputEnded = true) : (r.pushSubstring data index eof).output = r.output := by
  -- whatever `eof_index` is, the bytes are not taken
  have haccept (r' : StreamReassembler) (hr' : r'.output = r.output) :
      (r'.acceptBytes data index).output = r.output := by
    unfold acceptBytes
    split
    · obtain ⟨-, hout, -⟩ := insert_frame r' index data
      rw [sendToBytestream, sendLoop_output_of_ended _ (by rw [hout, hr', h]), hout, hr']
    · exact hr'
  have hend : r.output.endInput = r.output := by
    unfold ByteStream.endInput
    rw [← h]
  have hflag : (if eof then { r with eofIndex := addSize data.length index } else r).output
      = r.output := by
    cases eof <;> rfl
  rw [pushSubstring_eq]
  generalize (if eof then { r with eofIndex := addSize data.length index } else r) = r' at hflag ⊢
  have hr' := haccept r' hflag
  dsimp only
  -- ending the input once more changes nothing
  by_cases hlast : (r'.acceptBytes data index).expected = (r'.acceptBytes data index).eofIndex
  · rw [if_pos hlast]
    exact (congrArg ByteStream.endInput hr').trans hend
  · rw [if_neg hlast]
    exact hr'

end StreamReassembler

/-- After the end of the inbound stream no segment changes it any more. -/
theorem TCPReceiver.segmentReceived_streamOut_of_ended {r : TCPReceiver}
    (h : r.streamOut.inputEnded = true) (seg : TCPSegment) :
    (r.segmentReceived seg).streamOut = r.streamOut := by
  -- a segment is pushed with the same stream before it, also when its SYN is the first
  have hpush (r' : TCPReceiver) (hr' : r'.streamOut = r.streamOut) :
      (r'.pushSegment seg).streamOut = r.streamOut := by
    have hended : r'.reassembler.output.inputEnded = true := by
      rw [← streamOut_eq, hr', h]
    have hsame := StreamReassembler.pushSubstring_output_of_ended seg.payload (r'.streamIndex seg)
      seg.header.fin hended
    rw [pushSegment]
    by_cases hbehind : r'.absSeq seg ≥ addSize r'.absAck r'.windowSize
    · rw [if_pos hbehind]
      exact hr'
    · rw [if_neg hbehind, streamOut_eq, hsame, ← streamOut_eq]
      exact hr'
  rw [segmentReceived]
  by_cases hlisten : r.inListen = true
  · rw [if_pos hlisten]
    by_cases hsyn : seg.header.syn = true
    · rw [if_pos hsyn]
      exact hpush _ rfl
    · rw [if_neg hsyn]
  · rw [if_neg hlisten]
    exact hpush r rfl

/-- **A stream that has been read to its end** stays so, whatever the receiver gets. -/
theorem TCPReceiver.apply_eof {r : TCPReceiver} (heof : r.streamOut.eof = true) (op : ReceiverOp) :
    (r.apply op).streamOut.eof = true := by
  obtain ⟨hended, hempty⟩ := (ByteStream.eof_iff _).mp heof
  cases op with
  | segmentReceived seg =>
    rw [apply, segmentReceived_streamOut_of_ended hended seg]
    exact heof
  | read len =>
    -- nothing can be read from an empty buffer
    have hsplit := r.streamOut.read_fst_append len
    rw [hempty, List.append_eq_nil_iff] at hsplit
    exact (ByteStream.eof_iff _).mpr ⟨(ByteStream.read_inputEnded _ _).trans hended, hsplit.2⟩
  | popOutput len =>
    refine (ByteStream.eof_iff _).mpr ⟨hended, ?_⟩
    exact (ByteStream.popOutput_bufferList r.streamOut len).trans (by rw [hempty, List.drop_nil])

/-- The same for the inbound stream of a connection. -/
theorem TCPConnection.apply_eof {c : TCPConnection} (h : Inv c) (heof : c.inboundStream.eof = true)
    (op : ConnectionOp) : (c.apply op).inboundStream.eof = true := by
  unfold inboundStream
  rcases apply_receiver h op with hr | hr | ⟨op', hr⟩ <;> rw [hr]
  · exact heof
  · exact heof
  · exact TCPReceiver.apply_eof heof op'

/-- Once the inbound stream is over, it is over for good. -/
theorem TCPConnection.apply_over {c : TCPConnection} (h : Inv c)
    (hover : (c.inboundStream.eof || c.inboundStream.error) = true) (op : ConnectionOp) :
    ((c.apply op).inboundStream.eof || (c.apply op).inboundStream.error) = true := by
  rw [Bool.or_eq_true] at hover ⊢
  refine hover.imp (fun heof => apply_eof h heof op) fun herror => ?_
  -- the two streams share their error flag
  exact (h.apply op).error_eq.symm.trans (apply_error h (h.error_eq.trans herror) op)

end Sponge
