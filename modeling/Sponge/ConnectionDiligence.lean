import Sponge.ConnectionQueue
import Sponge.SenderTimer
import Sponge.ReceiverWindow

namespace Sponge

/-!
# A connection leaves nothing undone

Three facts about a connection between two calls, in every state of every run, that say it is
never idle while there is something to do:

* the sender has no work: whatever fits into the window has been sent, and what has been written
  to a stream has at least led to a SYN (`TCPSender.Diligent`);
* its retransmission timer runs whenever something is outstanding, and its counter stays below the
  timeout, far enough from the end of its 32 bits that an ordinary tick does not wrap it around
  (`TCPSender.Wound`);
* the counter only rises with the ticks, unless it expires or the left edge of what is outstanding
  moves (`apply_time`).

`Advances` collects what no call ever takes back.
-/

namespace TCPSender

variable {W : List UInt8} {H : List (Nat × TCPSegment)} {s : TCPSender}

/-! ### The timer -/

/-- The retransmission timer is in order. -/
structure Wound (s : TCPSender) : Prop where
  alarm : s.state ≠ .closed → s.alarmRun = true
  initial_lt : s.initialRetransmissionTimeout < 2 ^ 16
  timeout : ∃ k, s.retransmissionTimeout = s.initialRetransmissionTimeout * 2 ^ k % 2 ^ 32
  time : s.remainingTime = 0 ∨ s.remainingTime < s.retransmissionTimeout

/-- Doubling a timeout of 16 bits again and again in 32 bits never comes close to the end of
    them. -/
theorem Wound.timeout_le (h : Wound s) : s.retransmissionTimeout ≤ 2 ^ 32 - 2 ^ 16 := by
  obtain ⟨k, hk⟩ := h.timeout
  have hlt := h.initial_lt
  rw [hk]
  -- the timeout is the initial one doubled `k` times in 32 bits
  rcases Nat.lt_or_ge k 16 with hsmall | hlarge
  · have hpow : 2 ^ k ≤ 2 ^ 15 := Nat.pow_le_pow_right (by decide) (by omega)
    have hmul := Nat.mul_le_mul (Nat.le_of_lt hlt) hpow
    have hmod := Nat.mod_le (s.initialRetransmissionTimeout * 2 ^ k) (2 ^ 32)
    omega
  · -- a multiple of `2 ^ 16`
    obtain ⟨j, rfl⟩ := Nat.exists_eq_add_of_le hlarge
    have hform : s.initialRetransmissionTimeout * 2 ^ (16 + j)
        = 2 ^ 16 * (s.initialRetransmissionTimeout * 2 ^ j) := by ring
    rw [hform]
    generalize s.initialRetransmissionTimeout * 2 ^ j = m
    omega

/-- The timer is far enough from the end of its 32 bits for any tick below `2^16`. -/
theorem Wound.time_lt (h : Wound s) : s.remainingTime < 2 ^ 32 - 2 ^ 16 := by
  have hle := h.timeout_le
  rcases h.time with hzero | hlt <;> omega

/-- A tick that does not expire the timer is counted in full. -/
theorem Wound.tick_time (h : Wound s) (hopen : s.state ≠ .closed)
    (hout : s.segmentsOutstanding ≠ []) {ms : Nat} (hms : ms < 2 ^ 16) (hnot : ¬ s.Expires ms) :
    (s.tick ms).remainingTime = s.remainingTime + ms := by
  obtain ⟨-, -, -, htime⟩ := tick_of_not_expires hnot
  have hlt := h.time_lt
  rw [htime, if_neg (by simp [h.alarm hopen]), if_neg hout]
  omega

/-- Filling the window starts the timer with the SYN, and changes neither the time nor the timeout.
    -/
theorem fillWindow_wound (h : Wound s) : Wound s.fillWindow where
  alarm := by
    intro _
    by_cases hclosed : s.state = .closed
    · rw [fillWindow, if_pos hclosed]
      rfl
    · exact (fillWindow_sameTimer hclosed).alarm.trans (h.alarm hclosed)
  initial_lt := by
    rw [(fillWindow_sameRetx s).initial]
    exact h.initial_lt
  timeout := by
    rw [(fillWindow_sameRetx s).timeout, (fillWindow_sameRetx s).initial]
    exact h.timeout
  time := by
    rw [fillWindow_time, (fillWindow_sameRetx s).timeout]
    exact h.time

/-- A tick lets the timer run down.  When it expires, the timeout is doubled in 32 bits, or kept if
    the window is zero. -/
theorem tick_wound (h : Wound s) (ms : Nat) : Wound (s.tick ms) := by
  have hstate := (s.tick_cases ms).2.2.2.2.2.1
  by_cases hexp : s.Expires ms
  · obtain ⟨-, -, -, hinitial, -, htimeout, halarm, htime⟩ := tick_of_expires hexp
    obtain ⟨k, hk⟩ := h.timeout
    refine ⟨fun hopen => ?_, by rw [hinitial]; exact h.initial_lt, ?_, Or.inl htime⟩
    · rw [hstate] at hopen
      exact halarm.trans (h.alarm hopen)
    · rw [htimeout, hinitial]
      -- the timeout is doubled where the window is open
      by_cases hwindow : s.windowSize ≠ 0
      · refine ⟨k + 1, ?_⟩
        rw [if_pos hwindow, hk, Nat.mod_mul_mod, pow_succ 2 k, mul_assoc]
      · exact ⟨k, by rw [if_neg hwindow, hk]⟩
  · obtain ⟨hretx, -, halarm, htime⟩ := tick_of_not_expires hexp
    refine ⟨fun hopen => ?_, by rw [hretx.initial]; exact h.initial_lt, ?_, ?_⟩
    · rw [hstate] at hopen
      exact halarm.trans (h.alarm hopen)
    · rw [hretx.timeout, hretx.initial]
      exact h.timeout
    · rw [htime, hretx.timeout]
      by_cases hstopped : s.alarmRun = false
      · rw [if_pos hstopped]
        exact h.time
      · rw [if_neg hstopped]
        -- the counter goes on only while it stays below the timeout
        by_cases hout : s.segmentsOutstanding = []
        · exact Or.inl (if_pos hout)
        · rw [if_neg hout]
          exact Or.inr (Nat.lt_of_not_le fun hle => hexp ⟨by simpa using hstopped, hout, hle⟩)

/-- An acknowledgment that removes a segment sets the timeout back to its first value; any other one
    leaves it alone. -/
theorem ackReceived_wound (h : SenderInv W H s) (hw : Wound s) (ackno : WrappingInt32)
    (window : UInt16) : Wound (s.ackReceived ackno window) := by
  by_cases hacc : s.accepts ackno = true
  · obtain ⟨hinitial, -, htimeout, htime, halarm⟩ := ackReceived_timer hacc window
    refine ⟨fun hopen => ?_, by rw [hinitial]; exact hw.initial_lt, ?_, ?_⟩
    · exact halarm.trans (hw.alarm fun hclosed =>
        hopen ((ackReceived_phase h ackno window).1.mpr hclosed))
    · rw [htimeout, hinitial]
      -- a new acknowledgment sets the timeout back
      by_cases hremoves : s.removes ackno = true
      · refine ⟨0, ?_⟩
        have hlt := hw.initial_lt
        rw [if_pos hremoves, pow_zero, mul_one, Nat.mod_eq_of_lt (by omega)]
      · rw [if_neg hremoves]
        exact hw.timeout
    · rw [htime, htimeout]
      by_cases hremoves : s.removes ackno = true
      · exact Or.inl (if_pos hremoves)
      · rw [if_neg hremoves, if_neg hremoves]
        exact hw.time
  · rw [ackReceived, if_neg hacc]
    exact hw

/-! ### The left edge -/

/-- An acknowledgment that removes a segment moves the left edge of what is outstanding. -/
theorem ackReceived_edge_lt (h : SenderInv W H s) {ackno : WrappingInt32}
    (hremoves : s.removes ackno = true) (window : UInt16) :
    s.lowEdge < (s.ackReceived ackno window).lowEdge := by
  have hacc : s.accepts ackno = true := by
    rw [removes, Bool.and_eq_true] at hremoves
    exact hremoves.1
  obtain ⟨hA, -⟩ := (accepts_iff s ackno).mp hacc
  have hsettled := acknowledge_settled h hA window
  -- filling the window does not move the edge, so only the segments dropped count
  have hfill : (s.ackReceived ackno window).lowEdge
      = (s.acknowledge (s.receivedAckno ackno) window).lowEdge := by
    rw [ackReceived, if_pos hacc]
    dsimp only
    split
    · obtain ⟨new, hf⟩ := fillWindow_filled hsettled.inv
      exact hf.edge
    · rfl
  rw [hfill, lowEdge, lowEdge, hsettled.next, acknowledge_bytesInFlight h hA]
  obtain ⟨e, he, hend⟩ := (removes_iff hacc).mp hremoves
  have hbytes := h.ledger.bytes
  have hle := h.ledger.outstanding_tiles.2
  cases hout : s.segmentsOutstanding with
  | nil => rw [hout] at he; cases he
  | cons front rest =>
    rw [hout] at he hbytes
    cases he
    have hpos := h.ledger.positive e (h.ledger.last.subset (by rw [hout]; simp))
    have hrest := ((List.dropWhile_sublist (l := rest)
      (fun e => decide (e.1 + e.2.lengthInSequenceSpace ≤ s.receivedAckno ackno))).map
        seqLength).sum_le_sum (fun _ _ => Nat.zero_le _)
    rw [List.map_cons, List.sum_cons] at hbytes
    rw [leftInFlight, hout, List.dropWhile_cons_of_pos (by simpa using hend)]
    omega

/-! ### No work is left -/

/-- The sender has done what there is to do. -/
structure Diligent (s : TCPSender) : Prop extends Wound s where
  work : ¬ s.HasWork
  untouched : s.state = .closed →
    s.streamIn.bytesWritten = 0 ∧ s.streamIn.inputEnded = false

/-- A fresh sender owes nothing. -/
theorem new_diligent (capacity : Nat) (retxTimeout : UInt16) (isn : WrappingInt32) :
    Diligent (TCPSender.new capacity retxTimeout isn) where
  alarm := fun hopen => absurd rfl hopen
  initial_lt := retxTimeout.toNat_lt
  timeout := by
    have hlt := retxTimeout.toNat_lt
    refine ⟨0, ?_⟩
    show retxTimeout.toNat = retxTimeout.toNat * 2 ^ 0 % 2 ^ 32
    omega
  time := Or.inl rfl
  work := fun hwork => absurd hwork.1 (by simp [TCPSender.new])
  untouched := fun _ => ⟨rfl, rfl⟩

/-- The queue is of no account. -/
theorem Diligent.requeue (h : Diligent s) (queue : List TCPSegment) :
    Diligent { s with segmentsOut := queue } :=
  ⟨⟨h.alarm, h.initial_lt, h.timeout, h.time⟩, h.work, h.untouched⟩

/-- Nor is the error flag. -/
theorem Diligent.setError (h : Diligent s) :
    Diligent { s with streamIn := s.streamIn.setError } :=
  ⟨⟨h.alarm, h.initial_lt, h.timeout, h.time⟩, h.work, h.untouched⟩

/-- Whatever there was to do, filling the window does it. -/
theorem fillWindow_diligent (h : SenderInv W H s) (hopen : s.streamIn.endOutput = false)
    (hw : Wound s) : Diligent s.fillWindow := by
  refine ⟨fillWindow_wound hw, ?_, fun hclosed => absurd hclosed (fillWindow_opened h)⟩
  by_cases hclosed : s.state = .closed
  · rw [fillWindow, if_pos hclosed]
    exact fun hwork => absurd hwork.1 (by simp [sendSynSegment])
  · exact fillWindow_not_hasWork h hopen hclosed

/-- An acknowledgment that frees the window makes the sender fill it at once, so no work is left
    over. -/
theorem ackReceived_diligent (h : SenderInv W H s) (hopen : s.streamIn.endOutput = false)
    (hd : Diligent s) (ackno : WrappingInt32) (window : UInt16) :
    Diligent (s.ackReceived ackno window) := by
  by_cases hacc : s.accepts ackno = true
  · refine ⟨ackReceived_wound h hd.toWound ackno window, ?_, fun hclosed => ?_⟩
    · rw [ackReceived, if_pos hacc]
      dsimp only
      have hsettled := acknowledge_settled h ((accepts_iff s ackno).mp hacc).1 window
      split
      · -- the window is filled after the acknowledgment, so nothing is left to send
        rename_i hacked
        exact fillWindow_not_hasWork hsettled.inv (by rw [hsettled.stream, hopen])
          (by simp [hacked])
      · rename_i hnot
        exact fun hwork => hnot hwork.1
    · -- the stream of a sender that has sent nothing is left alone
      have hold := (ackReceived_phase h ackno window).1.mp hclosed
      have hsettled := acknowledge_settled h ((accepts_iff s ackno).mp hacc).1 window
      have hstate : (s.acknowledge (s.receivedAckno ackno) window).state = .closed := by
        rw [acknowledge_state h ((accepts_iff s ackno).mp hacc).1, if_neg (by simp [hold]), hold]
      have hsame : (s.ackReceived ackno window).streamIn = s.streamIn := by
        rw [ackReceived, if_pos hacc]
        dsimp only
        rw [if_neg (by simp [hstate]), hsettled.stream]
      rw [hsame]
      exact hd.untouched hold
  · rw [ackReceived, if_neg hacc]
    exact hd

/-- A tick changes neither the window nor the stream, so no work comes from it. -/
theorem tick_diligent (hd : Diligent s) (ms : Nat) : Diligent (s.tick ms) := by
  obtain ⟨-, hstream, -, -, hbytes, hstate, hwindow, -⟩ := s.tick_cases ms
  refine ⟨tick_wound hd.toWound ms, fun hwork => hd.work ?_, fun hclosed => ?_⟩
  · obtain ⟨hacked, hroom, hsome⟩ := hwork
    rw [hstate] at hacked
    rw [hbytes, fillSize, hwindow] at hroom
    rw [hstream] at hsome
    exact ⟨hacked, hroom, hsome⟩
  · rw [hstate] at hclosed
    rw [hstream]
    exact hd.untouched hclosed

end TCPSender

namespace TCPConnection

open TCPSender

variable {c d : TCPConnection} {W W' : List UInt8} {H new : List (Nat × TCPSegment)}

/-- The RST takes a segment out of the sender's queue; nothing else of the sender changes. -/
theorem sendRstSegment_sender (c : TCPConnection) :
    ∃ queue, c.sendRstSegment.sender = { c.sender with segmentsOut := queue } := by
  unfold sendRstSegment
  dsimp only
  split <;> exact ⟨_, rfl⟩

/-- What a tick does to the sender of an active connection: it ticks, and the connection is given
    up if that was the last retransmission it is willing to make. -/
theorem tick_sender (hactive : c.active = true) (ms : Nat) :
    (∃ queue, (c.tick ms).sender = { c.sender.tick ms with segmentsOut := queue }) ∨
      ∃ queue, (c.tick ms).sender = { c.sender.tick ms with
        segmentsOut := queue, streamIn := (c.sender.tick ms).streamIn.setError } := by
  rw [tick, if_neg (by simp [hactive])]
  dsimp only
  split
  · obtain ⟨queue, hqueue⟩ := sendRstSegment_sender { c with
      timeSinceLastSegmentReceived := (c.timeSinceLastSegmentReceived + ms).bmod (2 ^ 32)
      sender := { c.sender.tick ms with segmentsOut := (c.sender.tick ms).segmentsOut.tail } }
    refine Or.inr ⟨queue, ?_⟩
    rw [killConnection]
    dsimp only
    rw [hqueue]
  · refine Or.inl ⟨[], ?_⟩
    rw [(tryCleanShutdown_frame _).1]
    rfl

/-- The sender after a segment without RST has been handed to both sides. -/
theorem deliver_diligent (h : Inv c) (hd : Diligent c.sender) (seg : TCPSegment) :
    Diligent (c.deliver seg).sender := by
  obtain ⟨W, H, hinv⟩ := h.sender
  rw [deliver]
  dsimp only
  split
  · exact ackReceived_diligent hinv h.output_open hd _ _
  · exact hd

/-- **Step lemma.**  No call leaves work undone. -/
theorem apply_diligent (h : Inv c) (hd : Diligent c.sender) (op : ConnectionOp) :
    Diligent (c.apply op).sender := by
  -- whatever happens to the stream before, filling the window comes last
  have hsend : ∀ c : TCPConnection, Inv c → Wound c.sender → Diligent c.sendSegment.sender := by
    intro c h hw
    obtain ⟨W, H, hinv⟩ := h.sender
    exact (fillWindow_diligent hinv h.output_open hw).requeue []
  have hw := hd.toWound
  cases op with
  | connect => exact hsend c h hw
  | write data => exact hsend _ (h.written data) ⟨hw.alarm, hw.initial_lt, hw.timeout, hw.time⟩
  | endInputStream =>
    exact hsend _ h.inputEnded ⟨hw.alarm, hw.initial_lt, hw.timeout, hw.time⟩
  | tick ms =>
    rw [TCPConnection.apply]
    by_cases hactive : c.active = true
    · rcases tick_sender hactive ms with ⟨queue, hs⟩ | ⟨queue, hs⟩
      · rw [hs]
        exact (tick_diligent hd ms).requeue queue
      · rw [hs]
        exact ((tick_diligent hd ms).requeue queue).setError
    · rw [tick_of_inactive (by simpa using hactive)]
      exact hd
  | segmentReceived seg =>
    rw [TCPConnection.apply]
    by_cases hactive : c.active = true
    swap
    · rw [segmentReceived_of_inactive (by simpa using hactive)]
      exact hd
    by_cases hrst : seg.header.rst = true
    · rw [segmentReceived_of_rst hactive hrst]
      exact hd.setError
    · have hcore := h.toCore.deliver seg
      have hdelivered := deliver_diligent h hd seg
      rw [segmentReceived_eq hactive (by simpa using hrst), (respond_sides hcore hactive seg).2]
      split
      · exact hdelivered
      · obtain ⟨W, H, hinv⟩ := hcore.sender
        exact (fillWindow_diligent hinv hcore.output_open hdelivered.toWound).requeue []
  | read len => exact hd
  | pop len => exact hd
  | popSegment => exact hd

/-! ### The timer between two ticks -/

/-- What an active connection does with a segment without RST after both sides have got it moves
    neither the timer nor the left edge. -/
theorem segmentReceived_frame (h : Inv c) (hactive : c.active = true) (seg : TCPSegment)
    (hrst : seg.header.rst = false) :
    (c.segmentReceived seg).sender.remainingTime = (c.deliver seg).sender.remainingTime ∧
      (c.segmentReceived seg).sender.lowEdge = (c.deliver seg).sender.lowEdge := by
  have hcore := h.toCore.deliver seg
  rw [segmentReceived_eq hactive hrst, (respond_sides hcore hactive seg).2]
  split
  · exact ⟨rfl, rfl⟩
  · obtain ⟨W, H, hinv⟩ := hcore.sender
    obtain ⟨new, hf⟩ := fillWindow_filled hinv
    exact ⟨fillWindow_time _, hf.edge⟩

/-- **Between two ticks** the timer is left alone, unless an acknowledgment moves the left edge of
    what is outstanding. -/
theorem apply_time (h : Inv c) {op : ConnectionOp} (hop : ∀ ms, op ≠ .tick ms) :
    (c.apply op).sender.remainingTime = c.sender.remainingTime ∨
      c.sender.lowEdge < (c.apply op).sender.lowEdge := by
  cases op with
  | tick ms => exact absurd rfl (hop ms)
  | connect => exact Or.inl (fillWindow_time _)
  | write data => exact Or.inl (fillWindow_time _)
  | endInputStream => exact Or.inl (fillWindow_time _)
  | read len => exact Or.inl rfl
  | pop len => exact Or.inl rfl
  | popSegment => exact Or.inl rfl
  | segmentReceived seg =>
    rw [TCPConnection.apply]
    by_cases hactive : c.active = true
    swap
    · rw [segmentReceived_of_inactive (by simpa using hactive)]
      exact Or.inl rfl
    by_cases hrst : seg.header.rst = true
    · rw [segmentReceived_of_rst hactive hrst]
      exact Or.inl rfl
    obtain ⟨htime, hedge⟩ := segmentReceived_frame h hactive seg (by simpa using hrst)
    obtain ⟨W, H, hinv⟩ := h.sender
    rw [htime, hedge, deliver]
    dsimp only
    by_cases hack : seg.header.ack = true
    · rw [if_pos hack]
      -- an acknowledgment sets the counter back just when it moves the left edge
      by_cases hremoves : c.sender.removes seg.header.ackno = true
      · exact Or.inr (ackReceived_edge_lt hinv hremoves _)
      · refine Or.inl ?_
        by_cases hacc : c.sender.accepts seg.header.ackno = true
        · rw [(ackReceived_timer hacc _).2.2.2.1, if_neg hremoves]
        · rw [ackReceived, if_neg hacc]
    · rw [if_neg hack]
      exact Or.inl rfl

/-! ### What is never taken back -/

/-- `d` comes after `c` in a run. -/
structure Advances (c d : TCPConnection) : Prop where
  next_le : c.sender.nextSeqnoAbsolute ≤ d.sender.nextSeqnoAbsolute
  edge_le : c.sender.lowEdge ≤ d.sender.lowEdge
  written_le : c.sender.streamIn.bytesWritten ≤ d.sender.streamIn.bytesWritten
  ended : c.sender.streamIn.inputEnded = true → d.sender.streamIn.inputEnded = true
  receiver : c.receiver.Onward d.receiver

/-- What one step of a connection does to its sender only adds to what was reached before. -/
theorem Works.advances (h : SenderInv W H c.sender) (hw : Works W H c W' new d) :
    Advances c d where
  next_le := hw.sender.next_le h.ledger
  edge_le := le_of_eq hw.sender.edge.symm
  written_le := by
    obtain ⟨more, hmore, -⟩ := hw.sender.grows
    rw [h.written, hw.sender.inv.written, hmore, List.length_append]
    omega
  ended := hw.sender.ended
  receiver := by
    rcases hw.receiver with hr | hr
    · rw [hr]
      exact .refl _
    · rw [hr]
      exact ⟨rfl, le_refl _, le_refl _, id, fun hl => ⟨hl, rfl⟩⟩

/-- **Step lemma.** -/
theorem apply_advances (h : Inv c) (op : ConnectionOp) : Advances c (c.apply op) := by
  obtain ⟨W, H, hinv⟩ := h.sender
  -- reading only moves the receiver
  have hreader : ∀ op : ReceiverOp, Advances c { c with receiver := c.receiver.apply op } :=
    fun op => ⟨le_refl _, le_refl _, le_refl _, id, c.receiver.apply_onward op⟩
  cases op with
  | connect =>
    obtain ⟨new, hworks⟩ := connect_works hinv
    exact hworks.advances hinv
  | write data =>
    obtain ⟨new, hworks⟩ := write_works hinv data
    exact hworks.advances hinv
  | endInputStream =>
    obtain ⟨new, hworks⟩ := endInputStream_works hinv
    have hafter := hworks.advances (endInput_inv hinv)
    exact ⟨hafter.next_le, hafter.edge_le, hafter.written_le, fun _ => hafter.ended rfl,
      hafter.receiver⟩
  | tick ms => exact (tick_works hinv ms).advances hinv
  | segmentReceived seg =>
    rw [TCPConnection.apply]
    by_cases hactive : c.active = true
    swap
    · rw [segmentReceived_of_inactive (by simpa using hactive)]
      exact ⟨le_refl _, le_refl _, le_refl _, id, .refl _⟩
    by_cases hrst : seg.header.rst = true
    · rw [segmentReceived_of_rst hactive hrst]
      exact (killConnection_works hinv).advances hinv
    · obtain ⟨s, new, hs, hworks⟩ := segmentReceived_works hinv seg hactive (by simpa using hrst)
      have hreceived := c.receiver.apply_onward (.segmentReceived seg)
      -- without an acknowledgment the sender stays where it is before the answer
      rcases hs with rfl | ⟨-, hsettled⟩
      · have hafter := Works.advances
          (c := { c with receiver := c.receiver.segmentReceived seg }) hinv hworks
        exact ⟨hafter.next_le, hafter.edge_le, hafter.written_le, hafter.ended,
          hreceived.trans hafter.receiver⟩
      · -- the acknowledgment is settled first
        have hafter := hworks.advances hsettled.inv
        have hnext := hafter.next_le
        have hwritten := hafter.written_le
        have hended := hafter.ended
        dsimp only at hnext hwritten hended
        rw [hsettled.next] at hnext
        rw [hsettled.stream] at hwritten hended
        exact ⟨hnext, hsettled.edge_ge.trans hafter.edge_le, hwritten, hended,
          hreceived.trans hafter.receiver⟩
  | read len => exact hreader (.read len)
  | pop len => exact hreader (.popOutput len)
  | popSegment => exact ⟨le_refl _, le_refl _, le_refl _, id, .refl _⟩

end TCPConnection

end Sponge
