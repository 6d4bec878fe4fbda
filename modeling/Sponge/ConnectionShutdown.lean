import Sponge.ConnectionProgress
import Sponge.SenderWork

namespace Sponge

open TCPSender

/-!
# How a connection becomes inactive

A connection gives up with an error, in both streams at once, or it ends cleanly.  `Shut` is
the invariant behind that: a connection that is inactive without an error has a sender whose
FIN has been sent and acknowledged, and nothing the connection does later changes this.
-/

/-- The FIN has been sent, and everything is acknowledged. -/
def TCPSender.Finished (s : TCPSender) : Prop := s.state = .finSent ∧ s.bytesInFlight = 0

namespace TCPConnection

/-- The streams share their error flag, and an inactive connection has the error or has
    finished sending. -/
structure Shut (c : TCPConnection) : Prop where
  error_eq : c.sender.streamIn.error = c.receiver.streamOut.error
  inactive : c.actived = false → c.sender.streamIn.error = true ∨ c.sender.Finished

variable {W : List UInt8} {H : List (Nat × TCPSegment)} {c d : TCPConnection}

/-- The summary `FIN_ACKED` is what it says. -/
theorem finished_of_finAcked {s : TCPSender} (h : SenderInv W H s)
    (hsummary : s.stateSummary = .finAcked) : s.Finished ∧ s.nextSeqnoAbsolute = W.length + 2 := by
  rw [stateSummary_eq h (error_of_summary (by simp [hsummary]))] at hsummary
  have hphase := h.phase
  rw [Phase] at hphase
  cases hst : s.state <;> rw [hst] at hsummary hphase <;> simp only at hsummary hphase
  case finSent =>
    by_cases hzero : s.bytesInFlight = 0
    · exact ⟨⟨hst, hzero⟩, (h.finSent_all hst).2.2⟩
    · rw [if_neg hzero] at hsummary
      exact absurd hsummary (by simp)
  all_goals exact absurd hsummary (by simp)

/-- What `Shut` looks at has not changed. -/
theorem Shut.of_same (h : Shut c) (herror : d.sender.streamIn.error = c.sender.streamIn.error)
    (hreceiver : d.receiver.streamOut.error = c.receiver.streamOut.error)
    (hactive : d.actived = c.actived) (hfinished : c.sender.Finished → d.sender.Finished) :
    Shut d := by
  refine ⟨by rw [herror, hreceiver, h.error_eq], fun hinactive => ?_⟩
  rw [hactive] at hinactive
  rw [herror]
  rcases h.inactive hinactive with herr | hfin
  · exact Or.inl herr
  · exact Or.inr (hfinished hfin)

/-- A sender that has finished has nothing to fill a window with. -/
theorem fillWindow_finished {s : TCPSender} (h : s.Finished) : s.fillWindow.Finished := by
  rw [fillWindow_idle (by simp [h.1]) (by simp [h.1])]
  exact h

/-- A sender that has finished has nothing to fill the window with, so it stays finished. -/
theorem fillWindow_shut (h : SenderInv W H c.sender) (hs : Shut c) :
    Shut { c with sender := c.sender.fillWindow } := by
  obtain ⟨new, hf⟩ := fillWindow_filled h
  exact hs.of_same hf.error rfl rfl fillWindow_finished

/-- Nor does fetching the queue change anything. -/
theorem sendSegment_shut (h : SenderInv W H c.sender) (hs : Shut c) : Shut c.sendSegment :=
  (fillWindow_shut h hs).of_same rfl rfl rfl id

/-- A reset sets the error in both streams at once. -/
theorem killConnection_shut (c : TCPConnection) : Shut c.killConnection :=
  ⟨rfl, fun _ => Or.inl rfl⟩

/-- **The only clean end**: the flag is cleared when the FIN has been sent and acknowledged. -/
theorem tryCleanShutdown_shut (h : SenderInv W H c.sender) (hs : Shut c) :
    Shut c.tryCleanShutdown := by
  obtain ⟨-, -, hc⟩ | ⟨-, hsummary, -, hc⟩ | ⟨hc, -⟩ := c.tryCleanShutdown_cases <;> rw [hc]
  · exact hs.of_same rfl rfl rfl id
  · exact ⟨hs.error_eq, fun _ => Or.inr (finished_of_finAcked h hsummary).1⟩
  · exact hs

/-- A write cannot take the end back. -/
theorem write_shut (h : SenderInv W H c.sender) (hs : Shut c) (data : List UInt8) :
    Shut (c.write data).2 :=
  sendSegment_shut (write_inv h data) (hs.of_same (ByteStream.write_error _ _) rfl rfl id)

theorem endInputStream_shut (h : SenderInv W H c.sender) (hs : Shut c) : Shut c.endInputStream :=
  sendSegment_shut (endInput_inv h) (hs.of_same rfl rfl rfl id)

/-- A tick ends the connection with an error, with a clean shutdown, or not at all. -/
theorem tick_shut (h : SenderInv W H c.sender) (hs : Shut c) (ms : Nat) : Shut (c.tick ms) := by
  obtain ⟨-, h2, -, -, h5, h6, -⟩ := c.sender.tick_cases ms
  have htick : Shut { c with
      timeSinceLastSegmentReceived := (c.timeSinceLastSegmentReceived + ms).bmod (2 ^ 32)
      sender := c.sender.tick ms } := by
    refine hs.of_same (by rw [h2]) rfl rfl (fun hfin => ?_)
    exact ⟨h6.trans hfin.1, h5.trans hfin.2⟩
  unfold tick
  split
  · exact hs
  · dsimp only
    split
    · exact killConnection_shut _
    · refine tryCleanShutdown_shut (W := W) (H := H) ?_ (htick.of_same rfl rfl rfl id)
      exact (tick_inv h ms).of_same rfl rfl rfl rfl rfl rfl

/-- The answer to a segment touches only the queues. -/
theorem answer_shut (hs : Shut c) (seg : TCPSegment) : Shut (c.answer seg) := by
  unfold answer
  split
  · split
    · exact hs.of_same rfl rfl rfl id
    · exact hs
  · split
    · split
      · exact hs.of_same rfl rfl rfl id
      · exact hs
    · exact hs

/-- The rest of `segment_received` after the segment has been delivered. -/
theorem respond_shut (h : SenderInv W H c.sender) (hs : Shut c) (seg : TCPSegment) :
    Shut (c.respond seg) := by
  unfold respond
  split
  · exact hs
  · -- the look at the connection before the answer, the answer, and the look after it
    have hclean := tryCleanShutdown_shut h hs
    have hinv := (tryCleanShutdown_works h).sender.inv
    dsimp only
    generalize c.tryCleanShutdown = c1 at hclean hinv ⊢
    obtain ⟨new, hfill⟩ := fillWindow_works (c := c1) hinv
    have hanswer := answer_works hfill.sender.inv (fillWindow_next_pos hinv) seg
    have hfetch := fetchSegment_works hanswer.sender.inv
    refine tryCleanShutdown_shut hfetch.sender.inv ?_
    exact (answer_shut (fillWindow_shut hinv hclean) seg).of_same rfl rfl rfl id

/-- **An arriving segment keeps the invariant.** -/
theorem segmentReceived_shut (h : SenderInv W H c.sender) (hs : Shut c) (seg : TCPSegment) :
    Shut (c.segmentReceived seg) := by
  by_cases hactive : c.active = true
  swap
  · rw [segmentReceived_of_inactive (by simpa using hactive)]
    exact hs
  by_cases hrst : seg.header.rst = true
  · rw [segmentReceived_of_rst hactive hrst]
    exact killConnection_shut c
  rw [segmentReceived_eq hactive (by simpa using hrst)]
  -- an acknowledgment never ends the connection by itself
  obtain ⟨s, new, -, hproceeds, -⟩ := ackReceived_proceeds h seg
  have herror : (c.deliver seg).sender.streamIn.error = c.sender.streamIn.error := by
    rw [deliver]
    dsimp only
    split
    · exact ackReceived_error h _ _
    · rfl
  refine respond_shut (c := c.deliver seg) hproceeds.inv ⟨?_, fun hinactive => ?_⟩ seg
  · rw [herror, hs.error_eq]
    exact (c.receiver.segmentReceived_advances seg).2.2.1.symm
  · -- the connection is still active at this point
    exact absurd (hactive.symm.trans hinactive) (by simp)

end TCPConnection

end Sponge
