import Sponge.TCPConnection
import Sponge.SenderProgress

namespace Sponge

open TCPSender

/-!
# A connection at work

`Works` lifts `Proceeds` from a sender to its connection: besides the sender's progress it
says that the receiver is left alone, apart from its error flag, and that every segment the
connection puts into its own queue is a RST or one of the sender's listed segments, stamped
with the receiver's acknowledgment number and window.

Every operation of a connection is a case of it.  For an arriving segment
(`segmentReceived_works`) it starts from the sender after the acknowledgment has been settled
and from the receiver after the segment has been handed to it.
-/

namespace TCPConnection

/-- What a connection sends: a RST, or a listed segment with the receiver's stamp. -/
def Stamped (H : List (Nat × TCPSegment)) (s : TCPSender) (r : TCPReceiver)
    (seg : TCPSegment) : Prop :=
  seg.header.rst = true ∨ ∃ seg0, Listed H s seg0 ∧ seg = stamp r (clampedWindow r) seg0

/-- The connection `d` is `c` after some operations that send the segments `new` for the first
    time. -/
structure Works (W : List UInt8) (H : List (Nat × TCPSegment)) (c : TCPConnection)
    (W' : List UInt8) (new : List (Nat × TCPSegment)) (d : TCPConnection) : Prop where
  sender : Proceeds W H c.sender W' new d.sender
  ended : d.sender.streamIn.inputEnded = c.sender.streamIn.inputEnded
  cfg : d.cfg = c.cfg
  receiver : d.receiver = c.receiver ∨ d.receiver = c.receiver.setError
  sent : ∃ out, d.segmentsOut = c.segmentsOut ++ out ∧
    (QueueListed H c.sender → ∀ seg ∈ out, Stamped (H ++ new) d.sender d.receiver seg)

variable {W W' W'' : List UInt8} {H new new' : List (Nat × TCPSegment)} {c d b : TCPConnection}

/-- A segment that was right to send stays so while the sender goes on. -/
theorem Stamped.mono {s t : TCPSender} {r r' : TCPReceiver} {seg : TCPSegment}
    (h : Stamped H s r seg) (hnext : s.nextSeqnoAbsolute ≤ t.nextSeqnoAbsolute)
    (hisn : t.isn = s.isn) (hr : r' = r ∨ r' = r.setError) : Stamped (H ++ new) t r' seg := by
  rcases h with hrst | ⟨seg0, hlisted, rfl⟩
  · exact Or.inl hrst
  · refine Or.inr ⟨seg0, hlisted.mono hnext hisn, ?_⟩
    rcases hr with rfl | rfl <;> rfl

/-- Two operations after another are one piece of work. -/
theorem Works.trans (h1 : Works W H c W' new d) (h2 : Works W' (H ++ new) d W'' new' b) :
    Works W H c W'' (new ++ new') b := by
  constructor
  case sender => exact h1.sender.trans h2.sender
  case ended => exact h2.ended.trans h1.ended
  case cfg => exact h2.cfg.trans h1.cfg
  case receiver =>
    rcases h1.receiver with hd | hd <;> rcases h2.receiver with hb | hb <;> rw [hb, hd]
    · exact Or.inl rfl
    · exact Or.inr rfl
    · exact Or.inr rfl
    · exact Or.inr rfl
  case sent =>
    obtain ⟨out1, hout1, hs1⟩ := h1.sent
    obtain ⟨out2, hout2, hs2⟩ := h2.sent
    refine ⟨out1 ++ out2, by rw [hout2, hout1, List.append_assoc], fun hqueue seg hseg => ?_⟩
    rw [← List.append_assoc]
    rcases List.mem_append.mp hseg with hseg | hseg
    · exact (hs1 hqueue seg hseg).mono (h2.sender.next_le h1.sender.inv.ledger) h2.sender.isn
        h2.receiver
    · exact hs2 (h1.sender.queue hqueue) seg hseg

/-- A step that touches only the sender. -/
theorem works_of_sender (hs : Proceeds W H c.sender W' new d.sender)
    (hended : d.sender.streamIn.inputEnded = c.sender.streamIn.inputEnded)
    (hcfg : d.cfg = c.cfg) (hr : d.receiver = c.receiver)
    (hout : d.segmentsOut = c.segmentsOut) : Works W H c W' new d :=
  ⟨hs, hended, hcfg, Or.inl hr, [], by rw [hout, List.append_nil],
    fun _ _ hseg => absurd hseg (by simp)⟩

/-- A step that touches neither side. -/
theorem works_of_same (h : SenderInv W H c.sender) (hs : d.sender = c.sender)
    (hcfg : d.cfg = c.cfg) (hr : d.receiver = c.receiver)
    (hout : d.segmentsOut = c.segmentsOut) : Works W H c W [] d :=
  works_of_sender (by rw [hs]; exact proceeds_refl h) (by rw [hs]) hcfg hr hout

/-- **What `try_clean_shutdown` can do**: stop the connection from lingering, end it, or nothing. -/
theorem tryCleanShutdown_cases (c : TCPConnection) :
    (c.inboundStream.inputEnded = true ∧ c.sender.stateSummary = .synAcked ∧
        c.tryCleanShutdown = { c with lingerAfterStreamsFinish := false }) ∨
      (c.inboundStream.inputEnded = true ∧ c.sender.stateSummary = .finAcked ∧
        (c.lingerAfterStreamsFinish = false ∨
          c.timeSinceLastSegmentReceived ≥ 10 * (c.cfg.rtTimeout.toNat : Int)) ∧
        c.tryCleanShutdown = { c with actived := false }) ∨
      (c.tryCleanShutdown = c ∧ (c.inboundStream.inputEnded = true →
        c.sender.stateSummary ≠ .synAcked ∧ (c.sender.stateSummary = .finAcked →
          ¬ (c.lingerAfterStreamsFinish = false ∨
            c.timeSinceLastSegmentReceived ≥ 10 * (c.cfg.rtTimeout.toNat : Int))))) := by
  unfold tryCleanShutdown
  by_cases hend : c.inboundStream.inputEnded = true
  swap
  · exact Or.inr (Or.inr ⟨by rw [if_neg hend], fun he => absurd he hend⟩)
  rw [if_pos hend]
  by_cases hacked : c.sender.stateSummary = .synAcked
  · exact Or.inl ⟨hend, hacked, by rw [if_pos hacked]⟩
  rw [if_neg hacked]
  by_cases hfin : c.sender.stateSummary = .finAcked
  swap
  · exact Or.inr (Or.inr ⟨by rw [if_neg hfin], fun _ => ⟨hacked, fun hf => absurd hf hfin⟩⟩)
  rw [if_pos hfin]
  by_cases hclose : (!c.lingerAfterStreamsFinish ||
      c.timeSinceLastSegmentReceived ≥ 10 * (c.cfg.rtTimeout.toNat : Int)) = true
  · exact Or.inr (Or.inl ⟨hend, hfin, by simpa using hclose, by rw [if_pos hclose]⟩)
  · exact Or.inr (Or.inr ⟨by rw [if_neg hclose], fun _ => ⟨hacked, fun _ => by simpa using hclose⟩⟩)

/-- The checks at the end of a step look at the streams and set flags; they send nothing. -/
theorem tryCleanShutdown_frame (c : TCPConnection) :
    c.tryCleanShutdown.sender = c.sender ∧ c.tryCleanShutdown.cfg = c.cfg ∧
      c.tryCleanShutdown.receiver = c.receiver ∧
      c.tryCleanShutdown.segmentsOut = c.segmentsOut := by
  obtain ⟨-, -, hc⟩ | ⟨-, -, -, hc⟩ | ⟨hc, -⟩ := c.tryCleanShutdown_cases <;> rw [hc] <;>
    exact ⟨rfl, rfl, rfl, rfl⟩

/-- The flags are no part of the work. -/
theorem tryCleanShutdown_works (h : SenderInv W H c.sender) :
    Works W H c W [] c.tryCleanShutdown :=
  works_of_same h c.tryCleanShutdown_frame.1 c.tryCleanShutdown_frame.2.1
    c.tryCleanShutdown_frame.2.2.1 c.tryCleanShutdown_frame.2.2.2

/-- Filling the window is the sender's own progress, which the connection has not fetched yet. -/
theorem fillWindow_works (h : SenderInv W H c.sender) :
    ∃ new, Works W H c W new { c with sender := c.sender.fillWindow } := by
  obtain ⟨new, hf⟩ := fillWindow_filled h
  exact ⟨new, works_of_sender (hf.proceeds h) hf.ended rfl rfl rfl⟩

/-- What the sender has queued is stamped and put into the connection's queue. -/
theorem fetchSegment_works (h : SenderInv W H c.sender) : Works W H c W [] c.fetchSegment := by
  refine ⟨dequeue_proceeds h (List.nil_subset _), rfl, rfl, Or.inl rfl, _, rfl,
    fun hqueue seg hseg => ?_⟩
  obtain ⟨seg0, hseg0, rfl⟩ := List.mem_map.mp hseg
  exact Or.inr ⟨seg0, (hqueue seg0 hseg0).mono (le_refl _) rfl, rfl⟩

/-- The window is filled and the queue is fetched. -/
theorem sendSegment_works (h : SenderInv W H c.sender) :
    ∃ new, Works W H c W new c.sendSegment := by
  obtain ⟨new, hfill⟩ := fillWindow_works h
  exact ⟨new ++ [], hfill.trans (fetchSegment_works hfill.sender.inv)⟩

/-- A reset touches the error flags and nothing that was sent. -/
theorem killConnection_works (h : SenderInv W H c.sender) : Works W H c W [] c.killConnection :=
  ⟨setError_proceeds h, rfl, rfl, Or.inr rfl, [], (List.append_nil _).symm,
    fun _ _ hseg => absurd hseg (by simp)⟩

/-- The RST takes the front of the sender's queue; the rest of it stays listed. -/
theorem sendRstSegment_works (h : SenderInv W H c.sender) : Works W H c W [] c.sendRstSegment := by
  unfold sendRstSegment
  dsimp only
  split
  · exact works_of_same h rfl rfl rfl rfl
  · rename_i front rest hqueue
    have happend : c.sender.segmentsOut ++ [{ header := { seqno := c.sender.nextSeqno } }]
        = front :: rest := hqueue
    refine ⟨?_, rfl, rfl, Or.inl rfl, _, rfl, fun _ seg hseg => Or.inl ?_⟩
    · refine proceeds_of_same (h.of_same rfl rfl rfl rfl rfl rfl) rfl rfl rfl rfl rfl rfl rfl ?_
      intro hlisted seg hseg
      change seg ∈ rest at hseg
      cases hout : c.sender.segmentsOut with
      | nil =>
        -- the empty segment itself became the RST
        rw [hout] at happend
        cases happend
        exact absurd hseg (by simp)
      | cons first others =>
        -- an older segment became the RST, and the empty one is left in the queue
        have hfirst := hlisted first (by rw [hout]; simp)
        rw [hout] at happend
        cases happend
        rcases List.mem_append.mp hseg with hseg | hseg
        · exact hlisted seg (by rw [hout]; simp [hseg])
        · exact Or.inr ⟨_, hfirst.next_pos h, le_refl _, List.mem_singleton.mp hseg⟩
    · rw [List.mem_singleton.mp hseg, stamp]
      split <;> rfl

/-- Connecting is sending the first segment. -/
theorem connect_works (h : SenderInv W H c.sender) : ∃ new, Works W H c W new c.connect :=
  sendSegment_works h

/-- A write adds what the outbound stream takes to what was written, and sends what the window
    allows. -/
theorem write_works (h : SenderInv W H c.sender) (data : List UInt8) :
    ∃ new, Works W H c (W ++ data.take (c.write data).1) new (c.write data).2 := by
  have hwrite : Works W H c (W ++ data.take (c.sender.streamIn.write data).1) []
      { c with sender := { c.sender with streamIn := (c.sender.streamIn.write data).2 } } :=
    works_of_sender (write_proceeds h data) (ByteStream.write_inputEnded _ _) rfl rfl rfl
  obtain ⟨new, hsend⟩ := sendSegment_works hwrite.sender.inv
  exact ⟨[] ++ new, hwrite.trans hsend⟩

/-- Ending the input: the connection works on from the closed stream. -/
theorem endInputStream_works (h : SenderInv W H c.sender) :
    ∃ new, Works W H
      { c with sender := { c.sender with streamIn := c.sender.streamIn.endInput } } W new
        c.endInputStream :=
  sendSegment_works (endInput_inv h)

/-- **A tick** sends nothing for the first time: only copies, or the RST that gives the connection
    up. -/
theorem tick_works (h : SenderInv W H c.sender) (ms : Nat) : Works W H c W [] (c.tick ms) := by
  unfold tick
  by_cases hactive : c.active = false
  · rw [if_pos hactive]
    exact works_of_same h rfl rfl rfl rfl
  · rw [if_neg hactive]
    have htick : Works W H c W []
        { c with
          timeSinceLastSegmentReceived := (c.timeSinceLastSegmentReceived + ms).bmod (2 ^ 32)
          sender := c.sender.tick ms } :=
      works_of_sender (tick_proceeds h ms) (by rw [(c.sender.tick_cases ms).2.1]) rfl rfl rfl
    dsimp only
    split
    · -- too many retransmissions: the copy just queued is dropped and a RST sent
      have htail := htick.trans (works_of_sender
        (d := { c with
          timeSinceLastSegmentReceived := (c.timeSinceLastSegmentReceived + ms).bmod (2 ^ 32)
          sender := { c.sender.tick ms with segmentsOut := (c.sender.tick ms).segmentsOut.tail } })
        (dequeue_proceeds htick.sender.inv (fun _ hseg => List.mem_of_mem_tail hseg)) rfl
        rfl rfl rfl)
      have hrst := htail.trans (sendRstSegment_works htail.sender.inv)
      exact hrst.trans (killConnection_works hrst.sender.inv)
    · -- the copy that a timeout has queued is fetched
      have hfetch := htick.trans (fetchSegment_works htick.sender.inv)
      exact hfetch.trans (tryCleanShutdown_works hfetch.sender.inv)

/-- The answer is an empty segment at most, from a sender that has sent its SYN. -/
theorem answer_works (h : SenderInv W H c.sender) (hpos : 1 ≤ c.sender.nextSeqnoAbsolute)
    (seg : TCPSegment) : Works W H c W [] (c.answer seg) := by
  have hempty : Works W H c W [] { c with sender := c.sender.sendEmptySegment } :=
    works_of_sender (sendEmptySegment_proceeds h hpos) rfl rfl rfl rfl
  have hsame : Works W H c W [] c := works_of_same h rfl rfl rfl rfl
  unfold answer
  split
  · split
    · exact hempty
    · exact hsame
  · split
    · split
      · exact hempty
      · exact hsame
    · exact hsame

/-- A sender that has filled its window has sent its SYN. -/
theorem fillWindow_next_pos {s : TCPSender} (h : SenderInv W H s) :
    1 ≤ s.fillWindow.nextSeqnoAbsolute := by
  obtain ⟨new, hf⟩ := fillWindow_filled h
  have hnext := hf.inv.next_eq
  rw [if_pos (fillWindow_opened h)] at hnext
  omega

/-- The rest of `segment_received`: fill the window, answer, and send. -/
theorem respond_works (h : SenderInv W H c.sender) (seg : TCPSegment) :
    ∃ new, Works W H c W new (c.respond seg) := by
  unfold respond
  split
  · -- no SYN has arrived yet
    exact ⟨[], works_of_same h rfl rfl rfl rfl⟩
  · -- shutdown, fill, answer, fetch, shutdown: five steps, one after the other
    have hclean := tryCleanShutdown_works (c := c) h
    dsimp only
    generalize c.tryCleanShutdown = c1 at hclean ⊢
    obtain ⟨new, hfill⟩ := fillWindow_works (c := c1) (H := H ++ []) hclean.sender.inv
    have hpos : 1 ≤ c1.sender.fillWindow.nextSeqnoAbsolute := fillWindow_next_pos hclean.sender.inv
    have h2 := hclean.trans hfill
    have h3 := h2.trans
      (answer_works (by rw [← List.append_assoc]; exact hfill.sender.inv) hpos seg)
    have h4 := h3.trans (fetchSegment_works h3.sender.inv)
    exact ⟨_, h4.trans (tryCleanShutdown_works h4.sender.inv)⟩

/-- **The acknowledgment of an arriving segment**: nothing happens, or it is settled and the
    window is filled. -/
theorem ackReceived_proceeds {s : TCPSender} (h : SenderInv W H s) (seg : TCPSegment) :
    ∃ t new, (t = s ∨ (seg.header.ack = true ∧
        Settled W H (s.receivedAckno seg.header.ackno) seg.header.win s t)) ∧
      Proceeds W H t W new
        (if seg.header.ack then s.ackReceived seg.header.ackno seg.header.win else s) ∧
      (if seg.header.ack then s.ackReceived seg.header.ackno seg.header.win
        else s).streamIn.inputEnded = t.streamIn.inputEnded := by
  by_cases hack : seg.header.ack = true
  · rw [if_pos hack]
    rcases ackReceived_cases h seg.header.ackno seg.header.win with
      ⟨-, hsame⟩ | ⟨-, t, new, ht, hf⟩
    · rw [hsame]
      exact ⟨s, [], Or.inl rfl, proceeds_refl h, rfl⟩
    · exact ⟨t, new, Or.inr ⟨hack, ht⟩, hf.proceeds ht.inv, hf.ended⟩
  · rw [if_neg hack]
    exact ⟨s, [], Or.inl rfl, proceeds_refl h, rfl⟩

/-- Both sides have got the segment, and the connection has not looked at it yet. -/
def deliver (c : TCPConnection) (seg : TCPSegment) : TCPConnection :=
  { c with
    timeSinceLastSegmentReceived := 0
    sender := if seg.header.ack then c.sender.ackReceived seg.header.ackno seg.header.win
      else c.sender
    receiver := c.receiver.segmentReceived seg }

/-- `segment_received` in an active connection, for a segment without RST. -/
theorem segmentReceived_eq {seg : TCPSegment} (hactive : c.active = true)
    (hrst : seg.header.rst = false) :
    c.segmentReceived seg = (c.deliver seg).respond seg := by
  rw [segmentReceived, hactive, hrst, deliver]
  unfold receiveAck
  cases seg.header.ack <;> rfl

/-- An inactive connection does not look at a segment. -/
theorem segmentReceived_of_inactive (hinactive : c.active = false) (seg : TCPSegment) :
    c.segmentReceived seg = c := by
  rw [segmentReceived, hinactive]
  rfl

/-- A RST ends an active connection. -/
theorem segmentReceived_of_rst {seg : TCPSegment} (hactive : c.active = true)
    (hrst : seg.header.rst = true) : c.segmentReceived seg = c.killConnection := by
  rw [segmentReceived, hactive, hrst]
  rfl

/-- Nor does time pass for it. -/
theorem tick_of_inactive (hinactive : c.active = false) (ms : Nat) : c.tick ms = c := by
  rw [tick, if_pos hinactive]

/-- **An arriving segment**, in an active connection and without RST.  The sender settles the
    acknowledgment first; from there on, with the segment handed to the receiver, the
    connection works. -/
theorem segmentReceived_works (h : SenderInv W H c.sender) (seg : TCPSegment)
    (hactive : c.active = true) (hrst : seg.header.rst = false) :
    ∃ s new, (s = c.sender ∨ (seg.header.ack = true ∧
        Settled W H (c.sender.receivedAckno seg.header.ackno) seg.header.win c.sender s)) ∧
      Works W H { c with sender := s, receiver := c.receiver.segmentReceived seg } W new
        (c.segmentReceived seg) := by
  obtain ⟨s, new, hs, hp, hended⟩ := ackReceived_proceeds h seg
  rw [segmentReceived_eq hactive hrst]
  -- the first step is the sender's, in `ack_received`; `respond` takes it from there
  have hfirst : Works W H { c with sender := s, receiver := c.receiver.segmentReceived seg } W new
      (c.deliver seg) := works_of_sender hp hended rfl rfl rfl
  obtain ⟨new', hrest⟩ := respond_works hfirst.sender.inv seg
  exact ⟨s, new ++ new', hs, hfirst.trans hrest⟩

end TCPConnection

end Sponge
