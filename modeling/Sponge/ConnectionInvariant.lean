import Sponge.ConnectionShutdown
import Sponge.ReceiverWindow
import Sponge.SenderWork
import Sponge.Lib.Run

namespace Sponge

open TCPSender

/-!
# Runs of a connection

A run is any sequence of calls on a fresh connection, with arbitrary arriving segments.  The
invariant `Inv` is built in three layers, following the points at which `try_clean_shutdown`
looks at the connection:

* `Core` holds at every point, also in the middle of `segment_received`: why a connection is
  inactive, and why it does not linger;
* `Checked` adds what holds after `try_clean_shutdown`, and is kept by everything that sends;
* `Inv` holds between two calls: a connection that has got a SYN has sent one.

`Checked.tryCleanShutdown_eq` says that a second look changes nothing, so the order in which the
code sends and looks plays no part in what follows.

`apply_receiver` says once what a call can do to the receiver; what the inbound stream keeps along a
run follows from it.
-/

/-- What every operation of a sender keeps, acknowledgments included. -/
structure TCPSender.Onward (s t : TCPSender) : Prop where
  inv : ∃ W H, SenderInv W H t
  output_open : t.streamIn.endOutput = s.streamIn.endOutput
  error : t.streamIn.error = s.streamIn.error
  finished : s.Finished → t.Finished
  past : s.state = .synAcked ∨ s.state = .finSent → t.state = .synAcked ∨ t.state = .finSent

namespace TCPSender

variable {W : List UInt8} {H : List (Nat × TCPSegment)} {s t u : TCPSender}

/-- What a step does not take back, two steps do not take back either. -/
theorem Onward.trans (h1 : Onward s t) (h2 : Onward t u) : Onward s u :=
  ⟨h2.inv, h2.output_open.trans h1.output_open, h2.error.trans h1.error,
    fun h => h2.finished (h1.finished h), fun h => h2.past (h1.past h)⟩

/-- A step that leaves the stream's flags, the state and the bytes in flight alone. -/
theorem onward_of_same (hinv : ∃ W H, SenderInv W H t)
    (hopen : t.streamIn.endOutput = s.streamIn.endOutput)
    (herror : t.streamIn.error = s.streamIn.error) (hstate : t.state = s.state)
    (hbytes : t.bytesInFlight = s.bytesInFlight) : Onward s t := by
  refine ⟨hinv, hopen, herror, fun hfin => ?_, fun hpast => ?_⟩
  · exact ⟨hstate.trans hfin.1, hbytes.trans hfin.2⟩
  · rw [hstate]
    exact hpast

/-- A step that touches the outbound queue only. -/
theorem requeue_onward (h : SenderInv W H s) (queue : List TCPSegment) :
    Onward s { s with segmentsOut := queue } :=
  onward_of_same ⟨W, H, h.of_same rfl rfl rfl rfl rfl rfl⟩ rfl rfl rfl rfl

/-- Filling the window moves the sender on. -/
theorem fillWindow_onward (h : SenderInv W H s) : Onward s s.fillWindow := by
  obtain ⟨new, hf⟩ := fillWindow_filled h
  refine ⟨⟨W, _, hf.inv⟩, fillWindow_endOutput s, hf.error, fun hfin => ?_, fun hpast => ?_⟩
  · exact (fillWindow_finished_iff h).mpr hfin
  · rcases hpast with hacked | hsent
    · exact fillWindow_state h hacked
    · exact Or.inr (hf.finished hsent)

/-- A tick does not move the sender back. -/
theorem tick_onward (h : SenderInv W H s) (ms : Nat) : Onward s (s.tick ms) := by
  obtain ⟨-, h2, -, -, h5, h6, -⟩ := s.tick_cases ms
  exact onward_of_same ⟨W, H, tick_inv h ms⟩ (by rw [h2]) (by rw [h2]) h6 h5

/-- With nothing in flight, nothing stays in flight. -/
theorem leftInFlight_le (h : SenderInv W H s) (A : Nat) : s.leftInFlight A ≤ s.bytesInFlight := by
  rw [leftInFlight, h.ledger.bytes]
  exact ((List.dropWhile_sublist _).map seqLength).sum_le_sum (fun _ _ => Nat.zero_le _)

/-- An acknowledgment moves the sender on, whatever it acknowledges. -/
theorem ackReceived_onward (h : SenderInv W H s) (ackno : WrappingInt32) (window : UInt16) :
    Onward s (s.ackReceived ackno window) := by
  have hstate := ackReceived_state h ackno window
  have hinv : ∃ W H, SenderInv W H (s.ackReceived ackno window) := by
    -- an acknowledgment that is not accepted changes nothing
    rcases ackReceived_cases h ackno window with ⟨-, hsame⟩ | ⟨-, t, new, -, hf⟩
    · exact ⟨W, H, by rw [hsame]; exact h⟩
    · exact ⟨W, _, hf.inv⟩
  refine ⟨hinv, ackReceived_endOutput h ackno window, ackReceived_error h ackno window,
    fun hfin => ?_, fun hpast => ?_⟩
  · -- after the FIN the window is not filled, and an acknowledgment puts nothing in flight
    refine ⟨hstate.2.2.2.2 hfin.1, ?_⟩
    unfold ackReceived
    split
    · rename_i hacc
      obtain ⟨hA, -⟩ := (accepts_iff s ackno).mp hacc
      have hkeep : (s.acknowledge (s.receivedAckno ackno) window).state = .finSent := by
        rw [acknowledge_state h hA, if_neg (by simp [hfin.1]), hfin.1]
      have hle := leftInFlight_le h (s.receivedAckno ackno)
      have hzero := hfin.2
      dsimp only
      rw [if_neg (by simp [hkeep]), acknowledge_bytesInFlight h hA]
      omega
    · exact hfin.2
  · rcases hpast with hacked | hsent
    · exact hstate.2.2.2.1 hacked
    · exact Or.inr (hstate.2.2.2.2 hsent)

end TCPSender

namespace TCPConnection

/-! ### The layers of the invariant -/

/-- What holds at every point. -/
structure Core (c : TCPConnection) : Prop where
  sender : ∃ W H, SenderInv W H c.sender
  output_open : c.sender.streamIn.endOutput = false
  error_eq : c.sender.streamIn.error = c.receiver.streamOut.error
  dead : c.sender.streamIn.error = true →
    c.actived = false ∧ c.lingerAfterStreamsFinish = false
  inactive : c.actived = false → c.sender.streamIn.error = true ∨
    (c.sender.Finished ∧ c.receiver.streamOut.inputEnded = true)
  linger : c.lingerAfterStreamsFinish = false → c.sender.streamIn.error = true ∨
    (c.receiver.streamOut.inputEnded = true ∧
      (c.sender.state = .synAcked ∨ c.sender.state = .finSent))
  listen : c.receiver.inListen = true → c.receiver.streamOut.inputEnded = false

/-- What holds once `try_clean_shutdown` has looked at the connection. -/
structure Checked (c : TCPConnection) : Prop extends Core c where
  cleared : c.sender.streamIn.error = false → c.receiver.streamOut.inputEnded = true →
    c.sender.state = .synAcked → c.lingerAfterStreamsFinish = false
  closed_iff : c.sender.streamIn.error = false → c.receiver.streamOut.inputEnded = true →
    c.sender.Finished → (c.actived = false ↔ c.lingerAfterStreamsFinish = false ∨
      c.timeSinceLastSegmentReceived ≥ 10 * (c.cfg.rtTimeout.toNat : Int))

/-- What holds between two calls. -/
structure Inv (c : TCPConnection) : Prop extends Checked c where
  opened : c.sender.streamIn.error = false → c.receiver.inListen = false →
    c.sender.state ≠ .closed

variable {c d : TCPConnection} {seg : TCPSegment}

/-- A fresh connection: the sender is closed, the receiver listens, and both streams are open. -/
theorem new_inv (cfg : TCPConfig) (randSender randReceiver : WrappingInt32) :
    Inv (new cfg randSender randReceiver) where
  sender := ⟨[], [], TCPSender.new_inv _ _ _⟩
  output_open := rfl
  error_eq := rfl
  dead := by simp [new, TCPSender.new, ByteStream.new]
  inactive := by simp [new]
  linger := by simp [new]
  listen := by simp [new, TCPReceiver.new, TCPReceiver.streamOut_eq, StreamReassembler.new,
    ByteStream.new]
  cleared := by simp [new, TCPSender.new]
  closed_iff := by simp [new, TCPSender.new, TCPSender.Finished]
  opened := by simp [new, TCPReceiver.new]

/-- An active connection has no error. -/
theorem Core.noError (h : Core c) (hactive : c.actived = true) :
    c.sender.streamIn.error = false := by
  by_contra herr
  have hdead := (h.dead (by simpa using herr)).1
  rw [hactive] at hdead
  exact absurd hdead (by simp)

/-- The peer's stream has ended, so its SYN has arrived. -/
theorem Core.heard (h : Core c) (hend : c.receiver.streamOut.inputEnded = true) :
    c.receiver.inListen = false := by
  by_contra hlisten
  have hopen := h.listen (by simpa using hlisten)
  rw [hend] at hopen
  exact absurd hopen (by simp)

/-- Without an error, a connection is active until both streams have ended. -/
theorem Core.active_of_going (h : Core c) (herror : c.sender.streamIn.error = false)
    (hgoing : ¬ (c.sender.Finished ∧ c.receiver.streamOut.inputEnded = true)) :
    c.actived = true := by
  by_contra hinactive
  rcases h.inactive (by simpa using hinactive) with herr | hboth
  · rw [herror] at herr
    exact absurd herr (by simp)
  · exact hgoing hboth

/-- Without an error, a connection would linger until the peer has ended its stream and our SYN is
    acknowledged. -/
theorem Core.linger_of_going (h : Core c) (herror : c.sender.streamIn.error = false)
    (hgoing : ¬ (c.receiver.streamOut.inputEnded = true ∧
      (c.sender.state = .synAcked ∨ c.sender.state = .finSent))) :
    c.lingerAfterStreamsFinish = true := by
  by_contra hlinger
  rcases h.linger (by simpa using hlinger) with herr | hboth
  · rw [herror] at herr
    exact absurd herr (by simp)
  · exact hgoing hboth

/-- A step of the sender keeps the core. -/
theorem Core.senderStep (h : Core c) (hs : Onward c.sender d.sender)
    (hr : d.receiver = c.receiver) (ha : d.actived = c.actived)
    (hl : d.lingerAfterStreamsFinish = c.lingerAfterStreamsFinish) : Core d where
  sender := hs.inv
  output_open := hs.output_open.trans h.output_open
  error_eq := by rw [hs.error, hr, h.error_eq]
  dead := by
    rw [hs.error, ha, hl]
    exact h.dead
  -- a finished sender stays finished
  inactive := by
    rw [ha, hs.error, hr]
    intro hina
    rcases h.inactive hina with herr | ⟨hfin, hend⟩
    · exact Or.inl herr
    · exact Or.inr ⟨hs.finished hfin, hend⟩
  linger := by
    rw [hl, hs.error, hr]
    intro hlin
    rcases h.linger hlin with herr | ⟨hend, hpast⟩
    · exact Or.inl herr
    · exact Or.inr ⟨hend, hs.past hpast⟩
  listen := by rw [hr]; exact h.listen

/-- A step of the receiver keeps the core: its stream does not reopen, and it does not get back to
    listening. -/
theorem Core.receiverStep (h : Core c) (hs : d.sender = c.sender)
    (ha : d.actived = c.actived)
    (hl : d.lingerAfterStreamsFinish = c.lingerAfterStreamsFinish)
    (herror : d.receiver.streamOut.error = c.receiver.streamOut.error)
    (hended : c.receiver.streamOut.inputEnded = true → d.receiver.streamOut.inputEnded = true)
    (hlisten : d.receiver.inListen = true → d.receiver.streamOut.inputEnded = false) : Core d where
  sender := by rw [hs]; exact h.sender
  output_open := by rw [hs]; exact h.output_open
  error_eq := by rw [hs, herror, h.error_eq]
  dead := by rw [hs, ha, hl]; exact h.dead
  -- a stream that has ended stays so
  inactive := by
    rw [ha, hs]
    intro hina
    rcases h.inactive hina with herr | ⟨hfin, hend⟩
    · exact Or.inl herr
    · exact Or.inr ⟨hfin, hended hend⟩
  linger := by
    rw [hl, hs]
    intro hlin
    rcases h.linger hlin with herr | ⟨hend, hpast⟩
    · exact Or.inl herr
    · exact Or.inr ⟨hended hend, hpast⟩
  listen := hlisten

/-- A step that sends keeps what has been checked, if it neither acknowledges the SYN nor the
    FIN. -/
theorem Checked.senderStep (h : Checked c) (hs : Onward c.sender d.sender)
    (hacked : d.sender.state = .synAcked → c.sender.state = .synAcked)
    (hfin : d.sender.Finished → c.sender.Finished)
    (hr : d.receiver = c.receiver) (ha : d.actived = c.actived)
    (hl : d.lingerAfterStreamsFinish = c.lingerAfterStreamsFinish)
    (ht : d.timeSinceLastSegmentReceived = c.timeSinceLastSegmentReceived)
    (hcfg : d.cfg = c.cfg) : Checked d where
  toCore := h.toCore.senderStep hs hr ha hl
  cleared := by
    rw [hs.error, hr, hl]
    exact fun herr hend hst => h.cleared herr hend (hacked hst)
  closed_iff := by
    rw [hs.error, hr, ha, hl, ht, hcfg]
    exact fun herr hend hf => h.closed_iff herr hend (hfin hf)

/-- The summary `FIN_ACKED` is what it says. -/
theorem Core.finAcked_iff (h : Core c) (herror : c.sender.streamIn.error = false) :
    c.sender.stateSummary = .finAcked ↔ c.sender.Finished := by
  obtain ⟨W, H, hinv⟩ := h.sender
  have hphase := hinv.phase
  rw [stateSummary_eq hinv herror, Finished]
  rw [Phase] at hphase
  cases hst : c.sender.state <;> rw [hst] at hphase <;> simp at hphase ⊢

/-- The summary of the sender, which is computed from counters, agrees with its own state. -/
theorem Core.synAcked_iff (h : Core c) (herror : c.sender.streamIn.error = false) :
    c.sender.stateSummary = .synAcked ↔ c.sender.state = .synAcked := by
  obtain ⟨W, H, hinv⟩ := h.sender
  have hphase := hinv.phase
  rw [stateSummary_eq hinv herror]
  rw [Phase] at hphase
  cases hst : c.sender.state <;> rw [hst] at hphase <;> simp at hphase ⊢
  split <;> simp

/-- The receiver listens as long as no SYN has arrived. -/
theorem listen_iff (herror : c.receiver.streamOut.error = false) :
    c.receiver.stateSummary = .listen ↔ c.receiver.inListen = true := by
  rw [TCPReceiver.stateSummary, if_neg (by simp [herror]), TCPReceiver.ackno]
  cases c.receiver.inListen <;> simp
  split <;> simp

/-- **The first look** of `try_clean_shutdown` at an active connection. -/
theorem tryCleanShutdown_checked (h : Core c) (hactive : c.actived = true) :
    Checked c.tryCleanShutdown := by
  have herror := h.noError hactive
  have hacked := h.synAcked_iff herror
  have hfin := h.finAcked_iff herror
  obtain ⟨hend, hst, hc⟩ | ⟨hend, hst, hwhy, hc⟩ | ⟨hc, hnot⟩ := c.tryCleanShutdown_cases <;>
    rw [hc]
  · -- the peer has ended first: no lingering
    have hstate := hacked.mp hst
    exact
      { h with
        dead := fun herr => absurd herr (by simp [herror])
        inactive := fun hina => absurd hina (by simp [hactive])
        linger := fun _ => Or.inr ⟨hend, Or.inl hstate⟩
        cleared := fun _ _ _ => rfl
        closed_iff := fun _ _ hf => absurd hf.1 (by simp [hstate]) }
  · -- the connection is over
    have hf := hfin.mp hst
    exact
      { h with
        dead := fun herr => absurd herr (by simp [herror])
        inactive := fun _ => Or.inr ⟨hf, hend⟩
        cleared := fun _ _ hs => absurd hs (by simp [hf.1])
        closed_iff := fun _ _ _ => ⟨fun _ => hwhy, fun _ => rfl⟩ }
  · -- `try_clean_shutdown` has found nothing to do
    exact
      { h with
        cleared := fun _ hend hs => absurd (hacked.mpr hs) (hnot hend).1
        closed_iff := fun _ hend hf =>
          ⟨fun hina => absurd hina (by simp [hactive]),
            fun hwhy => absurd hwhy ((hnot hend).2 (hfin.mpr hf))⟩ }

/-- **A second look changes nothing.** -/
theorem Checked.tryCleanShutdown_eq (h : Checked c) : c.tryCleanShutdown = c := by
  obtain ⟨hend, hst, hc⟩ | ⟨hend, hst, hwhy, hc⟩ | ⟨hc, -⟩ := c.tryCleanShutdown_cases
  · have herror : c.sender.streamIn.error = false := error_of_summary (by simp [hst])
    have hl := h.cleared herror hend ((h.synAcked_iff herror).mp hst)
    rw [hc, ← hl]
  · have herror : c.sender.streamIn.error = false := error_of_summary (by simp [hst])
    have hina := (h.closed_iff herror hend ((h.finAcked_iff herror).mp hst)).mpr hwhy
    rw [hc, ← hina]
  · exact hc

/-! ### The operations -/

/-- A call on a connection, the arrival of a segment, or its owner sending the segment at the front
    of the outbound queue. -/
inductive ConnectionOp where
  | connect
  | write (data : List UInt8)
  | endInputStream
  | tick (msSinceLastTick : Nat)
  | segmentReceived (seg : TCPSegment)
  /-- `inbound_stream().read(len)` -/
  | read (len : Nat)
  /-- `inbound_stream().pop_output(len)` -/
  | pop (len : Nat)
  /-- `segments_out().pop()` -/
  | popSegment
  deriving DecidableEq, Repr

/-- Execute a call. -/
def apply (c : TCPConnection) : ConnectionOp → TCPConnection
  | .connect => c.connect
  | .write data => (c.write data).2
  | .endInputStream => c.endInputStream
  | .tick ms => c.tick ms
  | .segmentReceived seg => c.segmentReceived seg
  | .read len => (c.read len).2
  | .pop len => c.popOutput len
  | .popSegment => { c with segmentsOut := c.segmentsOut.tail }

/-- The segments a call puts into the outbound queue. -/
def queues (c : TCPConnection) (op : ConnectionOp) : List TCPSegment :=
  (c.apply op).segmentsOut.drop c.segmentsOut.length

/-- The state after a sequence of calls on a fresh connection. -/
def run (cfg : TCPConfig) (randSender randReceiver : WrappingInt32) (ops : List ConnectionOp) :
    TCPConnection :=
  ops.foldl apply (new cfg randSender randReceiver)

/-- A receiver that still listens has not changed. -/
theorem segmentReceived_inListen (r : TCPReceiver) (seg : TCPSegment) :
    ((r.segmentReceived seg).inListen = true ↔ r.inListen = true ∧ seg.header.syn = false) ∧
      ((r.segmentReceived seg).inListen = true → r.segmentReceived seg = r) := by
  unfold TCPReceiver.segmentReceived
  cases hl : r.inListen <;> cases hsyn : seg.header.syn <;> simp [hl]

/-! ### Every operation keeps the invariant -/

/-- The common end of the calls that send: the window is filled and the queue is fetched. -/
theorem Checked.sendSegment (h : Checked c) : Inv c.sendSegment := by
  obtain ⟨W, H, hinv⟩ := h.sender
  have hfill := fillWindow_onward hinv
  obtain ⟨W', H', hinv'⟩ := hfill.inv
  obtain ⟨new, hf⟩ := fillWindow_filled hinv
  have hchecked : Checked c.sendSegment :=
    h.senderStep (hfill.trans (requeue_onward hinv' [])) hf.acked
      (fillWindow_finished_iff hinv).mp rfl rfl rfl rfl rfl
  exact { hchecked with opened := fun _ _ => fillWindow_opened hinv }

/-- The owner writes to the outbound stream; nothing is sent yet. -/
theorem Inv.written (h : Inv c) (data : List UInt8) : Inv { c with
    sender := { c.sender with streamIn := (c.sender.streamIn.write data).2 } } := by
  obtain ⟨W, H, hinv⟩ := h.sender
  have hchecked := h.toChecked.senderStep (d := { c with
    sender := { c.sender with streamIn := (c.sender.streamIn.write data).2 } })
    (onward_of_same ⟨_, _, write_inv hinv data⟩ (ByteStream.write_endOutput _ _)
      (ByteStream.write_error _ _) rfl rfl) id id rfl rfl rfl rfl rfl
  exact { hchecked with
    opened := fun herr => h.opened (by rw [← herr]; exact (ByteStream.write_error _ _).symm) }

/-- The owner ends the outbound stream; nothing is sent yet. -/
theorem Inv.inputEnded (h : Inv c) : Inv { c with
    sender := { c.sender with streamIn := c.sender.streamIn.endInput } } := by
  obtain ⟨W, H, hinv⟩ := h.sender
  have hchecked := h.toChecked.senderStep (d := { c with
    sender := { c.sender with streamIn := c.sender.streamIn.endInput } })
    (onward_of_same ⟨_, _, endInput_inv hinv⟩ rfl rfl rfl rfl) id id rfl rfl rfl rfl rfl
  exact { hchecked with opened := h.opened }

/-- A connection that is given up, whatever it was doing. -/
theorem killConnection_inv (hsender : ∃ W H, SenderInv W H c.sender)
    (hopen : c.sender.streamIn.endOutput = false)
    (hlisten : c.receiver.inListen = true → c.receiver.streamOut.inputEnded = false) :
    Inv c.killConnection where
  sender := by
    obtain ⟨W, H, hinv⟩ := hsender
    exact ⟨W, H, setError_inv hinv⟩
  output_open := hopen
  error_eq := rfl
  dead := fun _ => ⟨rfl, rfl⟩
  inactive := fun _ => Or.inl rfl
  linger := fun _ => Or.inl rfl
  listen := hlisten
  cleared := fun herr => absurd herr (by simp [killConnection, ByteStream.setError])
  closed_iff := fun herr => absurd herr (by simp [killConnection, ByteStream.setError])
  opened := fun herr => absurd herr (by simp [killConnection, ByteStream.setError])

/-- After a reset only the shape of the sender and the receiver is left to be kept. -/
theorem Core.kill (h : Core c) : Inv c.killConnection :=
  killConnection_inv h.sender h.output_open h.listen

/-- The RST is taken from the front of the sender's queue, which nothing else looks at. -/
theorem Core.sendRst (h : Core c) : Inv c.sendRstSegment.killConnection := by
  obtain ⟨W, H, hinv⟩ := h.sender
  unfold sendRstSegment
  dsimp only
  split
  · exact h.kill
  · exact killConnection_inv ⟨W, H, hinv.of_same rfl rfl rfl rfl rfl rfl⟩ h.output_open h.listen

/-- The checks at the end of a step set the two flags as the state of the streams asks for. -/
theorem tryCleanShutdown_inv (h : Core c) (hactive : c.actived = true)
    (hopened : c.receiver.inListen = false → c.sender.state ≠ .closed) :
    Inv c.tryCleanShutdown := by
  obtain ⟨hs, -, hr, -⟩ := c.tryCleanShutdown_frame
  exact { tryCleanShutdown_checked h hactive with
    opened := fun _ => by rw [hs, hr]; exact hopened }

/-- **A tick keeps the invariant**, also one that gives the connection up. -/
theorem Inv.tick (h : Inv c) (ms : Nat) : Inv (c.tick ms) := by
  by_cases hinactive : c.active = false
  · rw [tick_of_inactive hinactive]
    exact h
  · have hactive : c.actived = true := by simpa [active] using hinactive
    obtain ⟨W, H, hinv⟩ := h.sender
    have hticked := tick_inv hinv ms
    have hstate := (c.sender.tick_cases ms).2.2.2.2.2.1
    rw [TCPConnection.tick, if_neg hinactive]
    dsimp only
    split
    · -- too many retransmissions
      refine Core.sendRst (h.toCore.senderStep ?_ rfl rfl rfl)
      exact (tick_onward hinv ms).trans (requeue_onward hticked _)
    · refine tryCleanShutdown_inv (h.toCore.senderStep ?_ rfl rfl rfl) hactive ?_
      · exact (tick_onward hinv ms).trans (requeue_onward hticked [])
      · intro hlisten
        show (c.sender.tick ms).state ≠ .closed
        rw [hstate]
        exact h.opened (h.toCore.noError hactive) hlisten

/-- Receiver and sender take the segment; the flags are not looked at yet. -/
theorem Core.deliver (h : Core c) (seg : TCPSegment) : Core (c.deliver seg) := by
  obtain ⟨W, H, hinv⟩ := h.sender
  -- first the sender, then the receiver
  have hsender : Core { c with
      timeSinceLastSegmentReceived := 0
      sender := if seg.header.ack then c.sender.ackReceived seg.header.ackno seg.header.win
        else c.sender } := by
    refine h.senderStep ?_ rfl rfl rfl
    dsimp only
    split
    · exact ackReceived_onward hinv _ _
    · exact requeue_onward hinv _
  obtain ⟨-, -, herror, -, hended⟩ := c.receiver.segmentReceived_advances seg
  refine hsender.receiverStep rfl rfl rfl herror hended (fun hlisten => ?_)
  have hsame := (segmentReceived_inListen c.receiver seg).2 hlisten
  rw [TCPConnection.deliver] at hlisten ⊢
  dsimp only at hlisten ⊢
  rw [hsame] at hlisten ⊢
  exact h.listen hlisten

/-- The answer to a segment touches only the queues. -/
theorem answer_frame (c : TCPConnection) (seg : TCPSegment) :
    (∃ queue, (c.answer seg).sender = { c.sender with segmentsOut := queue }) ∧
      (c.answer seg).receiver = c.receiver ∧ (c.answer seg).actived = c.actived ∧
      (c.answer seg).lingerAfterStreamsFinish = c.lingerAfterStreamsFinish ∧
      (c.answer seg).timeSinceLastSegmentReceived = c.timeSinceLastSegmentReceived ∧
      (c.answer seg).cfg = c.cfg ∧ (c.answer seg).segmentsOut = c.segmentsOut := by
  have hsame : (∃ queue, c.sender = { c.sender with segmentsOut := queue }) := ⟨_, rfl⟩
  unfold answer
  split
  · split
    · exact ⟨⟨_, rfl⟩, rfl, rfl, rfl, rfl, rfl, rfl⟩
    · exact ⟨hsame, rfl, rfl, rfl, rfl, rfl, rfl⟩
  · split
    · split
      · exact ⟨⟨_, rfl⟩, rfl, rfl, rfl, rfl, rfl, rfl⟩
      · exact ⟨hsame, rfl, rfl, rfl, rfl, rfl, rfl⟩
    · exact ⟨hsame, rfl, rfl, rfl, rfl, rfl, rfl⟩

/-- The connection after the answer has been queued and all is fetched, before the last look. -/
def sendAnswer (c : TCPConnection) (seg : TCPSegment) : TCPConnection :=
  (({ c with sender := c.sender.fillWindow } : TCPConnection).answer seg).fetchSegment

/-- The answer and the fetching touch nothing but the queue of the filled sender. -/
theorem sendAnswer_frame (c : TCPConnection) (seg : TCPSegment) :
    (c.sendAnswer seg).sender = { c.sender.fillWindow with segmentsOut := [] } ∧
      (c.sendAnswer seg).receiver = c.receiver ∧ (c.sendAnswer seg).actived = c.actived ∧
      (c.sendAnswer seg).lingerAfterStreamsFinish = c.lingerAfterStreamsFinish ∧
      (c.sendAnswer seg).timeSinceLastSegmentReceived = c.timeSinceLastSegmentReceived ∧
      (c.sendAnswer seg).cfg = c.cfg := by
  obtain ⟨⟨queue, hqueue⟩, hr, ha, hl, ht, hcfg, -⟩ :=
    answer_frame { c with sender := c.sender.fillWindow } seg
  refine ⟨?_, hr, ha, hl, ht, hcfg⟩
  show { ((({ c with sender := c.sender.fillWindow } : TCPConnection).answer seg).sender) with
    segmentsOut := [] } = _
  rw [hqueue]

/-- Whether or not an empty segment is added as an answer, the step ends in a good state. -/
theorem Checked.sendAnswer (h : Checked c) (seg : TCPSegment) : Inv (c.sendAnswer seg) := by
  obtain ⟨W, H, hinv⟩ := h.sender
  obtain ⟨new, hf⟩ := fillWindow_filled hinv
  obtain ⟨hsender, hr, ha, hl, ht, hcfg⟩ := c.sendAnswer_frame seg
  have hchecked : Checked (c.sendAnswer seg) := by
    refine h.senderStep ?_ ?_ ?_ hr ha hl ht hcfg
    · rw [hsender]
      exact (fillWindow_onward hinv).trans (requeue_onward hf.inv [])
    · rw [hsender]
      exact hf.acked
    · rw [hsender]
      exact (fillWindow_finished_iff hinv).mp
  exact { hchecked with
    opened := fun _ _ => by rw [hsender]; exact fillWindow_opened hinv }

/-- **`respond`**, for a connection that was active when the segment arrived: with no SYN yet it
    does nothing; otherwise it looks once and sends. -/
theorem respond_eq (h : Core c) (hactive : c.actived = true) (seg : TCPSegment) :
    c.respond seg =
      if c.receiver.inListen then c else c.tryCleanShutdown.sendAnswer seg := by
  have herror : c.receiver.streamOut.error = false := by
    rw [← h.error_eq]
    exact h.noError hactive
  have hchecked := (tryCleanShutdown_checked h hactive).sendAnswer seg
  rw [respond]
  simp only [listen_iff herror]
  split
  · rfl
  · exact hchecked.toChecked.tryCleanShutdown_eq

/-- The two sides after `respond`. -/
theorem respond_sides (h : Core c) (hactive : c.actived = true) (seg : TCPSegment) :
    (c.respond seg).receiver = c.receiver ∧ (c.respond seg).sender =
      if c.receiver.inListen then c.sender
      else { c.sender.fillWindow with segmentsOut := [] } := by
  obtain ⟨hs, -, hr, -⟩ := c.tryCleanShutdown_frame
  obtain ⟨hsender, hreceiver, -⟩ := c.tryCleanShutdown.sendAnswer_frame seg
  rw [respond_eq h hactive]
  split
  · exact ⟨rfl, rfl⟩
  · exact ⟨by rw [hreceiver, hr], by rw [hsender, hs]⟩

/-- The part of `segment_received` after the segment has been delivered. -/
theorem Core.respond (h : Core c) (hactive : c.actived = true) (seg : TCPSegment) :
    Inv (c.respond seg) := by
  rw [respond_eq h hactive]
  split
  · -- no SYN yet: the inbound stream is open, and there is nothing to check
    rename_i hlisten
    have hend := h.listen hlisten
    exact { h with
      cleared := fun _ he => absurd he (by simp [hend])
      closed_iff := fun _ he => absurd he (by simp [hend])
      opened := fun _ hl => absurd hl (by simp [hlisten]) }
  · exact (tryCleanShutdown_checked h hactive).sendAnswer seg

/-- **An arriving segment keeps the invariant**, whatever is in it. -/
theorem Inv.segmentReceived (h : Inv c) (seg : TCPSegment) : Inv (c.segmentReceived seg) := by
  by_cases hactive : c.active = true
  · by_cases hrst : seg.header.rst = true
    · rw [segmentReceived_of_rst hactive hrst]
      exact h.toCore.kill
    · rw [segmentReceived_eq hactive (by simpa using hrst)]
      exact (h.toCore.deliver seg).respond hactive seg
  · rw [segmentReceived_of_inactive (by simpa using hactive)]
    exact h

/-- The reader's operations change neither the flags of the inbound stream nor the state. -/
theorem Inv.receiverRead (h : Inv c) {r : TCPReceiver}
    (herror : r.streamOut.error = c.receiver.streamOut.error)
    (hended : r.streamOut.inputEnded = c.receiver.streamOut.inputEnded)
    (hlisten : r.inListen = c.receiver.inListen) : Inv { c with receiver := r } := by
  have hcore : Core { c with receiver := r } :=
    h.toCore.receiverStep rfl rfl rfl herror (fun he => by rw [hended, he])
      (fun hl => by rw [hended]; exact h.listen (hlisten ▸ hl))
  exact { hcore with
    cleared := fun herr hend => h.cleared herr (hended ▸ hend)
    closed_iff := fun herr hend => h.closed_iff herr (hended ▸ hend)
    opened := fun herr hl => h.opened herr (hlisten ▸ hl) }

/-- **Step lemma.** -/
theorem Inv.apply (h : Inv c) (op : ConnectionOp) : Inv (c.apply op) := by
  cases op with
  | connect => exact h.toChecked.sendSegment
  | write data => exact (h.written data).toChecked.sendSegment
  | endInputStream => exact h.inputEnded.toChecked.sendSegment
  | tick ms => exact h.tick ms
  | segmentReceived seg => exact h.segmentReceived seg
  | read len =>
    refine h.receiverRead ?_ ?_ rfl
    · exact ByteStream.read_error _ _
    · exact ByteStream.read_inputEnded _ _
  | pop len => exact h.receiverRead rfl rfl rfl
  | popSegment => exact { h with sender := h.sender }

/-- **Run lemma.** -/
theorem run_inv (cfg : TCPConfig) (randSender randReceiver : WrappingInt32)
    (ops : List ConnectionOp) : Inv (run cfg randSender randReceiver ops) :=
  List.foldlRecOn ops TCPConnection.apply (new_inv cfg randSender randReceiver)
    (fun _ h op _ => h.apply op)

/-- **What a call does to the receiver**: nothing, what a call on the receiver itself does, or it
    puts the receiver into error. -/
theorem apply_receiver (h : Inv c) (op : ConnectionOp) :
    (c.apply op).receiver = c.receiver ∨ (c.apply op).receiver = c.receiver.setError ∨
      ∃ op' : ReceiverOp, (c.apply op).receiver = c.receiver.apply op' := by
  obtain ⟨W, H, hinv⟩ := h.sender
  cases op with
  | connect => exact Or.inl rfl
  | write data => exact Or.inl rfl
  | endInputStream => exact Or.inl rfl
  | popSegment => exact Or.inl rfl
  | read len => exact Or.inr (Or.inr ⟨.read len, rfl⟩)
  | pop len => exact Or.inr (Or.inr ⟨.popOutput len, rfl⟩)
  | tick ms => exact (tick_works hinv ms).receiver.imp_right Or.inl
  | segmentReceived seg =>
    rw [TCPConnection.apply]
    by_cases hactive : c.active = true
    swap
    · rw [segmentReceived_of_inactive (by simpa using hactive)]
      exact Or.inl rfl
    by_cases hrst : seg.header.rst = true
    · rw [segmentReceived_of_rst hactive hrst]
      exact Or.inr (Or.inl rfl)
    · -- the answer leaves the receiver as the segment has left it
      rw [segmentReceived_eq hactive (by simpa using hrst),
        (respond_sides (h.toCore.deliver seg) hactive seg).1]
      exact Or.inr (Or.inr ⟨.segmentReceived seg, rfl⟩)

end TCPConnection

end Sponge
