import Sponge.ConnectionInvariant

namespace Sponge

open TCPSender

/-!
# What a connection puts into its outbound queue

Three results about every run of a connection, with arbitrary arriving segments:

* `run_flushed_iff` — the sender's own queue is empty after every call exactly when no segment
  without SYN, arriving while we listen, acknowledges something that lets the sender send:
  `segment_received` returns between that and the flush;
* `acknowledgement_discipline` — what occupies sequence space is answered, every answer carries the
  receiver's state after the segment, and a bare ACK is not answered by another one;
* `destroy_resets` — the destructor sends a RST if the connection is still open;
* `inactive_stays_inactive` — an inactive connection stays inactive, and stays silent exactly when
  it is not asked to send: `connect`, `write` and `end_input_stream` do not look at the flag.
-/

namespace TCPConnection

variable {c : TCPConnection} {seg : TCPSegment}

/-! ### The flush -/

/-- The RST is the only segment sent; the rest of the sender's queue stays where it is. -/
theorem sendRstSegment_queue (c : TCPConnection) :
    ∃ rst, rst.header.rst = true ∧ c.sendRstSegment.segmentsOut = c.segmentsOut ++ [rst] ∧
      c.sendRstSegment.sender.segmentsOut = c.sender.sendEmptySegment.segmentsOut.tail := by
  unfold sendRstSegment
  dsimp only
  split
  · rename_i hnil
    simp [sendEmptySegment] at hnil
  · rename_i front rest hqueue
    refine ⟨_, ?_, rfl, by rw [hqueue]; rfl⟩
    unfold stamp
    split <;> rfl

/-- A tick leaves no segment with the sender, also when it gives the connection up. -/
theorem tick_flushed (hflushed : c.sender.segmentsOut = []) (ms : Nat) :
    (c.tick ms).sender.segmentsOut = [] := by
  by_cases hinactive : c.active = false
  · rw [tick_of_inactive hinactive, hflushed]
  · rw [tick, if_neg hinactive]
    dsimp only
    split
    · -- the copy that was queued is dropped, and the empty segment becomes the RST
      have htail : (c.sender.tick ms).segmentsOut.tail = [] := by
        rcases (c.sender.tick_cases ms).2.2.2.2.2.2.2 with hq | ⟨front, -, hq⟩ <;>
          simp [hq, hflushed]
      obtain ⟨rst, -, -, hq⟩ := sendRstSegment_queue { c with
        timeSinceLastSegmentReceived := (c.timeSinceLastSegmentReceived + ms).bmod (2 ^ 32)
        sender := { c.sender.tick ms with
          segmentsOut := (c.sender.tick ms).segmentsOut.tail } }
      show (sendRstSegment _).sender.segmentsOut = []
      rw [hq]
      simp [sendEmptySegment, htail]
    · rw [(tryCleanShutdown_frame _).1]
      rfl

/-- The step does not leave a segment with the sender: while no SYN has arrived, an ACK without SYN
    does not let the sender send. -/
def Flushes (c : TCPConnection) : ConnectionOp → Prop
  | .segmentReceived seg =>
      ¬ (c.active = true ∧ seg.header.rst = false ∧ c.receiver.inListen = true ∧
        seg.header.syn = false ∧ seg.header.ack = true ∧
        c.sender.SendsOnAck seg.header.ackno seg.header.win)
  | _ => True

instance (c : TCPConnection) (op : ConnectionOp) : Decidable (c.Flushes op) := by
  cases op <;> unfold Flushes <;> infer_instance

/-- **One step**, from a state in which the sender's queue is empty. -/
theorem apply_flushed_iff (h : Inv c) (hflushed : c.sender.segmentsOut = []) (op : ConnectionOp) :
    (c.apply op).sender.segmentsOut = [] ↔ c.Flushes op := by
  cases op with
  | connect => exact ⟨fun _ => trivial, fun _ => rfl⟩
  | write data => exact ⟨fun _ => trivial, fun _ => rfl⟩
  | endInputStream => exact ⟨fun _ => trivial, fun _ => rfl⟩
  | read len => exact ⟨fun _ => trivial, fun _ => hflushed⟩
  | pop len => exact ⟨fun _ => trivial, fun _ => hflushed⟩
  | popSegment => exact ⟨fun _ => trivial, fun _ => hflushed⟩
  | tick ms => exact ⟨fun _ => trivial, fun _ => tick_flushed hflushed ms⟩
  | segmentReceived seg =>
    unfold Flushes
    rw [TCPConnection.apply]
    by_cases hactive : c.active = true
    swap
    · rw [segmentReceived_of_inactive (by simpa using hactive)]
      simp [hactive, hflushed]
    by_cases hrst : seg.header.rst = true
    · rw [segmentReceived_of_rst hactive hrst]
      exact ⟨fun _ => by simp [hrst], fun _ => hflushed⟩
    have hrst : seg.header.rst = false := by simpa using hrst
    obtain ⟨W, H, hinv⟩ := h.sender
    obtain ⟨hlisten, -⟩ := segmentReceived_inListen c.receiver seg
    rw [segmentReceived_eq hactive hrst, (respond_sides (h.toCore.deliver seg) hactive seg).2]
    by_cases hl : (c.deliver seg).receiver.inListen = true
    · -- `segment_received` returns at once
      obtain ⟨hlis, hnosyn⟩ := hlisten.mp hl
      rw [if_pos hl]
      -- the acknowledgment may have filled the window, and nobody fetches the segments
      by_cases hack : seg.header.ack = true
      · have hsilent := ackReceived_silent_iff hinv h.output_open seg.header.ackno seg.header.win
        rw [hflushed] at hsilent
        have hsender : (c.deliver seg).sender
            = c.sender.ackReceived seg.header.ackno seg.header.win := by
          rw [deliver]
          simp only [hack, if_true]
        rw [hsender, hsilent]
        simp [hactive, hrst, hlis, hnosyn, hack]
      · simp [deliver, hack, hflushed]
    · -- everything is fetched
      rw [if_neg hl]
      refine ⟨fun _ hall => hl (hlisten.mpr ⟨hall.2.2.1, hall.2.2.2.1⟩), fun _ => rfl⟩

/-- **No segment is left stuck in the sender**, in every state of a run, if and only if every step
    of the run meets `Flushes`. -/
theorem run_flushed_iff (cfg : TCPConfig) (randSender randReceiver : WrappingInt32)
    (ops : List ConnectionOp) :
    Run.Always apply (fun c => c.sender.segmentsOut = []) (new cfg randSender randReceiver) ops ↔
      Run.Steps apply Flushes (new cfg randSender randReceiver) ops :=
  Run.always_iff_steps (I := Inv) (A := fun _ => True) (fun _ op _ h => h.apply op)
    (fun _ op _ h hq => apply_flushed_iff h hq op) (fun _ _ => trivial)
    (new_inv cfg randSender randReceiver) rfl

/-- Two bytes wait for the acknowledgment of our SYN, which comes without the peer's: they are cut
    into a segment, and it stays with the sender. -/
theorem segment_left_in_sender :
    (run {} ⟨0⟩ ⟨0⟩
      [.connect, .write [97, 98],
        .segmentReceived { header :=
          { ack := true, seqno := ⟨100⟩, ackno := ⟨1⟩, win := 10 } }]).sender.segmentsOut
      = [{ header := { seqno := ⟨1⟩ }, payload := [97, 98] }] := by
  decide

/-! ### Answers -/

/-- Every segment of the queue occupies sequence space. -/
def Positive (queue : List TCPSegment) : Prop := ∀ seg ∈ queue, 0 < seg.lengthInSequenceSpace

/-- What filling the window adds to the queue occupies sequence space. -/
theorem positive_of_filled {W : List UInt8} {H new : List (Nat × TCPSegment)} {s t : TCPSender}
    (hf : Filled W H s t new) (hq : Positive s.segmentsOut) : Positive t.segmentsOut := by
  intro seg hseg
  rw [hf.queue] at hseg
  rcases List.mem_append.mp hseg with hseg | hseg
  · exact hq seg hseg
  · obtain ⟨e, he, rfl⟩ := List.mem_map.mp hseg
    exact hf.inv.ledger.positive e (List.mem_append_right _ he)

/-- Filling the window adds only segments that occupy sequence space. -/
theorem fillWindow_positive {W : List UInt8} {H : List (Nat × TCPSegment)} {s : TCPSender}
    (h : SenderInv W H s) (hq : Positive s.segmentsOut) : Positive s.fillWindow.segmentsOut := by
  obtain ⟨new, hf⟩ := fillWindow_filled h
  exact positive_of_filled hf hq

/-- So does an acknowledgment, which may fill the window. -/
theorem deliver_positive (h : Core c) (hq : Positive c.sender.segmentsOut) (seg : TCPSegment) :
    Positive (c.deliver seg).sender.segmentsOut := by
  obtain ⟨W, H, hinv⟩ := h.sender
  rw [deliver]
  dsimp only
  split
  · rcases ackReceived_cases hinv seg.header.ackno seg.header.win with
      ⟨-, hsame⟩ | ⟨-, t, new, ht, hf⟩
    · rw [hsame]
      exact hq
    · exact positive_of_filled hf (by rw [ht.queue]; exact hq)
  · exact hq

/-- While a connection is active, what waits in the sender's queue occupies sequence space. -/
theorem apply_positive (h : Inv c) (hq : c.active = true → Positive c.sender.segmentsOut)
    (op : ConnectionOp) :
    (c.apply op).active = true → Positive (c.apply op).sender.segmentsOut := by
  have hnil : Positive [] := fun _ hseg => absurd hseg (by simp)
  cases op with
  | connect => exact fun _ => hnil
  | write data => exact fun _ => hnil
  | endInputStream => exact fun _ => hnil
  | read len => exact hq
  | pop len => exact hq
  | popSegment => exact hq
  | tick ms =>
    rw [TCPConnection.apply]
    by_cases hinactive : c.active = false
    · rw [tick_of_inactive hinactive]
      exact hq
    · rw [tick, if_neg hinactive]
      dsimp only
      split
      · -- the connection has given up
        intro hbad
        exact absurd hbad (by simp [killConnection, active])
      · rw [(tryCleanShutdown_frame _).1]
        exact fun _ => hnil
  | segmentReceived seg =>
    rw [TCPConnection.apply]
    by_cases hactive : c.active = true
    · by_cases hrst : seg.header.rst = true
      · rw [segmentReceived_of_rst hactive hrst]
        intro hbad
        exact absurd hbad (by simp [killConnection, active])
      · rw [segmentReceived_eq hactive (by simpa using hrst),
          (respond_sides (h.toCore.deliver seg) hactive seg).2]
        intro _
        -- in LISTEN the segments stay with the sender
        split
        · exact deliver_positive h.toCore (hq hactive) seg
        · exact hnil
    · rw [segmentReceived_of_inactive (by simpa using hactive)]
      exact hq

/-- **Run lemma.**  The inner queue of an active connection never holds an empty segment between two
    calls. -/
theorem run_positive (cfg : TCPConfig) (randSender randReceiver : WrappingInt32)
    (ops : List ConnectionOp) : (run cfg randSender randReceiver ops).active = true →
      Positive (run cfg randSender randReceiver ops).sender.segmentsOut := by
  refine (List.foldlRecOn ops apply
    (motive := fun c => Inv c ∧ (c.active = true → Positive c.sender.segmentsOut))
    ⟨new_inv cfg randSender randReceiver, fun _ => ?_⟩
    (fun c h op _ => ⟨h.1.apply op, apply_positive h.1 h.2 op⟩)).2
  simp [Positive, new, TCPSender.new]

/-- The answer to what occupies sequence space is never empty; a segment that occupies none and
    does not ask whether we are alive is not answered. -/
theorem answer_queue (c : TCPConnection) (seg : TCPSegment) :
    (0 < seg.lengthInSequenceSpace → (c.answer seg).sender.segmentsOut ≠ []) ∧
      (seg.lengthInSequenceSpace = 0 →
        (∀ ackno, c.receiver.ackno = some ackno → seg.header.seqno ≠ ackno.sub 1) →
          (c.answer seg).sender.segmentsOut = c.sender.segmentsOut) := by
  unfold answer
  constructor
  · intro hpos
    rw [if_pos (by omega)]
    -- a segment that is already queued carries the acknowledgment
    split
    · simp [sendEmptySegment]
    · rename_i hne
      simpa using hne
  · intro hzero hseqno
    rw [if_neg (by omega)]
    split
    · rename_i ackno hackno
      rw [if_neg (hseqno ackno hackno)]
    · rfl

/-- The answer depends on the two sides only. -/
theorem answer_sender {d : TCPConnection} (hs : d.sender = c.sender) (hr : d.receiver = c.receiver)
    (seg : TCPSegment) : (d.answer seg).sender = (c.answer seg).sender := by
  unfold answer
  rw [hs, hr]
  split
  · split
    · rfl
    · exact hs
  · split
    · split
      · rfl
      · exact hs
    · exact hs

/-- The sender's queue when the flush comes. -/
def answered (c : TCPConnection) (seg : TCPSegment) : List TCPSegment :=
  (({ c with sender := c.sender.fillWindow } : TCPConnection).answer seg).sender.segmentsOut

/-- **What an arriving segment makes the connection send**: nothing before a SYN has arrived, and
    then what the sender has queued, stamped with the state of the receiver. -/
theorem queues_segmentReceived (h : Inv c) (hactive : c.active = true)
    (hrst : seg.header.rst = false) :
    (c.segmentReceived seg).receiver = c.receiver.segmentReceived seg ∧
      c.queues (.segmentReceived seg) =
        if (c.receiver.segmentReceived seg).inListen then []
        else ((c.deliver seg).answered seg).map (stamp (c.receiver.segmentReceived seg)
          (clampedWindow (c.receiver.segmentReceived seg))) := by
  have hcore := h.toCore.deliver seg
  rw [queues, TCPConnection.apply, segmentReceived_eq hactive hrst]
  refine ⟨(respond_sides hcore hactive seg).1, ?_⟩
  rw [respond_eq hcore hactive]
  by_cases hl : (c.deliver seg).receiver.inListen = true
  · rw [if_pos hl, if_pos (show (c.receiver.segmentReceived seg).inListen = true from hl)]
    exact List.drop_length
  · rw [if_neg hl, if_neg (show ¬ (c.receiver.segmentReceived seg).inListen = true from hl)]
    obtain ⟨hs, -, hr, hout⟩ := (c.deliver seg).tryCleanShutdown_frame
    obtain ⟨-, hreceiver, -, -, -, -, hqueue⟩ := answer_frame
      { (c.deliver seg).tryCleanShutdown with
        sender := (c.deliver seg).tryCleanShutdown.sender.fillWindow } seg
    -- the look at the connection before the answer changes neither side
    have hanswered := answer_sender (c := { c.deliver seg with
        sender := (c.deliver seg).sender.fillWindow })
      (d := { (c.deliver seg).tryCleanShutdown with
        sender := (c.deliver seg).tryCleanShutdown.sender.fillWindow })
      (by rw [hs]) hr seg
    rw [sendAnswer, fetchSegment]
    dsimp only
    rw [hqueue, hreceiver, hanswered]
    dsimp only
    rw [hout, hr]
    exact List.drop_left

/-- An acknowledgment takes no place in the sequence space. -/
theorem stamp_length (r : TCPReceiver) (win : UInt16) (seg : TCPSegment) :
    (stamp r win seg).lengthInSequenceSpace = seg.lengthInSequenceSpace := by
  unfold stamp
  split <;> rfl

/-- The stamp of a receiver that has got a SYN. -/
theorem stamp_clamped {r : TCPReceiver} (hheard : r.inListen = false) (seg : TCPSegment) :
    (stamp r (clampedWindow r) seg).header.ack = true ∧
      r.ackno = some (stamp r (clampedWindow r) seg).header.ackno ∧
      (stamp r (clampedWindow r) seg).header.win.toNat = min 65535 r.windowSize := by
  have hackno : r.ackno = some (wrap (.ofNat r.absAck) r.isn) := by
    rw [TCPReceiver.ackno, hheard]
    rfl
  unfold stamp
  rw [hackno]
  refine ⟨rfl, rfl, ?_⟩
  exact clampedWindow_toNat r

/-- **Acknowledgement discipline.**  A segment without RST that arrives at an active connection is
    answered if it occupies sequence space and a SYN has arrived; every segment sent carries the
    receiver's acknowledgment number and window as they are after it; and if it occupies no sequence
    space and does not have the number before that, everything sent occupies sequence space. -/
theorem acknowledgement_discipline (cfg : TCPConfig) (randSender randReceiver : WrappingInt32)
    (ops : List ConnectionOp) (seg : TCPSegment)
    (hactive : (run cfg randSender randReceiver ops).active = true)
    (hrst : seg.header.rst = false) :
    let c := run cfg randSender randReceiver ops
    let receiver := (c.segmentReceived seg).receiver
    (receiver.ackno ≠ none → 0 < seg.lengthInSequenceSpace →
        c.queues (.segmentReceived seg) ≠ []) ∧
      (∀ out ∈ c.queues (.segmentReceived seg), out.header.ack = true ∧
        receiver.ackno = some out.header.ackno ∧
        out.header.win.toNat = min 65535 receiver.windowSize) ∧
      (seg.lengthInSequenceSpace = 0 →
        (∀ ackno, receiver.ackno = some ackno → seg.header.seqno ≠ ackno.sub 1) →
          ∀ out ∈ c.queues (.segmentReceived seg), 0 < out.lengthInSequenceSpace) := by
  intro c receiver
  have h : Inv c := run_inv cfg randSender randReceiver ops
  obtain ⟨hreceiver, hqueues⟩ := queues_segmentReceived h hactive hrst
  obtain ⟨hasks, hsilent⟩ := answer_queue
    { c.deliver seg with sender := (c.deliver seg).sender.fillWindow } seg
  have hcore := h.toCore.deliver seg
  obtain ⟨W, H, hinv⟩ := hcore.sender
  have hpositive := fillWindow_positive hinv
    (deliver_positive h.toCore (run_positive cfg randSender randReceiver ops hactive) seg)
  show (receiver.ackno ≠ none → _) ∧ _
  rw [hqueues, show receiver = c.receiver.segmentReceived seg from hreceiver]
  by_cases hl : (c.receiver.segmentReceived seg).inListen = true
  · -- no SYN has arrived: nothing is sent, and there is no acknowledgment number
    rw [if_pos hl]
    refine ⟨fun hackno => absurd ?_ hackno, by simp, by simp⟩
    rw [TCPReceiver.ackno, if_pos hl]
  · rw [if_neg hl]
    -- whatever goes out is stamped with the acknowledgment number and the window
    refine ⟨fun _ hpos => ?_, fun out hout => ?_, fun hzero hseqno out hout => ?_⟩
    · rw [ne_eq, List.map_eq_nil_iff]
      exact hasks hpos
    · obtain ⟨seg0, -, rfl⟩ := List.mem_map.mp hout
      exact stamp_clamped (by simpa using hl) seg0
    · obtain ⟨seg0, hseg0, rfl⟩ := List.mem_map.mp hout
      rw [answered, hsilent hzero hseqno] at hseg0
      rw [stamp_length]
      exact hpositive seg0 hseg0

/-- A duplicate of the peer's SYN is answered, in the three-way handshake. -/
theorem acknowledgement_discipline_syn :
    let syn : TCPSegment := { header := { syn := true, seqno := ⟨100⟩, win := 10 } }
    (run {} ⟨0⟩ ⟨0⟩ [.segmentReceived syn]).queues (.segmentReceived syn) ≠ [] :=
  (acknowledgement_discipline {} ⟨0⟩ ⟨0⟩ _ _ (by decide) rfl).1 (by decide) (by decide)

/-! ### Dead connections -/

/-- A connection that was given up is in the state RESET. -/
theorem killConnection_state (c : TCPConnection) : c.killConnection.state = .ofState .reset := by
  simp [state, TCPState.ofParts, killConnection, active, TCPSender.stateSummary,
    TCPReceiver.stateSummary, TCPReceiver.setError, TCPReceiver.streamOut,
    StreamReassembler.setError, StreamReassembler.streamOut, ByteStream.setError,
    TCPState.ofState]

/-- **The destructor.**  A connection that is dropped while it is open sends one segment more, a
    RST, and is reset.  One that is not open any more is left alone. -/
theorem destroy_resets (c : TCPConnection) :
    (c.active = false → c.destroy = c) ∧
      (c.active = true → c.destroy.state = .ofState .reset ∧
        ∃ rst, rst.header.rst = true ∧ c.destroy.segmentsOut = c.segmentsOut ++ [rst]) := by
  unfold destroy
  constructor
  · intro hinactive
    rw [if_neg (by rw [hinactive]; decide)]
  · intro hactive
    rw [if_pos hactive]
    obtain ⟨rst, hrst, hqueue, -⟩ := c.sendRstSegment_queue
    exact ⟨killConnection_state _, rst, hrst, hqueue⟩

/-- All segments put into the outbound queue in a run. -/
def sent : TCPConnection → List ConnectionOp → List TCPSegment
  | _, [] => []
  | c, op :: ops => c.queues op ++ sent (c.apply op) ops

/-- The call does not make a connection send, whether or not it is active: the sender's queue is
    empty, its SYN is sent, there is no work, and the call makes none.  A write makes work if the
    sender can send and the stream takes a byte, and the end of the stream whenever the sender can
    send. -/
def Quiet (c : TCPConnection) : ConnectionOp → Prop
  | .connect => c.sender.segmentsOut = [] ∧ c.sender.state ≠ .closed ∧ ¬ c.sender.HasWork
  | .write data => c.sender.segmentsOut = [] ∧ c.sender.state ≠ .closed ∧ ¬ c.sender.HasWork ∧
      (c.sender.CanSend → data = [] ∨ c.sender.streamIn.remainingCapacity = 0)
  | .endInputStream => c.sender.segmentsOut = [] ∧ c.sender.state ≠ .closed ∧ ¬ c.sender.CanSend
  | _ => True

instance (c : TCPConnection) (op : ConnectionOp) : Decidable (c.Quiet op) := by
  cases op <;> unfold Quiet <;> infer_instance

/-- Filling the window and fetching sends nothing exactly when there was nothing to fetch and
    nothing to fill it with. -/
theorem sendSegment_silent_iff (h : Core c) :
    c.sendSegment.segmentsOut.drop c.segmentsOut.length = [] ↔
      c.sender.segmentsOut = [] ∧ c.sender.state ≠ .closed ∧ ¬ c.sender.HasWork := by
  obtain ⟨W, H, hinv⟩ := h.sender
  have hsent : c.sendSegment.segmentsOut.drop c.segmentsOut.length
      = c.sender.fillWindow.segmentsOut.map (stamp c.receiver (clampedWindow c.receiver)) :=
    List.drop_left
  rw [hsent, List.map_eq_nil_iff, ← fillWindow_silent_iff hinv h.output_open]
  -- filling the window appends to the queue
  constructor
  · intro hnil
    obtain ⟨new, hf⟩ := fillWindow_filled hinv
    have hqueue := hf.queue
    rw [hnil] at hqueue
    have hold : c.sender.segmentsOut = [] := (List.append_eq_nil_iff.mp hqueue.symm).1
    exact ⟨hold, by rw [hnil, hold]⟩
  · rintro ⟨hold, hsame⟩
    rw [hsame, hold]

/-- **One call on an inactive connection.** -/
theorem queues_eq_nil_iff (h : Inv c) (hinactive : c.active = false) (op : ConnectionOp) :
    c.queues op = [] ↔ c.Quiet op := by
  -- an inactive connection ignores ticks and segments, but still fills the window when called
  cases op with
  | connect => exact sendSegment_silent_iff h.toCore
  | write data =>
    refine (sendSegment_silent_iff (h.written data).toCore).trans ?_
    rw [hasWork_write, Quiet]
    show _ ∧ c.sender.state ≠ .closed ∧ _ ↔ _
    tauto
  | endInputStream =>
    refine (sendSegment_silent_iff h.inputEnded.toCore).trans ?_
    rw [hasWork_endInput]
    exact Iff.rfl
  | tick ms =>
    refine ⟨fun _ => trivial, fun _ => ?_⟩
    rw [queues, TCPConnection.apply, tick_of_inactive hinactive, List.drop_length]
  | segmentReceived seg =>
    refine ⟨fun _ => trivial, fun _ => ?_⟩
    rw [queues, TCPConnection.apply, segmentReceived_of_inactive hinactive, List.drop_length]
  | read len => exact ⟨fun _ => trivial, fun _ => List.drop_length⟩
  | pop len => exact ⟨fun _ => trivial, fun _ => List.drop_length⟩
  | popSegment =>
    refine ⟨fun _ => trivial, fun _ => List.drop_eq_nil_of_le ?_⟩
    show c.segmentsOut.tail.length ≤ _
    rw [List.length_tail]
    omega

/-- **Step lemma.**  No call makes an inactive connection active. -/
theorem apply_active_eq_false (hinactive : c.active = false) (op : ConnectionOp) :
    (c.apply op).active = false := by
  cases op with
  | tick ms => rw [TCPConnection.apply, tick_of_inactive hinactive, hinactive]
  | segmentReceived seg =>
    rw [TCPConnection.apply, segmentReceived_of_inactive hinactive, hinactive]
  | connect => exact hinactive
  | write data => exact hinactive
  | endInputStream => exact hinactive
  | read len => exact hinactive
  | pop len => exact hinactive
  | popSegment => exact hinactive

/-- **A dead connection stays dead**, whatever happens to it later; and it sends nothing more if
    and only if every later call meets `Quiet`. -/
theorem inactive_stays_inactive (cfg : TCPConfig) (randSender randReceiver : WrappingInt32)
    (ops later : List ConnectionOp)
    (hinactive : (run cfg randSender randReceiver ops).active = false) :
    (later.foldl apply (run cfg randSender randReceiver ops)).active = false ∧
      (sent (run cfg randSender randReceiver ops) later = [] ↔
        Run.Steps apply Quiet (run cfg randSender randReceiver ops) later) := by
  have h := run_inv cfg randSender randReceiver ops
  generalize run cfg randSender randReceiver ops = c at h hinactive ⊢
  induction later generalizing c with
  | nil => exact ⟨hinactive, by simp [sent, Run.Steps]⟩
  | cons op later ih =>
    obtain ⟨hactive, hsilent⟩ := ih (c.apply op) (h.apply op) (apply_active_eq_false hinactive op)
    refine ⟨hactive, ?_⟩
    rw [sent, List.append_eq_nil_iff, queues_eq_nil_iff h hinactive op, hsilent]
    rfl

/-- A reset connection is silent through further segments, ticks and reads, and through a write:
    its window was full when the reset came. -/
theorem inactive_stays_inactive_reset :
    let c := run {} ⟨0⟩ ⟨0⟩
      [.connect, .segmentReceived { header :=
          { syn := true, ack := true, seqno := ⟨100⟩, ackno := ⟨1⟩, win := 1 } },
        .write [97], .segmentReceived { header := { rst := true, seqno := ⟨101⟩ } }]
    c.active = false ∧
      sent c [.write [98], .tick 5000, .segmentReceived { header :=
        { ack := true, seqno := ⟨101⟩, ackno := ⟨2⟩, win := 9 } }, .endInputStream, .read 1] = [] :=
  ⟨by decide, (inactive_stays_inactive {} ⟨0⟩ ⟨0⟩ _ _ (by decide)).2.mpr (by decide)⟩

/-- The peer resets an open connection; ending the outbound stream still sends a FIN, with the
    acknowledgment of the SYN. -/
theorem reset_connection_sends :
    let c := run {} ⟨0⟩ ⟨0⟩
      [.connect, .segmentReceived { header :=
          { syn := true, ack := true, seqno := ⟨100⟩, ackno := ⟨1⟩, win := 10 } },
        .segmentReceived { header := { rst := true, seqno := ⟨101⟩ } }]
    c.active = false ∧ sent c [.endInputStream] = [{ header :=
      { seqno := ⟨1⟩, fin := true, ack := true, ackno := ⟨101⟩, win := 64000 } }] := by
  decide

end TCPConnection

end Sponge
