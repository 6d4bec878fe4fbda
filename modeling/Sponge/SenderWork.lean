import Sponge.SenderInvariant
import Sponge.TCPState

namespace Sponge

namespace TCPSender

/-!
# When a sender has something to send

`HasWork s` says in terms of the sender's fields that the loop of `fill_window` has a segment to
send: the SYN is acknowledged and the FIN is not sent, the window has room, and there are bytes
in the stream or the FIN is due.  `fillWindow_silent_iff` and `ackReceived_silent_iff` are exact:
they say when filling the window, and when handling an acknowledgment, sends nothing.

`stateSummary_eq` is the other exact statement about a sender: the summary of its state, which is
computed from counters, is the sender's own `state`.
-/

variable {W : List UInt8} {H : List (Nat × TCPSegment)} {s : TCPSender}

/-- There is a segment to send, after the SYN is acknowledged. -/
def HasWork (s : TCPSender) : Prop :=
  s.state = .synAcked ∧ s.bytesInFlight < s.fillSize ∧
    (s.streamIn.bufferList ≠ [] ∨ s.streamIn.inputEnded = true)

instance (s : TCPSender) : Decidable s.HasWork := by unfold HasWork; infer_instance

/-- The sender would send more if there were anything to send: the SYN is acknowledged, the FIN is
    not sent, and the window is not full (a window of zero counts as one). -/
def CanSend (s : TCPSender) : Prop := s.state = .synAcked ∧ s.bytesInFlight < s.fillSize

instance (s : TCPSender) : Decidable s.CanSend := inferInstanceAs (Decidable (_ ∧ _))

/-- A write makes work where the stream takes some of it. -/
theorem hasWork_write (s : TCPSender) (data : List UInt8) :
    { s with streamIn := (s.streamIn.write data).2 }.HasWork ↔
      s.HasWork ∨ s.CanSend ∧ data ≠ [] ∧ s.streamIn.remainingCapacity ≠ 0 := by
  cases hended : s.streamIn.inputEnded with
  | true =>
    -- the stream takes nothing, and its end is work enough
    simp only [HasWork, CanSend, fillSize, ByteStream.write_of_ended _ _ hended, hended]
    tauto
  | false =>
    have htaken : data.take (min data.length s.streamIn.remainingCapacity) = [] ↔
        data = [] ∨ s.streamIn.remainingCapacity = 0 := by
      rw [List.take_eq_nil_iff]
      cases data <;> simp
    have hbuffer : (s.streamIn.write data).2.bufferList = s.streamIn.bufferList ++
        data.take (min data.length s.streamIn.remainingCapacity) := by
      simp [ByteStream.write, hended]
    have hboth := not_congr htaken
    simp only [HasWork, CanSend, fillSize, hbuffer, ByteStream.write_inputEnded, hended,
      ne_eq, List.append_eq_nil_iff]
    tauto

/-- The end of the stream always makes work. -/
theorem hasWork_endInput (s : TCPSender) :
    { s with streamIn := s.streamIn.endInput }.HasWork ↔ s.CanSend := by
  simp [HasWork, CanSend, fillSize, ByteStream.endInput]

/-- Without work the window is full, or nothing is buffered and the stream goes on. -/
theorem idle_of_not_hasWork (hacked : s.state = .synAcked) (hidle : ¬ s.HasWork) :
    s.fillSize ≤ s.bytesInFlight ∨
      (s.streamIn.bufferList = [] ∧ s.streamIn.inputEnded = false) := by
  by_cases hfull : s.fillSize ≤ s.bytesInFlight
  · exact Or.inl hfull
  · have hnone : ¬ (s.streamIn.bufferList ≠ [] ∨ s.streamIn.inputEnded = true) :=
      fun hsome => hidle ⟨hacked, Nat.lt_of_not_le hfull, hsome⟩
    obtain ⟨hempty, hgoes⟩ := not_or.mp hnone
    exact Or.inr ⟨not_not.mp hempty, by simpa using hgoes⟩

/-! ### One iteration -/

/-- The next segment is empty only where nothing is buffered and the stream goes on. -/
theorem nextSegment_length_eq_zero (hopen : s.streamIn.endOutput = false) {w : Nat}
    (hroom : s.bytesInFlight < w) :
    (s.nextSegment w).lengthInSequenceSpace = 0 ↔
      s.streamIn.bufferList = [] ∧ s.streamIn.inputEnded = false := by
  have hsize : min maxPayloadSize (w - s.bytesInFlight) ≠ 0 := by
    rw [maxPayloadSize]
    omega
  have hpayload : (s.nextSegment w).payload
      = s.streamIn.bufferList.take (min maxPayloadSize (w - s.bytesInFlight)) := by
    rw [nextSegment, ByteStream.read, hopen, if_neg (by simp), ByteStream.peekOutput_eq_take]
  have hnil : (s.nextSegment w).payload = [] ↔ s.streamIn.bufferList = [] := by
    rw [hpayload, List.take_eq_nil_iff]
    exact ⟨fun h => h.resolve_left hsize, Or.inr⟩
  have hfin : s.streamIn.bufferList = [] →
      (s.nextSegment w).header.fin = s.streamIn.inputEnded := by
    intro hempty
    -- nothing is read, so the FIN is due exactly when the stream has ended
    have hread : (s.nextSegment w).payload = [] := hnil.mpr hempty
    have hsame := ByteStream.read_snd_of_nil _ _ hread
    show ((s.streamIn.read _).2.eof &&
      decide (w - s.bytesInFlight > (s.nextSegment w).payload.length)) = _
    rw [hsame, hread, ByteStream.eof, ByteStream.bufferEmpty, hempty]
    simp [hroom]
  rw [TCPSegment.lengthInSequenceSpace_eq_zero, hnil]
  constructor
  · rintro ⟨hempty, -, hf⟩
    exact ⟨hempty, by rw [← hfin hempty, hf]⟩
  · rintro ⟨hempty, hended⟩
    exact ⟨hempty, rfl, by rw [hfin hempty, hended]⟩

/-- The body of the loop stops exactly where there is no work. -/
theorem fillStep_done_iff (hopen : s.streamIn.endOutput = false) :
    fillStep s.fillSize s = .done s ↔ ¬ s.HasWork := by
  by_cases hguard : s.state = .synAcked ∧ s.fillSize > s.bytesInFlight
  · have hzero := nextSegment_length_eq_zero hopen hguard.2
    have hwork : s.HasWork ↔ ¬ (s.nextSegment s.fillSize).lengthInSequenceSpace = 0 := by
      rw [hzero, HasWork]
      constructor
      · rintro ⟨-, -, hw⟩ ⟨hempty, hended⟩
        rcases hw with hw | hw
        · exact hw hempty
        · rw [hended] at hw
          exact absurd hw (by simp)
      · intro hnot
        refine ⟨hguard.1, hguard.2, ?_⟩
        by_contra hnone
        obtain ⟨hempty, hended⟩ := not_or.mp hnone
        exact hnot ⟨not_not.mp hempty, by simpa using hended⟩
    rw [hwork, not_not]
    rcases fillStep_cases s.fillSize s with hdone | ⟨-, -, hpos, hyield⟩
    · refine ⟨fun _ => ?_, fun _ => hdone⟩
      by_contra hne
      -- a segment with something in it would have been sent
      rw [fillStep, if_pos hguard] at hdone
      simp only [if_neg hne] at hdone
      cases hdone
    · constructor
      · intro hdone
        rw [hyield] at hdone
        cases hdone
      · intro hz
        omega
  · have hdone : fillStep s.fillSize s = .done s := by rw [fillStep, if_neg hguard]
    exact ⟨fun _ hw => hguard ⟨hw.1, hw.2.1⟩, fun _ => hdone⟩

/-! ### Filling the window -/

theorem fillWindow_endOutput (s : TCPSender) :
    s.fillWindow.streamIn.endOutput = s.streamIn.endOutput := by
  unfold fillWindow
  split
  · rfl
  · refine Loop.run_rule (P := fun t : TCPSender =>
      t.streamIn.endOutput = s.streamIn.endOutput) ?_ ?_ _ rfl
    · intro t u ht hdone
      rw [eq_of_fillStep_done hdone]
      exact ht
    · intro t u ht hyield
      obtain ⟨-, -, -, rfl⟩ := eq_of_fillStep_yield hyield
      exact (ByteStream.read_endOutput _ _).trans ht

/-- Without work, filling the window does nothing. -/
theorem fillWindow_eq_self (hopen : s.streamIn.endOutput = false) (hstate : s.state ≠ .closed)
    (hidle : ¬ s.HasWork) : s.fillWindow = s :=
  (fillWindow_unfold s hstate).1 s ((fillStep_done_iff hopen).mpr hidle)

/-- **Filling the window leaves no work.** -/
theorem fillWindow_not_hasWork (h : SenderInv W H s) (hopen : s.streamIn.endOutput = false)
    (hstate : s.state ≠ .closed) : ¬ s.fillWindow.HasWork := by
  obtain ⟨new, hf⟩ := fillWindow_filled h
  have hsize : s.fillWindow.fillSize = s.fillSize := by rw [fillSize, fillSize, hf.window]
  rw [← fillStep_done_iff (by rw [fillWindow_endOutput, hopen]), hsize, fillWindow, if_neg hstate]
  -- the loop ends where its body stops, and there the body has nothing to send
  refine Loop.run_stops (μ := fun t : TCPSender => s.fillSize - t.bytesInFlight) ?_ ?_
    (fun t u hdone => eq_of_fillStep_done hdone) _ (le_refl _)
  · intro t hzero
    rw [fillStep, if_neg (by omega)]
  · intro t u hyield
    obtain ⟨-, hroom, hpos, rfl⟩ := eq_of_fillStep_yield hyield
    show s.fillSize - (t.bytesInFlight + (t.nextSegment s.fillSize).lengthInSequenceSpace)
      < s.fillSize - t.bytesInFlight
    omega

/-- **Filling the window sends nothing** exactly when the SYN is sent and there is no work. -/
theorem fillWindow_silent_iff (h : SenderInv W H s) (hopen : s.streamIn.endOutput = false) :
    s.fillWindow.segmentsOut = s.segmentsOut ↔ s.state ≠ .closed ∧ ¬ s.HasWork := by
  constructor
  · intro hsilent
    have hstate : s.state ≠ .closed := by
      intro hclosed
      rw [fillWindow, if_pos hclosed] at hsilent
      simp [sendSynSegment] at hsilent
    refine ⟨hstate, fun hwork => ?_⟩
    rcases fillStep_cases s.fillSize s with hdone | ⟨hacked, -, hpos, hyield⟩
    · exact (fillStep_done_iff hopen).mp hdone hwork
    · -- the first iteration queues a segment, and the rest only add to the queue
      rw [(fillWindow_unfold s hstate).2 _ hyield] at hsilent
      obtain ⟨new, hf⟩ := fillWindow_filled (pushNext_inv h hacked hpos)
      have hlen := congrArg List.length (hf.queue.symm.trans hsilent)
      simp [TCPSender.push, readNext] at hlen
  · rintro ⟨hstate, hidle⟩
    rw [fillWindow_eq_self hopen hstate hidle]

/-- A sender that has finished after filling its window had finished before. -/
theorem fillWindow_finished_iff (h : SenderInv W H s) :
    (s.fillWindow.state = .finSent ∧ s.fillWindow.bytesInFlight = 0) ↔
      (s.state = .finSent ∧ s.bytesInFlight = 0) := by
  obtain ⟨new, hf⟩ := fillWindow_filled h
  constructor
  · rintro ⟨hfin, hzero⟩
    rcases hf.closing hfin with hacked | hsent
    · -- the FIN has just been sent, so something is in flight
      have hphase := h.phase
      have hphase' := hf.inv.phase
      rw [Phase, hacked] at hphase
      rw [Phase, hfin] at hphase'
      have hread := hf.read_le
      have hedge := hf.edge
      unfold lowEdge at hedge
      omega
    · rw [fillWindow_idle (by simp [hsent]) (by simp [hsent])] at hzero
      exact ⟨hsent, hzero⟩
  · rintro ⟨hsent, hzero⟩
    rw [fillWindow_idle (by simp [hsent]) (by simp [hsent])]
    exact ⟨hsent, hzero⟩

/-- Between the acknowledgment of the SYN and the FIN, filling the window can only send the
    FIN. -/
theorem fillWindow_state (h : SenderInv W H s) (hacked : s.state = .synAcked) :
    s.fillWindow.state = .synAcked ∨ s.fillWindow.state = .finSent := by
  obtain ⟨new, hf⟩ := fillWindow_filled h
  have hne := hf.opened (by simp [hacked])
  have hedge := hf.edge
  have hphase := h.phase
  have hphase' := hf.inv.phase
  unfold lowEdge at hedge
  rw [Phase, hacked] at hphase
  rw [Phase] at hphase'
  cases hst : s.fillWindow.state <;> rw [hst] at hne hphase' <;> simp only at hphase' hedge hphase
  case closed => exact absurd rfl hne
  case synSent =>
    -- the left edge of what is outstanding lies after the SYN
    omega
  case synAcked => exact Or.inl rfl
  case finSent => exact Or.inr rfl

/-- Filling the window sends the SYN, and goes past its acknowledgment in no case. -/
theorem fillWindow_phase (h : SenderInv W H s) :
    (s.fillWindow.state = .synSent ↔ s.state = .closed ∨ s.state = .synSent) ∧
      (s.fillWindow.state = .synAcked ∨ s.fillWindow.state = .finSent ↔
        s.state = .synAcked ∨ s.state = .finSent) := by
  have hphase := h.phase
  rw [Phase] at hphase
  cases hst : s.state <;> rw [hst] at hphase <;> simp only at hphase
  case closed => simp [fillWindow, hst, sendSynSegment]
  case synSent =>
    rw [fillWindow_idle (by simp [hst]) (by simp [hst]), hst]
    simp
  case synAcked =>
    rcases fillWindow_state h hst with hs | hs <;> simp [hs]
  case finSent =>
    rw [fillWindow_idle (by simp [hst]) (by simp [hst]), hst]
    simp

/-- **The FIN goes out** with the rest of the stream exactly when the stream has ended and the
    window is larger than what is left of it. -/
theorem fillWindow_finSent_iff (h : SenderInv W H s) (hopen : s.streamIn.endOutput = false)
    (hacked : s.state = .synAcked) :
    s.fillWindow.state = .finSent ↔ s.streamIn.inputEnded = true ∧
      s.bytesInFlight + s.streamIn.bufferSize < s.fillSize := by
  obtain ⟨new, hf⟩ := fillWindow_filled h
  have hphase := h.phase
  rw [Phase, hacked] at hphase
  have hacc := s.streamIn.accounted
  have hwritten := h.written
  have hedge := hf.edge
  have hbound := hf.bound
  have hflight := hf.inv.ledger.outstanding_tiles.2
  rw [ByteStream.bufferSize]
  unfold lowEdge at hedge hbound
  constructor
  · intro hfin
    obtain ⟨hended, hread, hnext⟩ := hf.inv.finSent_all hfin
    refine ⟨by rw [← hf.ended, hended], ?_⟩
    -- the number of the FIN lies inside the window
    rcases hbound with rfl | hbound
    · have hsame := h.ledger.new_tiles hf.inv.ledger
      rw [Tiling.tiles_nil] at hsame
      have hle := h.bytesRead_le
      omega
    · omega
  · rintro ⟨hended, hroom⟩
    by_contra hfin
    have hstate : s.fillWindow.state = .synAcked := (fillWindow_state h hacked).resolve_right hfin
    -- what is left is in the way: either the window is full or there is work
    have hphase' := hf.inv.phase
    rw [Phase, hstate] at hphase'
    have hread' := hf.inv.bytesRead_le
    refine fillWindow_not_hasWork h hopen (by simp [hacked]) ⟨hstate, ?_, Or.inr ?_⟩
    · have hsize : s.fillWindow.fillSize = s.fillSize := by rw [fillSize, fillSize, hf.window]
      rw [hsize]
      omega
    · rw [hf.ended, hended]

/-! ### Acknowledgments -/

/-- What stays in flight when everything before `A` is acknowledged. -/
def leftInFlight (s : TCPSender) (A : Nat) : Nat :=
  ((s.segmentsOutstanding.dropWhile
    (fun e => e.1 + e.2.lengthInSequenceSpace ≤ A)).map seqLength).sum

/-- The loop of `ack_received` drops the segments that end at or before the acknowledgment. -/
theorem popAcked_outstanding (A : Nat) (es : List (Nat × TCPSegment)) (s : TCPSender)
    (hes : s.segmentsOutstanding = es) : (popAcked A es s).segmentsOutstanding
      = es.dropWhile (fun e => e.1 + e.2.lengthInSequenceSpace ≤ A) := by
  induction es generalizing s with
  | nil => exact hes
  | cons e rest ih =>
    rw [popAcked]
    by_cases hkeep : e.1 + e.2.lengthInSequenceSpace > A
    · rw [if_pos hkeep, List.dropWhile_cons_of_neg (by simpa using hkeep), hes]
    · rw [if_neg hkeep, List.dropWhile_cons_of_pos (by simpa using hkeep)]
      exact ih _ rfl

/-- An acknowledgment removes the segments from the front that it covers as a whole. -/
theorem acknowledge_outstanding (s : TCPSender) (A : Nat) (window : UInt16) :
    (s.acknowledge A window).segmentsOutstanding = s.segmentsOutstanding.dropWhile
      (fun e => e.1 + e.2.lengthInSequenceSpace ≤ A) := by
  have hpop := popAcked_outstanding A s.segmentsOutstanding
    { s with windowSize := window.toNat, retransmissionCount := 0 } rfl
  unfold acknowledge
  dsimp only
  split <;> exact hpop

/-- What is left in flight after it. -/
theorem acknowledge_bytesInFlight (h : SenderInv W H s) {A : Nat} (hA : s.lowEdge ≤ A)
    (window : UInt16) : (s.acknowledge A window).bytesInFlight = s.leftInFlight A := by
  rw [(acknowledge_settled h hA window).inv.ledger.bytes, acknowledge_outstanding, leftInFlight]

/-- The SYN is acknowledged by the number one, and an acknowledgment changes the state in no
    other way. -/
theorem acknowledge_state (h : SenderInv W H s) {A : Nat} (hA : s.lowEdge ≤ A) (window : UInt16) :
    (s.acknowledge A window).state
      = if s.state = .synSent ∧ 1 ≤ A then .synAcked else s.state := by
  have hsettled := acknowledge_settled h hA window
  have hphase := h.phase
  have hphase' := hsettled.inv.phase
  have hnext := hsettled.next
  have hle := hsettled.edge_le
  by_cases hsyn : s.state = .synSent
  · rw [Phase, hsyn] at hphase
    by_cases hone : 1 ≤ A
    · -- everything sent ends at one, so nothing stays in flight
      rw [if_pos ⟨hsyn, hone⟩]
      have hzero : (s.acknowledge A window).bytesInFlight = 0 := by
        have hnone : s.segmentsOutstanding.dropWhile
            (fun e => e.1 + e.2.lengthInSequenceSpace ≤ A) = [] := by
          rw [List.dropWhile_eq_nil_iff]
          intro e he
          have hend := (h.ledger.outstanding_tiles.1.mem_bounds he).2
          rw [seqLength] at hend
          simp only [decide_eq_true_eq]
          omega
        rw [acknowledge_bytesInFlight h hA, leftInFlight, hnone]
        rfl
      rcases hsettled.state with hsame | ⟨-, hnew⟩
      · rw [Phase, hsame, hsyn] at hphase'
        omega
      · exact hnew
    · -- the SYN stays in flight
      rw [if_neg (fun hc => hone hc.2)]
      rcases hsettled.state with hsame | ⟨-, hnew⟩
      · exact hsame
      · rw [Phase, hnew] at hphase'
        unfold lowEdge at hle
        omega
  · rw [if_neg (fun hc => hsyn hc.1)]
    rcases hsettled.state with hsame | ⟨hbad, -⟩
    · exact hsame
    · exact absurd hbad hsyn

/-- The acknowledgment is accepted and lets the sender send: the SYN is acknowledged, at the
    latest now, the new window has room for more than stays in flight, and there are bytes in the
    stream or the FIN is due. -/
def SendsOnAck (s : TCPSender) (ackno : WrappingInt32) (window : UInt16) : Prop :=
  s.accepts ackno = true ∧
    (s.state = .synAcked ∨ (s.state = .synSent ∧ s.receivedAckno ackno = 1)) ∧
    s.leftInFlight (s.receivedAckno ackno) < max 1 window.toNat ∧
    (s.streamIn.bufferList ≠ [] ∨ s.streamIn.inputEnded = true)

instance (s : TCPSender) (ackno : WrappingInt32) (window : UInt16) :
    Decidable (s.SendsOnAck ackno window) := by unfold SendsOnAck; infer_instance

/-- Whether an acknowledgment lets the sender send, said of the sender before it. -/
theorem acknowledge_hasWork_iff (h : SenderInv W H s) {ackno : WrappingInt32}
    (hacc : s.accepts ackno = true) (window : UInt16) :
    (s.acknowledge (s.receivedAckno ackno) window).HasWork ↔ s.SendsOnAck ackno window := by
  obtain ⟨hA, hnext⟩ := (accepts_iff s ackno).mp hacc
  have hsettled := acknowledge_settled h hA window
  have hstate : (s.acknowledge (s.receivedAckno ackno) window).state = .synAcked ↔
      s.state = .synAcked ∨ (s.state = .synSent ∧ s.receivedAckno ackno = 1) := by
    rw [acknowledge_state h hA]
    by_cases hsyn : s.state = .synSent
    · have hphase := h.phase
      rw [Phase, hsyn] at hphase
      by_cases hone : 1 ≤ s.receivedAckno ackno
      · simp [hsyn, show s.receivedAckno ackno = 1 by omega]
      · simp [hsyn, show s.receivedAckno ackno = 0 by omega]
    · simp [hsyn]
  rw [HasWork, SendsOnAck, hstate, acknowledge_bytesInFlight h hA, fillSize_eq, hsettled.window_eq,
    hsettled.stream]
  simp [hacc]

/-- **Handling an acknowledgment sends nothing** exactly when it does not let the sender send. -/
theorem ackReceived_silent_iff (h : SenderInv W H s) (hopen : s.streamIn.endOutput = false)
    (ackno : WrappingInt32) (window : UInt16) :
    (s.ackReceived ackno window).segmentsOut = s.segmentsOut ↔ ¬ s.SendsOnAck ackno window := by
  by_cases hacc : s.accepts ackno = true
  · obtain ⟨hA, -⟩ := (accepts_iff s ackno).mp hacc
    have hsettled := acknowledge_settled h hA window
    rw [← acknowledge_hasWork_iff h hacc, ackReceived, if_pos hacc]
    dsimp only
    by_cases hstate : (s.acknowledge (s.receivedAckno ackno) window).state = .synAcked
    · rw [if_pos hstate, ← hsettled.queue,
        fillWindow_silent_iff hsettled.inv (by rw [hsettled.stream, hopen])]
      simp [hstate]
    · rw [if_neg hstate]
      exact ⟨fun _ hwork => hstate hwork.1, fun _ => hsettled.queue⟩
  · have hsame : s.ackReceived ackno window = s := by rw [ackReceived, if_neg hacc]
    rw [hsame]
    exact ⟨fun _ hsend => hacc hsend.1, fun _ => rfl⟩

theorem ackReceived_endOutput (h : SenderInv W H s) (ackno : WrappingInt32) (window : UInt16) :
    (s.ackReceived ackno window).streamIn.endOutput = s.streamIn.endOutput := by
  unfold ackReceived
  split
  · rename_i hacc
    have hstream := (acknowledge_settled h ((accepts_iff s ackno).mp hacc).1 window).stream
    dsimp only
    split
    · rw [fillWindow_endOutput, hstream]
    · rw [hstream]
  · rfl

theorem ackReceived_error (h : SenderInv W H s) (ackno : WrappingInt32) (window : UInt16) :
    (s.ackReceived ackno window).streamIn.error = s.streamIn.error := by
  rcases ackReceived_cases h ackno window with ⟨-, hsame⟩ | ⟨-, t, new, ht, hf⟩
  · rw [hsame]
  · rw [hf.error, ht.stream]

/-- **The states through an acknowledgment.**  The SYN is acknowledged by the number one, and
    then the FIN may go out at once. -/
theorem ackReceived_state (h : SenderInv W H s) (ackno : WrappingInt32) (window : UInt16) :
    (s.state = .closed → (s.ackReceived ackno window).state = .closed) ∧
      (s.state = .synSent → s.receivedAckno ackno ≠ 1 →
        (s.ackReceived ackno window).state = .synSent) ∧
      (s.state = .synSent → s.receivedAckno ackno = 1 →
        (s.ackReceived ackno window).state = .synAcked ∨
          (s.ackReceived ackno window).state = .finSent) ∧
      (s.state = .synAcked → (s.ackReceived ackno window).state = .synAcked ∨
        (s.ackReceived ackno window).state = .finSent) ∧
      (s.state = .finSent → (s.ackReceived ackno window).state = .finSent) := by
  have hphase := h.phase
  by_cases hacc : s.accepts ackno = true
  · obtain ⟨hA, hnext⟩ := (accepts_iff s ackno).mp hacc
    have hinv := (acknowledge_settled h hA window).inv
    have hstate := acknowledge_state h hA window
    rw [ackReceived, if_pos hacc]
    dsimp only
    generalize s.acknowledge (s.receivedAckno ackno) window = t at hinv hstate ⊢
    -- only a sender whose SYN is acknowledged goes on to fill its window
    have hfill : t.state = .synAcked →
        (if t.state = .synAcked then t.fillWindow else t).state = .synAcked ∨
          (if t.state = .synAcked then t.fillWindow else t).state = .finSent := by
      intro ht
      rw [if_pos ht]
      exact fillWindow_state hinv ht
    have hkeep : t.state ≠ .synAcked →
        (if t.state = .synAcked then t.fillWindow else t).state = t.state := by
      intro ht
      rw [if_neg ht]
    refine ⟨fun hs => ?_, fun hs hA1 => ?_, fun hs hA1 => ?_, fun hs => ?_, fun hs => ?_⟩
    · simp only [hs, reduceCtorEq, false_and, if_false] at hstate
      rw [hkeep (by simp [hstate]), hstate]
    · rw [Phase, hs] at hphase
      rw [if_neg (by omega), hs] at hstate
      rw [hkeep (by simp [hstate]), hstate]
    · rw [if_pos ⟨hs, by omega⟩] at hstate
      exact hfill hstate
    · simp only [hs, reduceCtorEq, false_and, if_false] at hstate
      exact hfill hstate
    · simp only [hs, reduceCtorEq, false_and, if_false] at hstate
      rw [hkeep (by simp [hstate]), hstate]
  · have hsame : s.ackReceived ackno window = s := by rw [ackReceived, if_neg hacc]
    rw [hsame]
    refine ⟨id, fun hs _ => hs, fun hs hA1 => ?_, Or.inl, id⟩
    -- with only the SYN in flight, the number one is valid
    rw [Phase, hs] at hphase
    refine absurd ((accepts_iff s ackno).mpr ?_) hacc
    unfold lowEdge
    omega

/-- What a segment acknowledges, seen from the states: the number one takes the sender past its
    SYN. -/
theorem ackReceived_phase (h : SenderInv W H s) (ackno : WrappingInt32) (window : UInt16) :
    ((s.ackReceived ackno window).state = .closed ↔ s.state = .closed) ∧
      ((s.ackReceived ackno window).state = .synSent ↔
        s.state = .synSent ∧ s.receivedAckno ackno ≠ 1) ∧
      ((s.ackReceived ackno window).state = .synAcked ∨
          (s.ackReceived ackno window).state = .finSent ↔
        (s.state = .synAcked ∨ s.state = .finSent) ∨
          (s.state = .synSent ∧ s.receivedAckno ackno = 1)) := by
  obtain ⟨h1, h2, h3, h4, h5⟩ := ackReceived_state h ackno window
  have hphase := h.phase
  rw [Phase] at hphase
  cases hst : s.state <;> rw [hst] at hphase <;> simp only at hphase
  case closed => simp [h1 hst]
  case synSent =>
    by_cases hone : s.receivedAckno ackno = 1
    · rcases h3 hst hone with hs | hs <;> simp [hs, hone]
    · simp [h2 hst hone, hone]
  case synAcked => rcases h4 hst with hs | hs <;> simp [hs]
  case finSent => simp [h5 hst]

/-! ### The summary -/

/-- A sender with an error says so before anything else. -/
theorem error_of_summary (hsummary : s.stateSummary ≠ .error) : s.streamIn.error = false := by
  by_contra hbad
  rw [stateSummary, if_pos (by simpa using hbad)] at hsummary
  exact absurd rfl hsummary

/-- **The summary of a sender is its state**, with the FIN acknowledged where nothing is in
    flight any more. -/
theorem stateSummary_eq (h : SenderInv W H s) (herror : s.streamIn.error = false) :
    s.stateSummary =
      match s.state with
      | .closed => .closed
      | .synSent => .synSent
      | .synAcked => .synAcked
      | _ => if s.bytesInFlight = 0 then .finAcked else .finSent := by
  have hphase := h.phase
  have hacc := s.streamIn.accounted
  rw [Phase] at hphase
  rw [stateSummary, if_neg (by simp [herror])]
  cases hst : s.state <;> rw [hst] at hphase <;> simp only at hphase ⊢
  case closed => rw [if_pos hphase.1]
  case synSent => rw [if_neg (by omega), if_pos (by omega)]
  case synAcked =>
    rw [if_neg (by omega), if_neg (by omega)]
    by_cases heof : s.streamIn.eof = true
    · -- an empty buffer: the next number is one after the bytes written
      have hempty := ((ByteStream.eof_iff _).mp heof).2
      rw [hempty, List.length_nil] at hacc
      rw [if_neg (by simp [heof]), if_pos (by omega)]
    · rw [if_pos (by simpa using heof)]
  case finSent =>
    have hempty := ((ByteStream.eof_iff _).mp hphase.2.2).2
    rw [hempty, List.length_nil] at hacc
    rw [if_neg (by omega), if_neg (by omega), if_neg (by simp [hphase.2.2]), if_neg (by omega)]
    by_cases hzero : s.bytesInFlight = 0
    · rw [if_neg (by simp [hzero]), if_pos hzero]
    · rw [if_pos hzero, if_neg hzero]

end TCPSender

end Sponge
