import Sponge.ConnectionInvariant
import Sponge.ReceiverEnd

namespace Sponge

open TCPSender

/-!
# The states of a connection

A connection has no state variable.  What it is doing is the product of a sender, a receiver and
two flags, and `TCPState` compares that product with the states the TCP specification has names
for.  Three results about every run of a connection, with arbitrary arriving segments:

* `active_eq_false_iff` — without an error, a connection is inactive exactly when both streams
  have ended and it need not linger (any longer);
* `run_onTable_iff` — every state is one of the twelve in the table exactly when no step
  acknowledges our SYN before the peer's has arrived (the state then has a sender that goes on
  and a receiver that listens), and none completes the peer's stream (`TCPReceiver.Completes`)
  while our own SYN is not acknowledged;
* `passive_closer_iff` — a connection whose peer ended first never lingers, exactly when our FIN
  is not sent by the very segment that acknowledges our SYN: `try_clean_shutdown` then never
  sees the sender between the two.
-/

namespace TCPConnection

variable {c : TCPConnection} {seg : TCPSegment}

/-! ### Clean shutdown -/

/-- **Clean shutdown.**  Without an error, a connection is inactive exactly when the inbound stream
    has ended, the sender's FIN is acknowledged, and the connection does not linger or has lingered
    long enough. -/
theorem active_eq_false_iff (cfg : TCPConfig) (randSender randReceiver : WrappingInt32)
    (ops : List ConnectionOp)
    (herror : (run cfg randSender randReceiver ops).sender.streamIn.error = false) :
    (run cfg randSender randReceiver ops).active = false ↔
      (run cfg randSender randReceiver ops).inboundStream.inputEnded = true ∧
        (run cfg randSender randReceiver ops).sender.stateSummary = .finAcked ∧
        ((run cfg randSender randReceiver ops).lingerAfterStreamsFinish = false ∨
          (run cfg randSender randReceiver ops).timeSinceLastSegmentReceived
            ≥ 10 * ((run cfg randSender randReceiver ops).cfg.rtTimeout.toNat : Int)) := by
  have h := run_inv cfg randSender randReceiver ops
  generalize run cfg randSender randReceiver ops = c at h herror ⊢
  rw [h.finAcked_iff herror]
  constructor
  · intro hinactive
    rcases h.inactive hinactive with herr | ⟨hfin, hend⟩
    · rw [herror] at herr
      exact absurd herr (by simp)
    · exact ⟨hend, hfin, (h.closed_iff herror hend hfin).mp hinactive⟩
  · rintro ⟨hend, hfin, hwhy⟩
    exact (h.closed_iff herror hend hfin).mpr hwhy

/-- An active close, to the end of the time the connection lingers. -/
theorem active_eq_false_of_lingered :
    (run {} ⟨0⟩ ⟨0⟩
      [.connect,
        .segmentReceived { header :=
          { syn := true, ack := true, seqno := ⟨100⟩, ackno := ⟨1⟩, win := 100 } },
        .endInputStream,
        .segmentReceived { header := { ack := true, seqno := ⟨101⟩, ackno := ⟨2⟩, win := 100 } },
        .segmentReceived { header :=
          { fin := true, ack := true, seqno := ⟨101⟩, ackno := ⟨2⟩, win := 100 } },
        .tick 10000]).active = false :=
  (active_eq_false_iff {} ⟨0⟩ ⟨0⟩ _ (by decide)).mpr (by decide)

/-! ### The table -/

/-- The state is one the specification has a name for. -/
def OnTable (c : TCPConnection) : Prop := ∃ st : TCPState.State, c.state = .ofState st

instance (c : TCPConnection) : Decidable c.OnTable :=
  decidable_of_iff (c.state ∈ [TCPState.State.listen, .synRcvd, .synSent, .established, .closeWait,
    .lastAck, .finWait1, .finWait2, .closing, .timeWait, .closed, .reset].map .ofState) (by
      rw [List.mem_map]
      constructor
      · rintro ⟨st, -, hst⟩
        exact ⟨st, hst.symm⟩
      · rintro ⟨st, hst⟩
        exact ⟨st, by cases st <;> simp, hst.symm⟩)

/-- The two combinations that have no name: the peer's stream has ended and our SYN is not
    acknowledged; our SYN is acknowledged and the peer's has not arrived. -/
def OffTable (c : TCPConnection) : Prop :=
  c.sender.streamIn.error = false ∧
    ((c.receiver.streamOut.inputEnded = true ∧ c.sender.state = .synSent) ∨
      (c.receiver.inListen = true ∧ (c.sender.state = .synAcked ∨ c.sender.state = .finSent)))

/-- The receiver's part of the state. -/
theorem receiver_stateSummary (h : Core c) (herror : c.sender.streamIn.error = false) :
    c.receiver.stateSummary =
      if c.receiver.inListen then .listen
      else if c.receiver.streamOut.inputEnded then .finRecv else .synRecv := by
  have herr : c.receiver.streamOut.error = false := by rw [← h.error_eq, herror]
  rw [TCPReceiver.stateSummary, if_neg (by simp [herr]), TCPReceiver.ackno]
  cases c.receiver.inListen <;> simp

/-- The two combinations are not in the table. -/
theorem OffTable.not_onTable (hoff : c.OffTable) (h : Core c) : ¬ c.OnTable := by
  obtain ⟨W, H, hinv⟩ := h.sender
  obtain ⟨herror, hwhy⟩ := hoff
  have hsender := stateSummary_eq hinv herror
  have hreceiver := receiver_stateSummary h herror
  rintro ⟨st, hst⟩
  rw [state, TCPState.ofParts, hsender, hreceiver] at hst
  -- no row has the peer's FIN with our SYN in flight, and none has our SYN acknowledged in LISTEN
  rcases hwhy with ⟨hend, hsent⟩ | ⟨hlisten, hpast⟩
  · have hheard := h.heard hend
    simp only [hsent, hend, hheard, if_true, Bool.false_eq_true, if_false] at hst
    cases st <;> simp [TCPState.ofState] at hst
  · rcases hpast with hacked | hfin
    · simp only [hacked, hlisten, if_true] at hst
      cases st <;> simp [TCPState.ofState] at hst
    · simp only [hfin, hlisten, if_true] at hst
      by_cases hzero : c.sender.bytesInFlight = 0
      · cases st <;> simp [TCPState.ofState, hzero] at hst
      · cases st <;> simp [TCPState.ofState, hzero] at hst

/-- A connection in error is reset. -/
theorem Core.onTable_of_error (h : Core c) (herror : c.sender.streamIn.error = true) :
    c.OnTable := by
  refine ⟨.reset, ?_⟩
  rw [state, TCPState.ofParts, stateSummary, if_pos herror, TCPReceiver.stateSummary,
    if_pos (by rw [← h.error_eq, herror]), active, (h.dead herror).1]
  rfl

/-- No SYN has arrived: `LISTEN` or `SYN_SENT`. -/
theorem Core.onTable_of_listen (h : Core c) (herror : c.sender.streamIn.error = false)
    (hoff : ¬ c.OffTable) (hlisten : c.receiver.inListen = true) : c.OnTable := by
  obtain ⟨W, H, hinv⟩ := h.sender
  have hphase := hinv.phase
  rw [Phase] at hphase
  have hend := h.listen hlisten
  have ha := h.active_of_going herror (by simp [hend])
  have hl := h.linger_of_going herror (by simp [hend])
  unfold OnTable state TCPState.ofParts active
  rw [stateSummary_eq hinv herror, receiver_stateSummary h herror]
  cases hst : c.sender.state <;> rw [hst] at hphase <;> simp only at hphase
  case closed => exact ⟨.listen, by simp [TCPState.ofState, hlisten, ha, hl]⟩
  case synSent => exact ⟨.synSent, by simp [TCPState.ofState, hlisten, ha, hl]⟩
  case synAcked => exact absurd ⟨herror, Or.inr ⟨hlisten, Or.inl hst⟩⟩ hoff
  case finSent => exact absurd ⟨herror, Or.inr ⟨hlisten, Or.inr hst⟩⟩ hoff

/-- The inbound stream is open: from `SYN_RCVD` to `FIN_WAIT_2`. -/
theorem Inv.onTable_of_open (h : Inv c) (herror : c.sender.streamIn.error = false)
    (hheard : c.receiver.inListen = false) (hopen : c.receiver.streamOut.inputEnded = false) :
    c.OnTable := by
  obtain ⟨W, H, hinv⟩ := h.sender
  have hphase := hinv.phase
  rw [Phase] at hphase
  have hsyn := h.opened herror hheard
  have ha := h.active_of_going herror (by simp [hopen])
  have hl := h.linger_of_going herror (by simp [hopen])
  unfold OnTable state TCPState.ofParts active
  rw [stateSummary_eq hinv herror, receiver_stateSummary h.toCore herror]
  -- the SYN of the peer has arrived, so ours is out; the phase of the sender gives the row
  cases hst : c.sender.state <;> rw [hst] at hphase hsyn <;> simp only at hphase
  case closed => exact absurd rfl hsyn
  case synSent => exact ⟨.synRcvd, by simp [TCPState.ofState, hheard, hopen, ha, hl]⟩
  case synAcked => exact ⟨.established, by simp [TCPState.ofState, hheard, hopen, ha, hl]⟩
  case finSent =>
    by_cases hzero : c.sender.bytesInFlight = 0
    · exact ⟨.finWait2, by simp [TCPState.ofState, hheard, hopen, hzero, ha, hl]⟩
    · exact ⟨.finWait1, by simp [TCPState.ofState, hheard, hopen, hzero, ha, hl]⟩

/-- The inbound stream has ended: from `CLOSE_WAIT` to `CLOSED`. -/
theorem Inv.onTable_of_ended (h : Inv c) (herror : c.sender.streamIn.error = false)
    (hoff : ¬ c.OffTable) (hend : c.receiver.streamOut.inputEnded = true) : c.OnTable := by
  obtain ⟨W, H, hinv⟩ := h.sender
  have hphase := hinv.phase
  rw [Phase] at hphase
  have hheard := h.heard hend
  have hsyn := h.opened herror hheard
  unfold OnTable state TCPState.ofParts active
  rw [stateSummary_eq hinv herror, receiver_stateSummary h.toCore herror]
  -- with the peer's stream ended, `synSent` is the one phase without a row
  cases hst : c.sender.state <;> rw [hst] at hphase hsyn <;> simp only at hphase
  case closed => exact absurd rfl hsyn
  case synSent => exact absurd ⟨herror, Or.inl ⟨hend, hst⟩⟩ hoff
  case synAcked =>
    have ha := h.active_of_going herror (fun hf => absurd hf.1.1 (by simp [hst]))
    have hl := h.cleared herror hend hst
    exact ⟨.closeWait, by simp [TCPState.ofState, hheard, hend, ha, hl]⟩
  case finSent =>
    by_cases hzero : c.sender.bytesInFlight = 0
    · -- lingering, or closed at once
      have hiff := h.closed_iff herror hend ⟨hst, hzero⟩
      by_cases ha : c.actived = true
      · have hl : c.lingerAfterStreamsFinish = true := by
          by_contra hlin
          have hina := hiff.mpr (Or.inl (by simpa using hlin))
          rw [ha] at hina
          exact absurd hina (by simp)
        exact ⟨.timeWait, by simp [TCPState.ofState, hheard, hend, hzero, ha, hl]⟩
      · exact ⟨.closed, by simp [TCPState.ofState, hheard, hend, hzero, ha]⟩
    · have ha := h.active_of_going herror (fun hf => hzero hf.1.2)
      by_cases hl : c.lingerAfterStreamsFinish = true
      · exact ⟨.closing, by simp [TCPState.ofState, hheard, hend, hzero, ha, hl]⟩
      · exact ⟨.lastAck, by simp [TCPState.ofState, hheard, hend, hzero, ha, hl]⟩

/-- **Between two calls there are no other combinations outside the table.** -/
theorem onTable_iff (h : Inv c) : c.OnTable ↔ ¬ c.OffTable := by
  refine ⟨fun hon hoff => hoff.not_onTable h.toCore hon, fun hoff => ?_⟩
  cases herror : c.sender.streamIn.error with
  | true => exact h.toCore.onTable_of_error herror
  | false =>
    cases hlisten : c.receiver.inListen with
    | true => exact h.toCore.onTable_of_listen herror hoff hlisten
    | false =>
      cases hend : c.receiver.streamOut.inputEnded with
      | true => exact h.onTable_of_ended herror hoff hend
      | false => exact h.onTable_of_open herror hlisten hend

/-! ### The steps that leave the table -/

/-- The segment acknowledges our SYN, while that is in flight. -/
def AcksSyn (c : TCPConnection) (seg : TCPSegment) : Prop :=
  seg.header.ack = true ∧ c.sender.receivedAckno seg.header.ackno = 1

instance (c : TCPConnection) (seg : TCPSegment) : Decidable (c.AcksSyn seg) := by
  unfold AcksSyn; infer_instance

/-- The step stays on the table: an arriving segment does not acknowledge our SYN before the peer's
    has arrived, and does not complete the peer's stream while our SYN is unsent or stays
    unacknowledged. -/
def KeepsToTable (c : TCPConnection) : ConnectionOp → Prop
  | .segmentReceived seg => c.active = true → seg.header.rst = false →
      ¬ (c.receiver.inListen = true ∧ seg.header.syn = false ∧ c.sender.state = .synSent ∧
        c.AcksSyn seg) ∧
      ¬ (c.receiver.Completes seg ∧
        (c.sender.state = .closed ∨ (c.sender.state = .synSent ∧ ¬ c.AcksSyn seg)))
  | _ => True

instance (c : TCPConnection) : DecidablePred c.KeepsToTable
  | .segmentReceived _ => by unfold KeepsToTable; infer_instance
  | .connect | .write _ | .endInputStream | .tick _ | .read _ | .pop _ | .popSegment =>
      isTrue trivial

/-- The sender's state after both sides have got a segment. -/
theorem deliver_phase (h : Core c) (seg : TCPSegment) :
    ((c.deliver seg).sender.state = .closed ↔ c.sender.state = .closed) ∧
      ((c.deliver seg).sender.state = .synSent ↔ c.sender.state = .synSent ∧ ¬ c.AcksSyn seg) ∧
      ((c.deliver seg).sender.state = .synAcked ∨ (c.deliver seg).sender.state = .finSent ↔
        (c.sender.state = .synAcked ∨ c.sender.state = .finSent) ∨
          (c.sender.state = .synSent ∧ c.AcksSyn seg)) := by
  obtain ⟨W, H, hinv⟩ := h.sender
  unfold deliver AcksSyn
  by_cases hack : seg.header.ack = true
  · simpa only [hack, if_true, true_and] using
      ackReceived_phase hinv seg.header.ackno seg.header.win
  · simp [hack]

/-- What leads off the table from a step that sends was off it before. -/
theorem offTable_of_step (h : Inv c) {d : TCPConnection} (hoff : d.OffTable)
    (herror : d.sender.streamIn.error = c.sender.streamIn.error)
    (hended : d.receiver.streamOut.inputEnded = c.receiver.streamOut.inputEnded)
    (hlisten : d.receiver.inListen = c.receiver.inListen)
    (hsyn : d.sender.state = .synSent → c.sender.state = .closed ∨ c.sender.state = .synSent)
    (hpast : d.sender.state = .synAcked ∨ d.sender.state = .finSent →
      c.sender.state = .synAcked ∨ c.sender.state = .finSent) : c.OffTable := by
  obtain ⟨herr, hwhy⟩ := hoff
  rw [herror] at herr
  refine ⟨herr, ?_⟩
  rw [hended, hlisten] at hwhy
  rcases hwhy with ⟨hend, hsent⟩ | ⟨hl, hp⟩
  · refine Or.inl ⟨hend, (hsyn hsent).resolve_left (fun hclosed => ?_)⟩
    -- the peer's stream has ended, so its SYN has arrived and ours is sent
    exact h.opened herr (h.heard hend) hclosed
  · exact Or.inr ⟨hl, hpast hp⟩

/-- Sending never leads off the table: the state of the sender moves on only from CLOSED to
    SYN_SENT, or past the acknowledged SYN. -/
theorem sendSegment_offTable (h : Inv c) (hoff : c.sendSegment.OffTable) : c.OffTable := by
  obtain ⟨W, H, hinv⟩ := h.sender
  obtain ⟨new, hf⟩ := fillWindow_filled hinv
  obtain ⟨hsyn, hpast⟩ := fillWindow_phase hinv
  exact offTable_of_step h hoff hf.error rfl rfl hsyn.mp hpast.mp

/-- Neither does a tick, which leaves the state of the sender as it is or resets the connection. -/
theorem tick_offTable (h : Inv c) {ms : Nat} (hoff : (c.tick ms).OffTable) : c.OffTable := by
  by_cases hinactive : c.active = false
  · rwa [tick_of_inactive hinactive] at hoff
  · obtain ⟨-, hstream, -, -, -, hstate, -⟩ := c.sender.tick_cases ms
    rw [tick, if_neg hinactive] at hoff
    dsimp only at hoff
    split at hoff
    · -- a connection that has given up is reset
      exact absurd hoff.1 (by simp [killConnection, ByteStream.setError])
    · refine offTable_of_step h hoff ?_ ?_ ?_ ?_ ?_ <;>
        simp only [tryCleanShutdown_frame, fetchSegment, hstream, hstate]
      · exact Or.inr
      · exact id

/-- While our SYN is not acknowledged, a connection on the table has an open inbound stream, which
    is ended by exactly the segments that complete it. -/
theorem completes_iff_ended (h : Inv c) (hrest : c.receiver.reassembler.Resting)
    (hon : ¬ c.OffTable) (herror : c.sender.streamIn.error = false)
    (hsyn : c.sender.state = .closed ∨ c.sender.state = .synSent) (seg : TCPSegment) :
    (c.receiver.segmentReceived seg).streamOut.inputEnded = true ↔ c.receiver.Completes seg := by
  refine TCPReceiver.segmentReceived_ended_iff hrest ?_ seg
  by_contra hend
  have hend : c.receiver.streamOut.inputEnded = true := by simpa using hend
  rcases hsyn with hclosed | hsent
  · exact h.opened herror (h.heard hend) hclosed
  · exact hon ⟨herror, Or.inl ⟨hend, hsent⟩⟩

/-- **A segment** leads off the table in the two ways that `KeepsToTable` excludes. -/
theorem segmentReceived_offTable_iff (h : Inv c) (hrest : c.receiver.reassembler.Resting)
    (hon : ¬ c.OffTable) (seg : TCPSegment) :
    (c.segmentReceived seg).OffTable ↔ ¬ c.KeepsToTable (.segmentReceived seg) := by
  unfold KeepsToTable
  -- an inactive connection ignores the segment, and a RST is an error, which has a row of its own
  by_cases hactive : c.active = true
  swap
  · rw [segmentReceived_of_inactive (by simpa using hactive)]
    simp [hactive, hon]
  by_cases hrst : seg.header.rst = true
  · have herr : (c.segmentReceived seg).sender.streamIn.error = true := by
      rw [segmentReceived_of_rst hactive hrst]
      rfl
    simp [OffTable, herr, hrst]
  have hrst : seg.header.rst = false := by simpa using hrst
  have hcore := h.toCore.deliver seg
  obtain ⟨W, H, hinv⟩ := hcore.sender
  have herror := h.toCore.noError hactive
  obtain ⟨hreceiver, hsender⟩ := respond_sides hcore hactive seg
  have herror' : ((c.deliver seg).respond seg).sender.streamIn.error = false := by
    rw [((hcore.respond hactive seg).error_eq), hreceiver, ← hcore.error_eq]
    exact hcore.noError hactive
  obtain ⟨hlisten, -⟩ := segmentReceived_inListen c.receiver seg
  obtain ⟨hclosed, hsyn, hpast⟩ := deliver_phase h.toCore seg
  obtain ⟨hfsyn, hfpast⟩ := fillWindow_phase hinv
  have hnotpast : c.receiver.inListen = true →
      ¬ (c.sender.state = .synAcked ∨ c.sender.state = .finSent) :=
    fun hl hp => hon ⟨herror, Or.inr ⟨hl, hp⟩⟩
  rw [segmentReceived_eq hactive hrst, OffTable, hreceiver, hsender, and_iff_right (by
    rw [← hsender]; exact herror')]
  by_cases hl : (c.deliver seg).receiver.inListen = true
  · -- no SYN has arrived: only the acknowledgment counts
    have hopen : (c.receiver.segmentReceived seg).streamOut.inputEnded = false := hcore.listen hl
    obtain ⟨hlis, hnosyn⟩ := hlisten.mp hl
    have hacked : (c.deliver seg).sender.state = .synAcked ∨
        (c.deliver seg).sender.state = .finSent ↔ c.sender.state = .synSent ∧ c.AcksSyn seg := by
      rw [hpast, or_iff_right (hnotpast hlis)]
    have hend : (c.deliver seg).receiver.streamOut.inputEnded = false := hopen
    have hnot : ¬ c.receiver.Completes seg := by
      intro hcompletes
      exact absurd (hcompletes.1.1 hlis) (by simp [hnosyn])
    simp only [hl, if_true, hend, hacked, hactive, hrst, hlis, hnosyn, hnot, Bool.false_eq_true,
      false_and, true_and, false_or, not_false_eq_true, and_true, forall_true_left, not_not]
  · -- the SYN has arrived, at the latest now: only the end of the peer's stream counts
    have hheard : ¬ (c.receiver.inListen = true ∧ seg.header.syn = false) :=
      fun hboth => hl (hlisten.mpr hboth)
    have hsent : (c.deliver seg).sender.fillWindow.state = .synSent ↔
        c.sender.state = .closed ∨ (c.sender.state = .synSent ∧ ¬ c.AcksSyn seg) := by
      rw [hfsyn, hclosed, hsyn]
    have hfirst : ¬ (c.receiver.inListen = true ∧ seg.header.syn = false ∧
        c.sender.state = .synSent ∧ c.AcksSyn seg) := fun hall => hheard ⟨hall.1, hall.2.1⟩
    have hend : (c.deliver seg).receiver.streamOut.inputEnded = true ∧
        (c.sender.state = .closed ∨ (c.sender.state = .synSent ∧ ¬ c.AcksSyn seg)) ↔
        c.receiver.Completes seg ∧
          (c.sender.state = .closed ∨ (c.sender.state = .synSent ∧ ¬ c.AcksSyn seg)) :=
      and_congr_left fun hstate =>
        completes_iff_ended h hrest hon herror (hstate.imp_right And.left) seg
    simp only [hl, Bool.false_eq_true, if_false, hsent, hend, hactive, hrst, hfirst, false_and,
      or_false, not_false_eq_true, true_and, forall_true_left, not_not]

/-- **Step lemma.**  Every call leaves the reassembler of the inbound stream at rest. -/
theorem apply_resting (h : Inv c) (hrest : c.receiver.reassembler.Resting) (op : ConnectionOp) :
    (c.apply op).receiver.reassembler.Resting := by
  rcases apply_receiver h op with hr | hr | ⟨op', hr⟩ <;> rw [hr]
  · exact hrest
  · exact ⟨hrest.ahead, hrest.closed, hrest.count_lt⟩
  · exact TCPReceiver.apply_resting hrest op'

/-- **One step**, from a state of the table. -/
theorem apply_onTable_iff (h : Inv c) (hrest : c.receiver.reassembler.Resting) (hon : c.OnTable)
    (op : ConnectionOp) :
    (c.apply op).OnTable ↔ c.KeepsToTable op := by
  have hnot := (onTable_iff h).mp hon
  rw [onTable_iff (h.apply op)]
  cases op with
  | segmentReceived seg =>
    rw [TCPConnection.apply, segmentReceived_offTable_iff h hrest hnot, not_not]
  -- every other call leaves the receiver in LISTEN and the acknowledgments as they are
  | connect => exact ⟨fun _ => trivial, fun _ hoff => hnot (sendSegment_offTable h hoff)⟩
  | write data =>
    refine ⟨fun _ => trivial, fun _ hoff => hnot ?_⟩
    obtain ⟨herr, hwhy⟩ := sendSegment_offTable (h.written data) hoff
    exact ⟨by rw [← herr]; exact (ByteStream.write_error _ _).symm, hwhy⟩
  | endInputStream =>
    refine ⟨fun _ => trivial, fun _ hoff => ?_⟩
    have hbefore := sendSegment_offTable h.inputEnded hoff
    exact hnot hbefore
  | tick ms => exact ⟨fun _ => trivial, fun _ hoff => hnot (tick_offTable h hoff)⟩
  | read len =>
    refine ⟨fun _ => trivial, fun _ hoff => hnot ?_⟩
    exact offTable_of_step h hoff rfl (ByteStream.read_inputEnded _ _) rfl Or.inr id
  | pop len => exact ⟨fun _ => trivial, fun _ hoff => hnot hoff⟩
  | popSegment => exact ⟨fun _ => trivial, fun _ hoff => hnot hoff⟩

/-- **The states of a connection are TCP states**, in every state of a run, if and only if every
    step of the run meets `KeepsToTable`. -/
theorem run_onTable_iff (cfg : TCPConfig) (randSender randReceiver : WrappingInt32)
    (ops : List ConnectionOp) :
    Run.Always apply OnTable (new cfg randSender randReceiver) ops ↔
      Run.Steps apply KeepsToTable (new cfg randSender randReceiver) ops :=
  Run.always_iff_steps (I := fun c => Inv c ∧ c.receiver.reassembler.Resting) (A := fun _ => True)
    (fun _ op _ h => ⟨h.1.apply op, apply_resting h.1 h.2 op⟩)
    (fun _ op _ h hon => apply_onTable_iff h.1 h.2 hon op) (fun _ _ => trivial)
    ⟨new_inv cfg randSender randReceiver, StreamReassembler.new_resting _⟩ ⟨.listen, rfl⟩

/-- An ACK of our SYN before the peer's SYN, and a SYN that comes with the FIN. -/
theorem state_off_table :
    ¬ (run {} ⟨0⟩ ⟨0⟩ [.connect, .segmentReceived { header :=
        { ack := true, seqno := ⟨100⟩, ackno := ⟨1⟩, win := 10 } }]).OnTable ∧
      ¬ (run {} ⟨0⟩ ⟨0⟩ [.segmentReceived { header :=
        { syn := true, fin := true, seqno := ⟨100⟩, win := 10 } }]).OnTable := by
  decide

/-! ### The passive closer -/

/-- Once its FIN is sent, the connection does not linger. -/
def NotLingering (c : TCPConnection) : Prop :=
  c.sender.stateSummary = .finSent ∨ c.sender.stateSummary = .finAcked →
    c.lingerAfterStreamsFinish = false

/-- The step does not hide the acknowledgment of our SYN from `try_clean_shutdown`: the segment
    that acknowledges it does not let the whole outbound stream go out, FIN included. -/
def ShowsSynAcked (c : TCPConnection) : ConnectionOp → Prop
  | .segmentReceived seg =>
      ¬ (c.active = true ∧ seg.header.rst = false ∧ c.sender.state = .synSent ∧ c.AcksSyn seg ∧
        c.sender.streamIn.inputEnded = true ∧
        c.sender.streamIn.bufferSize < max 1 seg.header.win.toNat)
  | _ => True

instance (c : TCPConnection) : Decidable c.NotLingering := by unfold NotLingering; infer_instance

instance (c : TCPConnection) : DecidablePred c.ShowsSynAcked
  | .segmentReceived _ => by unfold ShowsSynAcked; infer_instance
  | .connect | .write _ | .endInputStream | .tick _ | .read _ | .pop _ | .popSegment =>
      isTrue trivial

/-- The summaries `FIN_SENT` and `FIN_ACKED` are what they say. -/
theorem Core.finSent_iff (h : Core c) (herror : c.sender.streamIn.error = false) :
    c.sender.stateSummary = .finSent ∨ c.sender.stateSummary = .finAcked ↔
      c.sender.state = .finSent := by
  obtain ⟨W, H, hinv⟩ := h.sender
  have hphase := hinv.phase
  rw [stateSummary_eq hinv herror]
  rw [Phase] at hphase
  cases hst : c.sender.state <;> rw [hst] at hphase <;> simp at hphase ⊢
  omega

/-- A connection in error does not linger. -/
theorem notLingering_of_error (herror : c.sender.streamIn.error = true) : c.NotLingering := by
  have hsum : c.sender.stateSummary = .error := by rw [stateSummary, if_pos herror]
  intro hfin
  rw [hsum] at hfin
  simp at hfin

/-- `try_clean_shutdown` clears the flag or leaves it. -/
theorem tryCleanShutdown_linger (c : TCPConnection) :
    (c.lingerAfterStreamsFinish = false → c.tryCleanShutdown.lingerAfterStreamsFinish = false) ∧
      (c.sender.stateSummary ≠ .synAcked →
        c.tryCleanShutdown.lingerAfterStreamsFinish = c.lingerAfterStreamsFinish) := by
  obtain ⟨-, hst, hc⟩ | ⟨-, -, -, hc⟩ | ⟨hc, -⟩ := c.tryCleanShutdown_cases <;> rw [hc]
  · exact ⟨fun _ => rfl, fun hne => absurd hst hne⟩
  · exact ⟨id, fun _ => rfl⟩
  · exact ⟨id, fun _ => rfl⟩

/-- The flag is never set again. -/
theorem apply_linger (h : Inv c) (hl : c.lingerAfterStreamsFinish = false) (op : ConnectionOp) :
    (c.apply op).lingerAfterStreamsFinish = false := by
  cases op with
  | connect => exact hl
  | write data => exact hl
  | endInputStream => exact hl
  | read len => exact hl
  | pop len => exact hl
  | popSegment => exact hl
  | tick ms =>
    show (c.tick ms).lingerAfterStreamsFinish = false
    by_cases hinactive : c.active = false
    · rwa [tick_of_inactive hinactive]
    · rw [tick, if_neg hinactive]
      dsimp only
      -- too many retransmissions reset the connection and clear the flag
      split
      · rfl
      · exact (tryCleanShutdown_linger _).1 hl
  | segmentReceived seg =>
    show (c.segmentReceived seg).lingerAfterStreamsFinish = false
    by_cases hactive : c.active = true
    · by_cases hrst : seg.header.rst = true
      · rw [segmentReceived_of_rst hactive hrst]
        rfl
      · rw [segmentReceived_eq hactive (by simpa using hrst),
          respond_eq (h.toCore.deliver seg) hactive]
        split
        · exact hl
        · obtain ⟨-, -, -, hlin, -⟩ := (c.deliver seg).tryCleanShutdown.sendAnswer_frame seg
          rw [hlin]
          exact (tryCleanShutdown_linger _).1 hl
    · rwa [segmentReceived_of_inactive (by simpa using hactive)]

/-- The error flag stays. -/
theorem apply_error (h : Inv c) (herror : c.sender.streamIn.error = true) (op : ConnectionOp) :
    (c.apply op).sender.streamIn.error = true := by
  obtain ⟨W, H, hinv⟩ := h.sender
  have hinactive : c.active = false := (h.dead herror).1
  cases op with
  | connect => exact (fillWindow_onward hinv).error.trans herror
  | write data =>
    exact (fillWindow_onward (write_inv hinv data)).error.trans
      ((ByteStream.write_error _ _).trans herror)
  | endInputStream => exact (fillWindow_onward (endInput_inv hinv)).error.trans herror
  | tick ms => rw [TCPConnection.apply, tick_of_inactive hinactive, herror]
  | segmentReceived seg =>
    rw [TCPConnection.apply, segmentReceived_of_inactive hinactive, herror]
  | read len => exact herror
  | pop len => exact herror
  | popSegment => exact herror

/-- The FIN goes out with the acknowledgment of the SYN exactly when the outbound stream has ended
    and the window is larger than what is left of it. -/
theorem ackReceived_finSent_iff {W : List UInt8} {H : List (Nat × TCPSegment)} {s : TCPSender}
    (h : SenderInv W H s) (hopen : s.streamIn.endOutput = false) (hsent : s.state = .synSent)
    {ackno : WrappingInt32} (hone : s.receivedAckno ackno = 1) (window : UInt16) :
    (s.ackReceived ackno window).state = .finSent ↔
      s.streamIn.inputEnded = true ∧ s.streamIn.bufferSize < max 1 window.toNat := by
  have hphase := h.phase
  rw [Phase, hsent] at hphase
  have hacc : s.accepts ackno = true := by
    rw [accepts_iff, lowEdge]
    omega
  obtain ⟨hA, -⟩ := (accepts_iff s ackno).mp hacc
  have hsettled := acknowledge_settled h hA window
  have hstate : (s.acknowledge (s.receivedAckno ackno) window).state = .synAcked := by
    rw [acknowledge_state h hA, if_pos ⟨hsent, by omega⟩]
  have hflight : (s.acknowledge (s.receivedAckno ackno) window).bytesInFlight = 0 := by
    have hphase' := hsettled.inv.phase
    rw [Phase, hstate, hsettled.next] at hphase'
    omega
  rw [ackReceived, if_pos hacc]
  dsimp only
  rw [if_pos hstate, fillWindow_finSent_iff hsettled.inv (by rw [hsettled.stream, hopen]) hstate,
    hsettled.stream, hflight, fillSize_eq, hsettled.window_eq, Nat.zero_add]

/-- After a segment, for a connection whose peer has ended its stream: the flag is the one the first
    look of `try_clean_shutdown` leaves, and the FIN is sent if filling the window has sent it. -/
theorem segmentReceived_notLingering (h : Inv c) (hend : c.receiver.streamOut.inputEnded = true)
    (hactive : c.active = true) {seg : TCPSegment} (hrst : seg.header.rst = false) :
    (c.segmentReceived seg).NotLingering ↔
      ((c.deliver seg).sender.fillWindow.state = .finSent →
        (c.deliver seg).tryCleanShutdown.lingerAfterStreamsFinish = false) := by
  have hcore := h.toCore.deliver seg
  have hfinal := hcore.respond hactive seg
  obtain ⟨hreceiver, hsender⟩ := respond_sides hcore hactive seg
  have hheard : ¬ (c.deliver seg).receiver.inListen = true := by
    intro hlisten
    have hboth := (segmentReceived_inListen c.receiver seg).1.mp hlisten
    rw [h.heard hend] at hboth
    exact absurd hboth.1 (by simp)
  have herror : ((c.deliver seg).respond seg).sender.streamIn.error = false := by
    rw [hfinal.error_eq, hreceiver, ← hcore.error_eq]
    exact hcore.noError hactive
  have hflag : ((c.deliver seg).respond seg).lingerAfterStreamsFinish
      = (c.deliver seg).tryCleanShutdown.lingerAfterStreamsFinish := by
    rw [respond_eq hcore hactive, if_neg hheard]
    exact ((c.deliver seg).tryCleanShutdown.sendAnswer_frame seg).2.2.2.1
  rw [segmentReceived_eq hactive hrst, NotLingering, hfinal.finSent_iff herror, hflag, hsender,
    if_neg hheard]

/-- **A segment for a connection whose peer has ended its stream and whose SYN is in flight.** -/
theorem segmentReceived_notLingering_iff (h : Inv c)
    (hend : c.receiver.streamOut.inputEnded = true) (herror : c.sender.streamIn.error = false)
    (hsent : c.sender.state = .synSent) (seg : TCPSegment) :
    (c.segmentReceived seg).NotLingering ↔ c.ShowsSynAcked (.segmentReceived seg) := by
  have hactive : c.active = true :=
    h.active_of_going herror (fun hboth => absurd hboth.1.1 (by simp [hsent]))
  unfold ShowsSynAcked
  by_cases hrst : seg.header.rst = true
  · have herr : (c.segmentReceived seg).sender.streamIn.error = true := by
      rw [segmentReceived_of_rst hactive hrst]
      rfl
    exact ⟨fun _ => by simp [hrst], fun _ => notLingering_of_error herr⟩
  have hrst : seg.header.rst = false := by simpa using hrst
  obtain ⟨W, H, hinv⟩ := h.sender
  have hcore := h.toCore.deliver seg
  have herror' : (c.deliver seg).sender.streamIn.error = false := hcore.noError hactive
  rw [segmentReceived_notLingering h hend hactive hrst]
  by_cases hacks : c.AcksSyn seg
  · -- our SYN is acknowledged now; the FIN may go out in the same call
    have hdeliver : (c.deliver seg).sender
        = c.sender.ackReceived seg.header.ackno seg.header.win := by
      rw [deliver]
      simp only [hacks.1, if_true]
    have hfin := ackReceived_finSent_iff hinv h.output_open hsent hacks.2 seg.header.win
    rw [← hdeliver] at hfin
    by_cases hout : (c.deliver seg).sender.state = .finSent
    · -- `try_clean_shutdown` sees the FIN sent and leaves the flag
      have hflag : (c.deliver seg).tryCleanShutdown.lingerAfterStreamsFinish = true := by
        rw [(tryCleanShutdown_linger _).2 (by
          rw [ne_eq, hcore.synAcked_iff herror', hout]
          simp)]
        exact h.linger_of_going herror (by simp [hsent])
      have hfill : (c.deliver seg).sender.fillWindow.state = .finSent := by
        rw [fillWindow_idle (by simp [hout]) (by simp [hout]), hout]
      simp [hfill, hflag, hactive, hrst, hsent, hacks, hfin.mp hout]
    · -- it sees the SYN acknowledged and clears the flag
      have hstate : (c.deliver seg).sender.state = .synAcked :=
        ((deliver_phase h.toCore seg).2.2.mpr (Or.inr ⟨hsent, hacks⟩)).resolve_right hout
      have hend' : (c.deliver seg).receiver.streamOut.inputEnded = true :=
        (c.receiver.segmentReceived_advances seg).2.2.2.2 hend
      obtain ⟨hts, -, htr, -⟩ := (c.deliver seg).tryCleanShutdown_frame
      have hflag := (tryCleanShutdown_checked hcore hactive).cleared (by rw [hts, herror'])
        (by rw [htr, hend']) (by rw [hts, hstate])
      refine ⟨fun _ hall => hout (hfin.mpr hall.2.2.2.2), fun _ _ => hflag⟩
  · -- our SYN stays in flight
    have hstate : (c.deliver seg).sender.state = .synSent :=
      (deliver_phase h.toCore seg).2.1.mpr ⟨hsent, hacks⟩
    have hfill : (c.deliver seg).sender.fillWindow.state = .synSent := by
      rw [fillWindow_idle (by simp [hstate]) (by simp [hstate]), hstate]
    simp [hfill, hacks]

/-- The inbound stream stays ended. -/
theorem apply_inputEnded (h : Inv c) (hend : c.receiver.streamOut.inputEnded = true)
    (op : ConnectionOp) : (c.apply op).receiver.streamOut.inputEnded = true := by
  rcases apply_receiver h op with hr | hr | ⟨op', hr⟩ <;> rw [hr]
  · exact hend
  · exact hend
  · exact (c.receiver.apply_onward op').ended hend

/-- A connection whose FIN is not sent does not linger after it. -/
theorem Core.notLingering (h : Core c) (hfin : c.sender.state ≠ .finSent) : c.NotLingering := by
  by_cases herr : c.sender.streamIn.error = true
  · exact notLingering_of_error herr
  · intro hsum
    exact absurd ((h.finSent_iff (by simpa using herr)).mp hsum) hfin

/-- **One step** of a connection whose peer has ended its stream. -/
theorem apply_notLingering_iff (h : Inv c) (hend : c.receiver.streamOut.inputEnded = true)
    (hq : c.NotLingering) (op : ConnectionOp) :
    (c.apply op).NotLingering ↔ c.ShowsSynAcked op := by
  by_cases herr : c.sender.streamIn.error = true
  · -- a connection in error is inactive and stays in error
    refine ⟨fun _ => ?_, fun _ => notLingering_of_error (apply_error h herr op)⟩
    have hinactive : c.active = false := (h.dead herr).1
    cases op <;> simp [ShowsSynAcked, hinactive]
  have herror : c.sender.streamIn.error = false := by simpa using herr
  have hafter := h.apply op
  -- only while our SYN is in flight can the FIN still go out with the flag set
  by_cases hsent : c.sender.state = .synSent
  · obtain ⟨W, H, hinv⟩ := h.sender
    have hno : c.sender.state = .synAcked ∨ c.sender.state = .finSent → False := by simp [hsent]
    -- without an arriving segment the SYN stays in flight, and the FIN is not sent
    cases op with
    | segmentReceived seg => exact segmentReceived_notLingering_iff h hend herror hsent seg
    | connect =>
      obtain ⟨new, hw⟩ := connect_works hinv
      exact ⟨fun _ => trivial, fun _ =>
        hafter.notLingering (fun hfin => hno (hw.sender.closing hfin))⟩
    | write data =>
      obtain ⟨new, hw⟩ := write_works hinv data
      exact ⟨fun _ => trivial, fun _ =>
        hafter.notLingering (fun hfin => hno (hw.sender.closing hfin))⟩
    | endInputStream =>
      obtain ⟨new, hw⟩ := endInputStream_works hinv
      exact ⟨fun _ => trivial, fun _ =>
        hafter.notLingering (fun hfin => hno (hw.sender.closing hfin))⟩
    | tick ms =>
      exact ⟨fun _ => trivial, fun _ =>
        hafter.notLingering (fun hfin => hno ((tick_works hinv ms).sender.closing hfin))⟩
    | read len => exact ⟨fun _ => trivial, fun _ => hq⟩
    | pop len => exact ⟨fun _ => trivial, fun _ => hq⟩
    | popSegment => exact ⟨fun _ => trivial, fun _ => hq⟩
  · -- past the SYN the flag is cleared already, and stays so
    have hflag : c.lingerAfterStreamsFinish = false := by
      obtain ⟨W, H, hinv⟩ := h.sender
      have hphase := hinv.phase
      rw [Phase] at hphase
      cases hst : c.sender.state <;> rw [hst] at hphase hsent <;> simp only at hphase
      case closed =>
        exact absurd hst (h.opened herror (h.heard hend))
      case synSent => exact absurd rfl hsent
      case synAcked => exact h.cleared herror hend hst
      case finSent => exact hq ((h.finSent_iff herror).mpr hst)
    refine ⟨fun _ => ?_, fun _ _ => apply_linger h hflag op⟩
    cases op <;> simp [ShowsSynAcked, hsent]

/-- **The passive closer never lingers.**  After a run in which the inbound stream has ended while
    our FIN was not sent, the connection does not linger in any later state in which the FIN is
    sent, if and only if every later step meets `ShowsSynAcked`. -/
theorem passive_closer_iff (cfg : TCPConfig) (randSender randReceiver : WrappingInt32)
    (ops later : List ConnectionOp)
    (hend : (run cfg randSender randReceiver ops).inboundStream.inputEnded = true)
    (hfin : (run cfg randSender randReceiver ops).sender.state ≠ .finSent) :
    Run.Always apply NotLingering (run cfg randSender randReceiver ops) later ↔
      Run.Steps apply ShowsSynAcked (run cfg randSender randReceiver ops) later := by
  have h := run_inv cfg randSender randReceiver ops
  exact Run.always_iff_steps (A := fun _ => True)
    (I := fun c => Inv c ∧ c.receiver.streamOut.inputEnded = true)
    (fun _ op _ hi => ⟨hi.1.apply op, apply_inputEnded hi.1 hi.2 op⟩)
    (fun _ op _ hi hq => apply_notLingering_iff hi.1 hi.2 hq op) (fun _ _ => trivial)
    ⟨h, hend⟩ (h.notLingering hfin)

/-- The peer ends its stream first; our FIN is sent, and acknowledged, without lingering. -/
theorem passive_closer_closeWait :
    Run.Always apply NotLingering
      (run {} ⟨0⟩ ⟨0⟩
        [.connect,
          .segmentReceived { header :=
            { syn := true, ack := true, seqno := ⟨100⟩, ackno := ⟨1⟩, win := 100 } },
          .segmentReceived { header :=
            { fin := true, ack := true, seqno := ⟨101⟩, ackno := ⟨1⟩, win := 100 } }])
      [.endInputStream,
        .segmentReceived { header := { ack := true, seqno := ⟨102⟩, ackno := ⟨2⟩, win := 100 } }] :=
  (passive_closer_iff {} ⟨0⟩ ⟨0⟩ _ _ (by decide) (by decide)).mpr (by decide)

/-- A SYN with a FIN arrives while we listen, our stream is ended, and the ACK of our SYN lets our
    FIN go out: the connection then lingers although the peer ended first. -/
theorem passive_closer_lingers :
    let c := run {} ⟨0⟩ ⟨0⟩ [.segmentReceived { header :=
      { syn := true, fin := true, seqno := ⟨100⟩, win := 10 } }]
    c.inboundStream.inputEnded = true ∧ c.sender.state ≠ .finSent ∧
      ¬ Run.Always apply NotLingering c
        [.endInputStream,
          .segmentReceived { header :=
            { ack := true, seqno := ⟨102⟩, ackno := ⟨1⟩, win := 10 } }] :=
  ⟨by decide, by decide, fun h => absurd (h _ (List.prefix_refl _)) (by decide)⟩

end TCPConnection

end Sponge
