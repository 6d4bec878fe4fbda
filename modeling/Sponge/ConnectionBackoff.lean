import Sponge.ConnectionQueue
import Sponge.SenderTimer

namespace Sponge

open TCPSender

/-!
# Retransmission and giving up

The number of retransmissions, the timeout and the timer live in the sender; the limit is enforced
by the connection.  `RetxRun` counts, beside a connection, the retransmissions it has placed in its
outbound queue since an acknowledgment last took a segment off the sender's queue.

The sender sets its own count back on every acknowledgment it accepts, also on one that takes
nothing off.  As long as such an acknowledgment meets a count of zero (`Progresses`), the two counts
agree in an active connection, and the limit holds for the retransmissions that were made:
`retransmissions_bounded`.
-/

namespace TCPConnection

variable {c : TCPConnection}

/-! ### Retransmissions of a connection -/

/-- The retransmissions a call puts into the outbound queue: what a tick queues behind the segments
    that were already waiting with the sender, a RST apart. -/
def retransmitted (c : TCPConnection) : ConnectionOp → List TCPSegment
  | .tick ms =>
      ((c.queues (.tick ms)).drop c.sender.segmentsOut.length).filter fun seg => !seg.header.rst
  | _ => []

/-- The segment is looked at, and its acknowledgment accepted. -/
def AckAccepted (c : TCPConnection) (seg : TCPSegment) : Prop :=
  c.active = true ∧ seg.header.rst = false ∧ seg.header.ack = true ∧
    c.sender.accepts seg.header.ackno = true

/-- The call is an acknowledgment that takes a segment off the sender's queue. -/
def Acknowledges (c : TCPConnection) : ConnectionOp → Prop
  | .segmentReceived seg => c.AckAccepted seg ∧ c.sender.removes seg.header.ackno = true
  | _ => False

instance (c : TCPConnection) (seg : TCPSegment) : Decidable (c.AckAccepted seg) := by
  unfold AckAccepted; infer_instance

instance (c : TCPConnection) : DecidablePred c.Acknowledges
  | .segmentReceived _ => by unfold Acknowledges; infer_instance
  | .connect | .write _ | .endInputStream | .tick _ | .read _ | .pop _ | .popSegment =>
      isFalse id

/-- Only one segment is sent when a connection gives up: the RST. -/
theorem tick_gives_up (hactive : c.active = true) (ms : Nat)
    (hmany : (c.sender.tick ms).consecutiveRetransmissions > maxRetxAttempts) :
    (c.tick ms).active = false ∧ (c.tick ms).sender.streamIn.error = true ∧
      (c.tick ms).inboundStream.error = true ∧
      ∃ rst, rst.header.rst = true ∧ c.queues (.tick ms) = [rst] := by
  rw [queues, TCPConnection.apply, tick, if_neg (by simp [hactive])]
  dsimp only
  rw [if_pos hmany]
  refine ⟨rfl, rfl, rfl, ?_⟩
  obtain ⟨rst, hrst, hqueue, -⟩ := sendRstSegment_queue { c with
    timeSinceLastSegmentReceived := (c.timeSinceLastSegmentReceived + ms).bmod (2 ^ 32)
    sender := { c.sender.tick ms with segmentsOut := (c.sender.tick ms).segmentsOut.tail } }
  refine ⟨rst, hrst, ?_⟩
  show (sendRstSegment _).segmentsOut.drop _ = _
  rw [hqueue]
  exact List.drop_left

/-- Otherwise everything in the sender's queue is sent. -/
theorem queues_tick (hactive : c.active = true) {ms : Nat}
    (hfew : ¬ (c.sender.tick ms).consecutiveRetransmissions > maxRetxAttempts) :
    c.queues (.tick ms) =
      (c.sender.tick ms).segmentsOut.map (stamp c.receiver (clampedWindow c.receiver)) := by
  rw [queues, TCPConnection.apply, tick, if_neg (by simp [hactive])]
  dsimp only
  rw [if_neg hfew, (tryCleanShutdown_frame _).2.2.2]
  exact List.drop_left

/-- The acknowledgment that is put on a segment leaves its RST flag alone. -/
theorem stamp_rst (r : TCPReceiver) (win : UInt16) (seg : TCPSegment) :
    (stamp r win seg).header.rst = seg.header.rst := by
  unfold stamp
  split <;> rfl

/-- The retransmission state after a tick is the one the sender's tick leaves. -/
theorem tick_sameRetx (hactive : c.active = true) (ms : Nat) :
    SameRetx (c.tick ms).sender (c.sender.tick ms) := by
  rw [tick, if_neg (by simp [hactive])]
  dsimp only
  split
  · unfold sendRstSegment
    dsimp only
    split
    · exact ⟨rfl, rfl, rfl⟩
    · exact ⟨rfl, rfl, rfl⟩
  · rw [(tryCleanShutdown_frame _).1]
    exact ⟨rfl, rfl, rfl⟩

/-- What is sent in answer to a segment does not touch the retransmission state. -/
theorem segmentReceived_sameRetx (h : Core c) (hactive : c.active = true) {seg : TCPSegment}
    (hrst : seg.header.rst = false) :
    SameRetx (c.segmentReceived seg).sender (c.deliver seg).sender := by
  rw [segmentReceived_eq hactive hrst, (respond_sides (h.deliver seg) hactive seg).2]
  split
  · exact SameRetx.refl _
  · obtain ⟨hcount, hinitial, htimeout⟩ := (c.deliver seg).sender.fillWindow_sameRetx
    exact ⟨hcount, hinitial, htimeout⟩

/-- **The retransmissions of a tick**: one for an expiry within the limit, and none else. -/
theorem retransmitted_tick (h : Core c) (ms : Nat) :
    (c.retransmitted (.tick ms)).length =
      if c.active = true ∧ c.sender.Expires ms ∧
        (c.sender.tick ms).consecutiveRetransmissions ≤ maxRetxAttempts then 1 else 0 := by
  rw [retransmitted]
  by_cases hactive : c.active = true
  swap
  · rw [if_neg (by simp [hactive]), queues, TCPConnection.apply,
      tick_of_inactive (by simpa using hactive), List.drop_length]
    simp
  by_cases hmany : (c.sender.tick ms).consecutiveRetransmissions > maxRetxAttempts
  · obtain ⟨-, -, -, rst, hrst, hqueue⟩ := tick_gives_up hactive ms hmany
    rw [if_neg (by omega), hqueue, List.length_eq_zero_iff, List.filter_eq_nil_iff]
    intro seg hseg
    rw [List.mem_singleton.mp (List.mem_of_mem_drop hseg)]
    simp [hrst]
  rw [queues_tick hactive hmany]
  by_cases hexp : c.sender.Expires ms
  · obtain ⟨front, hfront, hqueue, -⟩ := tick_of_expires hexp
    obtain ⟨W, H, hinv⟩ := h.sender
    -- the copy is of a segment of the sender's, which sets no RST
    have hplain : front.2.header.rst = false := by
      rw [(hinv.sent front (hinv.ledger.last.subset (List.mem_of_mem_head? hfront))).plain]
    rw [if_pos ⟨hactive, hexp, by omega⟩, hqueue, List.map_append,
      List.drop_left' (List.length_map _)]
    simp [stamp_rst, hplain]
  · rw [if_neg (fun hall => hexp hall.2.1), (tick_of_not_expires hexp).2.1,
      List.drop_eq_nil_of_le (by simp)]
    rfl

/-- A connection, and the retransmissions it has made since an acknowledgment last took a segment
    off the sender's queue. -/
structure RetxRun where
  conn : TCPConnection
  retransmissions : Nat := 0

namespace RetxRun

def start (cfg : TCPConfig) (randSender randReceiver : WrappingInt32) : RetxRun :=
  { conn := new cfg randSender randReceiver }

/-- A call on the connection. -/
def step (r : RetxRun) (op : ConnectionOp) : RetxRun where
  conn := r.conn.apply op
  retransmissions :=
    if r.conn.Acknowledges op then 0 else r.retransmissions + (r.conn.retransmitted op).length

/-- An acknowledgment that is accepted and takes nothing off comes only while the sender has
    retransmitted nothing. -/
def Progresses (r : RetxRun) : ConnectionOp → Prop
  | .segmentReceived seg =>
      r.conn.AckAccepted seg → r.conn.sender.removes seg.header.ackno = false →
        r.conn.sender.retransmissionCount = 0
  | _ => True

instance (r : RetxRun) : DecidablePred r.Progresses
  | .segmentReceived _ => by unfold Progresses; infer_instance
  | .connect | .write _ | .endInputStream | .tick _ | .read _ | .pop _ | .popSegment =>
      isTrue trivial

/-- The sender's count agrees with the retransmissions made, and bounds the timeout. -/
structure Backoff (rtTimeout : Nat) (r : RetxRun) : Prop where
  inv : Inv r.conn
  counted : r.conn.active = true → r.conn.sender.retransmissionCount = r.retransmissions
  count_le : r.conn.sender.retransmissionCount ≤ maxRetxAttempts + 1
  retransmissions_le : r.retransmissions ≤ maxRetxAttempts
  initial : r.conn.sender.initialRetransmissionTimeout = rtTimeout
  timeout_le : r.conn.sender.retransmissionTimeout
    ≤ rtTimeout * 2 ^ r.conn.sender.retransmissionCount

variable {rtTimeout : Nat} {r : RetxRun}

/-- The invariant speaks of the retransmission state only. -/
theorem Backoff.same (h : Backoff rtTimeout r) {d : TCPConnection} (hinv : Inv d)
    (hactive : d.active = true → r.conn.active = true) (hsame : SameRetx d.sender r.conn.sender) :
    Backoff rtTimeout { conn := d, retransmissions := r.retransmissions } where
  inv := hinv
  counted := fun hd => hsame.count.trans (h.counted (hactive hd))
  count_le := by rw [hsame.count]; exact h.count_le
  retransmissions_le := h.retransmissions_le
  initial := hsame.initial.trans h.initial
  timeout_le := by rw [hsame.count, hsame.timeout]; exact h.timeout_le

/-- A call that sends what the window allows, from a connection `d` that differs in its streams. -/
theorem Backoff.sendSegment (h : Backoff rtTimeout r) {d : TCPConnection} (hd : Inv d)
    (hactive : d.active = r.conn.active) (hsame : SameRetx d.sender r.conn.sender) :
    Backoff rtTimeout { conn := d.sendSegment, retransmissions := r.retransmissions } := by
  obtain ⟨hcount, hinitial, htimeout⟩ := d.sender.fillWindow_sameRetx.trans hsame
  exact h.same hd.toChecked.sendSegment (fun hact => hactive ▸ hact) ⟨hcount, hinitial, htimeout⟩

/-- **A tick.**  An expiry is counted on both sides, until the limit is passed: then the connection
    is inactive, and nothing has been retransmitted. -/
theorem Backoff.tick (h : Backoff rtTimeout r) (ms : Nat) :
    Backoff rtTimeout
      { conn := r.conn.tick ms
        retransmissions := r.retransmissions + (r.conn.retransmitted (.tick ms)).length } := by
  have hlength := retransmitted_tick h.inv.toCore ms
  by_cases hactive : r.conn.active = true
  swap
  · rw [if_neg (by simp [hactive])] at hlength
    rw [hlength, tick_of_inactive (by simpa using hactive)]
    exact h
  have hsame := tick_sameRetx hactive ms
  by_cases hexp : r.conn.sender.Expires ms
  swap
  · rw [if_neg (fun hall => hexp hall.2.1)] at hlength
    rw [hlength]
    exact h.same (h.inv.tick ms) (fun _ => hactive) (hsame.trans (tick_of_not_expires hexp).1)
  obtain ⟨front, -, -, hi, hc, htimeout, -⟩ := tick_of_expires hexp
  have ht : (r.conn.sender.tick ms).retransmissionTimeout
      ≤ r.conn.sender.retransmissionTimeout * 2 := by
    rw [htimeout]
    split
    · exact Nat.mod_le _ _
    · omega
  have hcounted := h.counted hactive
  have hlimit := h.retransmissions_le
  have hbound := h.timeout_le
  have hconsecutive : (r.conn.sender.tick ms).consecutiveRetransmissions
      = r.retransmissions + 1 := by
    rw [consecutiveRetransmissions, hc, hcounted]
    exact Nat.mod_eq_of_lt (by simp only [maxRetxAttempts] at hlimit; omega)
  rw [hconsecutive] at hlength
  refine ⟨h.inv.tick ms, fun hstill => ?_, ?_, ?_, hsame.initial.trans (hi.trans h.initial), ?_⟩
  · -- still active: the limit is not passed
    have hfew : r.retransmissions + 1 ≤ maxRetxAttempts := by
      by_contra hmany
      have hgone := (tick_gives_up hactive ms (by rw [hconsecutive]; omega)).1
      exact absurd (hgone.symm.trans hstill) (by simp)
    rw [hlength, if_pos ⟨hactive, hexp, hfew⟩, hsame.count, hc, hcounted]
  · rw [hsame.count, hc, hcounted]
    omega
  · show r.retransmissions + (r.conn.retransmitted (.tick ms)).length ≤ maxRetxAttempts
    rw [hlength]
    split <;> omega
  · rw [hsame.count, hsame.timeout, hc, pow_succ, ← Nat.mul_assoc]
    omega

/-- **An accepted acknowledgment.**  One that takes something off sets everything back; the others
    meet a count of zero and leave it. -/
theorem Backoff.ackAccepted (h : Backoff rtTimeout r) {seg : TCPSegment}
    (hack : r.conn.AckAccepted seg) (hprogress : r.Progresses (.segmentReceived seg)) :
    Backoff rtTimeout
      { conn := r.conn.segmentReceived seg
        retransmissions :=
          if r.conn.Acknowledges (.segmentReceived seg) then 0 else r.retransmissions } := by
  obtain ⟨hactive, hrst, hflag, hacc⟩ := hack
  have hnext := h.inv.segmentReceived seg
  have hsender : (r.conn.deliver seg).sender
      = r.conn.sender.ackReceived seg.header.ackno seg.header.win := by simp [deliver, hflag]
  have hsame := segmentReceived_sameRetx h.inv.toCore hactive hrst
  rw [hsender] at hsame
  obtain ⟨hi, hc, ht, -⟩ := ackReceived_timer hacc seg.header.win
  have hcount := hsame.count.trans hc
  by_cases hremoves : r.conn.sender.removes seg.header.ackno = true
  · rw [if_pos hremoves] at ht
    rw [if_pos ⟨⟨hactive, hrst, hflag, hacc⟩, hremoves⟩]
    refine ⟨hnext, fun _ => hcount, by simp [hcount], Nat.zero_le _,
      (hsame.initial.trans hi).trans h.initial, ?_⟩
    simp [hcount, hsame.timeout.trans ht, h.initial]
  · -- the count was zero before, so setting it to zero changes nothing
    rw [if_neg hremoves] at ht
    rw [if_neg (fun hall => hremoves hall.2)]
    have hzero := hprogress ⟨hactive, hrst, hflag, hacc⟩ (by simpa using hremoves)
    exact h.same hnext (fun _ => hactive) (hsame.trans ⟨hc.trans hzero.symm, hi, ht⟩)

/-- **An arriving segment.**  Without an accepted acknowledgment it changes nothing. -/
theorem Backoff.segmentReceived (h : Backoff rtTimeout r) (seg : TCPSegment)
    (hprogress : r.Progresses (.segmentReceived seg)) :
    Backoff rtTimeout
      { conn := r.conn.segmentReceived seg
        retransmissions :=
          if r.conn.Acknowledges (.segmentReceived seg) then 0 else r.retransmissions } := by
  by_cases hack : r.conn.AckAccepted seg
  · exact h.ackAccepted hack hprogress
  rw [if_neg (fun hall => hack hall.1)]
  have hnext := h.inv.segmentReceived seg
  by_cases hactive : r.conn.active = true
  swap
  · rw [segmentReceived_of_inactive (by simpa using hactive)]
    exact h
  by_cases hrst : seg.header.rst = true
  · have hsender : (r.conn.segmentReceived seg).sender
        = { r.conn.sender with streamIn := r.conn.sender.streamIn.setError } := by
      rw [segmentReceived_of_rst hactive hrst]
      rfl
    exact h.same hnext (fun _ => hactive) (by rw [hsender]; exact ⟨rfl, rfl, rfl⟩)
  have hrst : seg.header.rst = false := by simpa using hrst
  -- no ACK flag, or an acknowledgment the sender refuses
  have hsender : (r.conn.deliver seg).sender = r.conn.sender := by
    by_cases hflag : seg.header.ack = true
    · have hacc : ¬ r.conn.sender.accepts seg.header.ackno = true :=
        fun hacc => hack ⟨hactive, hrst, hflag, hacc⟩
      simp [deliver, hflag, ackReceived, hacc]
    · simp [deliver, hflag]
  have hsame := segmentReceived_sameRetx h.inv.toCore hactive hrst
  rw [hsender] at hsame
  exact h.same hnext (fun _ => hactive) hsame

/-- **One step.** -/
theorem Backoff.step (h : Backoff rtTimeout r) {op : ConnectionOp} (hprogress : r.Progresses op) :
    Backoff rtTimeout (r.step op) := by
  cases op with
  | connect => exact h.sendSegment h.inv rfl ⟨rfl, rfl, rfl⟩
  | write data => exact h.sendSegment (h.inv.written data) rfl ⟨rfl, rfl, rfl⟩
  | endInputStream => exact h.sendSegment h.inv.inputEnded rfl ⟨rfl, rfl, rfl⟩
  | tick ms => exact h.tick ms
  | segmentReceived seg => exact h.segmentReceived seg hprogress
  | read len => exact h.same (h.inv.apply (.read len)) id ⟨rfl, rfl, rfl⟩
  | pop len => exact h.same (h.inv.apply (.pop len)) id ⟨rfl, rfl, rfl⟩
  | popSegment => exact h.same (h.inv.apply .popSegment) id ⟨rfl, rfl, rfl⟩

/-- What is promised in every state: the number of retransmissions, what happens at the expiry after
    the last of them, and the timeout. -/
structure Bounded (cfg : TCPConfig) (r : RetxRun) : Prop where
  retransmissions_le : r.retransmissions ≤ maxRetxAttempts
  gives_up : ∀ ms, r.conn.active = true → r.retransmissions = maxRetxAttempts →
    r.conn.sender.Expires ms →
      (r.conn.tick ms).active = false ∧ (r.conn.tick ms).sender.streamIn.error = true ∧
        (r.conn.tick ms).inboundStream.error = true ∧
        ∃ rst, rst.header.rst = true ∧ r.conn.queues (.tick ms) = [rst]
  timeout_le : r.conn.sender.retransmissionTimeout ≤ cfg.rtTimeout.toNat * 2 ^ 9
  doubling : r.conn.sender.retransmissionTimeout * 2 < 2 ^ 32

/-- The invariant gives what is to be shown: the count stays within the limit, the expiry after the
    last attempt gives the connection up, and the doubled timeout fits into its 32 bits. -/
theorem Backoff.bounded {cfg : TCPConfig} (h : Backoff cfg.rtTimeout.toNat r) : Bounded cfg r := by
  have hle : r.conn.sender.retransmissionTimeout ≤ cfg.rtTimeout.toNat * 2 ^ 9 :=
    h.timeout_le.trans (Nat.mul_le_mul_left _ (Nat.pow_le_pow_right (by decide) h.count_le))
  refine ⟨h.retransmissions_le, fun ms hactive hlast hexp => ?_, hle, ?_⟩
  · obtain ⟨front, -, -, -, hc, -⟩ := tick_of_expires hexp
    refine tick_gives_up hactive ms ?_
    rw [consecutiveRetransmissions, hc, h.counted hactive, hlast]
    decide
  · have hsmall := cfg.rtTimeout.toNat_lt
    omega

/-- A fresh connection has sent nothing yet, so all counts are zero. -/
theorem start_backoff (cfg : TCPConfig) (randSender randReceiver : WrappingInt32) :
    Backoff cfg.rtTimeout.toNat (start cfg randSender randReceiver) where
  inv := new_inv cfg randSender randReceiver
  counted := fun _ => rfl
  count_le := Nat.zero_le _
  retransmissions_le := Nat.zero_le _
  initial := rfl
  timeout_le := by simp [start, new, TCPSender.new]

/-- **Bounded retransmission.**  In every run in which an acknowledgment that is accepted and takes
    nothing off meets a sender that has retransmitted nothing: at most `maxRetxAttempts`
    retransmissions between two acknowledgments that take a segment off, the connection gives up at
    the next expiry, and the timeout stays within 2⁹ times the initial one. -/
theorem retransmissions_bounded (cfg : TCPConfig) (randSender randReceiver : WrappingInt32)
    (ops : List ConnectionOp)
    (hsteps : Run.Steps step Progresses (start cfg randSender randReceiver) ops) :
    Run.Always step (Bounded cfg) (start cfg randSender randReceiver) ops := by
  intro pre hpre
  have hbackoff : Backoff cfg.rtTimeout.toNat
      (pre.foldl step (start cfg randSender randReceiver)) :=
    hsteps.always (I := Backoff cfg.rtTimeout.toNat) (A := fun _ => True)
      (fun _ _ _ hr hop => hr.step hop) (fun _ _ => trivial)
      (start_backoff cfg randSender randReceiver) pre hpre
  exact hbackoff.bounded

/-- Eight expiries after the SYN: the next one is the last. -/
theorem retransmissions_bounded_syn :
    let ticks := [1000, 2000, 4000, 8000, 16000, 32000, 64000, 128000]
    let c := run {} ⟨0⟩ ⟨0⟩ (.connect :: ticks.map .tick)
    c.active = true ∧ (c.tick 256000).active = false ∧
      ∃ rst, rst.header.rst = true ∧ c.queues (.tick 256000) = [rst] := by
  have hbounded := retransmissions_bounded {} ⟨0⟩ ⟨0⟩
    (.connect :: [1000, 2000, 4000, 8000, 16000, 32000, 64000, 128000].map .tick) (by decide) _
    (List.prefix_refl _)
  obtain ⟨hgone, -, -, hrst⟩ := hbounded.gives_up 256000 (by decide) (by decide) (by decide)
  exact ⟨by decide, hgone, hrst⟩

/-- A duplicate acknowledgment, with an open window, after the eighth retransmission of a byte: two
    more retransmissions follow, and the timeout passes the bound. -/
theorem retransmissions_exceeded :
    let ticks := [1000, 2000, 4000, 8000, 16000, 32000, 64000, 128000]
    let r := List.foldl step (start {} ⟨0⟩ ⟨0⟩)
      ([.connect, .segmentReceived { header :=
          { syn := true, ack := true, seqno := ⟨100⟩, ackno := ⟨1⟩, win := 10 } },
        .write [97]] ++ ticks.map .tick ++
      [.segmentReceived { header := { ack := true, seqno := ⟨101⟩, ackno := ⟨1⟩, win := 10 } },
        .tick 256000, .tick 512000])
    r.retransmissions = 10 ∧ r.conn.active = true ∧
      r.conn.sender.retransmissionTimeout = 1000 * 2 ^ 10 := by
  decide

end RetxRun

end TCPConnection

end Sponge
