import Sponge.SenderRun
import Sponge.SenderWork

namespace Sponge

/-!
# The retransmission timer

The sender has no timer object: it keeps one counter, one timeout and a flag, and sets them back
where segments are popped, where a tick finds nothing outstanding, and where the timer expires.
`TimerRun` keeps the intended timer beside a run of the sender, from what can be seen of its calls:

* `now` — the milliseconds ticked so far;
* `since` — the time of the latest restart: something is outstanding again, an acknowledgment has
  removed a segment, or a segment was sent again;
* `expiries` — the expiries with an open window since an acknowledgment last removed a segment.

`Exact.step` says that every call keeps the sender's counters equal to this timer, up to the 32
bits they are counted in, and `run_timer_exact` that they are equal over every run in which they
fit.
-/

namespace TCPSender

open Tiling

variable {W : List UInt8} {H : List (Nat × TCPSegment)} {s : TCPSender}

/-- The retransmission timer expires in the next `ms` milliseconds. -/
def Expires (s : TCPSender) (ms : Nat) : Prop :=
  s.alarmRun = true ∧ s.segmentsOutstanding ≠ [] ∧
    (s.remainingTime + ms) % 2 ^ 32 ≥ s.retransmissionTimeout

instance (s : TCPSender) (ms : Nat) : Decidable (s.Expires ms) := by
  unfold Expires; infer_instance

/-- The acknowledgment is accepted and takes a segment off the queue of those outstanding. -/
def removes (s : TCPSender) (ackno : WrappingInt32) : Bool :=
  s.accepts ackno &&
    match s.segmentsOutstanding with
    | [] => false
    | e :: _ => e.1 + e.2.lengthInSequenceSpace ≤ s.receivedAckno ackno

/-- Two senders with the same retransmission state. -/
structure SameRetx (t s : TCPSender) : Prop where
  count : t.retransmissionCount = s.retransmissionCount
  initial : t.initialRetransmissionTimeout = s.initialRetransmissionTimeout
  timeout : t.retransmissionTimeout = s.retransmissionTimeout

theorem SameRetx.refl (s : TCPSender) : SameRetx s s := ⟨rfl, rfl, rfl⟩

theorem SameRetx.trans {t u : TCPSender} (h : SameRetx u t) (h' : SameRetx t s) : SameRetx u s :=
  ⟨h.count.trans h'.count, h.initial.trans h'.initial, h.timeout.trans h'.timeout⟩

/-- Two senders with the same retransmission state and the same running timer. -/
structure SameTimer (t s : TCPSender) : Prop extends SameRetx t s where
  time : t.remainingTime = s.remainingTime
  alarm : t.alarmRun = s.alarmRun

theorem SameTimer.refl (s : TCPSender) : SameTimer s s := ⟨.refl s, rfl, rfl⟩

/-! ### Filling the window -/

/-- After the SYN, filling the window does not touch the timer. -/
theorem fillWindow_sameTimer (hopen : s.state ≠ .closed) : SameTimer s.fillWindow s := by
  rw [fillWindow, if_neg hopen]
  refine Loop.run_rule (P := fun t : TCPSender => SameTimer t s) ?_ ?_ _ (.refl s)
  · intro t u ht hdone
    rw [eq_of_fillStep_done hdone]
    exact ht
  · intro t u ht hyield
    obtain ⟨-, -, -, rfl⟩ := eq_of_fillStep_yield hyield
    exact ⟨⟨ht.count, ht.initial, ht.timeout⟩, ht.time, ht.alarm⟩

/-- Filling the window does not touch the retransmission state and leaves the timer running. -/
theorem fillWindow_sameRetx (s : TCPSender) : SameRetx s.fillWindow s := by
  by_cases hclosed : s.state = .closed
  · rw [fillWindow, if_pos hclosed]
    exact ⟨rfl, rfl, rfl⟩
  · exact (fillWindow_sameTimer hclosed).toSameRetx

/-- Filling the window may start the timer, and leaves the time where it is. -/
theorem fillWindow_time (s : TCPSender) : s.fillWindow.remainingTime = s.remainingTime := by
  by_cases hclosed : s.state = .closed
  · rw [fillWindow, if_pos hclosed]
    rfl
  · exact (fillWindow_sameTimer hclosed).time

/-! ### Acknowledgments -/

/-- Dropping acknowledged segments sets the timer and the timeout back, if any is dropped. -/
theorem popAcked_timer (A : Nat) (es : List (Nat × TCPSegment)) (s : TCPSender) :
    (popAcked A es s).initialRetransmissionTimeout = s.initialRetransmissionTimeout ∧
      (popAcked A es s).alarmRun = s.alarmRun ∧
      ((∀ e ∈ es.head?, e.1 + e.2.lengthInSequenceSpace > A) → popAcked A es s = s) ∧
      ((∃ e ∈ es.head?, e.1 + e.2.lengthInSequenceSpace ≤ A) →
        (popAcked A es s).remainingTime = 0 ∧
          (popAcked A es s).retransmissionTimeout = s.initialRetransmissionTimeout) := by
  -- along the outstanding segments
  induction es generalizing s with
  | nil => exact ⟨rfl, rfl, fun _ => rfl, by simp⟩
  | cons e rest ih =>
    rw [popAcked]
    by_cases hkeep : e.1 + e.2.lengthInSequenceSpace > A
    · rw [if_pos hkeep]
      refine ⟨rfl, rfl, fun _ => rfl, ?_⟩
      rintro ⟨e', he', hle⟩
      cases he'
      omega
    · rw [if_neg hkeep]
      obtain ⟨hinitial, halarm, hsame, hreset⟩ := ih
        { s with
          bytesInFlight := s.bytesInFlight - e.2.lengthInSequenceSpace
          segmentsOutstanding := rest
          remainingTime := 0
          retransmissionTimeout := s.initialRetransmissionTimeout }
      refine ⟨hinitial, halarm, fun hall => absurd (hall e rfl) hkeep, fun _ => ?_⟩
      -- further segments set it to the same values
      by_cases hmore : ∃ e ∈ rest.head?, e.1 + e.2.lengthInSequenceSpace ≤ A
      · exact hreset hmore
      · rw [hsame (fun e' he' => by
          by_contra hle
          exact hmore ⟨e', he', by omega⟩)]
        exact ⟨rfl, rfl⟩

/-- An acknowledgment removes segments exactly if it covers the oldest one. -/
theorem removes_iff {ackno : WrappingInt32} (hacc : s.accepts ackno = true) :
    s.removes ackno = true ↔ ∃ e ∈ s.segmentsOutstanding.head?,
      e.1 + e.2.lengthInSequenceSpace ≤ s.receivedAckno ackno := by
  rw [removes, hacc]
  cases s.segmentsOutstanding with
  | nil => simp
  | cons e rest => simp

/-- **What an accepted acknowledgment does to the timer.** -/
theorem ackReceived_timer {ackno : WrappingInt32} (hacc : s.accepts ackno = true)
    (window : UInt16) :
    (s.ackReceived ackno window).initialRetransmissionTimeout = s.initialRetransmissionTimeout ∧
      (s.ackReceived ackno window).retransmissionCount = 0 ∧
      (s.ackReceived ackno window).retransmissionTimeout
        = (if s.removes ackno then s.initialRetransmissionTimeout else s.retransmissionTimeout) ∧
      (s.ackReceived ackno window).remainingTime
        = (if s.removes ackno then 0 else s.remainingTime) ∧
      (s.ackReceived ackno window).alarmRun = s.alarmRun := by
  obtain ⟨hinitial, halarm, hsame, hreset⟩ := popAcked_timer (s.receivedAckno ackno)
    s.segmentsOutstanding { s with windowSize := window.toNat, retransmissionCount := 0 }
  obtain ⟨-, -, -, -, -, -, hcount⟩ := popAcked_frame (s.receivedAckno ackno)
    s.segmentsOutstanding { s with windowSize := window.toNat, retransmissionCount := 0 }
  -- neither the step to `synAcked` nor filling the window afterwards touches the timer
  have hafter : SameTimer (s.ackReceived ackno window)
      (popAcked (s.receivedAckno ackno) s.segmentsOutstanding
        { s with windowSize := window.toNat, retransmissionCount := 0 }) := by
    have hack : SameTimer (s.acknowledge (s.receivedAckno ackno) window)
        (popAcked (s.receivedAckno ackno) s.segmentsOutstanding
          { s with windowSize := window.toNat, retransmissionCount := 0 }) := by
      unfold acknowledge
      dsimp only
      split <;> exact ⟨⟨rfl, rfl, rfl⟩, rfl, rfl⟩
    rw [ackReceived, if_pos hacc]
    dsimp only
    split
    · rename_i hacked
      obtain ⟨hretx, htime, halarm⟩ := fillWindow_sameTimer
        (s := s.acknowledge (s.receivedAckno ackno) window) (by simp [hacked])
      exact ⟨hretx.trans hack.toSameRetx, htime.trans hack.time, halarm.trans hack.alarm⟩
    · exact hack
  -- the timer is set back exactly if a segment has gone
  by_cases hremoves : s.removes ackno = true
  · obtain ⟨htime, htimeout⟩ := hreset ((removes_iff hacc).mp hremoves)
    rw [if_pos hremoves, if_pos hremoves]
    exact ⟨hafter.initial.trans hinitial, hafter.count.trans hcount, hafter.timeout.trans htimeout,
      hafter.time.trans htime, hafter.alarm.trans halarm⟩
  · have hkeep : popAcked (s.receivedAckno ackno) s.segmentsOutstanding
        { s with windowSize := window.toNat, retransmissionCount := 0 }
          = { s with windowSize := window.toNat, retransmissionCount := 0 } := by
      refine hsame fun e he => ?_
      by_contra hle
      exact hremoves ((removes_iff hacc).mpr ⟨e, he, by omega⟩)
    rw [hkeep] at hafter
    rw [if_neg hremoves, if_neg hremoves]
    exact ⟨hafter.initial, hafter.count, hafter.timeout, hafter.time, hafter.alarm⟩

/-- An acknowledgment removes a segment exactly when one that was outstanding is so no more. -/
theorem removes_iff_gone (h : SenderInv W H s) (ackno : WrappingInt32) (window : UInt16) :
    s.removes ackno = true ↔
      ∃ e ∈ s.segmentsOutstanding, e ∉ (s.ackReceived ackno window).segmentsOutstanding := by
  rcases ackReceived_cases h ackno window with ⟨hacc, hsame⟩ | ⟨hacc, -⟩
  · rw [hsame, removes, hacc]
    simp
  have hsettled := acknowledge_settled h ((accepts_iff s ackno).mp hacc).1 window
  obtain ⟨new, hf⟩ : ∃ new, Filled W H (s.acknowledge (s.receivedAckno ackno) window)
      (s.ackReceived ackno window) new := by
    rw [ackReceived, if_pos hacc]
    dsimp only
    split
    · exact fillWindow_filled hsettled.inv
    · exact ⟨[], .refl hsettled.inv⟩
  have hout := hf.outstanding
  rw [acknowledge_outstanding] at hout
  rw [removes_iff hacc]
  cases hs : s.segmentsOutstanding with
  | nil => simp
  | cons e rest =>
    rw [hs] at hout
    by_cases hend : e.1 + e.2.lengthInSequenceSpace ≤ s.receivedAckno ackno
    · refine ⟨fun _ => ⟨e, by simp, fun hmem => ?_⟩, fun _ => ⟨e, rfl, hend⟩⟩
      rw [List.dropWhile_cons_of_pos (by simpa using hend)] at hout
      -- what comes after `e` starts where `e` ends
      obtain ⟨acked, hacked⟩ := h.ledger.last
      have htiles := hf.inv.ledger.tiles
      rw [← hacked, hs, List.append_assoc, List.cons_append] at htiles
      obtain ⟨b, -, hb⟩ := tiles_append.mp htiles
      have hafter : e ∈ rest ++ new := by
        rw [hout] at hmem
        exact (List.Sublist.append_right (List.dropWhile_sublist _) new).subset hmem
      have hle := ((tiles_cons.mp hb).2.mem_bounds hafter).1
      have hpos := h.ledger.positive e (h.ledger.last.subset (by rw [hs]; simp))
      have hat := (tiles_cons.mp hb).1
      omega
    · rw [List.dropWhile_cons_of_neg (by simpa using hend)] at hout
      rw [hout]
      constructor
      · rintro ⟨e', he', hle⟩
        cases he'
        exact absurd hle hend
      · rintro ⟨e', he', hgone⟩
        exact absurd (List.mem_append_left new he') hgone

/-! ### Ticks -/

/-- `tick` without an expiry leaves the retransmission state alone and queues nothing; the timer
    runs while something is outstanding. -/
theorem tick_of_not_expires {ms : Nat} (hnot : ¬ s.Expires ms) :
    SameRetx (s.tick ms) s ∧ (s.tick ms).segmentsOut = s.segmentsOut ∧
      (s.tick ms).alarmRun = s.alarmRun ∧
      (s.tick ms).remainingTime =
        if s.alarmRun = false then s.remainingTime
        else if s.segmentsOutstanding = [] then 0
        else (s.remainingTime + ms) % 2 ^ 32 := by
  unfold tick
  by_cases halarm : s.alarmRun = false
  · rw [if_pos halarm, if_pos halarm]
    exact ⟨⟨rfl, rfl, rfl⟩, rfl, rfl, rfl⟩
  · rw [if_neg halarm, if_neg halarm]
    cases hout : s.segmentsOutstanding with
    | nil => exact ⟨⟨rfl, rfl, rfl⟩, rfl, rfl, rfl⟩
    | cons front rest =>
      have hearly : ¬ (s.remainingTime + ms) % 2 ^ 32 ≥ s.retransmissionTimeout :=
        fun htime => hnot ⟨by simpa using halarm, by simp [hout], htime⟩
      simp only
      rw [if_neg hearly, if_neg (by simp)]
      exact ⟨⟨rfl, rfl, rfl⟩, rfl, rfl, rfl⟩

/-- `tick` with an expiry queues the oldest outstanding segment, counts it, doubles the timeout
    unless the window is zero, and starts the timer again. -/
theorem tick_of_expires {ms : Nat} (hexp : s.Expires ms) :
    ∃ front ∈ s.segmentsOutstanding.head?, (s.tick ms).segmentsOut = s.segmentsOut ++ [front.2] ∧
      (s.tick ms).initialRetransmissionTimeout = s.initialRetransmissionTimeout ∧
      (s.tick ms).retransmissionCount = s.retransmissionCount + 1 ∧
      (s.tick ms).retransmissionTimeout =
        (if s.windowSize ≠ 0 then s.retransmissionTimeout * 2 % 2 ^ 32
          else s.retransmissionTimeout) ∧
      (s.tick ms).alarmRun = s.alarmRun ∧ (s.tick ms).remainingTime = 0 := by
  obtain ⟨halarm, hne, htime⟩ := hexp
  unfold tick
  rw [if_neg (by simp [halarm])]
  cases hout : s.segmentsOutstanding with
  | nil => exact absurd hout hne
  | cons front rest =>
    simp only
    rw [if_pos htime]
    exact ⟨front, rfl, rfl, rfl, rfl, rfl, rfl, rfl⟩

end TCPSender

/-! ### The intended timer -/

namespace SenderOp

open TCPSender

/-- The milliseconds that pass in a call. -/
def elapsed : SenderOp → Nat
  | .tick ms => ms
  | _ => 0

/-- The call makes something outstanding where nothing was. -/
def Opens (s : TCPSender) (op : SenderOp) : Prop :=
  s.segmentsOutstanding = [] ∧ (op.apply s).segmentsOutstanding ≠ []

/-- The call is an `ack_received` that removes at least one outstanding segment. -/
def Removes (s : TCPSender) : SenderOp → Prop
  | .ackReceived ackno windowSize =>
    ∃ e ∈ s.segmentsOutstanding, e ∉ (s.ackReceived ackno windowSize).segmentsOutstanding
  | _ => False

/-- The call is a `tick` that sends a segment again. -/
def Retransmits (s : TCPSender) : SenderOp → Prop
  | .tick ms => queues s (.tick ms) ≠ []
  | _ => False

instance (s : TCPSender) (op : SenderOp) : Decidable (op.Opens s) := by
  unfold Opens; infer_instance

instance decidableRemoves (s : TCPSender) : (op : SenderOp) → Decidable (op.Removes s)
  | .ackReceived ackno windowSize => inferInstanceAs (Decidable
      (∃ e ∈ s.segmentsOutstanding, e ∉ (s.ackReceived ackno windowSize).segmentsOutstanding))
  | .fillWindow | .tick _ | .sendEmptySegment | .write _ | .endInput | .setError | .popSegment =>
    inferInstanceAs (Decidable False)

instance decidableRetransmits (s : TCPSender) : (op : SenderOp) → Decidable (op.Retransmits s)
  | .tick ms => inferInstanceAs (Decidable (queues s (.tick ms) ≠ []))
  | .fillWindow | .ackReceived _ _ | .sendEmptySegment | .write _ | .endInput | .setError
  | .popSegment => inferInstanceAs (Decidable False)

variable {W : List UInt8} {H : List (Nat × TCPSegment)} {s : TCPSender}

/-- A tick sends something again exactly when the timer expires, and then it is the oldest
    outstanding segment. -/
theorem queues_tick (s : TCPSender) (ms : Nat) : queues s (.tick ms) =
    if s.Expires ms then (s.segmentsOutstanding.head?.map Prod.snd).toList else [] := by
  rw [queues]
  by_cases hexp : s.Expires ms
  · obtain ⟨front, hfront, hqueue, -⟩ := tick_of_expires hexp
    rw [if_pos hexp, SenderOp.apply, hqueue, List.drop_left, hfront]
    rfl
  · rw [if_neg hexp, SenderOp.apply, (tick_of_not_expires hexp).2.1, List.drop_length]

/-- A tick sends a segment again exactly if the timer expires with it. -/
theorem retransmits_tick (s : TCPSender) (ms : Nat) :
    (SenderOp.tick ms).Retransmits s ↔ s.Expires ms := by
  rw [Retransmits, queues_tick]
  by_cases hexp : s.Expires ms
  · obtain ⟨front, hfront, -⟩ := tick_of_expires hexp
    rw [if_pos hexp, hfront]
    simp [hexp]
  · simp [hexp]

/-- **What a call other than `tick` does to the timer.** -/
theorem apply_timer (h : SenderInv W H s) {op : SenderOp} (hop : ∀ ms, op ≠ .tick ms) :
    (op.apply s).initialRetransmissionTimeout = s.initialRetransmissionTimeout ∧
      (op.apply s).remainingTime = (if op.Removes s then 0 else s.remainingTime) ∧
      (op.apply s).retransmissionTimeout =
        if op.Removes s then s.initialRetransmissionTimeout else s.retransmissionTimeout := by
  -- of all calls but the tick, only an acknowledgment can set the timer back
  cases op with
  | fillWindow =>
    obtain ⟨-, hinitial, htimeout⟩ := s.fillWindow_sameRetx
    exact ⟨hinitial, s.fillWindow_time, htimeout⟩
  | ackReceived ackno windowSize =>
    have hgone := removes_iff_gone h ackno windowSize
    by_cases hacc : s.accepts ackno = true
    · obtain ⟨hinitial, -, htimeout, htime, -⟩ := ackReceived_timer hacc windowSize
      refine ⟨hinitial, htime.trans ?_, htimeout.trans ?_⟩
      · exact if_congr hgone rfl rfl
      · exact if_congr hgone rfl rfl
    · -- not accepted: nothing changes
      have hsame : s.ackReceived ackno windowSize = s := by
        rw [TCPSender.ackReceived, if_neg hacc]
      have hnot : ¬ (SenderOp.ackReceived ackno windowSize).Removes s := by
        rw [Removes, ← hgone, removes]
        simp [hacc]
      rw [if_neg hnot, if_neg hnot, SenderOp.apply, hsame]
      exact ⟨rfl, rfl, rfl⟩
  | tick ms => exact absurd rfl (hop ms)
  | sendEmptySegment => exact ⟨rfl, rfl, rfl⟩
  | write data => exact ⟨rfl, rfl, rfl⟩
  | endInput => exact ⟨rfl, rfl, rfl⟩
  | setError => exact ⟨rfl, rfl, rfl⟩
  | popSegment => exact ⟨rfl, rfl, rfl⟩

/-- A call that removes nothing leaves everything outstanding. -/
theorem subset_of_not_removes (h : SenderInv W H s) {op : SenderOp} (hop : ¬ op.Removes s) :
    s.segmentsOutstanding ⊆ (op.apply s).segmentsOutstanding := by
  intro e he
  cases op with
  | fillWindow =>
    obtain ⟨new, hf⟩ := fillWindow_filled h
    show e ∈ s.fillWindow.segmentsOutstanding
    rw [hf.outstanding]
    exact List.mem_append_left new he
  | ackReceived ackno windowSize =>
    by_contra hgone
    exact hop ⟨e, he, hgone⟩
  | tick ms =>
    show e ∈ (s.tick ms).segmentsOutstanding
    rw [(s.tick_cases ms).2.2.2.1]
    exact he
  | sendEmptySegment => exact he
  | write data => exact he
  | endInput => exact he
  | setError => exact he
  | popSegment => exact he

/-- The alarm runs from the SYN on. -/
theorem apply_alarm (h : SenderInv W H s) (halarm : s.state ≠ .closed → s.alarmRun = true)
    (op : SenderOp) (hopen : (op.apply s).state ≠ .closed) : (op.apply s).alarmRun = true := by
  cases op with
  | fillWindow =>
    -- the SYN starts the alarm, which is never stopped again
    by_cases hclosed : s.state = .closed
    · show s.fillWindow.alarmRun = true
      rw [TCPSender.fillWindow, if_pos hclosed]
      rfl
    · exact (fillWindow_sameTimer hclosed).alarm.trans (halarm hclosed)
  | ackReceived ackno windowSize =>
    have hstate : s.state ≠ .closed :=
      fun hclosed => hopen ((ackReceived_state h ackno windowSize).1 hclosed)
    show (s.ackReceived ackno windowSize).alarmRun = true
    by_cases hacc : s.accepts ackno = true
    · exact (ackReceived_timer hacc windowSize).2.2.2.2.trans (halarm hstate)
    · rw [TCPSender.ackReceived, if_neg hacc]
      exact halarm hstate
  | tick ms =>
    have hstate : s.state ≠ .closed := by
      rw [← (s.tick_cases ms).2.2.2.2.2.1]
      exact hopen
    show (s.tick ms).alarmRun = true
    by_cases hexp : s.Expires ms
    · obtain ⟨-, -, -, -, -, -, hsame, -⟩ := tick_of_expires hexp
      exact hsame.trans (halarm hstate)
    · exact (tick_of_not_expires hexp).2.2.1.trans (halarm hstate)
  | sendEmptySegment => exact halarm hopen
  | write data => exact halarm hopen
  | endInput => exact halarm hopen
  | setError => exact halarm hopen
  | popSegment => exact halarm hopen

end SenderOp

/-- A run of a sender with the timer it is meant to have. -/
structure TimerRun extends SenderRun where
  now : Nat
  since : Nat
  expiries : Nat

namespace TimerRun

open TCPSender

def start (capacity : Nat) (retxTimeout : UInt16) (isn : WrappingInt32) : TimerRun :=
  ⟨SenderRun.start capacity retxTimeout isn, 0, 0, 0⟩

def step (r : TimerRun) (op : SenderOp) : TimerRun where
  toSenderRun := r.toSenderRun.step op
  now := r.now + op.elapsed
  since :=
    if op.Opens r.sender ∨ op.Removes r.sender ∨ op.Retransmits r.sender then r.now + op.elapsed
    else r.since
  expiries :=
    if op.Removes r.sender then 0
    else if op.Retransmits r.sender ∧ r.sender.windowSize ≠ 0 then r.expiries + 1
    else r.expiries

/-- The state after a sequence of calls. -/
def run (capacity : Nat) (retxTimeout : UInt16) (isn : WrappingInt32) (ops : List SenderOp) :
    TimerRun :=
  ops.foldl step (start capacity retxTimeout isn)

theorem run_snoc (capacity : Nat) (retxTimeout : UInt16) (isn : WrappingInt32)
    (ops : List SenderOp) (op : SenderOp) :
    run capacity retxTimeout isn (ops ++ [op]) = (run capacity retxTimeout isn ops).step op := by
  rw [run, List.foldl_append]
  rfl

/-- The sender keeps the timer, in the 32 bits of its counters. -/
structure Exact (initial : Nat) (r : TimerRun) : Prop where
  sender : ∃ W H, SenderInv W H r.sender
  initial_eq : r.sender.initialRetransmissionTimeout = initial
  initial_lt : initial < 2 ^ 32
  alarm : r.sender.state ≠ .closed → r.sender.alarmRun = true
  idle : r.sender.segmentsOutstanding = [] → r.sender.remainingTime = 0
  since_le : r.since ≤ r.now
  time : r.sender.segmentsOutstanding ≠ [] →
    r.sender.remainingTime = (r.now - r.since) % 2 ^ 32
  timeout : r.sender.retransmissionTimeout = initial * 2 ^ r.expiries % 2 ^ 32

/-- A fresh sender has its timer off and its timeout at the first value. -/
theorem start_exact (capacity : Nat) (retxTimeout : UInt16) (isn : WrappingInt32) :
    Exact retxTimeout.toNat (start capacity retxTimeout isn) where
  sender := ⟨_, _, new_inv capacity retxTimeout isn⟩
  initial_eq := rfl
  initial_lt := retxTimeout.toNat_lt.trans (by decide)
  alarm := fun hopen => absurd rfl hopen
  idle := fun _ => rfl
  since_le := le_refl _
  time := fun hne => absurd rfl hne
  timeout := by
    show retxTimeout.toNat = _
    rw [start, pow_zero, Nat.mul_one, Nat.mod_eq_of_lt (retxTimeout.toNat_lt.trans (by decide))]

variable {initial : Nat} {r : TimerRun}

/-- Where something is outstanding, the alarm runs. -/
theorem Exact.alarm_of_outstanding (h : Exact initial r)
    (hne : r.sender.segmentsOutstanding ≠ []) : r.sender.alarmRun = true := by
  obtain ⟨W, H, hinv⟩ := h.sender
  refine h.alarm fun hclosed => hne ?_
  -- a closed sender has sent nothing
  have hphase := hinv.phase
  rw [Phase, hclosed] at hphase
  have hlast := hinv.ledger.last
  rw [hinv.ledger.eq_nil hphase.1] at hlast
  exact List.suffix_nil.mp hlast

/-- The sender's timer expires when the intended one does. -/
theorem Exact.expires_iff (h : Exact initial r) (ms : Nat) : r.sender.Expires ms ↔
    r.sender.segmentsOutstanding ≠ [] ∧
      initial * 2 ^ r.expiries % 2 ^ 32 ≤ (r.now - r.since + ms) % 2 ^ 32 := by
  rw [Expires, h.timeout]
  constructor
  · rintro ⟨-, hne, htime⟩
    rw [h.time hne, Nat.mod_add_mod] at htime
    exact ⟨hne, htime⟩
  · rintro ⟨hne, htime⟩
    rw [h.time hne, Nat.mod_add_mod]
    exact ⟨h.alarm_of_outstanding hne, hne, htime⟩

/-- A tick restarts the timer exactly when it expires. -/
theorem step_tick_since (r : TimerRun) (ms : Nat) :
    (r.step (.tick ms)).since = (if r.sender.Expires ms then r.now + ms else r.since) ∧
      (r.step (.tick ms)).expiries =
        if r.sender.Expires ms ∧ r.sender.windowSize ≠ 0 then r.expiries + 1 else r.expiries := by
  have hopens : ¬ (SenderOp.tick ms).Opens r.sender := by
    rintro ⟨hnil, hsome⟩
    exact hsome ((r.sender.tick_cases ms).2.2.2.1.trans hnil)
  simp only [step, SenderOp.retransmits_tick, SenderOp.elapsed, hopens, SenderOp.Removes, false_or,
    if_false]
  exact ⟨trivial, trivial⟩

/-- **A tick**, in its two cases: the timer expires, or runs on. -/
theorem Exact.step_tick (h : Exact initial r) (ms : Nat) : Exact initial (r.step (.tick ms)) := by
  obtain ⟨W, H, hinv⟩ := h.sender
  obtain ⟨hsince, hexpiries⟩ := r.step_tick_since ms
  have hout : (r.sender.tick ms).segmentsOutstanding = r.sender.segmentsOutstanding :=
    (r.sender.tick_cases ms).2.2.2.1
  have hle := h.since_le
  have hsender : ∃ W H, SenderInv W H (r.step (.tick ms)).sender := ⟨W, H, tick_inv hinv ms⟩
  have halarm := SenderOp.apply_alarm hinv h.alarm (.tick ms)
  by_cases hexp : r.sender.Expires ms
  · obtain ⟨-, -, -, hinitial, -, htimeout, -, htime⟩ := tick_of_expires hexp
    rw [if_pos hexp] at hsince
    refine ⟨hsender, hinitial.trans h.initial_eq, h.initial_lt, halarm, fun _ => htime, ?_,
      fun _ => ?_, ?_⟩
    · exact le_of_eq hsince
    · show (r.sender.tick ms).remainingTime = (r.now + ms - (r.step (.tick ms)).since) % 2 ^ 32
      rw [hsince, htime, Nat.sub_self, Nat.zero_mod]
    · show (r.sender.tick ms).retransmissionTimeout = _
      rw [htimeout, hexpiries, h.timeout]
      -- the timeout doubles where the window is open
      by_cases hwindow : r.sender.windowSize = 0
      · rw [if_neg (by simp [hwindow]), if_neg (by simp [hwindow])]
      · rw [if_pos hwindow, if_pos ⟨hexp, hwindow⟩, pow_succ 2 r.expiries, ← Nat.mul_assoc,
          Nat.mod_mul_mod]
  · obtain ⟨hretx, -, -, htime⟩ := tick_of_not_expires hexp
    rw [if_neg hexp] at hsince
    rw [if_neg (fun hc => hexp hc.1)] at hexpiries
    refine ⟨hsender, hretx.initial.trans h.initial_eq, h.initial_lt, halarm, fun hnil => ?_, ?_,
      fun hne => ?_, ?_⟩
    · -- nothing is outstanding: the counter is set to zero, or has not run yet
      have hempty : r.sender.segmentsOutstanding = [] := hout.symm.trans hnil
      show (r.sender.tick ms).remainingTime = 0
      rw [htime, if_pos hempty, h.idle hempty, ite_self]
    · rw [hsince]
      exact hle.trans (Nat.le_add_right _ _)
    · have hsome : r.sender.segmentsOutstanding ≠ [] := fun hnil => hne (hout.trans hnil)
      show (r.sender.tick ms).remainingTime = (r.now + ms - (r.step (.tick ms)).since) % 2 ^ 32
      rw [htime, if_neg (by simp [h.alarm_of_outstanding hsome]), if_neg hsome, h.time hsome,
        Nat.mod_add_mod, hsince, Nat.sub_add_comm hle]
    · rw [hexpiries]
      exact hretx.timeout.trans h.timeout

/-- **Step lemma.**  Every call keeps the sender's counters equal to the timer. -/
theorem Exact.step (h : Exact initial r) (op : SenderOp) : Exact initial (r.step op) := by
  -- time passes in ticks alone
  by_cases hop : ∃ ms, op = .tick ms
  · obtain ⟨ms, rfl⟩ := hop
    exact h.step_tick ms
  have hne : ∀ ms, op ≠ .tick ms := fun ms heq => hop ⟨ms, heq⟩
  obtain ⟨W, H, hinv⟩ := h.sender
  obtain ⟨hinitial, htime, htimeout⟩ := SenderOp.apply_timer hinv hne
  obtain ⟨new, hc⟩ := SenderRun.called hinv op
  have hkeeps : ¬ op.Removes r.sender →
      r.sender.segmentsOutstanding ⊆ (op.apply r.sender).segmentsOutstanding :=
    SenderOp.subset_of_not_removes hinv
  have hquiet : op.elapsed = 0 ∧ ¬ op.Retransmits r.sender := by
    cases op with
    | tick ms => exact absurd rfl (hne ms)
    | _ => exact ⟨rfl, id⟩
  have hnow : (r.step op).now = r.now := by
    rw [TimerRun.step, hquiet.1, Nat.add_zero]
  have hsince : (r.step op).since =
      if op.Opens r.sender ∨ op.Removes r.sender then r.now else r.since := by
    simp only [TimerRun.step, hquiet.1, hquiet.2, or_false, Nat.add_zero]
  have hexpiries : (r.step op).expiries = if op.Removes r.sender then 0 else r.expiries := by
    simp only [TimerRun.step, hquiet.2, false_and, if_false]
  have hle := h.since_le
  refine ⟨⟨_, _, hc.inv⟩, hinitial.trans h.initial_eq, h.initial_lt,
    SenderOp.apply_alarm hinv h.alarm op, fun hnil => ?_, ?_, fun hsome => ?_, ?_⟩
  · show (op.apply r.sender).remainingTime = 0
    rw [htime]
    -- all segments have just been acknowledged, or none was outstanding before
    by_cases hremoves : op.Removes r.sender
    · rw [if_pos hremoves]
    · rw [if_neg hremoves]
      refine h.idle (List.eq_nil_iff_forall_not_mem.mpr fun e he => ?_)
      have hmem : e ∈ (r.step op).sender.segmentsOutstanding := hkeeps hremoves he
      rw [hnil] at hmem
      exact absurd hmem (by simp)
  · rw [hsince, hnow]
    split
    · exact le_refl _
    · exact hle
  · show (op.apply r.sender).remainingTime = _
    rw [htime, hsince, hnow]
    by_cases hremoves : op.Removes r.sender
    · rw [if_pos hremoves, if_pos (Or.inr hremoves), Nat.sub_self, Nat.zero_mod]
    · rw [if_neg hremoves]
      by_cases hnil : r.sender.segmentsOutstanding = []
      · -- the first segment outstanding again: the counter has stayed at zero
        rw [if_pos (Or.inl ⟨hnil, hsome⟩), h.idle hnil, Nat.sub_self, Nat.zero_mod]
      · rw [if_neg (fun hc => hc.elim (fun ho => hnil ho.1) hremoves), h.time hnil]
  · -- the doublings start anew when a segment goes
    show (op.apply r.sender).retransmissionTimeout = _
    rw [htimeout, hexpiries]
    by_cases hremoves : op.Removes r.sender
    · rw [if_pos hremoves, if_pos hremoves, pow_zero, Nat.mul_one, h.initial_eq,
        Nat.mod_eq_of_lt h.initial_lt]
    · rw [if_neg hremoves, if_neg hremoves, h.timeout]

/-- **Run lemma.** -/
theorem run_exact (capacity : Nat) (retxTimeout : UInt16) (isn : WrappingInt32)
    (ops : List SenderOp) : Exact retxTimeout.toNat (run capacity retxTimeout isn ops) := by
  induction ops using List.reverseRecOn with
  | nil => exact start_exact capacity retxTimeout isn
  | append_singleton ops op ih =>
    rw [run_snoc]
    exact ih.step op

/-- **The retransmission timer is exact.**  Over every run whose ticks add up to less than `2^32`:
    while something is outstanding, the counter is the time since the latest restart; the timeout,
    where it fits into 32 bits, is the initial one doubled at each expiry that counts; a tick sends
    the oldest outstanding segment once more where the counter reaches the timeout, and nothing
    otherwise; and an acknowledgment that removes nothing touches neither. -/
theorem run_timer_exact (capacity : Nat) (retxTimeout : UInt16) (isn : WrappingInt32)
    (ops : List SenderOp) (hticks : (run capacity retxTimeout isn ops).now < 2 ^ 32) :
    let r := run capacity retxTimeout isn ops
    let timeout := retxTimeout.toNat * 2 ^ r.expiries
    (r.sender.segmentsOutstanding ≠ [] → r.sender.remainingTime = r.now - r.since) ∧
      (timeout < 2 ^ 32 → r.sender.retransmissionTimeout = timeout) ∧
      (∀ ms, r.now + ms < 2 ^ 32 → timeout < 2 ^ 32 →
        SenderOp.queues r.sender (.tick ms) =
          if timeout ≤ r.now - r.since + ms then
            (r.sender.segmentsOutstanding.head?.map Prod.snd).toList
          else []) ∧
      ∀ ackno windowSize, ¬ (SenderOp.ackReceived ackno windowSize).Removes r.sender →
        (r.sender.ackReceived ackno windowSize).remainingTime = r.sender.remainingTime ∧
          (r.sender.ackReceived ackno windowSize).retransmissionTimeout
            = r.sender.retransmissionTimeout := by
  have h := run_exact capacity retxTimeout isn ops
  generalize run capacity retxTimeout isn ops = r at h hticks ⊢
  intro r' timeout
  refine ⟨fun hne => ?_, fun hfits => ?_, fun ms hms hfits => ?_, fun ackno windowSize hnot => ?_⟩
  · rw [h.time hne, Nat.mod_eq_of_lt (by omega)]
  · rw [h.timeout, Nat.mod_eq_of_lt hfits]
  · -- inside of 32 bits of time and timeout the counters are exact
    change r.now + ms < 2 ^ 32 at hms
    rw [SenderOp.queues_tick]
    by_cases hnil : r.sender.segmentsOutstanding = []
    · simp [r', hnil]
    · refine if_congr ?_ rfl rfl
      rw [h.expires_iff, Nat.mod_eq_of_lt hfits, Nat.mod_eq_of_lt (by omega)]
      exact and_iff_right hnil
  · obtain ⟨W, H, hinv⟩ := h.sender
    have hnoTick : ∀ ms, SenderOp.ackReceived ackno windowSize ≠ .tick ms := fun ms => by simp
    obtain ⟨-, htime, htimeout⟩ := SenderOp.apply_timer hinv hnoTick
    rw [if_neg hnot] at htime htimeout
    exact ⟨htime, htimeout⟩

/-- The SYN is sent again after a second, and then not before two more have passed. -/
theorem run_timer_exact_syn :
    let s := (run 10 1000 ⟨0⟩ [.fillWindow, .tick 400, .tick 600, .tick 1999]).sender
    s.remainingTime = 1999 ∧ s.retransmissionTimeout = 2000 ∧
      SenderOp.queues s (.tick 0) = [] ∧ (SenderOp.queues s (.tick 1)).length = 1 := by
  obtain ⟨htime, htimeout, htick, -⟩ := run_timer_exact 10 1000 ⟨0⟩
    [.fillWindow, .tick 400, .tick 600, .tick 1999] (by decide)
  refine ⟨htime (by decide), htimeout (by decide), htick 0 (by decide) (by decide), ?_⟩
  rw [htick 1 (by decide) (by decide)]
  decide

end TimerRun

end Sponge
