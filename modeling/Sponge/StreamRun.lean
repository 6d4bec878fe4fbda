import Sponge.ByteStream
import Sponge.Lib.Fifo

namespace Sponge

/-!
# Runs of a byte stream

A run is any sequence of calls on a fresh stream, with arguments of any size.  `StreamRun` keeps,
next to the stream, the bytes that its writers got accepted and the bytes that were popped or read.

* `Models` relates a run to a bounded FIFO over bytes;
* `apply_models`, `run_models` — every call, and so every run, does what the FIFO does;
* `bounded_fifo` — what this says about the stream, in terms of the calls alone.
-/

/-- A call on a byte stream. -/
inductive StreamOp where
  | write (data : List UInt8)
  | endInput
  | peekOutput (len : Nat)
  | popOutput (len : Nat)
  | read (len : Nat)
  | setError
  deriving DecidableEq, Repr

namespace StreamOp

/-- The stream after the call. -/
def apply (s : ByteStream) : StreamOp → ByteStream
  | .write data => (s.write data).2
  | .endInput => s.endInput
  | .peekOutput _ => s
  | .popOutput len => s.popOutput len
  | .read len => (s.read len).2
  | .setError => s.setError

/-- The bytes that the call accepts. -/
def accepted (s : ByteStream) : StreamOp → List UInt8
  | .write data => data.take (s.write data).1
  | _ => []

/-- The bytes that the call removes.  `pop_output` does not return them: they are what is missing
    at the front. -/
def removed (s : ByteStream) : StreamOp → List UInt8
  | .popOutput len => s.bufferList.take (s.bufferSize - (s.popOutput len).bufferSize)
  | .read len => (s.read len).1
  | _ => []

/-- The call as one on a FIFO. -/
def applyFifo (f : Fifo UInt8) : StreamOp → Fifo UInt8
  | .write data => f.put data
  | .endInput => f.close
  | .peekOutput _ => f
  | .popOutput len => f.take len
  | .read len => f.take len
  | .setError => f

end StreamOp

/-- A stream with the history of its run. -/
structure StreamRun where
  stream : ByteStream
  accepted : List UInt8 := []
  removed : List UInt8 := []

namespace StreamRun

/-- One call. -/
def apply (run : StreamRun) (op : StreamOp) : StreamRun where
  stream := op.apply run.stream
  accepted := run.accepted ++ op.accepted run.stream
  removed := run.removed ++ op.removed run.stream

/-- Calls on a fresh stream. -/
def run (capacity : Nat) (ops : List StreamOp) : StreamRun :=
  ops.foldl apply { stream := .new capacity }

/-! ### The stream is a bounded FIFO -/

/-- The run has the history of the FIFO. -/
structure Models (run : StreamRun) (f : Fifo UInt8) : Prop where
  capacity : run.stream.capacity = f.capacity
  contents : run.stream.bufferList = f.contents
  ended : run.stream.inputEnded = f.closed
  readable : run.stream.endOutput = false
  bytesRead : run.stream.bytesRead = f.left
  accepted : run.accepted = f.entered
  removed : run.removed = f.removed

section

variable {run : StreamRun} {f : Fifo UInt8} (h : run.Models f)
include h

/-- Both accept the same number of bytes. -/
theorem Models.write_fst (data : List UInt8) : (run.stream.write data).1 = f.accepts data := by
  unfold ByteStream.write Fifo.accepts
  rw [h.ended]
  split
  · rfl
  · dsimp only
    rw [ByteStream.remainingCapacity, h.capacity, h.contents]

/-- Reading is peeking and popping. -/
theorem Models.read_eq (len : Nat) :
    run.stream.read len = (run.stream.bufferList.take len, run.stream.popOutput len) := by
  rw [ByteStream.read, h.readable, ByteStream.peekOutput_eq_take]
  rfl

/-- What is popped is what the queue gives away. -/
theorem Models.popped (len : Nat) :
    run.stream.bufferList.take (run.stream.bufferSize - (run.stream.popOutput len).bufferSize)
      = f.contents.take len := by
  have hmin : run.stream.bufferSize - (run.stream.popOutput len).bufferSize
      = min len f.contents.length := by
    rw [ByteStream.bufferSize, ByteStream.bufferSize, ByteStream.popOutput_bufferList,
      List.length_drop, h.contents]
    omega
  rw [hmin, h.contents, ← List.take_eq_take_min]

/-- Taking bytes out, in either way. -/
theorem Models.take (len : Nat) : Models
    ⟨run.stream.popOutput len, run.accepted, run.removed ++ f.contents.take len⟩ (f.take len) where
  capacity := h.capacity
  contents := by rw [ByteStream.popOutput_bufferList, Fifo.contents_take, h.contents]
  ended := h.ended
  readable := h.readable
  bytesRead := by
    rw [ByteStream.popOutput_bytesRead, h.bytesRead, h.contents]
    rfl
  accepted := h.accepted
  removed := by rw [Fifo.removed_take, h.removed]

/-- **A write** puts what fits into the queue. -/
theorem Models.write (data : List UInt8) : Models
    ⟨(run.stream.write data).2, run.accepted ++ data.take (run.stream.write data).1, run.removed⟩
    (f.put data) where
  capacity := by
    rw [ByteStream.write_capacity]
    exact h.capacity
  contents := by
    rw [ByteStream.write_bufferList, h.write_fst, Fifo.contents_put, h.contents]
  ended := by
    rw [ByteStream.write_inputEnded]
    exact h.ended
  readable := by
    rw [ByteStream.write_endOutput]
    exact h.readable
  bytesRead := by
    rw [ByteStream.write_bytesRead]
    exact h.bytesRead
  accepted := by
    rw [h.write_fst, h.accepted]
    rfl
  removed := by rw [Fifo.removed_put, h.removed]

/-- **Step lemma.** -/
theorem apply_models (op : StreamOp) : (run.apply op).Models (op.applyFifo f) := by
  unfold apply
  cases op with
  | write data =>
    have hwrite := h.write data
    rwa [← List.append_nil run.removed] at hwrite
  | endInput =>
    simp only [StreamOp.accepted, StreamOp.removed, List.append_nil]
    exact ⟨h.capacity, h.contents, rfl, h.readable, h.bytesRead, h.accepted, h.removed⟩
  | peekOutput len =>
    simp only [StreamOp.accepted, StreamOp.removed, List.append_nil]
    exact h
  | popOutput len =>
    have htake := h.take len
    rwa [← h.popped, ← List.append_nil run.accepted] at htake
  | read len =>
    have htake := h.take len
    simp only [StreamOp.apply, StreamOp.accepted, StreamOp.removed, h.read_eq, List.append_nil]
    rwa [← h.contents] at htake
  | setError =>
    simp only [StreamOp.accepted, StreamOp.removed, List.append_nil]
    exact ⟨h.capacity, h.contents, h.ended, h.readable, h.bytesRead, h.accepted, h.removed⟩

/-- **Run lemma.** -/
theorem foldl_models (ops : List StreamOp) :
    (ops.foldl apply run).Models (ops.foldl StreamOp.applyFifo f) := by
  induction ops generalizing run f with
  | nil => exact h
  | cons op ops ih => exact ih (apply_models h op)

end

/-- **Run lemma.** -/
theorem run_models (capacity : Nat) (ops : List StreamOp) :
    (run capacity ops).Models (ops.foldl StreamOp.applyFifo { capacity := capacity }) :=
  foldl_models ⟨rfl, rfl, rfl, rfl, rfl, rfl, rfl⟩ ops

/-- Nothing but `end_input` closes the FIFO, and nothing changes its capacity. -/
theorem foldl_applyFifo (f : Fifo UInt8) (ops : List StreamOp) :
    (ops.foldl StreamOp.applyFifo f).capacity = f.capacity ∧
      ((ops.foldl StreamOp.applyFifo f).closed = true ↔ f.closed = true ∨ .endInput ∈ ops) := by
  induction ops generalizing f with
  | nil => simp
  | cons op ops ih =>
    obtain ⟨hcapacity, hclosed⟩ := ih (op.applyFifo f)
    rw [List.foldl_cons, hcapacity, hclosed]
    cases op <;> simp [StreamOp.applyFifo, Fifo.put, Fifo.take, Fifo.close]

/-- **A bounded FIFO.**  After any calls: what was popped or read, followed by the buffer, is what
    the writes got accepted, and a write accepts what there is room for, or nothing after the end of
    the input.  The counters count these bytes, and agree when they have wrapped around 64 bits; the
    room is what is left of the capacity.  A read returns what it removes, the next bytes.  The end
    is reached when the input has ended and every accepted byte has been removed. -/
theorem bounded_fifo (capacity : Nat) (ops : List StreamOp) :
    let run := StreamRun.run capacity ops
    let s := run.stream
    run.removed ++ s.bufferList = run.accepted ∧
      (∀ data, (s.write data).1
        = if .endInput ∈ ops then 0 else min data.length s.remainingCapacity) ∧
      (s.bytesWritten = s.bytesRead + s.bufferSize ∧
        UInt64.ofNat s.bytesWritten = .ofNat s.bytesRead + .ofNat s.bufferSize ∧
        s.bytesWritten = run.accepted.length ∧ s.bytesRead = run.removed.length) ∧
      (s.bufferSize ≤ capacity ∧ s.remainingCapacity + s.bufferSize = capacity) ∧
      (∀ len, (s.read len).1 = s.bufferList.take len ∧
        (s.read len).1 ++ (s.read len).2.bufferList = s.bufferList) ∧
      (s.eof = true ↔ .endInput ∈ ops ∧ run.removed = run.accepted) := by
  intro run s
  have h := run_models capacity ops
  obtain ⟨hcapacity, hclosed⟩ := foldl_applyFifo { capacity := capacity } ops
  generalize ops.foldl StreamOp.applyFifo { capacity := capacity } = f at h hcapacity hclosed
  -- the queue is closed by an `end_input` among the calls, and by nothing else
  have hended : s.inputEnded = true ↔ .endInput ∈ ops := by
    rw [h.ended, hclosed]
    simp
  have hroom : s.capacity = capacity := h.capacity.trans hcapacity
  have hfits := s.fits
  have haccounted := s.accounted
  have hhistory : run.removed ++ s.bufferList = run.accepted := by
    rw [h.removed, h.contents, h.accepted, Fifo.removed_append_contents]
  have hread : s.bytesRead = run.removed.length := by
    have hle := f.left_le
    rw [h.bytesRead, h.removed, Fifo.removed, List.length_take]
    omega
  refine ⟨hhistory, fun data => ?_, ⟨haccounted, ?_, ?_, hread⟩, ⟨by rw [← hroom]; exact hfits, ?_⟩,
    fun len => ⟨by rw [h.read_eq], s.read_fst_append len⟩, ?_⟩
  · unfold ByteStream.write
    by_cases hend : .endInput ∈ ops
    · rw [if_pos (hended.mpr hend), if_pos hend]
    · rw [if_neg (fun htrue => hend (hended.mp htrue)), if_neg hend]
  · rw [haccounted, UInt64.ofNat_add]
    rfl
  · rw [haccounted, hread, ← List.length_append, hhistory]
  · unfold ByteStream.remainingCapacity ByteStream.bufferSize
    omega
  · rw [ByteStream.eof_iff, hended, h.contents, Fifo.contents_eq_nil_iff, h.removed, h.accepted]

end StreamRun

end Sponge
