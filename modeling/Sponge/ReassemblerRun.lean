import Sponge.ReassemblerInvariant

namespace Sponge

open Pieces Slice

/-!
# Runs of a reassembler

A run is any sequence of calls on a fresh reassembler: pushes of slices of one stream `S`,
in any order, overlapping and repeated as they come, between reads and pops of the output
stream.  `ReassemblerRun` keeps, next to the reassembler, the bytes its reader has taken out
and a record of every push together with the room the output stream had at that moment.

Everything follows from one invariant over runs, `run_inv`, which instantiates
`StreamReassembler.Holds` with the recorded pushes.  The three results are:

* `run_written` — what has been written is a prefix of `S`, and `expected` counts it;
* `run_nothing_lost` — the length of that prefix lies between the longest run of positions
  that were pushed while there was room for them and the longest run that was pushed at all;
* `run_inputEnded_iff` — the output stream is closed exactly when an end was pushed and all
  of `S` is there.
-/

/-- A call on a reassembler whose substrings are slices of one stream. -/
inductive ReassemblerOp where
  /-- `push_substring(S[index .. index + count), index, eof)` -/
  | push (index count : Nat) (eof : Bool)
  /-- `stream_out().read(len)` -/
  | read (len : Nat)
  /-- `stream_out().pop_output(len)` -/
  | pop (len : Nat)
  deriving DecidableEq, Repr

/-- The slice lies inside the stream, and `eof` is set only where the stream ends. -/
def ReassemblerOp.Consistent (S : List UInt8) : ReassemblerOp → Prop
  | .push index count eof => index + count ≤ S.length ∧ (eof = true → index + count = S.length)
  | .read _ => True
  | .pop _ => True

instance (S : List UInt8) (op : ReassemblerOp) : Decidable (op.Consistent S) := by
  cases op <;> unfold ReassemblerOp.Consistent <;> infer_instance

/-- The slice ends below `2^64 - 1`, the index that stands for an end not known yet. -/
def ReassemblerOp.Fits : ReassemblerOp → Prop
  | .push index count _ => index + count < 2 ^ 64 - 1
  | .read _ => True
  | .pop _ => True

instance (op : ReassemblerOp) : Decidable op.Fits := by
  cases op <;> unfold ReassemblerOp.Fits <;> infer_instance

/-- In a stream that is short enough, every slice is. -/
theorem ReassemblerOp.Consistent.fits {S : List UInt8} {op : ReassemblerOp}
    (h : op.Consistent S) (hS : S.length < 2 ^ 64 - 1) : op.Fits := by
  cases op with
  | push index count eof => exact lt_of_le_of_lt h.1 hS
  | read len => trivial
  | pop len => trivial

/-- A push as it is recorded; `room` is `bytes_read() + capacity` when it was made. -/
structure Push where
  index : Nat
  count : Nat
  eof : Bool
  room : Nat

/-- The push had the position `p`. -/
def Push.has (x : Push) (p : Nat) : Bool := x.index ≤ p && p < x.index + x.count

/-- The push had the position `p`, and the output stream had room for it. -/
def Push.hasInRoom (x : Push) (p : Nat) : Bool := x.has p && p < x.room

/-- A reassembler with the history of its run. -/
structure ReassemblerRun where
  reassembler : StreamReassembler
  taken : List UInt8
  pushes : List Push

namespace ReassemblerRun

/-- Every byte ever written to the output stream: those taken out and those still in it. -/
def written (st : ReassemblerRun) : List UInt8 := st.taken ++ st.reassembler.streamOut.bufferList

def pushed (st : ReassemblerRun) (p : Nat) : Bool := st.pushes.any (fun x => x.has p)

def pushedInRoom (st : ReassemblerRun) (p : Nat) : Bool := st.pushes.any (fun x => x.hasInRoom p)

def eofPushed (st : ReassemblerRun) : Bool := st.pushes.any (fun x => x.eof)

def start (capacity : Nat) : ReassemblerRun := ⟨StreamReassembler.new capacity, [], []⟩

def step (S : List UInt8) (st : ReassemblerRun) : ReassemblerOp → ReassemblerRun
  | .push index count eof =>
    { st with
      reassembler := st.reassembler.pushSubstring (slice S index count) index eof
      pushes := st.pushes ++ [⟨index, count, eof, st.reassembler.limit⟩] }
  | .read len =>
    { st with
      reassembler := (st.reassembler.read len).2
      taken := st.taken ++ (st.reassembler.read len).1 }
  | .pop len =>
    { st with
      reassembler := st.reassembler.popOutput len
      taken := st.taken ++ st.reassembler.streamOut.peekOutput len }

/-- The state after a sequence of calls. -/
def run (S : List UInt8) (capacity : Nat) (ops : List ReassemblerOp) : ReassemblerRun :=
  ops.foldl (step S) (start capacity)

/-- A run is made longer at its end. -/
theorem run_snoc (S : List UInt8) (capacity : Nat) (ops : List ReassemblerOp) (op : ReassemblerOp) :
    run S capacity (ops ++ [op]) = step S (run S capacity ops) op := by
  rw [run, List.foldl_append]
  rfl

/-! ### The invariant over runs -/

/-- The invariant of a run over `S`, with the recorded pushes for `Q` and `P`. -/
structure Inv (S : List UInt8) (capacity : Nat) (st : ReassemblerRun) : Prop where
  holds : st.reassembler.Holds S st.eofPushed (fun p => st.pushedInRoom p = true)
    (fun p => st.pushed p = true) st.taken
  fits : ∀ x ∈ st.pushes, x.index + x.count < 2 ^ 64 - 1
  capacity_eq : st.reassembler.output.capacity = capacity

variable {S : List UInt8} {capacity : Nat} {st : ReassemblerRun}

/-- A pushed position has an index of its own. -/
theorem Inv.lt_of_pushed (h : Inv S capacity st) {p : Nat} (hp : st.pushed p = true) :
    p < 2 ^ 64 - 2 := by
  obtain ⟨x, hx, hxp⟩ := List.any_eq_true.mp hp
  have hin := h.fits x hx
  simp only [Push.has, Bool.and_eq_true, decide_eq_true_eq] at hxp
  omega

/-- In the beginning nothing has been pushed and nothing is held. -/
theorem start_inv (S : List UInt8) (capacity : Nat) : Inv S capacity (start capacity) where
  holds := (StreamReassembler.new_holds S capacity).weaken (by simp [start, pushedInRoom]) (by simp)
  fits := by simp [start]
  capacity_eq := rfl

/-- **Step lemma.**  Every consistent call keeps the invariant of the run. -/
theorem step_inv (h : Inv S capacity st) {op : ReassemblerOp} (hfits : op.Fits)
    (hop : op.Consistent S) : Inv S capacity (step S st op) := by
  cases op with
  | push index count eof =>
    obtain ⟨hin, heof⟩ := hop
    have hend : index + count < 2 ^ 64 - 1 := hfits
    have hlen : (slice S index count).length = count := length_slice hin
    have hspan : ∀ p, StreamReassembler.Span index (slice S index count) p ↔
        index ≤ p ∧ p < index + count := by
      intro p
      rw [StreamReassembler.Span, hlen]
    -- the push is one of a piece of `S`, at positions with indices of their own
    have hpush := StreamReassembler.pushSubstring_holds h.holds (standsAt_slice S index count)
      (by omega) (by rw [hlen]; exact heof) (by
        rintro p (hp | hp)
        · exact h.lt_of_pushed hp
        · rw [hspan] at hp
          omega)
    constructor
    case holds =>
      have hseen : (step S st (.push index count eof)).eofPushed = (st.eofPushed || eof) := by
        simp [step, eofPushed]
      rw [hseen]
      refine hpush.weaken (fun p hp => ?_) (fun p hp => ?_)
      · rw [hspan]
        simpa [step, pushedInRoom, Push.hasInRoom, Push.has, and_assoc] using hp
      · rw [hspan] at hp
        simpa [step, pushed, Push.has] using hp
    case fits =>
      intro x hx
      rcases List.mem_append.mp hx with hx | hx
      · exact h.fits x hx
      · rw [List.mem_singleton.mp hx]
        exact hend
    case capacity_eq =>
      have hframe := StreamReassembler.pushSubstring_frame st.reassembler (slice S index count)
        index eof
      exact hframe.2.1.trans h.capacity_eq
  | read len =>
    exact ⟨StreamReassembler.read_holds h.holds len, h.fits,
      (ByteStream.read_capacity _ _).trans h.capacity_eq⟩
  | pop len =>
    exact ⟨StreamReassembler.popOutput_holds h.holds len, h.fits, h.capacity_eq⟩

/-- **Run lemma.**  The invariant holds after every sequence of consistent calls. -/
theorem run_inv (capacity : Nat) (ops : List ReassemblerOp) (hfits : ∀ op ∈ ops, op.Fits)
    (hops : ∀ op ∈ ops, op.Consistent S) : Inv S capacity (run S capacity ops) := by
  induction ops using List.reverseRecOn with
  | nil => exact start_inv S capacity
  | append_singleton ops op ih =>
    rw [run_snoc]
    have hold : ∀ o ∈ ops, o ∈ ops ++ [op] := fun o ho => List.mem_append_left _ ho
    have hlast : op ∈ ops ++ [op] := by simp
    exact step_inv (ih (fun o ho => hfits o (hold o ho)) (fun o ho => hops o (hold o ho)))
      (hfits op hlast) (hops op hlast)

/-- Without reads, every push saw the whole capacity. -/
theorem run_room_of_pushes (S : List UInt8) (capacity : Nat) (ops : List ReassemblerOp)
    (hpush : ∀ op ∈ ops, ∃ index count eof, op = .push index count eof) :
    (run S capacity ops).reassembler.output.bytesRead = 0 ∧
      (run S capacity ops).reassembler.output.capacity = capacity ∧
      ∀ x ∈ (run S capacity ops).pushes, x.room = capacity := by
  induction ops using List.reverseRecOn with
  | nil => exact ⟨rfl, rfl, fun x hx => absurd hx (by simp [run, start])⟩
  | append_singleton ops op ih =>
    obtain ⟨hread, hcap, hroom⟩ := ih (fun o ho => hpush o (by simp [ho]))
    obtain ⟨index, count, eof, rfl⟩ := hpush op (by simp)
    rw [run_snoc]
    -- a push moves neither the reader nor the capacity, and the room is made of the two
    have hframe := StreamReassembler.pushSubstring_frame (run S capacity ops).reassembler
      (slice S index count) index eof
    refine ⟨hframe.1.trans hread, hframe.2.1.trans hcap, fun x hx => ?_⟩
    rcases List.mem_append.mp hx with hx | hx
    · exact hroom x hx
    · rw [List.mem_singleton.mp hx]
      show (run S capacity ops).reassembler.output.bytesRead + _ = capacity
      rw [hread, hcap, Nat.zero_add]

/-! ### The three results -/

/-- **Reassembler soundness.**  After every call, all bytes ever written to the output stream
    are the first `expected` bytes of `S`, and `expected` is the number of bytes written. -/
theorem run_written (S : List UInt8) (capacity : Nat) (ops : List ReassemblerOp)
    (hS : S.length < 2 ^ 64 - 1) (hops : ∀ op ∈ ops, op.Consistent S) :
    (run S capacity ops).written = S.take (run S capacity ops).reassembler.expected ∧
      (run S capacity ops).reassembler.expected ≤ S.length ∧
      (run S capacity ops).reassembler.expected
        = (run S capacity ops).reassembler.streamOut.bytesWritten := by
  have h := (run_inv capacity ops (fun op hop => (hops op hop).fits hS) hops).holds
  exact ⟨h.assembled, h.expected_le, h.expected_eq⟩

/-- Out-of-order, overlapping and clipped pushes of `abcd` into a reassembler of capacity 3. -/
theorem run_written_abcd :
    (run [97, 98, 99, 100] 3 [.push 1 2 false, .push 0 2 false, .pop 1, .push 2 2 true]).written
      = [97, 98, 99, 100].take 4 :=
  (run_written [97, 98, 99, 100] 3 [.push 1 2 false, .push 0 2 false, .pop 1, .push 2 2 true]
    (by decide) (by decide)).1.trans (by decide)

/-- **Nothing that fits is lost.**  The bytes written reach at least as far as every position
    was pushed while there was room for it, and no further than every position was pushed.
    Without reads the two bounds meet. -/
theorem run_nothing_lost (S : List UInt8) (capacity : Nat) (ops : List ReassemblerOp)
    (hfits : ∀ op ∈ ops, op.Fits) (hops : ∀ op ∈ ops, op.Consistent S) :
    longestPrefix (run S capacity ops).pushedInRoom S.length
        ≤ (run S capacity ops).reassembler.streamOut.bytesWritten ∧
      (run S capacity ops).reassembler.streamOut.bytesWritten
        ≤ longestPrefix (run S capacity ops).pushed S.length ∧
      ((∀ op ∈ ops, ∃ index count eof, op = .push index count eof) →
        (run S capacity ops).reassembler.streamOut.bytesWritten
          = min capacity (longestPrefix (run S capacity ops).pushed S.length)) := by
  have h := (run_inv capacity ops hfits hops).holds
  have hwritten : (run S capacity ops).reassembler.streamOut.bytesWritten
      = (run S capacity ops).reassembler.expected := h.expected_eq.symm
  have hlow : longestPrefix (run S capacity ops).pushedInRoom S.length
      ≤ (run S capacity ops).reassembler.expected :=
    h.le_expected (le_longestPrefix_iff.mp (le_refl _)).2
  have hhigh : (run S capacity ops).reassembler.expected
      ≤ longestPrefix (run S capacity ops).pushed S.length :=
    le_longestPrefix_iff.mpr ⟨h.expected_le, fun k hk => h.origin k (Or.inl hk)⟩
  refine ⟨by omega, by omega, fun hpush => ?_⟩
  obtain ⟨hread, hcap, hroom⟩ := run_room_of_pushes S capacity ops hpush
  have hacc := (run S capacity ops).reassembler.output.accounted
  have hfits := (run S capacity ops).reassembler.output.fits
  -- with the room constant, a pushed position below the capacity was pushed in room
  have hmin : min capacity (longestPrefix (run S capacity ops).pushed S.length)
      ≤ longestPrefix (run S capacity ops).pushedInRoom S.length := by
    obtain ⟨hle, hall⟩ := le_longestPrefix_iff.mp
      (le_refl (longestPrefix (run S capacity ops).pushed S.length))
    refine le_longestPrefix_iff.mpr ⟨by omega, fun k hk => ?_⟩
    obtain ⟨x, hx, hxk⟩ := List.any_eq_true.mp (hall k (by omega))
    refine List.any_eq_true.mpr ⟨x, hx, ?_⟩
    rw [Push.hasInRoom, hxk, hroom x hx, Bool.true_and, decide_eq_true_eq]
    omega
  have heq := h.expected_eq
  omega

/-- The same pushes of `abcd`, without the read: the capacity 3 cuts the prefix. -/
theorem run_nothing_lost_abcd :
    (run [97, 98, 99, 100] 3 [.push 1 2 false, .push 0 2 false, .push 2 2 true]
      ).reassembler.streamOut.bytesWritten = min 3 4 :=
  ((run_nothing_lost [97, 98, 99, 100] 3 [.push 1 2 false, .push 0 2 false, .push 2 2 true]
    (by decide) (by decide)).2.2 (by
      intro op hop
      simp only [List.mem_cons, List.not_mem_nil, or_false] at hop
      rcases hop with rfl | rfl | rfl <;> exact ⟨_, _, _, rfl⟩)).trans (by decide)

/-- **End of stream.**  The output stream is closed exactly when some push carried `eof` and
    all of `S` has been written. -/
theorem run_inputEnded_iff (S : List UInt8) (capacity : Nat) (ops : List ReassemblerOp)
    (hfits : ∀ op ∈ ops, op.Fits) (hops : ∀ op ∈ ops, op.Consistent S) :
    (run S capacity ops).reassembler.streamOut.inputEnded = true ↔
      (∃ x ∈ (run S capacity ops).pushes, x.eof = true) ∧
        (run S capacity ops).reassembler.streamOut.bytesWritten = S.length := by
  have h := (run_inv capacity ops hfits hops).holds
  have hiff := h.ended_iff
  rw [h.expected_eq] at hiff
  rw [show (run S capacity ops).reassembler.streamOut = (run S capacity ops).reassembler.output
    from rfl, hiff, eofPushed, List.any_eq_true]

/-- The end of `abcd` comes first, its last byte is clipped and pushed again after a read. -/
theorem run_inputEnded_abcd :
    (run [97, 98, 99, 100] 3 [.push 2 2 true, .push 0 3 false, .pop 1, .push 3 1 false]
      ).reassembler.streamOut.inputEnded = true :=
  (run_inputEnded_iff [97, 98, 99, 100] 3
    [.push 2 2 true, .push 0 3 false, .pop 1, .push 3 1 false] (by decide) (by decide)).mpr
    (by decide)

end ReassemblerRun

end Sponge
