import Sponge.ReassemblerStorage
import Sponge.Lib.Loop

namespace Sponge

open Pieces

/-!
# What cannot go wrong in the reassembler

`merge` and `send_to_bytestream` walk a map while they erase from it, cut strings at computed
positions and take lengths off a counter.  Three things could go wrong on the way, and `faults`
collects them for one call, in the order in which the source would meet them:

* `substr` is given a position past the end of the string, and throws;
* `emplace` meets a key that is taken, and silently drops bytes;
* the counter would have to go below zero.

The first two never happen (`mergeBackwardFaults_eq_nil`, `assembleFaults_eq`, `insertFaults_eq`),
whatever is pushed.  The third does not happen as long as the counter does not overflow
(`apply_counted`): bytes that are erased without being written stay in it for good, so that it
can come back to zero while bytes are held.

Both loops end by themselves (`mergeStep_ends`, `sendStep_ends`); here they look at the map as it is
in every iteration.
-/

/-- What must not happen. -/
inductive Fault where
  | substrOutOfRange
  | keyTaken
  | countUnderflow
  deriving DecidableEq, Repr

namespace StreamReassembler

variable {r : StreamReassembler} {index : Nat} {data : List UInt8} {eof : Bool}

/-! ### The loops -/

/-- One iteration of the loop of `merge`.  The iterator stands at the first key that is not less
    than `index`. -/
def mergeStep (index : Nat) (data : List UInt8) :
    StreamReassembler → ForInStep StreamReassembler :=
  Loop.walk (fun r => r.reassembleBuffer.lowerBound index)
    (fun _ e => repeatedInterval index data.length e.1 e.2.length)
    (fun r e =>
      { r with
        unassembledBytes := subSize r.unassembledBytes e.2.length
        reassembleBuffer := r.reassembleBuffer.erase e.1 })

/-- One iteration of the loop of `send_to_bytestream`.  The iterator stands at the first key. -/
def sendStep : StreamReassembler → ForInStep StreamReassembler :=
  Loop.walk (fun r => r.reassembleBuffer.entries) (fun r e => e.1 ≤ r.expected) sendFront

/-- The loop as the source writes it, with an iterator into the map as it is, does what the
    recursion over the entries does. -/
theorem run_mergeStep (index : Nat) (data : List UInt8) :
    ∀ (es : List (Nat × List UInt8)) (r : StreamReassembler),
      r.reassembleBuffer.lowerBound index = es →
        Loop.run (mergeStep index data) es.length r = (mergeForward index data es r).1
  | [], _, _ => rfl
  | e :: rest, r, hr => by
    rw [List.length_cons, Loop.run, mergeStep, Loop.walk_of_cons (s := r) hr, mergeForward]
    by_cases hrep : repeatedInterval index data.length e.1 e.2.length = true
    · rw [if_pos hrep, if_pos hrep]
      exact run_mergeStep index data rest _ (OrdMap.lowerBound_erase hr)
    · rw [if_neg hrep, if_neg hrep]

/-- **The loop of `merge` ends**, and does what `mergeForward` says. -/
theorem mergeStep_ends (index : Nat) (data : List UInt8) (r : StreamReassembler) :
    Loop.Ends (mergeStep index data) (r.reassembleBuffer.lowerBound index).length r
      (mergeForward index data (r.reassembleBuffer.lowerBound index) r).1 := by
  rw [← run_mergeStep index data _ r rfl]
  refine Loop.walk_ends ?_ r
  intro s e rest hs
  exact OrdMap.lowerBound_erase hs

/-- The same for the loop that writes bytes out. -/
theorem run_sendStep : ∀ (es : List (Nat × List UInt8)) (r : StreamReassembler),
    r.reassembleBuffer.entries = es → Loop.run sendStep es.length r = sendLoop es r
  | [], _, _ => rfl
  | e :: rest, r, hr => by
    rw [List.length_cons, Loop.run, sendStep, Loop.walk_of_cons (s := r) hr]
    by_cases hle : e.1 ≤ r.expected
    · rw [if_pos (by simpa using hle), sendLoop_cons_of_le hle]
      exact run_sendStep rest _ (sendFront_entries hr)
    · rw [if_neg (by simpa using hle), sendLoop_cons_of_lt (by omega)]

/-- **The loop of `send_to_bytestream` ends.** -/
theorem sendStep_ends (r : StreamReassembler) :
    Loop.Ends sendStep r.reassembleBuffer.entries.length r r.sendToBytestream := by
  rw [sendToBytestream, ← run_sendStep _ r rfl]
  refine Loop.walk_ends ?_ r
  intro s e rest hs
  exact sendFront_entries hs

/-! ### The faults of a call -/

/-- `data.substr(pos, ..)` -/
def substrFaults (data : List UInt8) (pos : Nat) : List Fault :=
  if data.length < pos then [.substrOutOfRange] else []

/-- `_reassemble_buffer.emplace(index, data)` -/
def emplaceFaults (r : StreamReassembler) (index : Nat) (data : List UInt8) : List Fault :=
  if data ≠ [] ∧ ∃ e ∈ r.reassembleBuffer.entries, e.1 = index then [.keyTaken] else []

/-- `_unassembled_bytes -= n` -/
def decrementFaults (r : StreamReassembler) (n : Nat) : List Fault :=
  if r.unassembledBytes < n then [.countUnderflow] else []

/-- The first loop of `merge`. -/
def mergeForwardFaults (index : Nat) (data : List UInt8) :
    List (Nat × List UInt8) → StreamReassembler → List Fault
  | [], _ => []
  | e :: rest, r =>
    if repeatedInterval index data.length e.1 e.2.length then
      r.decrementFaults e.2.length ++ mergeForwardFaults index data rest
        { r with
          unassembledBytes := subSize r.unassembledBytes e.2.length
          reassembleBuffer := r.reassembleBuffer.erase e.1 }
    else []

/-- The second half of `merge`. -/
def mergeBackwardFaults (before : List (Nat × List UInt8)) (index : Nat) (data : List UInt8) :
    List Fault :=
  match before.getLast? with
  | none => []
  | some prev =>
    if addSize prev.1 prev.2.length > index then
      if addSize prev.1 prev.2.length > addSize index data.length then []
      else substrFaults data (addSize prev.1 prev.2.length - index)
    else []

def mergeFaults (r : StreamReassembler) (index : Nat) (data : List UInt8) : List Fault :=
  let before := r.reassembleBuffer.below index
  let mergeIter := r.reassembleBuffer.lowerBound index
  mergeForwardFaults index data mergeIter r ++
    match (mergeForward index data mergeIter r).2 with
    | [] => mergeBackwardFaults before index data
    | next :: _ =>
      if next.1 = index then []
      else if next.1 < addSize index data.length then
        substrFaults data 0 ++ mergeBackwardFaults before index (data.take (next.1 - index))
      else mergeBackwardFaults before index data

def insertFaults (r : StreamReassembler) (index : Nat) (data : List UInt8) : List Fault :=
  if r.reassembleBuffer.entries.isEmpty then r.emplaceFaults index data
  else
    r.mergeFaults index data ++
      match r.merge index data with
      | ((true, index, data), r) => r.emplaceFaults index data
      | ((false, _, _), _) => []

/-- One entry that is handed to the output stream. -/
def assembleFaults (r : StreamReassembler) (index : Nat) (data : List UInt8) : List Fault :=
  if addSize index data.length > r.expected then
    let cut := if index < r.expected then data.drop (r.expected - index) else data
    let clipped :=
      if cut.length > r.output.remainingCapacity then cut.take r.output.remainingCapacity else cut
    (if index < r.expected then substrFaults data (r.expected - index) else []) ++
      (if cut.length > r.output.remainingCapacity then substrFaults cut 0 else []) ++
      r.decrementFaults clipped.length
  else []

/-- The loop of `send_to_bytestream`. -/
def sendLoopFaults : List (Nat × List UInt8) → StreamReassembler → List Fault
  | [], _ => []
  | e :: rest, r =>
    if e.1 ≤ r.expected then r.assembleFaults e.1 e.2 ++ sendLoopFaults rest (r.sendFront e)
    else []

/-- The bytes of a push. -/
def acceptFaults (r : StreamReassembler) (data : List UInt8) (index : Nat) : List Fault :=
  if addSize index data.length > r.expected then
    r.insertFaults index data ++
      sendLoopFaults (r.insert index data).reassembleBuffer.entries (r.insert index data)
  else []

def pushFaults (r : StreamReassembler) (data : List UInt8) (index : Nat) (eof : Bool) :
    List Fault :=
  acceptFaults (if eof then { r with eofIndex := addSize data.length index } else r) data index

/-- The mark of the end of the stream is in none of the functions. -/
theorem pushFaults_eq (r : StreamReassembler) (data : List UInt8) (index : Nat) (eof : Bool) :
    ∃ i, r.pushFaults data index eof = (r.markEof i).acceptFaults data index := by
  cases eof with
  | false => exact ⟨r.eofIndex, rfl⟩
  | true => exact ⟨_, rfl⟩

/-- Everything that goes wrong in a call. -/
def faults (r : StreamReassembler) : StorageOp → List Fault
  | .push data index eof => r.pushFaults data index eof
  | .read _ => []
  | .pop _ => []

/-! ### Positions and keys -/

/-- A cut inside of the string is no fault. -/
theorem substrFaults_of_le {pos : Nat} (h : pos ≤ data.length) : substrFaults data pos = [] :=
  if_neg (by omega)

/-- The new substring is cut where the entry before ends, which is not past its own end. -/
theorem mergeBackwardFaults_eq_nil (before : List (Nat × List UInt8)) (index : Nat)
    (data : List UInt8) : mergeBackwardFaults before index data = [] := by
  unfold mergeBackwardFaults
  split
  · rfl
  · have hend := addSize_le index data.length
    split
    · split
      · rfl
      · exact substrFaults_of_le (by omega)
    · rfl

/-- Only the erasing loop of `merge` can go wrong. -/
theorem mergeFaults_eq (r : StreamReassembler) (index : Nat) (data : List UInt8) :
    r.mergeFaults index data
      = mergeForwardFaults index data (r.reassembleBuffer.lowerBound index) r := by
  have hzero : substrFaults data 0 = [] := substrFaults_of_le (Nat.zero_le _)
  unfold mergeFaults
  dsimp only
  simp only [mergeBackwardFaults_eq_nil, hzero, List.append_nil]
  split
  · rw [List.append_nil]
  · rw [ite_self, ite_self, List.append_nil]

/-- Storing is no fault where the key is free, or where there is nothing to store. -/
theorem emplaceFaults_of_free
    (h : data = [] ∨ ∀ e ∈ r.reassembleBuffer.entries, e.1 ≠ index) :
    r.emplaceFaults index data = [] := by
  refine if_neg ?_
  rintro ⟨hdata, e, he, hkey⟩
  rcases h with hnil | hfree
  · exact hdata hnil
  · exact hfree e he hkey

/-- **Bytes are stored under a free key.** -/
theorem insertFaults_eq (h : Tidy r) (hdata : index + data.length < 2 ^ 64) :
    r.insertFaults index data
      = mergeForwardFaults index data (r.reassembleBuffer.lowerBound index) r := by
  unfold insertFaults
  -- in an empty map the place is free
  by_cases hempty : r.reassembleBuffer.entries.isEmpty = true
  · have hnil : r.reassembleBuffer.entries = [] := List.isEmpty_iff.mp hempty
    rw [if_pos hempty, emplaceFaults_of_free (Or.inr (by simp [hnil])), OrdMap.lowerBound, hnil]
    rfl
  · rw [if_neg hempty, mergeFaults_eq]
    obtain ⟨before, gone, rest, r', hs, hcase⟩ := merge_cases h.chained h.bounded hdata
    -- the substring is swallowed, or its key is free after the merge with both neighbours
    rcases hcase with ⟨-, -, -, -, hmerge⟩ | ⟨hrest, hmerge⟩
    · rw [hmerge]
      exact List.append_nil _
    · have hcut := length_cutAt_le index data rest
      have hfree := mergeBackward_free (fun e he => h.bounded e (by rw [hs.entries]; simp [he]))
        (show index + (cutAt index data rest).length < 2 ^ 64 by omega) hs.before_lt hrest
      rw [← hs.left] at hfree
      rw [hmerge]
      generalize mergeBackward before index (cutAt index data rest) = verdict at hfree
      obtain ⟨stores, k, d⟩ := verdict
      cases stores with
      | false => exact List.append_nil _
      | true =>
        dsimp only
        rw [emplaceFaults_of_free hfree, List.append_nil]

/-- An entry is cut at `expected`, which lies inside it, and then at its front: only the count can
    go wrong. -/
theorem assembleFaults_eq (hbound : index + data.length < 2 ^ 64) :
    r.assembleFaults index data = r.decrementFaults (r.writable index data).length := by
  unfold assembleFaults
  rw [addSize_eq hbound]
  by_cases hend : index + data.length > r.expected
  swap
  · -- nothing is left to write
    have hzero : (r.writable index data).length = 0 := by
      rw [writable, List.length_take, List.length_drop]
      omega
    rw [if_neg hend, hzero]
    rfl
  have hcut : substrFaults data (r.expected - index) = [] := substrFaults_of_le (by omega)
  have hclip : ∀ d, substrFaults d 0 = [] := fun d => substrFaults_of_le (Nat.zero_le _)
  rw [if_pos hend, cut_eq_drop]
  -- every cut is inside of its string, so only the count can fault
  simp only [clip_eq_take, hcut, hclip, ite_self, List.nil_append]
  rfl

/-- Nothing is out of range, and no bytes are dropped. -/
def CountOnly (fs : List Fault) : Prop := ∀ f ∈ fs, f = .countUnderflow

/-- What goes wrong in two parts of a call. -/
theorem CountOnly.append {fs gs : List Fault} (hf : CountOnly fs) (hg : CountOnly gs) :
    CountOnly (fs ++ gs) := by
  intro f hmem
  rcases List.mem_append.mp hmem with h | h
  · exact hf f h
  · exact hg f h

/-- Taking bytes off the count can go wrong in one way only. -/
theorem decrementFaults_countOnly (r : StreamReassembler) (n : Nat) :
    CountOnly (r.decrementFaults n) := by
  unfold CountOnly decrementFaults
  split <;> simp

/-- The loop of `merge` erases entries and takes them off the count. -/
theorem mergeForwardFaults_countOnly (index : Nat) (data : List UInt8)
    (above : List (Nat × List UInt8)) (r : StreamReassembler) :
    CountOnly (mergeForwardFaults index data above r) := by
  induction above generalizing r with
  | nil => simp [mergeForwardFaults, CountOnly]
  | cons e above ih =>
    rw [mergeForwardFaults]
    split
    · exact (decrementFaults_countOnly r _).append (ih _)
    · simp [CountOnly]

/-- The loop that writes bytes out cuts its strings inside their range. -/
theorem sendLoopFaults_countOnly (es : List (Nat × List UInt8)) (r : StreamReassembler)
    (hbound : ∀ e ∈ es, e.1 + e.2.length < 2 ^ 64) : CountOnly (sendLoopFaults es r) := by
  induction es generalizing r with
  | nil => simp [sendLoopFaults, CountOnly]
  | cons e rest ih =>
    rw [List.forall_mem_cons] at hbound
    rw [sendLoopFaults]
    split
    · rw [assembleFaults_eq hbound.1]
      exact (decrementFaults_countOnly r _).append (ih _ hbound.2)
    · simp [CountOnly]

/-- The two loops one after the other. -/
theorem acceptFaults_countOnly (h : Tidy r) (hdata : index + data.length < 2 ^ 64) :
    CountOnly (r.acceptFaults data index) := by
  unfold acceptFaults
  split
  · rw [insertFaults_eq h hdata]
    exact (mergeForwardFaults_countOnly _ _ _ _).append
      (sendLoopFaults_countOnly _ _ (insert_tidy h hdata).bounded)
  · simp [CountOnly]

/-- **No string is cut out of range and no bytes are dropped**, whatever is pushed. -/
theorem faults_countOnly (h : Tidy r) (op : StorageOp) (hfits : op.Fits) :
    CountOnly (r.faults op) := by
  cases op with
  | push data index eof =>
    obtain ⟨i, hmark⟩ := pushFaults_eq r data index eof
    show CountOnly (r.pushFaults data index eof)
    rw [hmark]
    exact acceptFaults_countOnly ⟨h.chained, h.bounded⟩ hfits
  | read len => simp [faults, CountOnly]
  | pop len => simp [faults, CountOnly]

/-! ### The count -/

/-- The count is no less than the bytes held. -/
structure Counted (r : StreamReassembler) : Prop where
  held_le : r.held ≤ r.unassembledBytes
  count_lt : r.unassembledBytes < 2 ^ 64

/-- A difference that does not underflow. -/
theorem subSize_eq {a b : Nat} (hle : b ≤ a) (hlt : a < 2 ^ 64) : subSize a b = a - b := by
  unfold subSize
  omega

/-- An entry is erased and some of its bytes are taken off the count: there are as many in it. -/
theorem Counted.take_off (h : Counted r) {before rest : List (Nat × List UInt8)}
    {e : Nat × List UInt8} (hr : r.reassembleBuffer.entries = before ++ e :: rest) {n : Nat}
    (hn : n ≤ e.2.length) :
    r.decrementFaults n = [] ∧ subSize r.unassembledBytes n = r.unassembledBytes - n ∧
      total (before ++ rest) ≤ r.unassembledBytes - n := by
  have hheld := h.held_le
  rw [held, hr, total_append, total_cons] at hheld
  refine ⟨if_neg (by omega), subSize_eq (by omega) h.count_lt, ?_⟩
  rw [total_append]
  omega

/-- What the loop of `merge` erases has been counted. -/
theorem mergeForward_counted (index : Nat) (data : List UInt8) {before : List (Nat × List UInt8)} :
    ∀ (above : List (Nat × List UInt8)) (r : StreamReassembler),
      -- along the entries above `index`, each of which is taken off the count while it is covered
      r.reassembleBuffer.entries = before ++ above → Counted r →
        mergeForwardFaults index data above r = [] ∧
          Counted (mergeForward index data above r).1 ∧
          (mergeForward index data above r).1.unassembledBytes ≤ r.unassembledBytes
  | [], _, _, h => ⟨rfl, h, le_refl _⟩
  | e :: above, r, hr, h => by
    rw [mergeForwardFaults, mergeForward]
    split
    · obtain ⟨hnone, hcount, hleft⟩ := h.take_off hr (le_refl _)
      have herase := OrdMap.entries_erase hr
      have hless : subSize r.unassembledBytes e.2.length ≤ r.unassembledBytes := by omega
      obtain ⟨hrest, hcounted, hle⟩ := mergeForward_counted index data above
        { r with
          unassembledBytes := subSize r.unassembledBytes e.2.length
          reassembleBuffer := r.reassembleBuffer.erase e.1 }
        herase ⟨by rw [held, herase, hcount]; exact hleft, lt_of_le_of_lt hless h.count_lt⟩
      rw [hnone, hrest]
      exact ⟨rfl, hcounted, le_trans hle hless⟩
    · exact ⟨rfl, h, le_refl _⟩

/-- A substring that is stored is counted, also when its key is taken and it is not kept. -/
theorem store_counted (h : Counted r) {k : Nat} {d : List UInt8}
    (hroom : r.unassembledBytes + d.length < 2 ^ 64) : Counted (r.store k d) := by
  have hheld := h.held_le
  have hcount : (r.store k d).unassembledBytes = r.unassembledBytes + d.length := addSize_eq hroom
  refine ⟨?_, by rw [hcount]; exact hroom⟩
  rw [hcount]
  show total (r.reassembleBuffer.emplace k d).entries ≤ _
  by_cases habsent : ∀ e ∈ r.reassembleBuffer.entries, e.1 ≠ k
  · rw [total_emplace_of_absent d habsent]
    exact Nat.add_le_add_right hheld _
  · obtain ⟨e, he, hk⟩ : ∃ e ∈ r.reassembleBuffer.entries, e.1 = k := by simpa using habsent
    rw [OrdMap.emplace_of_present d he hk]
    exact le_trans hheld (Nat.le_add_right _ _)

/-- Merging and storing together. -/
theorem insert_counted (h : Tidy r) (hc : Counted r) (hdata : index + data.length < 2 ^ 64)
    (hroom : r.unassembledBytes + data.length < 2 ^ 64) :
    r.insertFaults index data = [] ∧ Counted (r.insert index data) := by
  obtain ⟨hnone, hcounted, hle⟩ := mergeForward_counted index data _ r
    (r.reassembleBuffer.below_append_lowerBound index).symm hc
  obtain ⟨verdict, hstored, heq⟩ := insert_after_loop r index data
  refine ⟨by rw [insertFaults_eq h hdata]; exact hnone, ?_⟩
  rw [heq, storeMerged]
  split
  · exact store_counted hcounted (by dsimp only; omega)
  · exact hcounted

/-- What the loop writes out has been counted; what it erases without writing stays in the count. -/
theorem sendLoop_counted : ∀ (es : List (Nat × List UInt8)) (r : StreamReassembler),
    r.reassembleBuffer.entries = es → (∀ e ∈ es, e.1 + e.2.length < 2 ^ 64) → Counted r →
      sendLoopFaults es r = [] ∧ Counted (sendLoop es r)
  | [], _, _, _, h => ⟨rfl, h⟩
  | e :: rest, r, hr, hbound, h => by
    rw [List.forall_mem_cons] at hbound
    by_cases hle : e.1 ≤ r.expected
    · obtain ⟨hnone, hcount, hleft⟩ := h.take_off
        (show r.reassembleBuffer.entries = [] ++ e :: rest from hr) (r.writable_length_le e)
      have hlt := h.count_lt
      have hentries := sendFront_entries hr
      have hfront : Counted (r.sendFront e) := by
        refine ⟨?_, ?_⟩
        · rw [held, hentries, sendFront_count h.count_lt hbound.1, hcount]
          exact hleft
        · rw [sendFront_count h.count_lt hbound.1, hcount]
          omega
      obtain ⟨hrest, hcounted⟩ := sendLoop_counted rest _ hentries hbound.2 hfront
      rw [sendLoop_cons_of_le hle, sendLoopFaults, if_pos hle, assembleFaults_eq hbound.1, hnone,
        hrest]
      exact ⟨rfl, hcounted⟩
    · rw [sendLoop_cons_of_lt (by omega), sendLoopFaults, if_neg hle]
      exact ⟨rfl, h⟩

/-- A whole push, as long as the count does not overflow. -/
theorem acceptBytes_counted (h : Tidy r) (hc : Counted r) (hdata : index + data.length < 2 ^ 64)
    (hroom : r.unassembledBytes + data.length < 2 ^ 64) :
    r.acceptFaults data index = [] ∧ Counted (r.acceptBytes data index) := by
  unfold acceptFaults acceptBytes
  split
  · obtain ⟨hnone, hcounted⟩ := insert_counted h hc hdata hroom
    obtain ⟨hrest, hsent⟩ := sendLoop_counted _ _ rfl (insert_tidy h hdata).bounded hcounted
    rw [hnone, hrest]
    exact ⟨rfl, hsent⟩
  · exact ⟨rfl, hc⟩

/-- The count does not overflow, not even if all bytes of the push are stored. -/
def CountFits (r : StreamReassembler) : StorageOp → Prop
  | .push data _ _ => r.unassembledBytes + data.length < 2 ^ 64
  | .read _ => True
  | .pop _ => True

instance (r : StreamReassembler) : (op : StorageOp) → Decidable (r.CountFits op)
  | .push data _ _ => inferInstanceAs (Decidable (r.unassembledBytes + data.length < 2 ^ 64))
  | .read _ => inferInstanceAs (Decidable True)
  | .pop _ => inferInstanceAs (Decidable True)

/-- **Step lemma.**  Nothing goes wrong in a call as long as the count does not overflow. -/
theorem apply_counted (h : Tidy r) (hc : Counted r) (op : StorageOp) (hfits : op.Fits)
    (hroom : r.CountFits op) : r.faults op = [] ∧ Counted (r.apply op) := by
  cases op with
  | push data index eof =>
    -- the end is noted before the bytes are accepted, and no entry or count depends on it
    obtain ⟨i, hmark⟩ := pushFaults_eq r data index eof
    obtain ⟨hmap, -, hcount, -⟩ := pushSubstring_same r data index eof
    obtain ⟨-, haccepted⟩ := acceptBytes_counted h hc hfits hroom
    refine ⟨?_, ?_, ?_⟩
    · show r.pushFaults data index eof = []
      rw [hmark]
      exact (acceptBytes_counted (r := r.markEof i) ⟨h.chained, h.bounded⟩
        ⟨hc.held_le, hc.count_lt⟩ hfits hroom).1
    · show total (r.pushSubstring data index eof).reassembleBuffer.entries ≤ _
      rw [apply, hmap, hcount]
      exact haccepted.held_le
    · rw [apply, hcount]
      exact haccepted.count_lt
  | read len => exact ⟨rfl, hc.held_le, hc.count_lt⟩
  | pop len => exact ⟨rfl, hc.held_le, hc.count_lt⟩

/-! ### Runs -/

/-- In the beginning nothing is held and nothing counted. -/
theorem new_counted (capacity : Nat) : Counted (new capacity) := ⟨le_refl _, by simp [new]⟩

/-- **The representation invariant.**  After any pushes, of whatever contents, and reads: every key
    is greater than `expected`, the stored intervals are disjoint, no further call cuts a string out
    of range or drops bytes at a taken key, and both loops end.  As long as the count does not
    overflow it is no less than the bytes held, and no call takes it below zero. -/
theorem representation_invariant (capacity : Nat) (ops : List StorageOp)
    (hfits : ∀ op ∈ ops, op.Fits) :
    let r := ops.foldl apply (new capacity)
    (∀ e ∈ r.reassembleBuffer.entries, r.expected < e.1) ∧
      (r.reassembleBuffer.entries.Pairwise fun a b =>
        Disjoint (Set.Ico a.1 (a.1 + a.2.length)) (Set.Ico b.1 (b.1 + b.2.length))) ∧
      (∀ op : StorageOp, op.Fits → .substrOutOfRange ∉ r.faults op ∧ .keyTaken ∉ r.faults op) ∧
      (∀ (s : StreamReassembler) (index : Nat) (data : List UInt8),
        Loop.Ends (mergeStep index data) (s.reassembleBuffer.lowerBound index).length s
          (mergeForward index data (s.reassembleBuffer.lowerBound index) s).1) ∧
      (∀ s : StreamReassembler,
        Loop.Ends sendStep s.reassembleBuffer.entries.length s s.sendToBytestream) ∧
      (Run.Steps apply CountFits (new capacity) ops →
        r.held ≤ r.unassembledBytes ∧ ∀ op, op.Fits → r.CountFits op → r.faults op = []) := by
  intro r
  have hlayout : Layout r := List.foldlRecOn ops apply (motive := Layout) (new_layout capacity)
    (fun s hs op hop => apply_layout hs op (hfits op hop))
  refine ⟨hlayout.ahead, Chained.disjoint hlayout.chained, fun op hop => ?_,
    fun s index data => mergeStep_ends index data s, sendStep_ends, fun hsteps => ?_⟩
  · have honly := faults_countOnly hlayout.toTidy op hop
    exact ⟨fun hmem => absurd (honly _ hmem) (by simp), fun hmem => absurd (honly _ hmem) (by simp)⟩
  · -- the count is right in every state of a run whose pushes leave room for it
    have halways := hsteps.always (I := fun s => Layout s ∧ Counted s)
      (fun s op hop hs hroom => ⟨apply_layout hs.1 op hop,
        (apply_counted hs.1.toTidy hs.2 op hop hroom).2⟩)
      hfits ⟨new_layout capacity, new_counted capacity⟩
    have hc := (halways ops (List.prefix_refl _)).2
    exact ⟨hc.held_le, fun op hop hroom => (apply_counted hlayout.toTidy hc op hop hroom).1⟩

/-- A byte that waits for the ones before it, a push that overlaps it, and one that begins with old
    bytes. -/
theorem representation_invariant_overlap :
    let ops : List StorageOp := [.push [3, 4] 2 false, .push [4, 5] 3 false,
      .push [1, 2, 3] 0 false, .read 2, .push [5, 6] 4 true]
    let r := ops.foldl apply (new 6)
    r.held ≤ r.unassembledBytes ∧ r.faults (.push [7] 9 false) = [] := by
  intro ops r
  obtain ⟨-, -, -, -, -, hcount⟩ := representation_invariant 6 ops (by decide)
  obtain ⟨hheld, hfaults⟩ := hcount (by decide)
  exact ⟨hheld, hfaults _ (by decide) (by decide)⟩

/-! ### A count that comes back to zero -/

/-- A reassembler without room holds the byte at index 5 and counts `n` bytes more, none of which is
    held any longer. -/
structure Clogged (n : Nat) (r : StreamReassembler) : Prop where
  entries : r.reassembleBuffer.entries = [(5, [1])]
  expected : r.expected = 0
  eofIndex : r.eofIndex ≠ 0
  output : r.output = .new 0
  count : r.unassembledBytes = (1 + n) % 2 ^ 64

/-- Such a reassembler is in an ordinary state. -/
theorem Clogged.layout {n : Nat} (h : Clogged n r) : Layout r where
  chained := by
    rw [h.entries]
    exact List.pairwise_singleton _ _
  bounded := by simp [h.entries]
  ahead := by simp [h.entries, h.expected]
  written_le := by
    rw [h.output]
    exact Nat.zero_le _

/-- The new byte meets no entry, so it is stored as it is. -/
theorem Clogged.insert_eq_store {n : Nat} (h : Clogged n r) : r.insert 0 [0] = r.store 0 [0] := by
  have hbelow : r.reassembleBuffer.below 0 = [] := by
    rw [OrdMap.below, h.entries]
    rfl
  have hlower : r.reassembleBuffer.lowerBound 0 = [(5, [1])] := by
    rw [OrdMap.lowerBound, h.entries]
    rfl
  rw [insert_eq, merge, hbelow, hlower]
  rfl

/-- A byte that there is no room for is erased again, and stays in the count. -/
theorem Clogged.push {n : Nat} (h : Clogged n r) :
    Clogged (n + 1) (r.pushSubstring [0] 0 false) := by
  have hentries : (r.store 0 [0]).reassembleBuffer.entries = [(0, [0]), (5, [1])] :=
    store_entries (show _ = [] ++ [(5, [1])] from h.entries) [0] (by simp) (by simp)
  have hcount : (r.store 0 [0]).unassembledBytes = (1 + (n + 1)) % 2 ^ 64 := by
    show addSize r.unassembledBytes 1 = _
    rw [h.count, addSize_mod]
    rfl
  have hexpected : (r.store 0 [0]).expected = 0 := h.expected
  have houtput : (r.store 0 [0]).output = .new 0 := h.output
  -- each push stores the byte in front of the stray entry, which stops the loop
  have haccept : r.acceptBytes [0] 0 = sendLoop [(0, [0]), (5, [1])] (r.store 0 [0]) := by
    rw [acceptBytes, h.expected, if_pos (by decide), h.insert_eq_store, sendToBytestream, hentries]
  have heof := (acceptBytes_frame r [0] 0).1
  rw [haccept] at heof
  generalize r.store 0 [0] = s at hentries hcount hexpected houtput haccept heof
  -- the loop takes the new byte out without writing it, and stops
  have hwritable : s.writable 0 [0] = [] := by
    rw [writable, houtput]
    rfl
  have hsent : (s.sendFront (0, [0])).expected = 0 := by
    rw [sendFront_expected (show 0 + [0].length < 2 ^ 64 by decide), hwritable, hexpected]
    rfl
  have hloop : sendLoop [(0, [0]), (5, [1])] s = s.sendFront (0, [0]) := by
    rw [sendLoop_cons_of_le (by rw [hexpected]), sendLoop_cons_of_lt (by rw [hsent]; decide)]
  rw [hloop] at haccept heof
  have hopen : (s.sendFront (0, [0])).expected ≠ (s.sendFront (0, [0])).eofIndex := by
    rw [hsent, heof]
    exact h.eofIndex.symm
  rw [pushSubstring_eq]
  simp only [Bool.false_eq_true, if_false, haccept, if_neg hopen]
  refine ⟨sendFront_entries hentries, hsent, by rw [heof]; exact h.eofIndex, ?_, ?_⟩
  · show (s.assemble 0 [0]).output = .new 0
    rw [assemble_eq (by rw [hexpected]; decide) (by decide), hwritable, houtput]
    rfl
  · rw [sendFront_count (by rw [hcount]; exact Nat.mod_lt _ (by decide))
      (show 0 + [0].length < 2 ^ 64 by decide), hwritable, hcount, List.length_nil, subSize]
    omega

/-- Any number of such bytes. -/
theorem Clogged.pushes {n : Nat} (h : Clogged n r) (k : Nat) :
    Clogged (n + k) ((List.replicate k (StorageOp.push [0] 0 false)).foldl apply r) := by
  induction k generalizing n r with
  | zero => exact h
  | succ k ih =>
    rw [List.replicate_succ, List.foldl_cons, show n + (k + 1) = n + 1 + k by omega]
    exact ih h.push

/-- One push brings a fresh reassembler without room into this state. -/
theorem clogged_new : Clogged 0 ((new 0).pushSubstring [1] 5 false) where
  entries := rfl
  expected := rfl
  eofIndex := by decide
  output := rfl
  count := rfl

/-- A push that covers the byte takes it off the count, whatever that is. -/
theorem Clogged.count_of_overflow {n : Nat} (h : Clogged n r) (hn : (1 + n) % 2 ^ 64 = 0) :
    r.unassembledBytes < r.held ∧ .countUnderflow ∈ r.faults (.push [1, 2] 5 false) := by
  have hcount := h.count
  rw [hn] at hcount
  refine ⟨by rw [hcount, held, h.entries]; decide, ?_⟩
  have hlower : r.reassembleBuffer.lowerBound 5 = [(5, [1])] := by
    rw [OrdMap.lowerBound, h.entries]
    rfl
  show .countUnderflow ∈ r.acceptFaults [1, 2] 5
  rw [acceptFaults, h.expected, if_pos (by decide), insertFaults_eq h.layout.toTidy (by decide),
    hlower, mergeForwardFaults, if_pos (by decide), decrementFaults, hcount]
  simp

/-- **The count overflows.**  A byte waits at index 5, and a byte that there is no room for is
    pushed `2^64 - 1` times: the count is zero, below the byte that is held, and the next push that
    covers this byte takes it off all the same. -/
theorem count_below_held :
    let ops := StorageOp.push [1] 5 false :: List.replicate (2 ^ 64 - 1) (.push [0] 0 false)
    let r := ops.foldl apply (new 0)
    (∀ op ∈ ops, op.Fits) ∧ r.unassembledBytes < r.held ∧
      .countUnderflow ∈ r.faults (.push [1, 2] 5 false) := by
  have hclogged : ∀ k, Clogged (0 + k) ((StorageOp.push [1] 5 false ::
      List.replicate k (.push [0] 0 false)).foldl apply (new 0)) := by
    intro k
    rw [List.foldl_cons]
    exact clogged_new.pushes k
  refine ⟨?_, (hclogged (2 ^ 64 - 1)).count_of_overflow (by decide)⟩
  intro op hop
  rcases List.mem_cons.mp hop with rfl | hop
  · decide
  · rw [List.eq_of_mem_replicate hop]
    decide

end StreamReassembler

end Sponge
