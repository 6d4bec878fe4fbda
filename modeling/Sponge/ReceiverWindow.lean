import Sponge.ReassemblerStorage
import Sponge.TCPConnection

namespace Sponge

/-!
# A receiver under arbitrary segments

The segments here need not belong to any stream: they may overlap with different bytes, lie
anywhere in the sequence space and carry any flags.  `ReceiverOp` has the calls that then remain,
and `after` the receiver after a sequence of them.

* **The window.**  `Onward` is what every call keeps: the reader's and the writer's counts only
  grow.  So the right edge of the window never moves left, and neither does the edge that is left
  of it by the 16 bits of the window field: `right_edge_monotone`.
* **The wrapped index.**  A segment without SYN at the absolute number of the SYN has no stream
  index; the subtraction of the source wraps to `wrappedIndex`.  `indexExact_iff` says exactly
  which segments are pushed at the index they should be pushed at, and `harmless_iff` when one that
  has no index does no harm.
-/

/-- A call on a receiver, or on its output stream. -/
inductive ReceiverOp where
  | segmentReceived (seg : TCPSegment)
  /-- `stream_out().read(len)` -/
  | read (len : Nat)
  /-- `stream_out().pop_output(len)` -/
  | popOutput (len : Nat)

namespace TCPReceiver

/-- The receiver after the call. -/
def apply (r : TCPReceiver) : ReceiverOp → TCPReceiver
  | .segmentReceived seg => r.segmentReceived seg
  | .read len => (r.read len).2
  | .popOutput len => r.popOutput len

/-- The receiver after a sequence of calls. -/
def after (r : TCPReceiver) (ops : List ReceiverOp) : TCPReceiver := ops.foldl apply r

variable {r r' : TCPReceiver}

/-! ### The window -/

/-- `r'` comes after `r` in a run. -/
structure Onward (r r' : TCPReceiver) : Prop where
  capacity : r'.streamOut.capacity = r.streamOut.capacity
  read_le : r.streamOut.bytesRead ≤ r'.streamOut.bytesRead
  written_le : r.streamOut.bytesWritten ≤ r'.streamOut.bytesWritten
  ended : r.streamOut.inputEnded = true → r'.streamOut.inputEnded = true
  synchronized : r.inListen = false → r'.inListen = false ∧ r'.isn = r.isn

theorem Onward.refl (r : TCPReceiver) : Onward r r :=
  ⟨rfl, le_refl _, le_refl _, id, fun h => ⟨h, rfl⟩⟩

/-- Two calls after another move the counts on. -/
theorem Onward.trans {r'' : TCPReceiver} (h : Onward r r') (h' : Onward r' r'') : Onward r r'' where
  capacity := h'.capacity.trans h.capacity
  read_le := h.read_le.trans h'.read_le
  written_le := h.written_le.trans h'.written_le
  ended := fun hended => h'.ended (h.ended hended)
  synchronized := fun hsync =>
    have hmid := h.synchronized hsync
    have hend := h'.synchronized hmid.1
    ⟨hend.1, hend.2.trans hmid.2⟩

/-- **Step lemma.** -/
theorem apply_onward (r : TCPReceiver) (op : ReceiverOp) : Onward r (r.apply op) := by
  cases op with
  | segmentReceived seg =>
    obtain ⟨hread, hcap, -, hwritten, hended⟩ := segmentReceived_advances r seg
    refine ⟨hcap, le_of_eq hread.symm, hwritten, hended, fun hsync => ?_⟩
    -- after the SYN the number of the first byte never changes
    have hpush : r.segmentReceived seg = r.pushSegment seg := by
      rw [segmentReceived, hsync, if_neg (by simp)]
    rw [apply, hpush, pushSegment_inListen, pushSegment_isn]
    exact ⟨hsync, rfl⟩
  | read len =>
    refine ⟨ByteStream.read_capacity _ _, ?_, le_of_eq (ByteStream.read_bytesWritten _ _).symm, ?_,
      fun hsync => ⟨hsync, rfl⟩⟩
    · show _ ≤ (r.streamOut.read len).2.bytesRead
      rw [ByteStream.read_bytesRead]
      exact Nat.le_add_right _ _
    · exact fun hended => (ByteStream.read_inputEnded _ _).trans hended
  | popOutput len =>
    exact ⟨rfl, Nat.le_add_right _ _, le_refl _, id, fun hsync => ⟨hsync, rfl⟩⟩

/-- **Run lemma.** -/
theorem after_onward (r : TCPReceiver) (ops : List ReceiverOp) : Onward r (r.after ops) := by
  induction ops generalizing r with
  | nil => exact .refl r
  | cons op ops ih => exact (r.apply_onward op).trans (ih (r.apply op))

/-- The right edge never moves left. -/
theorem Onward.edge_le (h : Onward r r') : r.absAck + r.windowSize ≤ r'.absAck + r'.windowSize := by
  have hread := h.read_le
  rw [absAck_add_windowSize, absAck_add_windowSize, edge, edge, h.capacity]
  by_cases hended : r.streamOut.inputEnded = true
  · rw [if_pos hended, if_pos (h.ended hended)]
    omega
  · rw [if_neg hended]
    omega

/-- **The right edge of the window never moves left**, whatever arrives after the SYN: not the one
    of the receiver, and not the one a connection advertises.  The window is what the capacity
    leaves beside the buffered bytes, as a true difference. -/
theorem right_edge_monotone (capacity : Nat) (rand : WrappingInt32)
    (before more : List ReceiverOp)
    (hsyn : ((new capacity rand).after before).inListen = false) :
    let r := (new capacity rand).after before
    let r' := r.after more
    let ended := if r'.streamOut.inputEnded then 1 else 0
    r'.streamOut.bytesWritten + 1 + ended + r'.windowSize
        = 1 + ended + r'.streamOut.bytesRead + capacity ∧
      r.absAck + r.windowSize ≤ r'.absAck + r'.windowSize ∧
      r.streamOut.bytesWritten ≤ r'.streamOut.bytesWritten ∧
      r'.ackno = some (wrap (.ofNat r'.absAck) r.isn) ∧ r.absAck ≤ r'.absAck ∧
      r'.windowSize + r'.streamOut.bufferSize = capacity ∧
      r.absAck + min 65535 r.windowSize ≤ r'.absAck + min 65535 r'.windowSize := by
  intro r r' ended
  have hstart : Onward (new capacity rand) r := after_onward _ before
  have honward : Onward r r' := after_onward r more
  have hcapacity : r'.streamOut.capacity = capacity := honward.capacity.trans hstart.capacity
  have hroom := r'.streamOut.bytesWritten_add_remainingCapacity
  have hfits := r'.streamOut.fits
  obtain ⟨hsync, hisn⟩ := honward.synchronized hsyn
  have hack := absAck_mono honward.written_le honward.ended
  have hedge := honward.edge_le
  refine ⟨?_, hedge, honward.written_le, ?_, hack, ?_, ?_⟩
  · rw [windowSize]
    omega
  · rw [ackno, hsync, if_neg (by simp), hisn]
  · rw [windowSize, ByteStream.remainingCapacity, ByteStream.bufferSize]
    omega
  · -- the smaller of two edges that never move left
    omega

/-- A SYN, three bytes of which two are read, and a segment that contradicts them. -/
theorem right_edge_monotone_abc :
    let syn : TCPSegment := { header := { seqno := ⟨7⟩, syn := true } }
    let abc : TCPSegment := { header := { seqno := ⟨8⟩ }, payload := [97, 98, 99] }
    let xyz : TCPSegment := { header := { seqno := ⟨8⟩, fin := true }, payload := [120, 121] }
    let r := (new 4 ⟨0⟩).after [.segmentReceived syn]
    let r' := r.after [.segmentReceived abc, .read 2, .segmentReceived xyz]
    r.inListen = false ∧ r.absAck + r.windowSize = 5 ∧ r'.absAck + r'.windowSize = 7 ∧
      r.absAck + min 65535 r.windowSize ≤ r'.absAck + min 65535 r'.windowSize :=
  ⟨by decide, by decide, by decide, (right_edge_monotone 4 ⟨0⟩
    [.segmentReceived { header := { seqno := ⟨7⟩, syn := true } }]
    [.segmentReceived { header := { seqno := ⟨8⟩ }, payload := [97, 98, 99] }, .read 2,
      .segmentReceived { header := { seqno := ⟨8⟩, fin := true }, payload := [120, 121] }]
    (by decide)).2.2.2.2.2.2⟩

end TCPReceiver

/-! ### The wrapped index -/

/-- What the subtraction of the source gives for a stream index before the first one. -/
def wrappedIndex : Nat := 2 ^ 64 - 1

namespace StreamReassembler

variable {r : StreamReassembler} {index : Nat} {data : List UInt8} {eof : Bool}

/-- What holds between two calls, whatever is pushed at whatever index: nothing can be assembled,
    the end of the stream has been seen to, and the count of bytes is a 64-bit number. -/
structure Resting (r : StreamReassembler) : Prop where
  ahead : ∀ e ∈ r.reassembleBuffer.entries, r.expected < e.1
  closed : r.expected = r.eofIndex → r.output.inputEnded = true
  count_lt : r.unassembledBytes < 2 ^ 64

/-- A fresh reassembler holds nothing. -/
theorem new_resting (capacity : Nat) : Resting (new capacity) where
  ahead := by simp [new]
  closed := by simp [new]
  count_lt := by simp [new]

theorem subSize_lt (a b : Nat) : subSize a b < 2 ^ 64 := Nat.mod_lt _ (by decide)

/-- The loop that writes bytes out stops where the entries start after `expected`. -/
theorem sendLoop_ahead : ∀ (es : List (Nat × List UInt8)) (r : StreamReassembler),
    r.reassembleBuffer.entries = es → r.unassembledBytes < 2 ^ 64 →
      (∀ e ∈ (sendLoop es r).reassembleBuffer.entries, (sendLoop es r).expected < e.1) ∧
        (sendLoop es r).unassembledBytes < 2 ^ 64
  | [], r, hr, hcount => by
    rw [sendLoop, hr]
    exact ⟨by simp, hcount⟩
  | e :: rest, r, hr, hcount => by
    -- bytes are taken off the count in 64 bits, so it stays below the bound
    by_cases hle : e.1 ≤ r.expected
    · rw [sendLoop_cons_of_le hle]
      refine sendLoop_ahead rest (r.sendFront e) (sendFront_entries hr) ?_
      show (r.assemble e.1 e.2).unassembledBytes < 2 ^ 64
      unfold assemble
      split
      · exact subSize_lt _ _
      · exact hcount
    · rw [sendLoop_cons_of_lt (by omega)]
      refine ⟨fun x hx => ?_, hcount⟩
      -- the keys increase
      have hsorted := r.reassembleBuffer.sorted
      rw [hr] at hx hsorted
      rcases List.mem_cons.mp hx with rfl | hx
      · omega
      · have hlt := (List.pairwise_cons.mp hsorted).1 x hx
        omega

/-- The count stays a 64-bit number through the loop of `merge`. -/
theorem mergeForward_count_lt (index : Nat) (data : List UInt8) (above : List (Nat × List UInt8))
    {r : StreamReassembler} (hcount : r.unassembledBytes < 2 ^ 64) :
    (mergeForward index data above r).1.unassembledBytes < 2 ^ 64 := by
  induction above generalizing r with
  | nil => exact hcount
  | cons e above ih =>
    rw [mergeForward]
    split
    · exact ih (subSize_lt _ _)
    · exact hcount

/-- And through storing. -/
theorem insert_count_lt (hcount : r.unassembledBytes < 2 ^ 64) :
    (r.insert index data).unassembledBytes < 2 ^ 64 := by
  obtain ⟨verdict, -, heq⟩ := insert_after_loop r index data
  rw [heq, storeMerged]
  split
  · exact addSize_lt _ _
  · exact mergeForward_count_lt _ _ _ hcount

/-- **Step lemma.**  Every push leaves the reassembler at rest. -/
theorem pushSubstring_resting (h : Resting r) (data : List UInt8) (index : Nat) (eof : Bool) :
    Resting (r.pushSubstring data index eof) := by
  obtain ⟨hbuffer, hexpected, hcount, -⟩ := pushSubstring_same r data index eof
  -- the loop that writes bytes out runs until the first key is past `expected`
  have haccept : (∀ e ∈ (r.acceptBytes data index).reassembleBuffer.entries,
      (r.acceptBytes data index).expected < e.1) ∧
        (r.acceptBytes data index).unassembledBytes < 2 ^ 64 := by
    unfold acceptBytes
    split
    · exact sendLoop_ahead _ _ rfl (insert_count_lt h.count_lt)
    · exact ⟨h.ahead, h.count_lt⟩
  refine ⟨by rw [hbuffer, hexpected]; exact haccept.1, ?_, by rw [hcount]; exact haccept.2⟩
  rw [pushSubstring_eq]
  generalize acceptBytes _ data index = t
  dsimp only
  split
  · exact fun _ => rfl
  · rename_i hopen
    exact fun hend => absurd hend hopen

/-! ### A push at the wrapped index -/

/-- The end of a substring at the wrapped index, in 64 bits. -/
theorem addSize_wrappedIndex {n : Nat} (hn : n < 2 ^ 64) :
    addSize wrappedIndex n = if n = 0 then wrappedIndex else n - 1 := by
  unfold addSize wrappedIndex
  split <;> omega

/-- Nothing is written out where every entry starts after `expected`. -/
theorem sendToBytestream_of_ahead (h : ∀ e ∈ r.reassembleBuffer.entries, r.expected < e.1) :
    r.sendToBytestream = r := by
  unfold sendToBytestream
  cases hentries : r.reassembleBuffer.entries with
  | nil => rfl
  | cons e rest => exact sendLoop_cons_of_lt (h e (by rw [hentries]; simp))

/-- No entry before the wrapped index reaches beyond it. -/
theorem mergeBackward_wrappedIndex (before : List (Nat × List UInt8)) (data : List UInt8) :
    mergeBackward before wrappedIndex data = (true, wrappedIndex, data) := by
  unfold mergeBackward
  split
  · rfl
  · rename_i prev _
    have hlt := addSize_lt prev.1 prev.2.length
    rw [if_neg (by unfold wrappedIndex; omega)]

/-- Where the wrapped index is free, the substring is stored there whole. -/
theorem insert_wrappedIndex_of_free
    (hfree : ∀ e ∈ r.reassembleBuffer.entries, e.1 < wrappedIndex) :
    r.insert wrappedIndex data = r.store wrappedIndex data := by
  have hnone : r.reassembleBuffer.lowerBound wrappedIndex = [] :=
    (OrdMap.below_lowerBound_eq (List.append_nil _).symm hfree (by simp)).2
  rw [insert_eq, merge, hnone]
  show storeMerged (mergeBackward _ wrappedIndex data, r) = _
  rw [mergeBackward_wrappedIndex]
  rfl

/-- An empty substring parked at the wrapped index keeps others from being stored there. -/
theorem insert_wrappedIndex_of_parked {before : List (Nat × List UInt8)}
    (hentries : r.reassembleBuffer.entries = before ++ [(wrappedIndex, [])])
    (hbefore : ∀ e ∈ before, e.1 < wrappedIndex) (hcount : r.unassembledBytes < 2 ^ 64)
    (hlen : data.length < 2 ^ 64) :
    (r.insert wrappedIndex data).reassembleBuffer.entries = r.reassembleBuffer.entries ∧
      (r.insert wrappedIndex data).unassembledBytes = r.unassembledBytes := by
  have hparked := (OrdMap.below_lowerBound_eq hentries hbefore (by simp)).2
  rw [insert_eq, merge, hparked]
  by_cases hdata : data.length = 0
  · -- an empty one takes the place of the empty one
    obtain rfl := List.eq_nil_of_length_eq_zero hdata
    have hgone : mergeForward wrappedIndex [] [(wrappedIndex, [])] r
        = ({ r with
              unassembledBytes := subSize r.unassembledBytes 0
              reassembleBuffer := r.reassembleBuffer.erase wrappedIndex }, []) := rfl
    rw [hgone]
    dsimp only
    rw [mergeBackward_wrappedIndex]
    constructor
    · rw [hentries]
      exact store_entries (OrdMap.entries_erase hentries) [] hbefore (by simp)
    · show addSize (subSize r.unassembledBytes 0) 0 = r.unassembledBytes
      unfold addSize subSize
      omega
  · -- a longer one reaches beyond the empty one in 64 bits, so that stays and stops it
    have hfurther : repeatedInterval wrappedIndex data.length wrappedIndex 0 = false := by
      rw [repeatedInterval, addSize_wrappedIndex hlen, if_neg hdata,
        addSize_wrappedIndex (by decide), if_pos rfl, decide_eq_false_iff_not]
      unfold wrappedIndex
      omega
    have hstay : mergeForward wrappedIndex data [(wrappedIndex, [])] r
        = (r, [(wrappedIndex, [])]) := by
      rw [mergeForward, List.length_nil, hfurther, if_neg (by simp)]
    rw [hstay]
    dsimp only
    rw [if_pos rfl]
    exact ⟨rfl, rfl⟩

/-- No byte is stored at the wrapped index: it is free, or an empty substring is parked there. -/
def Clean (r : StreamReassembler) : Prop :=
  ∀ e ∈ r.reassembleBuffer.entries, e.1 < wrappedIndex ∨ e = (wrappedIndex, [])

instance (r : StreamReassembler) : Decidable r.Clean := by unfold Clean; infer_instance

/-- The keys increase, so at most one entry is parked, and it is the last one. -/
theorem Clean.cases (h : Clean r) :
    (∀ e ∈ r.reassembleBuffer.entries, e.1 < wrappedIndex) ∨
      ∃ before, r.reassembleBuffer.entries = before ++ [(wrappedIndex, [])] ∧
        ∀ e ∈ before, e.1 < wrappedIndex := by
  have hsplit := r.reassembleBuffer.below_append_lowerBound wrappedIndex
  have hbelow : ∀ e ∈ r.reassembleBuffer.below wrappedIndex, e.1 < wrappedIndex :=
    fun e he => OrdMap.lt_of_mem_below he
  -- there is at most one key so high
  have htop : ∀ e ∈ r.reassembleBuffer.lowerBound wrappedIndex, e = (wrappedIndex, []) := by
    intro e he
    have hle := OrdMap.le_of_mem_lowerBound he
    exact (h e (by rw [← hsplit]; exact List.mem_append_right _ he)).resolve_left (by omega)
  cases hlb : r.reassembleBuffer.lowerBound wrappedIndex with
  | nil =>
    rw [hlb, List.append_nil] at hsplit
    rw [← hsplit]
    exact Or.inl hbelow
  | cons x xs =>
    refine Or.inr ⟨r.reassembleBuffer.below wrappedIndex, ?_, hbelow⟩
    have hsorted := r.reassembleBuffer.sorted
    rw [hlb] at htop hsplit
    rw [← hsplit] at hsorted ⊢
    -- two entries would have the same key
    have hxs : xs = [] := by
      cases xs with
      | nil => rfl
      | cons y ys =>
        have hlt := ((List.pairwise_cons.mp (List.pairwise_append.mp hsorted).2.1).1 y (by simp))
        rw [htop x (by simp), htop y (by simp)] at hlt
        exact absurd hlt (lt_irrefl _)
    rw [hxs, htop x (by simp)]

/-- The index is free: what passes is stored whole, and nothing is assembled. -/
theorem acceptBytes_wrappedIndex_of_free (h : Resting r) (hexpected : r.expected < wrappedIndex)
    (hfree : ∀ e ∈ r.reassembleBuffer.entries, e.1 < wrappedIndex)
    (hpass : addSize wrappedIndex data.length > r.expected) :
    (r.acceptBytes data wrappedIndex).expected = r.expected ∧
      (r.acceptBytes data wrappedIndex).output = r.output ∧
      (r.acceptBytes data wrappedIndex).unassembledBytes = addSize r.unassembledBytes data.length ∧
      (r.acceptBytes data wrappedIndex).reassembleBuffer.entries
        = r.reassembleBuffer.entries ++ [(wrappedIndex, data)] := by
  obtain ⟨hinsert, houtput, -⟩ := insert_frame r wrappedIndex data
  have hstored : (r.insert wrappedIndex data).reassembleBuffer.entries
      = r.reassembleBuffer.entries ++ [(wrappedIndex, data)] := by
    rw [insert_wrappedIndex_of_free hfree]
    exact store_entries (List.append_nil _).symm data hfree (by simp)
  -- the top index is past every byte that is expected
  have hahead : ∀ e ∈ (r.insert wrappedIndex data).reassembleBuffer.entries,
      (r.insert wrappedIndex data).expected < e.1 := by
    rw [hstored, hinsert]
    intro e he
    rcases List.mem_append.mp he with he | he
    · exact h.ahead e he
    · rw [List.mem_singleton.mp he]
      exact hexpected
  rw [acceptBytes, if_pos hpass, sendToBytestream_of_ahead hahead]
  refine ⟨hinsert, houtput, ?_, hstored⟩
  rw [insert_wrappedIndex_of_free hfree]
  rfl

/-- An empty substring is parked at the index: nothing changes. -/
theorem acceptBytes_wrappedIndex_of_parked (h : Resting r) {before : List (Nat × List UInt8)}
    (hentries : r.reassembleBuffer.entries = before ++ [(wrappedIndex, [])])
    (hbefore : ∀ e ∈ before, e.1 < wrappedIndex) (hlen : data.length < 2 ^ 64)
    (hpass : addSize wrappedIndex data.length > r.expected) :
    (r.acceptBytes data wrappedIndex).expected = r.expected ∧
      (r.acceptBytes data wrappedIndex).output = r.output ∧
      (r.acceptBytes data wrappedIndex).unassembledBytes = r.unassembledBytes ∧
      (r.acceptBytes data wrappedIndex).reassembleBuffer.entries = r.reassembleBuffer.entries := by
  obtain ⟨hinsert, houtput, -⟩ := insert_frame r wrappedIndex data
  obtain ⟨hsame, hcount⟩ := insert_wrappedIndex_of_parked hentries hbefore h.count_lt hlen
  have hahead : ∀ e ∈ (r.insert wrappedIndex data).reassembleBuffer.entries,
      (r.insert wrappedIndex data).expected < e.1 := by
    rw [hsame, hinsert]
    exact h.ahead
  rw [acceptBytes, if_pos hpass, sendToBytestream_of_ahead hahead]
  exact ⟨hinsert, houtput, hcount, hsame⟩

/-- **What a push at the wrapped index does** to a reassembler at rest: nothing is assembled, and
    the substring is stored exactly when its wrapped end lies after `expected` and nothing is
    parked. -/
theorem acceptBytes_wrappedIndex (h : Resting r) (hclean : Clean r)
    (hexpected : r.expected < wrappedIndex) (hlen : data.length < 2 ^ 64) :
    (r.acceptBytes data wrappedIndex).expected = r.expected ∧
      (r.acceptBytes data wrappedIndex).output = r.output ∧
      (data.length ≤ r.expected + 1 ∨ (wrappedIndex, []) ∈ r.reassembleBuffer.entries →
        (r.acceptBytes data wrappedIndex).unassembledBytes = r.unassembledBytes ∧
          ∀ e ∈ (r.acceptBytes data wrappedIndex).reassembleBuffer.entries,
            e ∈ r.reassembleBuffer.entries ∨ e = (wrappedIndex, [])) ∧
      (¬ (data.length ≤ r.expected + 1 ∨ (wrappedIndex, []) ∈ r.reassembleBuffer.entries) →
        (wrappedIndex, data) ∈ (r.acceptBytes data wrappedIndex).reassembleBuffer.entries) := by
  have hend := addSize_wrappedIndex hlen
  by_cases hpass : addSize wrappedIndex data.length > r.expected
  swap
  · -- the wrapped end is not after `expected`: the substring is ignored
    rw [acceptBytes, if_neg hpass]
    refine ⟨rfl, rfl, fun _ => ⟨rfl, fun e he => Or.inl he⟩, fun hnot => ?_⟩
    exfalso
    rw [hend] at hpass
    split at hpass <;> omega
  -- by whether an empty substring stands at the top index already
  rcases hclean.cases with hfree | ⟨before, hentries, hbefore⟩
  · obtain ⟨hexp, hout, hcount, hstored⟩ :=
      acceptBytes_wrappedIndex_of_free h hexpected hfree hpass
    have habsent : (wrappedIndex, []) ∉ r.reassembleBuffer.entries :=
      fun hmem => absurd (hfree _ hmem) (lt_irrefl _)
    refine ⟨hexp, hout, fun hsmall => ?_, fun _ => by simp [hstored]⟩
    -- only an empty substring ends after `expected` and is not longer than it
    have hnil : data = [] := by
      have hle := hsmall.resolve_right habsent
      rw [hend] at hpass
      split at hpass
      · exact List.eq_nil_of_length_eq_zero ‹_›
      · omega
    subst hnil
    refine ⟨hcount.trans (Nat.mod_eq_of_lt h.count_lt), fun e he => ?_⟩
    rw [hstored] at he
    exact (List.mem_append.mp he).imp id List.mem_singleton.mp
  · obtain ⟨hexp, hout, hcount, hsame⟩ :=
      acceptBytes_wrappedIndex_of_parked h hentries hbefore hlen hpass
    refine ⟨hexp, hout, fun _ => ⟨hcount, fun e he => Or.inl (hsame ▸ he)⟩, fun hnot => ?_⟩
    exact absurd (Or.inr (by rw [hentries]; simp)) hnot

/-- The stream has ended after a push exactly when it had before or its end is met: the one that
    comes with the push, or else the one known before. -/
theorem pushSubstring_ended (r : StreamReassembler) (data : List UInt8) (index : Nat)
    (eof : Bool) : (r.pushSubstring data index eof).output.inputEnded = true ↔
      r.output.inputEnded = true ∨ (r.acceptBytes data index).expected
        = if eof then addSize data.length index else r.eofIndex := by
  rw [pushSubstring_mark]
  generalize (if eof then addSize data.length index else r.eofIndex) = i
  show (if (r.acceptBytes data index).expected = i then _ else _
    : StreamReassembler).output.inputEnded = true ↔ _
  by_cases hmet : (r.acceptBytes data index).expected = i
  · rw [if_pos hmet]
    exact ⟨fun _ => Or.inr hmet, fun _ => rfl⟩
  · rw [if_neg hmet]
    show (r.acceptBytes data index).output.inputEnded = true ↔ _
    rw [(acceptBytes_frame r data index).2.1]
    exact (or_iff_left hmet).symm

/-- The end that is known after a push. -/
theorem pushSubstring_eofIndex (r : StreamReassembler) (data : List UInt8) (index : Nat)
    (eof : Bool) : (r.pushSubstring data index eof).eofIndex
      = if eof then addSize data.length index else r.eofIndex := by
  rw [pushSubstring_mark]
  generalize (if eof then addSize data.length index else r.eofIndex) = i
  dsimp only
  split <;> rfl

/-- A push at the wrapped index ends the stream exactly when its end is marked there, the wrapped
    end is `expected`, and the stream has not ended. -/
theorem pushSubstring_wrappedIndex_ended (h : Resting r) (hclean : Clean r)
    (hexpected : r.expected < wrappedIndex) (hlen : data.length < 2 ^ 64) (eof : Bool) :
    (r.pushSubstring data wrappedIndex eof).output.inputEnded = r.output.inputEnded ↔
      ¬ (eof = true ∧ data.length = r.expected + 1 ∧ r.output.inputEnded = false) := by
  have hmet : r.expected = addSize data.length wrappedIndex ↔ data.length = r.expected + 1 := by
    rw [addSize, Nat.add_comm, ← addSize, addSize_wrappedIndex hlen]
    split <;> omega
  rw [Bool.eq_iff_iff, pushSubstring_ended,
    (acceptBytes_wrappedIndex h hclean hexpected hlen).1]
  cases hended : r.output.inputEnded with
  | true => simp
  | false =>
    cases eof with
    | false =>
      -- the end was looked for before, at the same place
      have hopen : ¬ r.expected = r.eofIndex := fun hend => by simp [h.closed hend] at hended
      simp [hopen]
    | true => simp [hmet]

/-- After a push at the wrapped index the stream cannot come to a new end, exactly when the end
    that is marked is behind or was known, or the stream has ended. -/
theorem pushSubstring_wrappedIndex_unmarked (r : StreamReassembler) (hlen : data.length < 2 ^ 64)
    (eof : Bool) :
    (r.output.inputEnded = true ∨
        (r.pushSubstring data wrappedIndex eof).eofIndex = r.eofIndex ∨
        (r.pushSubstring data wrappedIndex eof).eofIndex < r.expected ∨
        (r.pushSubstring data wrappedIndex eof).eofIndex = wrappedIndex) ↔
      (eof = true → data.length ≤ r.expected ∨ data.length = r.eofIndex + 1 ∨
        r.output.inputEnded = true) := by
  rw [pushSubstring_eofIndex, addSize, Nat.add_comm, ← addSize, addSize_wrappedIndex hlen]
  by_cases hmark : eof = true
  · -- the end it marks is one less than its length, in 64 bits
    rw [if_pos hmark, wrappedIndex]
    by_cases hnil : data.length = 0
    · rw [if_pos hnil, hnil]
      simp
    · rw [if_neg hnil]
      have hpast : ¬ data.length - 1 = 2 ^ 64 - 1 := by omega
      constructor
      · rintro (hover | hknown | hpassed | htop) _
        · exact Or.inr (Or.inr hover)
        · exact Or.inr (Or.inl (by omega))
        · exact Or.inl (by omega)
        · exact absurd htop hpast
      · intro hfin
        rcases hfin hmark with hpassed | hknown | hover
        · exact Or.inr (Or.inr (Or.inl (by omega)))
        · exact Or.inr (Or.inl (by omega))
        · exact Or.inl hover
  · rw [if_neg hmark]
    exact ⟨fun _ hfin => absurd hfin hmark, fun _ => Or.inr (Or.inl rfl)⟩

end StreamReassembler

namespace TCPReceiver

variable {r : TCPReceiver} {seg : TCPSegment}

/-- The receiver as `segment_received` has it where it computes the stream index: in LISTEN, a SYN
    has set the initial sequence number. -/
def heard (r : TCPReceiver) (seg : TCPSegment) : TCPReceiver :=
  if r.inListen && seg.header.syn then { r with inListen := false, isn := seg.header.seqno } else r

/-- Taking the number of the SYN does not touch the reassembler. -/
@[simp] theorem heard_reassembler (r : TCPReceiver) (seg : TCPSegment) :
    (r.heard seg).reassembler = r.reassembler := by
  unfold heard
  split <;> rfl

/-- The segment comes as far as `push_substring`: it is not one without SYN in LISTEN, and its
    absolute number passes the window check. -/
def Pushes (r : TCPReceiver) (seg : TCPSegment) : Prop :=
  (r.inListen = true → seg.header.syn = true) ∧ (r.heard seg).InWindow ((r.heard seg).absSeq seg)

instance (r : TCPReceiver) (v : Nat) : Decidable (r.InWindow v) :=
  inferInstanceAs (Decidable (_ < _))

instance (r : TCPReceiver) (seg : TCPSegment) : Decidable (r.Pushes seg) :=
  inferInstanceAs (Decidable (_ ∧ _))

/-- A segment is pushed at its stream index, or does nothing but set the initial sequence number. -/
theorem segmentReceived_eq_heard (r : TCPReceiver) (seg : TCPSegment) :
    r.segmentReceived seg =
      if r.Pushes seg then
        { r.heard seg with
          reassembler := r.reassembler.pushSubstring seg.payload ((r.heard seg).streamIndex seg)
            seg.header.fin }
      else r.heard seg := by
  -- past the look at the SYN it is all in `push_segment`
  have hpush : (r.inListen = true → seg.header.syn = true) →
      r.segmentReceived seg = (r.heard seg).pushSegment seg := by
    intro hok
    unfold segmentReceived heard
    cases hlisten : r.inListen with
    | false => simp
    | true => simp [hok hlisten]
  by_cases hok : r.inListen = true → seg.header.syn = true
  · rw [hpush hok, pushSegment, heard_reassembler]
    by_cases hin : (r.heard seg).InWindow ((r.heard seg).absSeq seg)
    · rw [if_neg (Nat.not_le_of_lt hin), if_pos ⟨hok, hin⟩]
    · rw [if_pos (Nat.le_of_not_lt hin), if_neg (fun hboth => hin hboth.2)]
  · push Not at hok
    have hnosyn : seg.header.syn = false := by simpa using hok.2
    rw [if_neg (fun hboth => hok.2 (hboth.1 hok.1)), segmentReceived, if_pos hok.1, if_neg hok.2,
      heard, hnosyn, Bool.and_false, if_neg (by simp)]

/-- The segment adds no byte, in the output stream or to those stored, stores nothing that runs
    over the 64 bits of an index, does not end the stream, and marks no end that the stream can
    still come to. -/
structure Harmless (r : TCPReceiver) (seg : TCPSegment) : Prop where
  written : (r.segmentReceived seg).streamOut.bytesWritten = r.streamOut.bytesWritten
  count : (r.segmentReceived seg).unassembledBytes = r.unassembledBytes
  stored : ∀ e ∈ (r.segmentReceived seg).reassembler.reassembleBuffer.entries,
    e ∈ r.reassembler.reassembleBuffer.entries ∨ (e.2 = [] ∧ e.1 + e.2.length ≤ 2 ^ 64)
  ended : (r.segmentReceived seg).streamOut.inputEnded = r.streamOut.inputEnded
  unmarked : r.streamOut.inputEnded = true ∨
    (r.segmentReceived seg).reassembler.eofIndex = r.reassembler.eofIndex ∨
    (r.segmentReceived seg).reassembler.eofIndex < r.reassembler.expected ∨
    (r.segmentReceived seg).reassembler.eofIndex = wrappedIndex

/-- What keeps a segment at the wrapped index from doing harm.  It is not looked at in LISTEN or
    outside the window.  Otherwise its payload is at most one byte longer than what is assembled,
    or an empty substring is parked at the index; and its FIN, if it has one, marks an end that the
    stream has passed or that was known, or the stream has ended. -/
def Spared (r : TCPReceiver) (seg : TCPSegment) : Prop :=
  r.inListen = false → r.InWindow 0 →
    (seg.payload.length ≤ r.reassembler.expected + 1 ∨
        (wrappedIndex, []) ∈ r.reassembler.reassembleBuffer.entries) ∧
      (seg.header.fin = true → seg.payload.length ≤ r.reassembler.expected ∨
        seg.payload.length = r.reassembler.eofIndex + 1 ∨ r.streamOut.inputEnded = true)

/-- **Step lemma**: whatever is called, the reassembler comes to rest. -/
theorem apply_resting (h : r.reassembler.Resting) (op : ReceiverOp) :
    (r.apply op).reassembler.Resting := by
  cases op with
  | segmentReceived seg =>
    -- a push or nothing, in every branch
    have hpush : ∀ r : TCPReceiver, r.reassembler.Resting →
        (r.pushSegment seg).reassembler.Resting := by
      intro r h
      unfold pushSegment
      split
      · exact h
      · exact StreamReassembler.pushSubstring_resting h _ _ _
    show (r.segmentReceived seg).reassembler.Resting
    unfold segmentReceived
    split
    · split
      · exact hpush _ h
      · exact h
    · exact hpush r h
  | read len =>
    exact ⟨h.ahead, fun hend => (ByteStream.read_inputEnded _ _).trans (h.closed hend), h.count_lt⟩
  | popOutput len => exact ⟨h.ahead, h.closed, h.count_lt⟩

/-- **Run lemma.** -/
theorem after_resting (h : r.reassembler.Resting) (ops : List ReceiverOp) :
    (r.after ops).reassembler.Resting := by
  induction ops generalizing r with
  | nil => exact h
  | cons op ops ih => exact ih (apply_resting h op)

/-- The index is the absolute number less the SYN's place, where that is a number. -/
theorem streamIndex_add (r : TCPReceiver) (seg : TCPSegment)
    (hle : (if seg.header.syn then 0 else 1) ≤ r.absSeq seg) :
    r.streamIndex seg + (if seg.header.syn then 0 else 1) = r.absSeq seg := by
  have hseq : r.absSeq seg < 2 ^ 64 := UInt64.toNat_lt _
  have hk : (if seg.header.syn then 0 else 1) ≤ 1 := by split <;> omega
  rw [streamIndex]
  generalize (if seg.header.syn then 0 else 1) = k at hle hk ⊢
  unfold subSize
  omega

/-- Nothing happens to the receiver. -/
theorem harmless_of_eq (h : r.segmentReceived seg = r) : r.Harmless seg := by
  constructor <;> rw [h]
  · exact fun e he => Or.inl he
  · exact Or.inr (Or.inl rfl)

/-- A segment that is pushed at the wrapped index is harmless exactly when it is spared. -/
theorem harmless_iff_spared_of_pushed (hrest : r.reassembler.Resting)
    (hclean : r.reassembler.Clean) (hexpected : r.reassembler.expected < wrappedIndex)
    (hlen : seg.payload.length < 2 ^ 64) (hsync : r.inListen = false) (hwindow : r.InWindow 0)
    (hpushed : (r.segmentReceived seg).reassembler
      = r.reassembler.pushSubstring seg.payload wrappedIndex seg.header.fin) :
    r.Harmless seg ↔ r.Spared seg := by
  -- what a push at the top index does to the stream, the map, the count and the end
  obtain ⟨-, houtput, hspared, hstored⟩ :=
    StreamReassembler.acceptBytes_wrappedIndex hrest hclean hexpected hlen
  obtain ⟨hbuffer, -, hcount, hwritten⟩ :=
    r.reassembler.pushSubstring_same seg.payload wrappedIndex seg.header.fin
  have hended := StreamReassembler.pushSubstring_wrappedIndex_ended hrest hclean hexpected hlen
    seg.header.fin
  have hunmarked := r.reassembler.pushSubstring_wrappedIndex_unmarked hlen seg.header.fin
  rw [← hpushed] at hbuffer hcount hwritten hended hunmarked
  rw [houtput] at hwritten
  constructor
  · intro hharmless _ _
    refine ⟨?_, hunmarked.mp hharmless.unmarked⟩
    by_contra hnot
    -- the payload is stored, and it is not empty
    have hmem := hstored hnot
    rw [← hbuffer] at hmem
    rcases hharmless.stored _ hmem with hold | ⟨hnil, -⟩
    · rcases hclean _ hold with hlt | heq
      · exact lt_irrefl _ hlt
      · rw [heq] at hold
        exact hnot (Or.inr hold)
    · change seg.payload = [] at hnil
      exact hnot (Or.inl (by rw [hnil]; exact Nat.zero_le _))
  · intro hsp
    obtain ⟨hfits, hfin⟩ := hsp hsync hwindow
    obtain ⟨hsamecount, hentries⟩ := hspared hfits
    refine ⟨hwritten, hcount.trans hsamecount, fun e he => ?_, hended.mpr ?_,
      hunmarked.mpr hfin⟩
    · rw [hbuffer] at he
      refine (hentries e he).imp id ?_
      rintro rfl
      exact ⟨rfl, by simp [wrappedIndex]⟩
    · -- an end at `expected` is not new to a reassembler at rest
      rintro ⟨hmark, hlast, hopen⟩
      have hclosed := hrest.closed
      rcases hfin hmark with hpassed | hknown | hover
      · omega
      · have hover := hclosed (by omega)
        simp [hopen] at hover
      · rw [streamOut_eq, hopen] at hover
        exact absurd hover (by simp)

/-- **The stream index.**  In every state a receiver can reach with no byte at the wrapped index,
    the index of a segment is its absolute number less the SYN's place.  Where that is not a number,
    for a segment without SYN at the absolute number of the SYN, it wraps, and the segment is
    harmless exactly when it is spared. -/
theorem harmless_iff (capacity : Nat) (rand : WrappingInt32) (ops : List ReceiverOp)
    (seg : TCPSegment) (hclean : ((new capacity rand).after ops).reassembler.Clean)
    (hexpected : ((new capacity rand).after ops).reassembler.expected < wrappedIndex)
    (hlen : seg.payload.length < 2 ^ 64) :
    let r := (new capacity rand).after ops
    let k := if seg.header.syn then 0 else 1
    (k ≤ (r.heard seg).absSeq seg →
        (r.heard seg).streamIndex seg + k = (r.heard seg).absSeq seg) ∧
      ((r.heard seg).absSeq seg < k →
        (r.heard seg).streamIndex seg = wrappedIndex ∧ (r.Harmless seg ↔ r.Spared seg)) := by
  have hrest : ((new capacity rand).after ops).reassembler.Resting :=
    after_resting (StreamReassembler.new_resting capacity) ops
  generalize (new capacity rand).after ops = r at *
  refine ⟨(r.heard seg).streamIndex_add seg, fun hlt => ?_⟩
  -- what is left is a segment without SYN at the absolute number zero
  have hsyn : seg.header.syn = false := by
    by_contra hsyn
    rw [if_pos (by simpa using hsyn)] at hlt
    omega
  have hheard : r.heard seg = r := by rw [heard, hsyn, Bool.and_false, if_neg (by simp)]
  rw [hsyn, hheard, if_neg (by simp)] at hlt
  have hzero : r.absSeq seg = 0 := by omega
  have hindex : r.streamIndex seg = wrappedIndex := by
    rw [streamIndex, hzero, hsyn]
    rfl
  rw [hheard]
  refine ⟨hindex, ?_⟩
  -- in LISTEN, or outside of the window, nothing is pushed
  cases hlisten : r.inListen with
  | true =>
    have hsame : r.segmentReceived seg = r := by
      rw [segmentReceived, if_pos hlisten, if_neg (by simp [hsyn])]
    exact ⟨fun _ hsync => absurd (hlisten.symm.trans hsync) (by simp),
      fun _ => harmless_of_eq hsame⟩
  | false =>
    have hpush : r.segmentReceived seg = r.pushSegment seg := by
      rw [segmentReceived, if_neg (by simp [hlisten])]
    by_cases hwindow : r.InWindow 0
    · refine harmless_iff_spared_of_pushed hrest hclean hexpected hlen hlisten hwindow ?_
      rw [hpush, pushSegment, hzero, if_neg (Nat.not_le_of_lt hwindow), hindex]
    · have hsame : r.segmentReceived seg = r := by
        rw [hpush, pushSegment, hzero, if_pos (Nat.le_of_not_lt hwindow)]
      exact ⟨fun _ _ hin => absurd hin hwindow, fun _ => harmless_of_eq hsame⟩

-- one byte after the SYN: its wrapped end is the start of the stream
example :
    let syn : TCPSegment := { header := { seqno := ⟨23452⟩, syn := true } }
    let seg : TCPSegment := { header := { seqno := ⟨23452⟩ }, payload := [97] }
    let r := (new 4 ⟨0⟩).after [.segmentReceived syn]
    r.absSeq seg = 0 ∧ (r.segmentReceived seg).unassembledBytes = 0 := by
  decide +kernel

/-- The index of a segment is its absolute number less the SYN's place, without wrapping, wherever
    it is passed on; and a segment without SYN at the absolute number of the SYN leaves the receiver
    as it is: the stream, the stored bytes, their count and the end. -/
structure IndexExact (r : TCPReceiver) (seg : TCPSegment) : Prop where
  index : r.Pushes seg → (r.heard seg).streamIndex seg + (if seg.header.syn then 0 else 1)
    = (r.heard seg).absSeq seg
  invalid : seg.header.syn = false → r.absSeq seg = 0 → r.segmentReceived seg = r

/-- **The stream index does not wrap**, in any state and for any segment, if and only if the segment
    has SYN, or lies at the absolute number 1 at least, or the receiver is in LISTEN, or the number
    0 is outside of its window. -/
theorem indexExact_iff (r : TCPReceiver) (seg : TCPSegment) :
    r.IndexExact seg ↔
      seg.header.syn = true ∨ 1 ≤ r.absSeq seg ∨ r.inListen = true ∨ ¬ r.InWindow 0 := by
  cases hsyn : seg.header.syn with
  | true =>
    -- nothing is subtracted
    refine iff_of_true ⟨fun _ => streamIndex_add _ seg (by simp [hsyn]), ?_⟩ (Or.inl rfl)
    exact fun hnot => absurd (hsyn.symm.trans hnot) (by simp)
  | false =>
    have hheard : r.heard seg = r := by rw [heard, hsyn, Bool.and_false, if_neg (by simp)]
    by_cases hpos : 1 ≤ r.absSeq seg
    · refine iff_of_true ⟨fun _ => streamIndex_add _ seg ?_, fun _ hzero => ?_⟩
        (Or.inr (Or.inl hpos))
      · rw [hheard, hsyn]
        exact hpos
      · omega
    have hzero : r.absSeq seg = 0 := by omega
    have hpushes : r.Pushes seg ↔ r.inListen = false ∧ r.InWindow 0 := by
      rw [Pushes, hheard, hzero, hsyn]
      simp
    constructor
    · -- the difference would be a number below zero
      intro hexact
      by_contra hnone
      have hpushed : r.Pushes seg := hpushes.mpr (by simpa [hzero] using hnone)
      have hindex := hexact.index hpushed
      rw [hheard, hzero, hsyn] at hindex
      exact absurd hindex (by simp)
    · intro hcases
      -- none of the other cases pushes
      have hnot : ¬ r.Pushes seg := by
        rw [hpushes]
        rintro ⟨hheard, hin⟩
        rcases hcases with hbad | hbad | hlisten | hout
        · cases hbad
        · omega
        · exact absurd (hlisten.symm.trans hheard) (by simp)
        · exact hout hin
      refine ⟨fun hpushed => absurd hpushed hnot, fun _ _ => ?_⟩
      rw [segmentReceived_eq_heard, if_neg hnot, hheard]

/-- After the SYN, two bytes at its own number are stored at the index `2^64 - 1`, where they stay;
    one byte with the FIN there ends the stream before its first byte. -/
theorem wrapped_index_harms :
    let syn : TCPSegment := { header := { seqno := ⟨23452⟩, syn := true } }
    let ab : TCPSegment := { header := { seqno := ⟨23452⟩ }, payload := [97, 98] }
    let fin : TCPSegment := { header := { seqno := ⟨23452⟩, fin := true }, payload := [97] }
    let r := (new 4 ⟨0⟩).after [.segmentReceived syn]
    r.absSeq ab = 0 ∧ (r.segmentReceived ab).unassembledBytes = 2 ∧
      (r.segmentReceived ab).reassembler.reassembleBuffer.entries = [(2 ^ 64 - 1, [97, 98])] ∧
      (r.segmentReceived fin).streamOut.inputEnded = true ∧
      (r.segmentReceived fin).streamOut.bytesWritten = 0 := by
  decide +kernel

end TCPReceiver

end Sponge
