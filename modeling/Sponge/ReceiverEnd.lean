import Sponge.ReceiverWindow

namespace Sponge

/-!
# What brings the inbound stream to its end

A segment ends the stream when the stream is then assembled up to the index that is known as its
end: the one that the segment marks with its FIN, or the one an earlier FIN has marked.  This module
says so in terms of the receiver before the segment: what it has stored, what the segment brings,
and the room of the output stream.

* `StreamReassembler.reach` is how far the stream gets.  The segments are arbitrary here, so the
  comparisons are those of the source, in 64 bits.
* `acceptBytes_expected` — the loops of `push_substring` get just as far.
* `TCPReceiver.segmentReceived_ended_iff` — an open stream is ended by exactly the segments that
  meet `Completes`.
-/

namespace StreamReassembler

variable {r : StreamReassembler} {index : Nat} {data : List UInt8} {eof : Bool}

/-- Where the bytes end that follow one another from `pos` on in the substrings of a map.  A
    substring that does not reach beyond `pos`, in 64 bits, brings nothing. -/
def contiguousEnd : Nat → List (Nat × List UInt8) → Nat
  | pos, [] => pos
  | pos, e :: rest =>
    if e.1 ≤ pos then
      contiguousEnd (if pos < addSize e.1 e.2.length then e.1 + e.2.length else pos) rest
    else pos

/-- The stored substrings from the first one on that reaches beyond a new one. -/
def beyond (r : StreamReassembler) (data : List UInt8) (index : Nat) : List (Nat × List UInt8) :=
  r.reassembleBuffer.entries.dropWhile fun e =>
    addSize e.1 e.2.length ≤ addSize index data.length

/-- Where a new substring ends that is cut at the start of the next one. -/
def cutEnd (index : Nat) (data : List UInt8) : List (Nat × List UInt8) → Nat
  | [] => index + data.length
  | next :: _ => if next.1 < addSize index data.length then next.1 else index + data.length

/-- How far the stream is assembled with a new substring.  One that has the first missing byte
    brings it as far as it and the stored substrings beyond it follow one another, and no further
    than there is room; any other one brings nothing. -/
def reach (r : StreamReassembler) (data : List UInt8) (index : Nat) : Nat :=
  if index ≤ r.expected ∧ r.expected < addSize index data.length then
    min (r.expected + r.output.remainingCapacity)
      (contiguousEnd (cutEnd index data (r.beyond data index)) (r.beyond data index))
  else r.expected

/-- The bytes that follow do not move the end back. -/
theorem le_contiguousEnd (pos : Nat) (es : List (Nat × List UInt8)) :
    pos ≤ contiguousEnd pos es := by
  induction es generalizing pos with
  | nil => exact le_refl _
  | cons e rest ih =>
    rw [contiguousEnd]
    split
    · have hend := addSize_le e.1 e.2.length
      refine le_trans ?_ (ih _)
      split <;> omega
    · exact le_refl _

/-! ### The loop that writes bytes out -/

/-- One iteration writes what the entry has beyond `expected`, as far as there is room.  The end of
    the room stays where it is. -/
theorem sendFront_gets (hopen : r.output.inputEnded = false) {e : Nat × List UInt8}
    (hle : e.1 ≤ r.expected) :
    (r.sendFront e).output.inputEnded = false ∧
      (r.sendFront e).expected + (r.sendFront e).output.remainingCapacity
        = r.expected + r.output.remainingCapacity ∧
      (r.sendFront e).expected = min (r.expected + r.output.remainingCapacity)
        (if r.expected < addSize e.1 e.2.length then e.1 + e.2.length else r.expected) := by
  show (r.assemble e.1 e.2).output.inputEnded = false ∧
    (r.assemble e.1 e.2).expected + (r.assemble e.1 e.2).output.remainingCapacity = _ ∧
    (r.assemble e.1 e.2).expected = _
  by_cases hfurther : r.expected < addSize e.1 e.2.length
  · have hend := addSize_le e.1 e.2.length
    rw [assemble, if_pos hfurther, if_pos hfurther]
    dsimp only
    -- what is left of the entry before and after it is cut to the room
    generalize hleft : (if e.1 < r.expected then e.2.drop (r.expected - e.1) else e.2) = left
    have hlen : left.length = e.1 + e.2.length - r.expected := by
      rw [← hleft]
      split
      · rw [List.length_drop]
        omega
      · omega
    generalize hfit : (if left.length > r.output.remainingCapacity then
      left.take r.output.remainingCapacity else left) = fit
    have hfitlen : fit.length = min r.output.remainingCapacity left.length := by
      rw [← hfit]
      split
      · rw [List.length_take]
      · omega
    have hwrite := ByteStream.write_fst_of_le r.output fit hopen (by omega)
    refine ⟨(ByteStream.write_inputEnded _ _).trans hopen, ?_, ?_⟩
    · show r.expected + fit.length + (r.output.write fit).2.remainingCapacity = _
      rw [ByteStream.write_remainingCapacity, hwrite]
      omega
    · show r.expected + fit.length = _
      omega
  · rw [assemble, if_neg hfurther, if_neg hfurther]
    exact ⟨hopen, rfl, by omega⟩

/-- **The loop** gets as far as the entries follow one another, and no further than the room. -/
theorem sendLoop_expected : ∀ (es : List (Nat × List UInt8)) (r : StreamReassembler),
    r.output.inputEnded = false →
      (sendLoop es r).expected
        = min (r.expected + r.output.remainingCapacity) (contiguousEnd r.expected es)
  | [], r, _ => by
    rw [sendLoop, contiguousEnd]
    omega
  | e :: rest, r, hopen => by
    rw [contiguousEnd]
    by_cases hle : e.1 ≤ r.expected
    · obtain ⟨hopen', hroom, hexp⟩ := sendFront_gets hopen hle
      rw [sendLoop_cons_of_le hle, sendLoop_expected rest _ hopen', hroom, hexp, if_pos hle]
      generalize (if r.expected < addSize e.1 e.2.length then e.1 + e.2.length
        else r.expected) = pos
      -- past the end of the room it does not matter how far the entries go on
      by_cases hin : pos ≤ r.expected + r.output.remainingCapacity
      · rw [Nat.min_eq_right hin]
      · have hcut := le_contiguousEnd (min (r.expected + r.output.remainingCapacity) pos) rest
        have hpast := le_contiguousEnd pos rest
        omega
    · rw [sendLoop_cons_of_lt (by omega), if_neg hle]
      omega

/-! ### Storing the substring -/

/-- Where all entries are looked at, the merging loop erases the first ones that end inside the new
    substring. -/
theorem mergeForward_front (index : Nat) (data : List UInt8) :
    ∀ (es : List (Nat × List UInt8)) (r : StreamReassembler), r.reassembleBuffer.entries = es →
      (mergeForward index data es r).2 = es.dropWhile
          (fun e => addSize e.1 e.2.length ≤ addSize index data.length) ∧
        (mergeForward index data es r).1.reassembleBuffer.entries = es.dropWhile
          (fun e => addSize e.1 e.2.length ≤ addSize index data.length)
  | [], r, hr => ⟨rfl, hr⟩
  | e :: rest, r, hr => by
    -- along the map: the entries that end inside of the substring come first
    rw [mergeForward]
    by_cases hin : addSize e.1 e.2.length ≤ addSize index data.length
    · rw [if_pos (by rw [repeatedInterval, decide_eq_true_iff]; exact hin),
        List.dropWhile_cons_of_pos (by simpa using hin)]
      exact mergeForward_front index data rest _ (OrdMap.entries_erase (a := []) hr)
    · rw [if_neg (by rw [repeatedInterval, decide_eq_true_iff]; exact hin),
        List.dropWhile_cons_of_neg (by simpa using hin)]
      exact ⟨rfl, hr⟩

/-- A substring that starts before all entries is put in front of those that reach beyond it, and
    is cut where they start. -/
theorem insert_front (hfront : ∀ e ∈ r.reassembleBuffer.entries, index < e.1) :
    (r.insert index data).reassembleBuffer.entries
      = (index, data.take (cutEnd index data (r.beyond data index) - index))
        :: r.beyond data index := by
  obtain ⟨hbelow, hlower⟩ := OrdMap.below_lowerBound_eq
    (show r.reassembleBuffer.entries = [] ++ r.reassembleBuffer.entries from rfl) (by simp)
    (fun e he => le_of_lt (hfront e he))
  obtain ⟨hiter, hentries⟩ := mergeForward_front index data _ r rfl
  have hstays : ∀ e ∈ r.beyond data index, index < e.1 :=
    fun e he => hfront e ((List.dropWhile_sublist _).subset he)
  rw [insert_eq, merge, hbelow, hlower]
  change (mergeForward index data _ r).2 = r.beyond data index at hiter
  change (mergeForward index data _ r).1.reassembleBuffer.entries = r.beyond data index at hentries
  generalize mergeForward index data r.reassembleBuffer.entries r = fwd at hiter hentries
  generalize r.beyond data index = rest at hiter hentries hstays
  obtain ⟨r', iter⟩ := fwd
  subst hiter
  have hnone : r'.reassembleBuffer.entries = [] ++ iter := hentries
  have hstored : ∀ d, (r'.store index d).reassembleBuffer.entries = (index, d) :: iter :=
    fun d => store_entries hnone d (by simp) hstays
  -- no entry lies below, so the substring keeps its index and is cut by the next one
  cases iter with
  | nil =>
    rw [cutEnd, Nat.add_sub_cancel_left, List.take_length]
    exact hstored data
  | cons next tail =>
    have hnext := hstays next (by simp)
    dsimp only
    rw [if_neg (by omega), cutEnd]
    split
    · exact hstored _
    · rw [Nat.add_sub_cancel_left, List.take_length]
      exact hstored data

/-- The comparison with the entry before moves the start of a substring to the right only. -/
theorem le_mergeBackward (before : List (Nat × List UInt8)) (index : Nat) (data : List UInt8) :
    index ≤ (mergeBackward before index data).2.1 := by
  unfold mergeBackward
  split
  · exact le_refl _
  · split
    · rename_i hafter
      split
      · exact le_refl _
      · exact le_of_lt hafter
    · exact le_refl _

/-- The merging loop only takes entries away. -/
theorem mem_of_mem_mergeForward {above : List (Nat × List UInt8)} {e : Nat × List UInt8}
    (he : e ∈ (mergeForward index data above r).1.reassembleBuffer.entries) :
    e ∈ r.reassembleBuffer.entries := by
  induction above generalizing r with
  | nil => exact he
  | cons x above ih =>
    rw [mergeForward] at he
    split at he
    · exact List.mem_of_mem_filter (ih he)
    · exact he

/-- What is stored is one entry more at most. -/
theorem mem_store {k : Nat} {d : List UInt8} {e : Nat × List UInt8}
    (he : e ∈ (r.store k d).reassembleBuffer.entries) :
    e ∈ r.reassembleBuffer.entries ∨ e = (k, d) := by
  change e ∈ (r.reassembleBuffer.emplace k d).entries at he
  by_cases habsent : ∀ x ∈ r.reassembleBuffer.entries, x.1 ≠ k
  · rw [OrdMap.entries_emplace_of_absent d habsent, List.mem_append, List.mem_cons] at he
    rw [← r.reassembleBuffer.below_append_lowerBound k, List.mem_append]
    tauto
  · obtain ⟨x, hx, hk⟩ : ∃ x ∈ r.reassembleBuffer.entries, x.1 = k := by simpa using habsent
    rw [OrdMap.emplace_of_present d hx hk] at he
    exact Or.inl he

/-- A substring that starts after the first missing byte is stored after it. -/
theorem insert_ahead (h : ∀ e ∈ r.reassembleBuffer.entries, r.expected < e.1)
    (hlt : r.expected < index) :
    ∀ e ∈ (r.insert index data).reassembleBuffer.entries, r.expected < e.1 := by
  have hkept : ∀ e ∈ (mergeForward index data (r.reassembleBuffer.lowerBound index)
      r).1.reassembleBuffer.entries, r.expected < e.1 :=
    fun e he => h e (mem_of_mem_mergeForward he)
  rw [insert_eq, merge]
  generalize mergeForward index data (r.reassembleBuffer.lowerBound index) r = fwd at hkept
  obtain ⟨r', iter⟩ := fwd
  -- merging backwards only raises the index
  have hback : ∀ d, ∀ e ∈ (storeMerged (mergeBackward (r.reassembleBuffer.below index) index d,
      r')).reassembleBuffer.entries, r.expected < e.1 := by
    intro d e he
    have hkey := le_mergeBackward (r.reassembleBuffer.below index) index d
    rw [storeMerged] at he
    split at he
    · rcases mem_store he with hold | rfl
      · exact hkept e hold
      · exact lt_of_lt_of_le hlt hkey
    · exact hkept e he
  dsimp only
  cases iter with
  | nil => exact hback data
  | cons next tail =>
    dsimp only
    split
    · exact hkept
    · split
      · exact hback _
      · exact hback data

/-- **How far a push assembles the stream**, in every state in which nothing is left to assemble. -/
theorem acceptBytes_expected (h : ∀ e ∈ r.reassembleBuffer.entries, r.expected < e.1)
    (hopen : r.output.inputEnded = false) :
    (r.acceptBytes data index).expected = r.reach data index := by
  obtain ⟨hexp, hout, -⟩ := insert_frame r index data
  unfold acceptBytes reach
  by_cases hfurther : r.expected < addSize index data.length
  swap
  · rw [if_neg hfurther, if_neg (fun hboth => hfurther hboth.2)]
  by_cases hle : index ≤ r.expected
  swap
  · -- the substring starts after the first missing byte
    rw [if_pos hfurther, if_neg (fun hboth => hle hboth.1), sendToBytestream_of_ahead ?_, hexp]
    rw [hexp]
    exact insert_ahead h (by omega)
  have hentries : (r.insert index data).reassembleBuffer.entries = _ :=
    insert_front fun e he => lt_of_le_of_lt hle (h e he)
  have hstays : ∀ e ∈ r.beyond data index, r.expected < e.1 :=
    fun e he => h e ((List.dropWhile_sublist _).subset he)
  rw [if_pos hfurther, if_pos ⟨hle, hfurther⟩, sendToBytestream, hentries,
    sendLoop_expected _ _ (by rw [hout]; exact hopen), hexp, hout, contiguousEnd, if_pos hle]
  -- the cut substring still reaches beyond the first missing byte
  have hcut : (if r.expected < addSize index
        (data.take (cutEnd index data (r.beyond data index) - index)).length
      then index + (data.take (cutEnd index data (r.beyond data index) - index)).length
      else r.expected) = cutEnd index data (r.beyond data index) := by
    have hend := addSize_le index data.length
    have hlast := addSize_lt index data.length
    have hwhole : cutEnd index data (r.beyond data index) = index + data.length ∨
        (r.expected < cutEnd index data (r.beyond data index) ∧
          cutEnd index data (r.beyond data index) < addSize index data.length) := by
      cases hrest : r.beyond data index with
      | nil => exact Or.inl rfl
      | cons next tail =>
        have hnext := hstays next (by rw [hrest]; simp)
        rw [cutEnd]
        split
        · exact Or.inr ⟨hnext, by assumption⟩
        · exact Or.inl rfl
    rw [List.length_take]
    -- uncut it reaches further by assumption, and cut it ends at a key after `expected`
    rcases hwhole with hwhole | ⟨hlow, hhigh⟩
    · rw [hwhole, Nat.add_sub_cancel_left, Nat.min_self, if_pos hfurther]
    · rw [Nat.min_eq_left (by omega), Nat.add_sub_cancel' (by omega), if_pos]
      rw [addSize_eq (by omega), Nat.add_sub_cancel' (by omega)]
      exact hlow
  rw [hcut]

/-- A push ends an open stream exactly when the stream then reaches its end. -/
theorem pushSubstring_ended_iff (h : Resting r) (hopen : r.output.inputEnded = false)
    (data : List UInt8) (index : Nat) (eof : Bool) :
    (r.pushSubstring data index eof).output.inputEnded = true ↔
      r.reach data index = if eof then addSize data.length index else r.eofIndex := by
  rw [pushSubstring_ended, hopen, acceptBytes_expected h.ahead hopen]
  simp

end StreamReassembler

namespace TCPReceiver

variable {r : TCPReceiver} {seg : TCPSegment}

/-- The segment completes the inbound stream: it is pushed, and with its payload the stream is
    assembled up to its end, which is marked by the segment's FIN or else by an earlier one. -/
def Completes (r : TCPReceiver) (seg : TCPSegment) : Prop :=
  r.Pushes seg ∧
    r.reassembler.reach seg.payload ((r.heard seg).streamIndex seg) =
      if seg.header.fin then addSize seg.payload.length ((r.heard seg).streamIndex seg)
      else r.reassembler.eofIndex

instance (r : TCPReceiver) (seg : TCPSegment) : Decidable (r.Completes seg) :=
  inferInstanceAs (Decidable (_ ∧ _))

/-- **The segments that end an open stream.** -/
theorem segmentReceived_ended_iff (h : r.reassembler.Resting)
    (hopen : r.streamOut.inputEnded = false) (seg : TCPSegment) :
    (r.segmentReceived seg).streamOut.inputEnded = true ↔ r.Completes seg := by
  by_cases hpushes : r.Pushes seg
  · have hpushed : (r.segmentReceived seg).reassembler
        = r.reassembler.pushSubstring seg.payload ((r.heard seg).streamIndex seg)
          seg.header.fin := by
      rw [segmentReceived_eq_heard, if_pos hpushes]
    rw [streamOut_eq, hpushed, Completes, and_iff_right hpushes,
      StreamReassembler.pushSubstring_ended_iff h (by rw [← streamOut_eq]; exact hopen)]
  · rw [streamOut_eq, segmentReceived_eq_heard, if_neg hpushes, heard_reassembler, ← streamOut_eq,
      hopen]
    exact iff_of_false (by simp) (fun hcompletes => hpushes hcompletes.1)

end TCPReceiver

end Sponge
