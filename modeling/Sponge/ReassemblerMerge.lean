import Sponge.StreamReassembler

namespace Sponge

open Pieces

/-!
# Merging a substring into the reassembly map

`merge` deletes, cuts on the right, cuts on the left or drops, depending on the neighbours
of the new substring.  All of it comes to one statement, `insert_placed`: the map after
`insert` is the map before it with the new substring placed at its index.  No position that
was held is given up, and none appears that was in neither.

The proof follows the code: `mergeForward_spec` for the loop over the covered entries,
`storeMerged_backward_placed` for the comparison with the entry before, and `merge_cases`
for the ways the comparison with the entry after can go.
-/

namespace StreamReassembler

variable {r : StreamReassembler} {index : Nat} {data : List UInt8}

/-! ### The erasing loop -/

/-- The loop takes a first stretch of the entries out, all of them ending inside the new
    substring, and stops at an entry that does not. -/
theorem mergeForward_spec (hdata : index + data.length < 2 ^ 64)
    {before : List (Nat × List UInt8)} :
    ∀ (above : List (Nat × List UInt8)) (r : StreamReassembler),
      r.reassembleBuffer.entries = before ++ above →
      (∀ e ∈ above, e.1 + e.2.length < 2 ^ 64) →
      ∃ gone rest, above = gone ++ rest ∧
        (mergeForward index data above r).2 = rest ∧
        (mergeForward index data above r).1.reassembleBuffer.entries = before ++ rest ∧
        (∀ e ∈ gone, e.1 + e.2.length ≤ index + data.length) ∧
        (∀ next tail, rest = next :: tail → index + data.length < next.1 + next.2.length)
  | [], r, hr, _ => ⟨[], [], rfl, rfl, hr, by simp, by simp⟩
  | e :: above, r, hr, hb => by
    have he := hb e (by simp)
    by_cases hrep : repeatedInterval index data.length e.1 e.2.length = true
    · -- the entry ends inside the new substring: it is erased and the loop goes on
      have hend : e.1 + e.2.length ≤ index + data.length := by
        simpa [repeatedInterval, addSize_eq he, addSize_eq hdata] using hrep
      obtain ⟨gone, rest, habove, h2, h1, hgone, hstop⟩ := mergeForward_spec hdata above
        { r with
          unassembledBytes := subSize r.unassembledBytes e.2.length
          reassembleBuffer := r.reassembleBuffer.erase e.1 }
        (OrdMap.entries_erase hr) (fun x hx => hb x (by simp [hx]))
      have hstep : mergeForward index data (e :: above) r = mergeForward index data above
          { r with
            unassembledBytes := subSize r.unassembledBytes e.2.length
            reassembleBuffer := r.reassembleBuffer.erase e.1 } := by
        rw [mergeForward, if_pos hrep]
      rw [hstep]
      refine ⟨e :: gone, rest, by rw [habove, List.cons_append], h2, h1, ?_, hstop⟩
      intro x hx
      rcases List.mem_cons.mp hx with rfl | hx
      · exact hend
      · exact hgone x hx
    · -- the iterator stops at the first entry that reaches further
      have hstep : mergeForward index data (e :: above) r = (r, e :: above) := by
        rw [mergeForward, if_neg hrep]
      rw [hstep]
      refine ⟨[], e :: above, rfl, rfl, hr, by simp, ?_⟩
      intro next tail hnext
      obtain ⟨rfl, -⟩ := List.cons.inj hnext
      simpa [repeatedInterval, addSize_eq he, addSize_eq hdata] using hrep

/-- The loop touches the map and the byte count only. -/
theorem mergeForward_frame (index : Nat) (data : List UInt8) (above : List (Nat × List UInt8))
    (r : StreamReassembler) :
    (mergeForward index data above r).1.expected = r.expected ∧
      (mergeForward index data above r).1.output = r.output ∧
      (mergeForward index data above r).1.eofIndex = r.eofIndex := by
  induction above generalizing r with
  | nil => exact ⟨rfl, rfl, rfl⟩
  | cons e above ih =>
    rw [mergeForward]
    split
    · exact ih _
    · exact ⟨rfl, rfl, rfl⟩

/-! ### The entry before, and storing -/

/-- Storing at a free key between the two sides of the map puts the entry there. -/
theorem store_entries {before rest : List (Nat × List UInt8)}
    (hr : r.reassembleBuffer.entries = before ++ rest) {k : Nat} (d : List UInt8)
    (hbefore : ∀ x ∈ before, x.1 < k) (hrest : ∀ y ∈ rest, k < y.1) :
    (r.store k d).reassembleBuffer.entries = before ++ (k, d) :: rest := by
  obtain ⟨hlo, hhi⟩ := OrdMap.below_lowerBound_eq hr hbefore (fun y hy => le_of_lt (hrest y hy))
  show (r.reassembleBuffer.emplace k d).entries = _
  rw [OrdMap.entries_emplace_of_absent, hlo, hhi]
  intro e he
  rw [hr, List.mem_append] at he
  rcases he with he | he
  · exact ne_of_lt (hbefore e he)
  · exact (ne_of_lt (hrest e he)).symm

/-- Act on the verdict of `merge`: store what it leaves, if anything. -/
def storeMerged (m : (Bool × Nat × List UInt8) × StreamReassembler) : StreamReassembler :=
  if m.1.1 then m.2.store m.1.2.1 m.1.2.2 else m.2

/-- `insert` is `merge` and the store after it.  The source does not merge into an empty map, which
    would leave the substring as it is. -/
theorem insert_eq (r : StreamReassembler) (index : Nat) (data : List UInt8) :
    r.insert index data = storeMerged (r.merge index data) := by
  unfold insert storeMerged
  split
  · rename_i hempty
    have hnil : r.reassembleBuffer.entries = [] := List.isEmpty_iff.mp hempty
    simp [merge, OrdMap.below, OrdMap.lowerBound, hnil, mergeForward, mergeBackward]
  · split <;> rename_i heq <;> simp [heq]

/-- Merging with the entry before only cuts. -/
theorem length_mergeBackward_le (before : List (Nat × List UInt8)) (index : Nat)
    (data : List UInt8) : (mergeBackward before index data).2.2.length ≤ data.length := by
  unfold mergeBackward
  split
  · exact le_refl _
  · split
    · split
      · exact le_refl _
      · rw [List.length_drop]
        exact Nat.sub_le _ _
    · exact le_refl _

/-- Whatever the verdict, it is acted on after the erasing loop, and what is stored is at most the
    new substring. -/
theorem insert_after_loop (r : StreamReassembler) (index : Nat) (data : List UInt8) :
    ∃ verdict, verdict.2.2.length ≤ data.length ∧ r.insert index data = storeMerged
      (verdict, (mergeForward index data (r.reassembleBuffer.lowerBound index) r).1) := by
  rw [insert_eq, merge]
  dsimp only
  split
  · exact ⟨_, length_mergeBackward_le _ _ _, rfl⟩
  · split
    · exact ⟨_, le_refl _, rfl⟩
    · split
      · exact ⟨_, (length_mergeBackward_le _ _ _).trans (List.length_take_le' _ _), rfl⟩
      · exact ⟨_, length_mergeBackward_le _ _ _, rfl⟩

section Backward

variable {before gone rest : List (Nat × List UInt8)}

/-- Storing the bytes from `a` to `n` of the new substring places it, where the entries before
    have the positions in front of these and the entries after the positions behind them. -/
theorem store_part_placed {n a : Nat} (hr : r.reassembleBuffer.entries = before ++ rest)
    (hchain : Chained (before ++ gone ++ rest))
    (hgone : ∀ e ∈ gone, index ≤ e.1 ∧ e.1 + e.2.length ≤ index + data.length)
    (hn : n ≤ data.length) (ha : a ≤ n)
    (hbefore : ∀ x ∈ before, x.1 < index + a ∧ x.1 + x.2.length ≤ index + a)
    (hrest : ∀ y ∈ rest, index + n ≤ y.1)
    (hfront : ∀ p, index ≤ p → p < index + a → Covers before p)
    (hcov : ∀ p, index + n ≤ p → p < index + data.length → Covers rest p) :
    Placed (before ++ gone ++ rest)
      (r.store (index + a) ((data.drop a).take (n - a))).reassembleBuffer.entries index data := by
  have hlen : ((data.drop a).take (n - a)).length = n - a := by
    rw [List.length_take, List.length_drop]
    omega
  by_cases hfree : ∀ y ∈ rest, y.1 ≠ index + a
  · have hrestgt : ∀ y ∈ rest, index + a < y.1 := by
      intro y hy
      have hle := hrest y hy
      exact lt_of_le_of_ne (by omega) (fun h => hfree y hy h.symm)
    rw [store_entries hr _ (fun x hx => (hbefore x hx).1) hrestgt]
    refine placed_of_part hchain (by omega) hgone hbefore
      (fun y hy => ⟨hrestgt y hy, by rw [hlen]; have := hrest y hy; omega⟩) (fun p hlo hhi => ?_)
    rw [hlen]
    by_cases hpa : p < index + a
    · exact Or.inr (Or.inl (hfront p hlo hpa))
    · by_cases hpn : p < index + n
      · exact Or.inl ⟨by omega, by omega⟩
      · exact Or.inr (Or.inr (hcov p (by omega) hhi))
  · -- the key is taken, so nothing was left to store and `emplace` keeps the map
    obtain ⟨y, hy, hya⟩ : ∃ y ∈ rest, y.1 = index + a := by simpa using hfree
    have hyn := hrest y hy
    have hkeep : (r.store (index + a) ((data.drop a).take (n - a))).reassembleBuffer.entries
        = before ++ rest := by
      show (r.reassembleBuffer.emplace (index + a) _).entries = _
      rw [OrdMap.emplace_of_present _ (by rw [hr]; exact List.mem_append_right _ hy) hya, hr]
    rw [hkeep]
    refine placed_of_covered hchain hgone (fun p hlo hhi => ?_)
    by_cases hpn : p < index + n
    · exact Or.inl (hfront p hlo (by omega))
    · exact Or.inr (hcov p (by omega) hhi)

/-- No entry reaches past the end of the last one. -/
theorem end_le_of_getLast {prev : Nat × List UInt8} (hchain : Chained before)
    (hlast : before.getLast? = some prev) {x : Nat × List UInt8} (hx : x ∈ before) :
    x.1 + x.2.length ≤ prev.1 + prev.2.length := by
  obtain ⟨init, hinit⟩ := List.getLast?_eq_some_iff.mp hlast
  rw [hinit] at hchain hx
  rcases List.mem_append.mp hx with hx | hx
  · have hxp := hchain.append.2.2 x hx prev (by simp)
    omega
  · rw [List.mem_singleton.mp hx]

/-- What the comparison with the following entry has left is the first `n` bytes of the new
    substring; the entries from there on have its other positions.  Then the comparison
    with the preceding entry, and the store after it, place the new substring. -/
theorem storeMerged_backward_placed {n : Nat}
    (hr : r.reassembleBuffer.entries = before ++ rest)
    (hchain : Chained (before ++ gone ++ rest))
    (hbound : ∀ e ∈ before, e.1 + e.2.length < 2 ^ 64)
    (hdata : index + data.length < 2 ^ 64)
    (hbefore : ∀ e ∈ before, e.1 < index)
    (hgone : ∀ e ∈ gone, index ≤ e.1 ∧ e.1 + e.2.length ≤ index + data.length)
    (hn : n ≤ data.length)
    (hrest : ∀ y ∈ rest, index + n ≤ y.1)
    (hcov : ∀ p, index + n ≤ p → p < index + data.length → Covers rest p) :
    Placed (before ++ gone ++ rest)
      (storeMerged (mergeBackward before index (data.take n), r)).reassembleBuffer.entries
      index data := by
  have hlen : (data.take n).length = n := by rw [List.length_take]; omega
  -- storing at `index` itself, when nothing before it reaches that far
  have hwhole : (∀ x ∈ before, x.1 + x.2.length ≤ index) →
      Placed (before ++ gone ++ rest) (r.store index (data.take n)).reassembleBuffer.entries
        index data := by
    intro hends
    have hp := store_part_placed (a := 0) hr hchain hgone hn (Nat.zero_le n)
      (fun x hx => ⟨hbefore x hx, hends x hx⟩) hrest (fun p _ _ => by omega) hcov
    simpa using hp
  unfold mergeBackward
  cases hlast : before.getLast? with
  | none =>
    have hnil : before = [] := List.getLast?_eq_none_iff.mp hlast
    exact hwhole (by simp [hnil])
  | some prev =>
    have hprev : prev ∈ before := List.mem_of_getLast? hlast
    have hends : ∀ x ∈ before, x.1 + x.2.length ≤ prev.1 + prev.2.length :=
      fun x hx => end_le_of_getLast hchain.append.1.append.1 hlast hx
    have hprevlt := hbefore prev hprev
    have hfront : ∀ p, index ≤ p → p < prev.1 + prev.2.length → Covers before p :=
      fun p hlo hhi => ⟨prev, hprev, by omega, hhi⟩
    simp only [addSize_eq (hbound prev hprev), hlen, addSize_eq (show index + n < 2 ^ 64 by omega)]
    by_cases hover : prev.1 + prev.2.length > index
    · rw [if_pos hover]
      by_cases hin : prev.1 + prev.2.length > index + n
      · -- the rest of the substring lies inside `prev`
        rw [if_pos hin]
        show Placed _ r.reassembleBuffer.entries index data
        rw [hr]
        refine placed_of_covered hchain hgone (fun p hlo hhi => ?_)
        by_cases hpn : p < index + n
        · exact Or.inl (hfront p hlo (by omega))
        · exact Or.inr (hcov p (by omega) hhi)
      · -- the substring is cut on the left, where `prev` ends
        rw [if_neg hin]
        show Placed _ (r.store (prev.1 + prev.2.length)
          ((data.take n).drop (prev.1 + prev.2.length - index))).reassembleBuffer.entries index data
        obtain ⟨a, ha⟩ : ∃ a, prev.1 + prev.2.length = index + a :=
          ⟨prev.1 + prev.2.length - index, by omega⟩
        have hcut : (data.take n).drop (index + a - index) = (data.drop a).take (n - a) := by
          rw [show index + a - index = a by omega, List.drop_take]
        rw [ha] at hends hfront ⊢
        rw [hcut]
        exact store_part_placed hr hchain hgone hn (by omega)
          (fun x hx => ⟨by have := hbefore x hx; omega, hends x hx⟩) hrest hfront hcov
    · rw [if_neg hover]
      exact hwhole (fun x hx => by have := hends x hx; omega)

end Backward

/-! ### `insert` -/

/-- The map split at the new substring: `before` starts before it, `gone` ends inside it and is
    taken out by the erasing loop, and `rest` starts in or after it and ends beyond it. -/
structure Split (r : StreamReassembler) (index : Nat) (data : List UInt8)
    (before gone rest : List (Nat × List UInt8)) (r' : StreamReassembler) : Prop where
  entries : r.reassembleBuffer.entries = before ++ gone ++ rest
  loop : r' = (mergeForward index data (gone ++ rest) r).1
  left : r'.reassembleBuffer.entries = before ++ rest
  before_lt : ∀ e ∈ before, e.1 < index
  gone_inside : ∀ e ∈ gone, index ≤ e.1 ∧ e.1 + e.2.length ≤ index + data.length
  rest_ge : ∀ e ∈ rest, index ≤ e.1
  rest_beyond : ∀ next tail, rest = next :: tail → index + data.length < next.1 + next.2.length

/-- What is left of the new substring where the next entry that reaches beyond it starts. -/
def cutAt (index : Nat) (data : List UInt8) : List (Nat × List UInt8) → List UInt8
  | [] => data
  | next :: _ => data.take (next.1 - index)

/-- So does merging with the entry after. -/
theorem length_cutAt_le (index : Nat) (data : List UInt8) (rest : List (Nat × List UInt8)) :
    (cutAt index data rest).length ≤ data.length := by
  cases rest with
  | nil => exact le_refl _
  | cons next tail => exact List.length_take_le' _ _

/-- **How `merge` goes.**  The loop takes out the entries that end inside the new substring.
    If the next one starts at the same index, it has all of the substring and nothing is stored;
    otherwise the substring is cut where that one starts, and then compared with the entry
    before. -/
theorem merge_cases (hchain : Chained r.reassembleBuffer.entries)
    (hbound : ∀ e ∈ r.reassembleBuffer.entries, e.1 + e.2.length < 2 ^ 64)
    (hdata : index + data.length < 2 ^ 64) :
    ∃ before gone rest r', Split r index data before gone rest r' ∧
      ((∃ next tail, rest = next :: tail ∧ next.1 = index ∧
          r.merge index data = ((false, index, data), r')) ∨
        ((∀ y ∈ rest, index < y.1 ∧ index + (cutAt index data rest).length ≤ y.1) ∧
          r.merge index data = (mergeBackward before index (cutAt index data rest), r'))) := by
  rw [merge]
  have hsplit := r.reassembleBuffer.below_append_lowerBound index
  have hmem : ∀ e ∈ r.reassembleBuffer.lowerBound index, e ∈ r.reassembleBuffer.entries :=
    fun e he => by rw [← hsplit]; exact List.mem_append_right _ he
  obtain ⟨gone, rest, habove, h2, h1, hgone, hstop⟩ := mergeForward_spec hdata
    (r.reassembleBuffer.lowerBound index) r hsplit.symm (fun e he => hbound e (hmem e he))
  have hge : ∀ e ∈ gone ++ rest, index ≤ e.1 := by
    intro e he
    rw [← habove] at he
    exact OrdMap.le_of_mem_lowerBound he
  have hall : r.reassembleBuffer.entries = r.reassembleBuffer.below index ++ gone ++ rest := by
    rw [List.append_assoc, ← habove, hsplit]
  refine ⟨r.reassembleBuffer.below index, gone, rest, _,
    ⟨hall, rfl, ?_, fun e he => OrdMap.lt_of_mem_below he,
      fun e he => ⟨hge e (List.mem_append_left _ he), hgone e he⟩,
      fun e he => hge e (List.mem_append_right _ he), hstop⟩, ?_⟩
  · rw [← habove, h1]
  · rw [hall] at hchain
    rw [← habove]
    -- from here on the map is what the loop has left, and the iterator stands at `rest`
    generalize mergeForward index data (r.reassembleBuffer.lowerBound index) r = fwd at h2 ⊢
    obtain ⟨r', iter⟩ := fwd
    simp only at h2 ⊢
    subst h2
    cases iter with
    | nil => exact Or.inr ⟨by simp, rfl⟩
    | cons next tail =>
      have hnextge := hge next (by simp)
      simp only [addSize_eq hdata]
      by_cases heq : next.1 = index
      · rw [if_pos heq]
        exact Or.inl ⟨next, tail, rfl, heq, rfl⟩
      · rw [if_neg heq]
        refine Or.inr ⟨fun y hy => ?_, ?_⟩
        · have hle : next.1 ≤ y.1 := by
            rcases List.mem_cons.mp hy with rfl | hy
            · exact le_refl _
            · exact le_of_lt (hchain.append.2.1.cons.1 y hy).1
          rw [cutAt, List.length_take]
          omega
        · by_cases hcut : next.1 < index + data.length
          · rw [if_pos hcut]
            rfl
          · -- the substring ends before `next`, and the cut takes nothing away
            rw [if_neg hcut, cutAt, List.take_of_length_le (by omega)]

/-- **How `insert` goes**: as `merge`, with the store after it. -/
theorem insert_cases (hchain : Chained r.reassembleBuffer.entries)
    (hbound : ∀ e ∈ r.reassembleBuffer.entries, e.1 + e.2.length < 2 ^ 64)
    (hdata : index + data.length < 2 ^ 64) :
    ∃ before gone rest r', Split r index data before gone rest r' ∧
      ((∃ next tail, rest = next :: tail ∧ next.1 = index ∧ r.insert index data = r') ∨
        ((∀ y ∈ rest, index < y.1 ∧ index + (cutAt index data rest).length ≤ y.1) ∧
          r.insert index data
            = storeMerged (mergeBackward before index (cutAt index data rest), r'))) := by
  obtain ⟨before, gone, rest, r', hs, hcase⟩ := merge_cases hchain hbound hdata
  refine ⟨before, gone, rest, r', hs, ?_⟩
  rw [insert_eq]
  rcases hcase with ⟨next, tail, hnext, heq, hmerge⟩ | ⟨hrest, hmerge⟩
  · exact Or.inl ⟨next, tail, hnext, heq, by rw [hmerge]; rfl⟩
  · exact Or.inr ⟨hrest, by rw [hmerge]⟩

/-- **Insertion places the substring.** -/
theorem insert_placed (hchain : Chained r.reassembleBuffer.entries)
    (hbound : ∀ e ∈ r.reassembleBuffer.entries, e.1 + e.2.length < 2 ^ 64)
    (hdata : index + data.length < 2 ^ 64) :
    Placed r.reassembleBuffer.entries (r.insert index data).reassembleBuffer.entries
      index data := by
  obtain ⟨before, gone, rest, r', hs, hcase⟩ := insert_cases hchain hbound hdata
  have hboundBefore : ∀ e ∈ before, e.1 + e.2.length < 2 ^ 64 :=
    fun e he => hbound e (by rw [hs.entries]; simp [he])
  rw [hs.entries] at hchain ⊢
  rcases hcase with ⟨next, tail, rfl, hnext, heq⟩ | ⟨hrest, heq⟩
  · -- the whole substring lies inside `next`
    rw [heq, hs.left]
    have hbeyond := hs.rest_beyond next tail rfl
    exact placed_of_covered hchain hs.gone_inside
      (fun p hlo hhi => Or.inr ⟨next, by simp, by omega, by omega⟩)
  · rw [heq]
    cases rest with
    | nil =>
      -- nothing follows: the substring stays whole on the right
      have hp := storeMerged_backward_placed (n := data.length) hs.left hchain hboundBefore hdata
        hs.before_lt hs.gone_inside (le_refl _) (by simp) (fun p _ _ => by omega)
      rwa [List.take_length] at hp
    | cons next tail =>
      have hbeyond := hs.rest_beyond next tail rfl
      have hcut : cutAt index data (next :: tail)
          = data.take (min (next.1 - index) data.length) := by
        rw [cutAt, ← List.take_eq_take_min]
      rw [hcut] at hrest ⊢
      have hlen : (data.take (min (next.1 - index) data.length)).length
          = min (next.1 - index) data.length := by
        rw [List.length_take]
        omega
      rw [hlen] at hrest
      exact storeMerged_backward_placed hs.left hchain hboundBefore hdata hs.before_lt
        hs.gone_inside (Nat.min_le_right _ _) (fun y hy => (hrest y hy).2)
        (fun p hlo hhi => ⟨next, by simp, by omega, by omega⟩)

/-- `insert` touches the map and the byte count only. -/
theorem insert_frame (r : StreamReassembler) (index : Nat) (data : List UInt8) :
    (r.insert index data).expected = r.expected ∧
    (r.insert index data).output = r.output ∧ (r.insert index data).eofIndex = r.eofIndex := by
  obtain ⟨verdict, -, heq⟩ := insert_after_loop r index data
  have hframe := mergeForward_frame index data (r.reassembleBuffer.lowerBound index) r
  rw [heq, storeMerged]
  split <;> exact hframe

end StreamReassembler

end Sponge
