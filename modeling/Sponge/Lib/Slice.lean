import Mathlib

namespace Slice

/-!
# Pieces of a list at a position

A transport cuts one long list into pieces, moves the pieces about and puts them back
together.  This file fixes what it means for a piece `d` to *stand at* position `i` of
the list `l` (`StandsAt l i d`) and how that relation moves through the operations a
reassembling program performs:

* `StandsAt.take` / `StandsAt.drop` — trimming a piece on the right or on the left;
* `StandsAt.mono` — the list grows at its end;
* `StandsAt.take_append` — a piece that stands at `i` extends the first `i` elements;
* `longestPrefix p n` — the length of the longest initial run of positions below `n`
  that all satisfy `p`, with `le_longestPrefix_iff` as its only interface.
-/

variable {α : Type}

/-- The piece of `l` that starts at `i` and has (at most) `n` elements. -/
def slice (l : List α) (i n : Nat) : List α := (l.drop i).take n

/-- The piece `d` stands at position `i` of `l`: element by element it is what `l` has
    there.  The empty piece stands everywhere. -/
def StandsAt (l : List α) (i : Nat) (d : List α) : Prop :=
  ∀ k, k < d.length → l[i + k]? = d[k]?

instance [DecidableEq α] (l : List α) (i : Nat) (d : List α) : Decidable (StandsAt l i d) :=
  inferInstanceAs (Decidable (∀ k, k < d.length → l[i + k]? = d[k]?))

/-- Nothing stands everywhere. -/
theorem standsAt_nil (l : List α) (i : Nat) : StandsAt l i [] := by
  intro k hk
  exact absurd hk (by simp)

/-- A slice of a list stands where it was cut. -/
theorem standsAt_slice (l : List α) (i n : Nat) : StandsAt l i (slice l i n) := by
  intro k hk
  have hkn : k < n := by
    simp only [slice, List.length_take] at hk
    omega
  simp [slice, List.getElem?_take_of_lt hkn, List.getElem?_drop]

/-- A slice inside of the list has its full length. -/
theorem length_slice {l : List α} {i n : Nat} (h : i + n ≤ l.length) :
    (slice l i n).length = n := by
  simp only [slice, List.length_take, List.length_drop]
  omega

namespace StandsAt

variable {l : List α} {i : Nat} {d : List α}

/-- A non-empty piece lies inside the list. -/
theorem le_length (h : StandsAt l i d) (hd : 0 < d.length) : i + d.length ≤ l.length := by
  have hlast := h (d.length - 1) (by omega)
  rw [List.getElem?_eq_getElem (show d.length - 1 < d.length by omega)] at hlast
  obtain ⟨hlt, -⟩ := List.getElem?_eq_some_iff.mp hlast
  omega

/-- A piece is the slice of the list at its position. -/
theorem eq_slice (h : StandsAt l i d) : d = slice l i d.length := by
  apply List.ext_getElem?
  intro k
  by_cases hk : k < d.length
  · rw [slice, List.getElem?_take_of_lt hk, List.getElem?_drop, h k hk]
  · rw [slice, List.getElem?_eq_none (by omega),
      List.getElem?_eq_none (by rw [List.length_take]; omega)]

/-- The front part stands at the same place. -/
theorem take (h : StandsAt l i d) (n : Nat) : StandsAt l i (d.take n) := by
  intro k hk
  rw [List.length_take] at hk
  rw [List.getElem?_take_of_lt (by omega)]
  exact h k (by omega)

/-- The back part stands further on. -/
theorem drop (h : StandsAt l i d) (n : Nat) : StandsAt l (i + n) (d.drop n) := by
  intro k hk
  rw [List.length_drop] at hk
  rw [List.getElem?_drop, Nat.add_assoc]
  exact h (n + k) (by omega)

/-- A piece keeps its place when the list grows at its end. -/
theorem mono (h : StandsAt l i d) {l' : List α} (hl : l <+: l') : StandsAt l' i d := by
  obtain ⟨t, rfl⟩ := hl
  intro k hk
  have hlen := h.le_length (by omega)
  rw [List.getElem?_append_left (by omega)]
  exact h k hk

/-- A piece that ends inside an initial part of the list stands in that part. -/
theorem of_take (h : StandsAt l i d) {n : Nat} (hn : i + d.length ≤ n) :
    StandsAt (l.take n) i d := by
  intro k hk
  rw [List.getElem?_take_of_lt (by omega)]
  exact h k hk

/-- The first `i` elements followed by the piece at `i` are the first
    `i + d.length` elements. -/
theorem take_append (h : StandsAt l i d) (hi : i ≤ l.length) :
    l.take i ++ d = l.take (i + d.length) := by
  apply List.ext_getElem?
  intro k
  by_cases hki : k < i
  · rw [List.getElem?_append_left (by rw [List.length_take]; omega),
      List.getElem?_take_of_lt hki, List.getElem?_take_of_lt (by omega)]
  · rw [List.getElem?_append_right (by rw [List.length_take]; omega), List.length_take,
      Nat.min_eq_left hi]
    by_cases hkd : k < i + d.length
    · have hk := h (k - i) (by omega)
      rw [show i + (k - i) = k by omega] at hk
      rw [List.getElem?_take_of_lt hkd, hk]
    · rw [List.getElem?_eq_none (by omega),
        List.getElem?_eq_none (by rw [List.length_take]; omega)]

end StandsAt

/-! ### Initial runs of positions -/

/-- The length of the longest initial run of positions below `n` that satisfy `p`. -/
def longestPrefix (p : Nat → Bool) (n : Nat) : Nat := ((List.range n).takeWhile p).length

/-- `m` positions fit into the longest run exactly when all of them satisfy `p`. -/
theorem le_longestPrefix_iff {p : Nat → Bool} {n m : Nat} :
    m ≤ longestPrefix p n ↔ m ≤ n ∧ ∀ k, k < m → p k = true := by
  have hpre : (List.range n).takeWhile p <+: List.range n := List.takeWhile_prefix p
  have hrun : (List.range n).takeWhile p = List.range (longestPrefix p n) := by
    rw [List.prefix_iff_eq_take.mp hpre, List.take_range]
    congr 1
    have hle := hpre.length_le
    rw [List.length_range] at hle
    exact Nat.min_eq_left hle
  constructor
  · intro hm
    have hle := hpre.length_le
    rw [List.length_range] at hle
    refine ⟨le_trans hm hle, fun k hk => ?_⟩
    have hmem : k ∈ (List.range n).takeWhile p := by
      rw [hrun, List.mem_range]
      omega
    exact List.mem_takeWhile_imp hmem
  · rintro ⟨hmn, hall⟩
    have hsub : List.range m <+: (List.range n).takeWhile p := by
      have htake : List.range m = (List.range m).takeWhile p :=
        (List.takeWhile_eq_self_iff.mpr (fun k hk => hall k (List.mem_range.mp hk))).symm
      rw [htake]
      have hmn' : List.range m <+: List.range n := by
        rw [List.prefix_iff_eq_take, List.length_range, List.take_range, Nat.min_eq_left hmn]
      obtain ⟨t, ht⟩ := hmn'
      rw [← ht]
      rw [List.takeWhile_append, if_pos (by rw [← htake])]
      exact ⟨t.takeWhile p, by rw [← htake]⟩
    have hlen := hsub.length_le
    rw [List.length_range] at hlen
    exact hlen

end Slice
