import Mathlib

/-!
# Consecutive intervals

A list whose elements occupy intervals of the natural numbers *tiles* the stretch from
`a` to `b` when the first starts at `a`, each starts where the one before it ended, and
the last ends at `b`.
-/

namespace Tiling

variable {α : Type} (pos len : α → Nat)

/-- The elements of the list occupy the stretch from `a` to `b` one after another. -/
def Tiles : Nat → List α → Nat → Prop
  | a, [], b => a = b
  | a, x :: xs, b => pos x = a ∧ Tiles (a + len x) xs b

variable {pos len}

@[simp] theorem tiles_nil {a b : Nat} : Tiles pos len a [] b ↔ a = b := Iff.rfl

@[simp] theorem tiles_cons {a b : Nat} {x : α} {xs : List α} :
    Tiles pos len a (x :: xs) b ↔ pos x = a ∧ Tiles pos len (a + len x) xs b := Iff.rfl

/-- Two tilings that meet are one. -/
theorem tiles_append {a c : Nat} {xs ys : List α} :
    Tiles pos len a (xs ++ ys) c ↔ ∃ b, Tiles pos len a xs b ∧ Tiles pos len b ys c := by
  induction xs generalizing a with
  | nil => simp
  | cons x xs ih =>
    simp only [List.cons_append, tiles_cons, ih]
    constructor
    · rintro ⟨hx, b, h1, h2⟩
      exact ⟨b, ⟨hx, h1⟩, h2⟩
    · rintro ⟨b, ⟨hx, h1⟩, h2⟩
      exact ⟨hx, b, h1, h2⟩

/-- A tiled stretch is as long as its elements together. -/
theorem Tiles.eq_add_sum {a b : Nat} {xs : List α} (h : Tiles pos len a xs b) :
    b = a + (xs.map len).sum := by
  induction xs generalizing a with
  | nil => simpa using (tiles_nil.mp h).symm
  | cons x xs ih =>
    have hb := ih (tiles_cons.mp h).2
    rw [List.map_cons, List.sum_cons]
    omega

/-- Every element lies inside the stretch. -/
theorem Tiles.mem_bounds {a b : Nat} {xs : List α} (h : Tiles pos len a xs b) {x : α}
    (hx : x ∈ xs) : a ≤ pos x ∧ pos x + len x ≤ b := by
  induction xs generalizing a with
  | nil => exact absurd hx (by simp)
  | cons y ys ih =>
    obtain ⟨hy, hys⟩ := tiles_cons.mp h
    rcases List.mem_cons.mp hx with rfl | hx
    · have hb := hys.eq_add_sum
      omega
    · obtain ⟨h1, h2⟩ := ih hys hx
      omega

/-- Some element reaches the end of the stretch. -/
theorem Tiles.exists_end {a b : Nat} {xs : List α} (h : Tiles pos len a xs b) (hne : xs ≠ []) :
    ∃ x ∈ xs, pos x + len x = b := by
  induction xs generalizing a with
  | nil => exact absurd rfl hne
  | cons y ys ih =>
    obtain ⟨hy, hys⟩ := tiles_cons.mp h
    by_cases hnil : ys = []
    · subst hnil
      exact ⟨y, by simp, by rw [hy]; exact tiles_nil.mp hys⟩
    · obtain ⟨x, hx, hend⟩ := ih hys hnil
      exact ⟨x, by simp [hx], hend⟩

/-- Elements that are not empty are told apart by where they start. -/
theorem Tiles.eq_of_pos_eq {a b : Nat} {xs : List α} (h : Tiles pos len a xs b)
    (hpos : ∀ x ∈ xs, 0 < len x) {x y : α} (hx : x ∈ xs) (hy : y ∈ xs) (heq : pos x = pos y) :
    x = y := by
  induction xs generalizing a with
  | nil => exact absurd hx (by simp)
  | cons z zs ih =>
    obtain ⟨hz, hzs⟩ := tiles_cons.mp h
    have hlen := hpos z (by simp)
    have hlater : ∀ w ∈ zs, pos w ≠ pos z := fun w hw => by
      have hle := (hzs.mem_bounds hw).1
      omega
    rcases List.mem_cons.mp hx with hx | hx <;> rcases List.mem_cons.mp hy with hy | hy
    · rw [hx, hy]
    · exact absurd (heq.symm.trans (congrArg pos hx)) (hlater y hy)
    · exact absurd (heq.trans (congrArg pos hy)) (hlater x hx)
    · exact ih hzs (fun w hw => hpos w (by simp [hw])) hx hy

/-- Where non-empty elements tile up to `m` and others go on from `m`, the latter are
    those that start at `m` or later. -/
theorem Tiles.filter_ge {a m b : Nat} {xs ys : List α} (hxs : Tiles pos len a xs m)
    (hys : Tiles pos len m ys b) (hpos : ∀ x ∈ xs, 0 < len x) :
    (xs ++ ys).filter (fun x => m ≤ pos x) = ys := by
  -- an element that is not empty and ends at `m` at the latest starts before it
  have h1 : xs.filter (fun x => decide (m ≤ pos x)) = [] := by
    rw [List.filter_eq_nil_iff]
    intro x hx
    have hend := (hxs.mem_bounds hx).2
    have hlen := hpos x hx
    simp only [decide_eq_true_eq]
    omega
  have h2 : ys.filter (fun x => decide (m ≤ pos x)) = ys := by
    rw [List.filter_eq_self]
    intro y hy
    simpa using (hys.mem_bounds hy).1
  rw [List.filter_append, h1, h2, List.nil_append]

end Tiling
