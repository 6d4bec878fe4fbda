import Mathlib

/-!
# Bounded FIFOs

A `Fifo` is told by its history: everything that has entered, in order, and how much of it has left.
What is inside is the rest, so that nothing can be lost, doubled or put in another order; that there
is never more inside than the capacity is a field.

* `put` takes as many items as there is room for, and none once the FIFO is closed;
* `take` lets (at most) so many items out, the oldest first;
* `removed_append_contents` — what has left and what is inside is what has entered.
-/

/-- A FIFO with room for `capacity` items. -/
structure Fifo (α : Type) where
  capacity : Nat
  entered : List α := []
  left : Nat := 0
  closed : Bool := false
  left_le : left ≤ entered.length := by simp
  fits : entered.length - left ≤ capacity := by simp

namespace Fifo

variable {α : Type} (f : Fifo α)

/-- What has left. -/
def removed : List α := f.entered.take f.left

/-- What is inside. -/
def contents : List α := f.entered.drop f.left

/-- What is inside is what has entered and not left. -/
theorem length_contents : f.contents.length = f.entered.length - f.left := List.length_drop

/-- How many of these items are taken. -/
def accepts (xs : List α) : Nat :=
  if f.closed then 0 else min xs.length (f.capacity - f.contents.length)

/-- Items come in. -/
def put (xs : List α) : Fifo α :=
  { f with
    entered := f.entered ++ xs.take (f.accepts xs)
    left_le := by
      have hle := f.left_le
      rw [List.length_append]
      omega
    fits := by
      have hle := f.left_le
      have hfits := f.fits
      have hroom : f.accepts xs ≤ f.capacity - (f.entered.length - f.left) := by
        rw [← length_contents, accepts]
        split <;> omega
      rw [List.length_append, List.length_take]
      omega }

/-- The oldest items leave. -/
def take (n : Nat) : Fifo α :=
  { f with
    left := f.left + min n f.contents.length
    left_le := by
      have hle := f.left_le
      rw [length_contents]
      omega
    fits := by
      have hfits := f.fits
      omega }

/-- Nothing more comes in. -/
def close : Fifo α := { f with closed := true }

/-- **Nothing is lost, doubled or moved.** -/
theorem removed_append_contents : f.removed ++ f.contents = f.entered := List.take_append_drop _ _

/-- The FIFO is empty when everything has left. -/
theorem contents_eq_nil_iff : f.contents = [] ↔ f.removed = f.entered := by
  have hhistory := f.removed_append_contents
  constructor
  · intro hnil
    rwa [hnil, List.append_nil] at hhistory
  · intro hall
    rw [← hall] at hhistory
    exact List.append_right_eq_self.mp hhistory

/-- What is accepted goes to the end. -/
@[simp] theorem contents_put (xs : List α) :
    (f.put xs).contents = f.contents ++ xs.take (f.accepts xs) :=
  List.drop_append_of_le_length f.left_le

@[simp] theorem removed_put (xs : List α) : (f.put xs).removed = f.removed :=
  List.take_append_of_le_length f.left_le

/-- What is taken comes from the front. -/
@[simp] theorem contents_take (n : Nat) : (f.take n).contents = f.contents.drop n := by
  show f.entered.drop (f.left + min n f.contents.length) = f.contents.drop n
  rw [← List.drop_drop]
  show f.contents.drop (min n f.contents.length) = f.contents.drop n
  rcases Nat.le_total n f.contents.length with hle | hle
  · rw [Nat.min_eq_left hle]
  · rw [Nat.min_eq_right hle, List.drop_length, List.drop_eq_nil_of_le hle]

/-- And is counted as removed, in the same order. -/
@[simp] theorem removed_take (n : Nat) : (f.take n).removed = f.removed ++ f.contents.take n := by
  show f.entered.take (f.left + min n f.contents.length) = f.removed ++ f.contents.take n
  rw [List.take_add]
  show f.removed ++ f.contents.take (min n f.contents.length) = _
  rw [← List.take_eq_take_min]

end Fifo
