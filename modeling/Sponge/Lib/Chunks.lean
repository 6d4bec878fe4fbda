import Mathlib

/-!
# Strings in pieces

A string kept in several pieces is shortened piece by piece: a piece that is used up is dropped,
and the one in which the cut falls is shortened itself.  `removeFront` is this loop, for pieces of
any kind that know their size and how to be shortened.

Where `str` reads a piece as a string,

* `removeFront_of_le` — what is left reads as the whole string without its first `n` elements;
* `removeFront_of_lt` — where there are not as many, all pieces are gone and the loop says so;
* `removeFront_map` — pieces and views of them are shortened alike;
* `foldl_size` — the sizes of the pieces add up to the length of the string.
-/

namespace Chunks

variable {χ χ' α ε : Type}

/-- Take `n` elements off the front of the pieces.  Every iteration drops a piece or is the
    last. -/
def removeFront (size : χ → Nat) (removePrefix : χ → Nat → Except ε χ) (short : ε) :
    List χ → Nat → Except ε Unit × List χ
  | chunks, 0 => (.ok (), chunks)
  | [], _ + 1 => (.error short, [])
  | front :: rest, n + 1 =>
    if n + 1 < size front then
      match removePrefix front (n + 1) with
      | .ok front => (.ok (), front :: rest)
      | .error e => (.error e, front :: rest)
    else removeFront size removePrefix short rest (n + 1 - size front)

section

variable {size : χ → Nat} {removePrefix : χ → Nat → Except ε χ} {short : ε}

/-- A piece that is used up is dropped. -/
theorem removeFront_cons_of_le {front : χ} {n : Nat} (rest : List χ) (hpos : 0 < n)
    (hle : size front ≤ n) :
    removeFront size removePrefix short (front :: rest) n
      = removeFront size removePrefix short rest (n - size front) := by
  obtain ⟨n, rfl⟩ : ∃ k, n = k + 1 := ⟨n - 1, by omega⟩
  rw [removeFront, if_neg (by omega)]

/-- The cut falls into the first piece. -/
theorem removeFront_cons_of_lt {front front' : χ} {n : Nat} (rest : List χ) (hpos : 0 < n)
    (hlt : n < size front) (hcut : removePrefix front n = .ok front') :
    removeFront size removePrefix short (front :: rest) n = (.ok (), front' :: rest) := by
  obtain ⟨n, rfl⟩ : ∃ k, n = k + 1 := ⟨n - 1, by omega⟩
  rw [removeFront, if_pos hlt, hcut]

variable {str : χ → List α} (hsize : ∀ c, size c = (str c).length)
include hsize

/-- The sum of the sizes, from any start. -/
theorem foldl_size (chunks : List χ) (ret : Nat) :
    chunks.foldl (fun ret c => ret + size c) ret = ret + (chunks.flatMap str).length := by
  induction chunks generalizing ret with
  | nil => simp
  | cons front rest ih =>
    rw [List.foldl_cons, ih, List.flatMap_cons, List.length_append, hsize, Nat.add_assoc]

/-- Where there are fewer elements, the loop runs out of pieces. -/
theorem removeFront_of_lt {chunks : List χ} {n : Nat} (hlt : (chunks.flatMap str).length < n) :
    removeFront size removePrefix short chunks n = (.error short, []) := by
  induction chunks generalizing n with
  | nil =>
    obtain ⟨n, rfl⟩ : ∃ k, n = k + 1 := ⟨n - 1, by omega⟩
    rfl
  | cons front rest ih =>
    have hfront := hsize front
    rw [List.flatMap_cons, List.length_append] at hlt
    rw [removeFront_cons_of_le rest (by omega) (by omega)]
    exact ih (by omega)

variable (hcut : ∀ c n, n < size c → ∃ c', removePrefix c n = .ok c' ∧ str c' = (str c).drop n)
include hcut

/-- **What is left** reads as the string without its first `n` elements. -/
theorem removeFront_of_le {chunks : List χ} {n : Nat} (hle : n ≤ (chunks.flatMap str).length) :
    (removeFront size removePrefix short chunks n).1 = .ok () ∧
      (removeFront size removePrefix short chunks n).2.flatMap str
        = (chunks.flatMap str).drop n := by
  -- the induction follows the loop: the first piece is dropped, or the loop ends in it
  induction chunks generalizing n with
  | nil =>
    obtain rfl : n = 0 := by simpa using hle
    exact ⟨rfl, rfl⟩
  | cons front rest ih =>
    rcases Nat.eq_zero_or_pos n with rfl | hpos
    · exact ⟨rfl, rfl⟩
    have hfront := hsize front
    rw [List.flatMap_cons] at hle ⊢
    by_cases hlt : n < size front
    · obtain ⟨front', hok, hstr⟩ := hcut front n hlt
      rw [removeFront_cons_of_lt rest hpos hlt hok, List.drop_append_of_le_length (by omega)]
      exact ⟨rfl, by rw [List.flatMap_cons, hstr]⟩
    · rw [List.length_append] at hle
      obtain ⟨hok, hrest⟩ := ih (n := n - size front) (by omega)
      rw [removeFront_cons_of_le rest hpos (by omega), List.drop_append,
        List.drop_eq_nil_of_le (by omega), List.nil_append, ← hfront]
      exact ⟨hok, hrest⟩

end

/-- **Views.**  Where a view of a piece is as long as the piece and is shortened like it, the views
    of the pieces stay the views of the pieces, and both loops end alike. -/
theorem removeFront_map {size : χ → Nat} {removePrefix : χ → Nat → Except ε χ} {short short' : ε}
    {size' : χ' → Nat} {removePrefix' : χ' → Nat → Except ε χ'} (view : χ → χ')
    (hsize : ∀ c, size' (view c) = size c)
    (hcut : ∀ c n, n < size c → ∃ c', removePrefix c n = .ok c' ∧
      removePrefix' (view c) n = .ok (view c')) (chunks : List χ) (n : Nat) :
    (removeFront size' removePrefix' short' (chunks.map view) n).2
        = (removeFront size removePrefix short chunks n).2.map view ∧
      ((removeFront size' removePrefix' short' (chunks.map view) n).1 = .ok () ↔
        (removeFront size removePrefix short chunks n).1 = .ok ()) := by
  induction chunks generalizing n with
  | nil => cases n <;> simp [removeFront]
  | cons front rest ih =>
    rcases Nat.eq_zero_or_pos n with rfl | hpos
    · simp [removeFront]
    rw [List.map_cons]
    have hfront := hsize front
    by_cases hlt : n < size front
    · obtain ⟨front', hok, hview⟩ := hcut front n hlt
      rw [removeFront_cons_of_lt rest hpos hlt hok,
        removeFront_cons_of_lt (rest.map view) hpos (by omega) hview]
      simp
    · rw [removeFront_cons_of_le rest hpos (by omega),
        removeFront_cons_of_le (rest.map view) hpos (by omega), hfront]
      exact ih (n - size front)

end Chunks
