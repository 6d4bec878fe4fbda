import Mathlib

/-!
# Ones' complement sums of 16 bits

In ones' complement arithmetic a carry out of the top is added in again at the bottom.  `add` is the
addition of 16-bit numbers that does so, and `sum` adds up the big-endian words of a string.

A sum can also be kept in a wider number and brought down to 16 bits at the end: `reduce` says what
a number of any size stands for, and `sum_eq` that the two ways agree.  `reduce_add_complement` is
what makes a checksum: a number and the complement of what it stands for add up to all ones.

`words_of_sum_eq` is what makes it worth having: strings that differ in one word only have different
sums, unless the word is all zeros in one and all ones in the other.
-/

namespace OnesComplement

/-- Addition with end-around carry. -/
def add (a b : Nat) : Nat := if a + b ≤ 0xffff then a + b else a + b - 0xffff

/-- The 16-bit number a sum stands for. -/
def reduce (n : Nat) : Nat := if n = 0 then 0 else (n - 1) % 0xffff + 1

/-- A reduced number is a word. -/
theorem reduce_le (n : Nat) : reduce n ≤ 0xffff := by
  unfold reduce
  split <;> omega

/-- A word is reduced already. -/
theorem reduce_of_le {n : Nat} (h : n ≤ 0xffff) : reduce n = n := by
  unfold reduce
  split <;> omega

/-- Reducing first does not change a sum. -/
theorem add_reduce (a : Nat) {b : Nat} (hb : b ≤ 0xffff) : add (reduce a) b = reduce (a + b) := by
  unfold add reduce
  split <;> split <;> split <;> omega

/-- Carrying the upper half of a number around leaves what it stands for. -/
theorem reduce_fold (n : Nat) : reduce (n / 2 ^ 16 + n % 2 ^ 16) = reduce n := by
  unfold reduce
  split <;> split <;> omega

/-- **All ones.**  A number and the complement of what it stands for. -/
theorem reduce_add_complement (n : Nat) : reduce (n + (0xffff - reduce n)) = 0xffff := by
  unfold reduce
  split <;> split <;> omega

/-- The big-endian words of a string; an odd last byte is filled up with zero. -/
def words : List UInt8 → List Nat
  | [] => []
  | [b] => [b.toNat * 2 ^ 8]
  | a :: b :: rest => (a.toNat * 2 ^ 8 + b.toNat) :: words rest

/-- The ones' complement sum of a number and the words of a string. -/
def sum (initial : Nat) (bytes : List UInt8) : Nat := (words bytes).foldl add (reduce initial)

/-- The words of a string are words. -/
theorem le_of_mem_words {bytes : List UInt8} {w : Nat} (h : w ∈ words bytes) : w ≤ 0xffff := by
  fun_induction words bytes with
  | case1 => simp at h
  | case2 b =>
    have hb := b.toNat_lt
    simp only [List.mem_singleton] at h
    omega
  | case3 a b rest ih =>
    have ha := a.toNat_lt
    have hb := b.toNat_lt
    rcases List.mem_cons.mp h with h | h
    · omega
    · exact ih h

/-- **Carrying at the end.** -/
theorem sum_eq (initial : Nat) (bytes : List UInt8) :
    sum initial bytes = reduce (initial + (words bytes).sum) := by
  have hfold : ∀ ws : List Nat, (∀ w ∈ ws, w ≤ 0xffff) →
      ∀ n, ws.foldl add (reduce n) = reduce (n + ws.sum) := by
    intro ws
    induction ws with
    | nil => simp
    | cons w ws ih =>
      intro hle n
      rw [List.foldl_cons, add_reduce n (hle w (by simp)),
        ih (fun v hv => hle v (List.mem_cons_of_mem _ hv)), List.sum_cons, Nat.add_assoc]
  exact hfold (words bytes) (fun w hw => le_of_mem_words hw) initial

/-- The sum is bounded by the length of the string, so it does not overflow for a short one. -/
theorem sum_words_le (bytes : List UInt8) :
    (words bytes).sum ≤ 0xffff * ((bytes.length + 1) / 2) := by
  fun_induction words bytes with
  | case1 => simp
  | case2 b =>
    have hb := b.toNat_lt
    simp only [List.sum_cons, List.sum_nil, List.length_cons, List.length_nil]
    omega
  | case3 a b rest ih =>
    have ha := a.toNat_lt
    have hb := b.toNat_lt
    simp only [List.sum_cons, List.length_cons]
    omega

/-- The words of a string in two parts, the first of even length. -/
theorem words_append {front : List UInt8} (heven : front.length % 2 = 0) (back : List UInt8) :
    words (front ++ back) = words front ++ words back := by
  fun_induction words front with
  | case1 => rfl
  | case2 b => simp at heven
  | case3 a b rest ih =>
    have hrest : rest.length % 2 = 0 := by
      simp only [List.length_cons] at heven
      omega
    rw [List.cons_append, List.cons_append, words, ih hrest, List.cons_append]

/-! ### One changed word -/

/-- The words by their position. -/
theorem words_getElem? (bytes : List UInt8) (k : Nat) :
    (words bytes)[k]? =
      bytes[2 * k]?.map fun a => a.toNat * 2 ^ 8 + (bytes[2 * k + 1]?.map UInt8.toNat).getD 0 := by
  fun_induction words bytes generalizing k with
  | case1 => simp
  | case2 b =>
    cases k with
    | zero => simp
    | succ k => simp [Nat.mul_add]
  | case3 a b rest ih =>
    cases k with
    | zero => simp
    | succ k => simp [Nat.mul_add, ih]

/-- Strings that agree outside one word have words that do. -/
theorem words_agree {bytes bytes' : List UInt8} {k : Nat}
    (h : ∀ i, i / 2 ≠ k → bytes'[i]? = bytes[i]?) {j : Nat} (hj : j ≠ k) :
    (words bytes')[j]? = (words bytes)[j]? := by
  rw [words_getElem?, words_getElem?, h (2 * j) (by omega), h (2 * j + 1) (by omega)]

/-- A word that is the same has the same bytes, in strings of one length. -/
theorem bytes_eq_of_word {bytes bytes' : List UInt8} {k : Nat}
    (hlength : bytes'.length = bytes.length) (h : ∀ i, i / 2 ≠ k → bytes'[i]? = bytes[i]?)
    (hword : (words bytes')[k]? = (words bytes)[k]?) : bytes' = bytes := by
  refine List.ext_getElem? fun i => ?_
  by_cases hi : i / 2 = k
  swap
  · exact h i hi
  by_cases hin : i < bytes.length
  swap
  · rw [List.getElem?_eq_none (by omega), List.getElem?_eq_none (by omega)]
  have hfirst : 2 * k < bytes.length := by omega
  have hfirst' : 2 * k < bytes'.length := by omega
  rw [words_getElem?, words_getElem?, List.getElem?_eq_getElem hfirst,
    List.getElem?_eq_getElem hfirst', Option.map_some, Option.map_some, Option.some.injEq] at hword
  have hone : bytes'[2 * k].toNat < 256 := UInt8.toNat_lt _
  have hone' : bytes[2 * k].toNat < 256 := UInt8.toNat_lt _
  by_cases hsecond : 2 * k + 1 < bytes.length
  · -- a whole word: both of its bytes are determined
    have hsecond' : 2 * k + 1 < bytes'.length := by omega
    rw [List.getElem?_eq_getElem hsecond, List.getElem?_eq_getElem hsecond', Option.map_some,
      Option.map_some, Option.getD_some, Option.getD_some] at hword
    have htwo : bytes'[2 * k + 1].toNat < 256 := UInt8.toNat_lt _
    have htwo' : bytes[2 * k + 1].toNat < 256 := UInt8.toNat_lt _
    obtain rfl | rfl : i = 2 * k ∨ i = 2 * k + 1 := by omega
    · rw [List.getElem?_eq_getElem hfirst, List.getElem?_eq_getElem hfirst',
        UInt8.toNat.inj (show bytes'[2 * k].toNat = bytes[2 * k].toNat by omega)]
    · rw [List.getElem?_eq_getElem hsecond, List.getElem?_eq_getElem hsecond',
        UInt8.toNat.inj (show bytes'[2 * k + 1].toNat = bytes[2 * k + 1].toNat by omega)]
  · -- half a word at the end
    obtain rfl : i = 2 * k := by omega
    rw [List.getElem?_eq_none (by omega), List.getElem?_eq_none (by omega)] at hword
    rw [List.getElem?_eq_getElem hfirst, List.getElem?_eq_getElem hfirst',
      UInt8.toNat.inj (show bytes'[2 * k].toNat = bytes[2 * k].toNat by simpa using hword)]

/-- Changing one word changes the sum by the difference. -/
theorem sum_set {ws : List Nat} {k w : Nat} (h : ws[k]? = some w) (w' : Nat) :
    (ws.set k w').sum + w = ws.sum + w' := by
  induction ws generalizing k with
  | nil => simp at h
  | cons x ws ih =>
    cases k with
    | zero =>
      obtain rfl : x = w := by simpa using h
      simp only [List.set_cons_zero, List.sum_cons]
      omega
    | succ k =>
      have hrest := ih (by simpa using h)
      simp only [List.set_cons_succ, List.sum_cons]
      omega

/-- **A changed word is seen in the sum**, but for the two ways to write zero. -/
theorem words_of_sum_eq {s : Nat} {bytes bytes' : List UInt8} {k : Nat}
    (hlength : bytes'.length = bytes.length) (hdiffer : bytes' ≠ bytes)
    (h : ∀ i, i / 2 ≠ k → bytes'[i]? = bytes[i]?)
    (hsum : sum s bytes = 0xffff) (hsum' : sum s bytes' = 0xffff) :
    ((words bytes)[k]? = some 0 ∧ (words bytes')[k]? = some 0xffff) ∨
      ((words bytes)[k]? = some 0xffff ∧ (words bytes')[k]? = some 0) := by
  have hwords : (words bytes')[k]? ≠ (words bytes)[k]? :=
    fun hword => hdiffer (bytes_eq_of_word hlength h hword)
  have hin : 2 * k < bytes.length := by
    by_contra hout
    have hnone : bytes[2 * k]? = none := List.getElem?_eq_none (by omega)
    have hnone' : bytes'[2 * k]? = none := List.getElem?_eq_none (by omega)
    refine hwords ?_
    rw [words_getElem?, words_getElem?, hnone, hnone', Option.map_none, Option.map_none]
  have hin' : 2 * k < bytes'.length := by omega
  obtain ⟨w, hw⟩ : ∃ w, (words bytes)[k]? = some w := by
    rw [words_getElem?, List.getElem?_eq_getElem hin]
    exact ⟨_, rfl⟩
  obtain ⟨w', hw'⟩ : ∃ w', (words bytes')[k]? = some w' := by
    rw [words_getElem?, List.getElem?_eq_getElem hin']
    exact ⟨_, rfl⟩
  -- the other string has the other word, and the same ones besides
  have hset : words bytes' = (words bytes).set k w' := by
    refine List.ext_getElem? fun j => ?_
    by_cases hj : j = k
    · rw [hj, hw', List.getElem?_set_self (List.getElem?_eq_some_iff.mp hw).1]
    · rw [List.getElem?_set_ne (fun heq => hj heq.symm), words_agree h hj]
  have hadd := sum_set hw w'
  rw [← hset] at hadd
  have hle := le_of_mem_words (List.mem_of_getElem? hw)
  have hle' := le_of_mem_words (List.mem_of_getElem? hw')
  have hne : w' ≠ w := fun heq => hwords (by rw [hw, hw', heq])
  rw [hw, hw', Option.some.injEq, Option.some.injEq, Option.some.injEq, Option.some.injEq]
  rw [sum_eq, reduce] at hsum hsum'
  -- both totals are multiples of `0xffff`, and the words differ by one
  split at hsum <;> split at hsum' <;> omega

end OnesComplement
