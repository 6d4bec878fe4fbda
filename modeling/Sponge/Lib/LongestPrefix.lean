import Mathlib

/-!
# Longest-prefix match

A rule applies to the addresses that share its first `len` bits.  Of the rules that apply, the one
with the most bits counts, and of several such the one that was added last: `Best`.

A table for each length, indexed by the bits, finds it: `stored` is what the tables hold when every
rule is entered under a key, `walk` looks into them from the longest to the shortest and drops one
bit of the address at each step.

* `walk_of_best` — where the keys are the leading bits, the walk ends at the best rule;
* `walk_of_no_match` — it finds nothing where no rule applies;
* `walk_of_zero` — where only rules of length zero apply, it ends in the last table.

All three leave open where a rule of length zero is entered.  It has no bits to be found by.
-/

namespace LongestPrefix

variable {ρ α : Type} {w : Nat} {pre : ρ → BitVec w} {len : ρ → Nat} {value : ρ → α}
  {rules : List ρ} {addr : BitVec w} {r : ρ}

/-- The bits of the rule are the first bits of the address. -/
def Matches (pre : ρ → BitVec w) (len : ρ → Nat) (addr : BitVec w) (r : ρ) : Prop :=
  ∀ i < len r, (pre r).getMsbD i = addr.getMsbD i

/-- The rule that counts: the longest that applies, the last added of several. -/
def Best (pre : ρ → BitVec w) (len : ρ → Nat) (rules : List ρ) (addr : BitVec w) (r : ρ) : Prop :=
  Matches pre len addr r ∧ ∃ before after, rules = before ++ r :: after ∧
    (∀ s ∈ before, Matches pre len addr s → len s ≤ len r) ∧
    ∀ s ∈ after, Matches pre len addr s → len s < len r

/-- The value entered last in the table for length `n` under the key `k`. -/
def stored (key : ρ → BitVec w) (len : ρ → Nat) (value : ρ → α) (rules : List ρ) (n : Nat)
    (k : BitVec w) : Option α :=
  ((rules.filter fun r => len r = n ∧ key r = k).getLast?).map value

/-- Look into the tables for `n` bits, `n - 1` bits and so on. -/
def walk (table : Nat → BitVec w → Option α) : Nat → BitVec w → Option α
  | 0, a => table 0 a
  | n + 1, a =>
    match table (n + 1) a with
    | some v => some v
    | none => walk table n (a >>> 1)

/-! ### The leading bits as a number -/

/-- Two addresses share their first bits when they agree once the others are shifted out. -/
theorem shift_eq_iff {a b : BitVec w} {n : Nat} (hn : n ≤ w) :
    a >>> (w - n) = b >>> (w - n) ↔ ∀ i < n, a.getMsbD i = b.getMsbD i := by
  constructor
  · intro h i hi
    have hbit := congrArg (fun c : BitVec w => c.getMsbD (w - n + i)) h
    simpa [BitVec.getMsbD_ushiftRight, show w - n + i < w by omega] using hbit
  · intro h
    refine BitVec.eq_of_getMsbD_eq fun i hi => ?_
    rw [BitVec.getMsbD_ushiftRight, BitVec.getMsbD_ushiftRight]
    by_cases hlow : i < w - n
    · simp [hlow]
    · rw [h (i - (w - n)) (by omega)]

/-- The first bits agree exactly if shifting the others out leaves the same number. -/
theorem matches_iff_shift (hlen : len r ≤ w) :
    Matches pre len addr r ↔ pre r >>> (w - len r) = addr >>> (w - len r) :=
  (shift_eq_iff hlen).symm

/-! ### The best rule -/

/-- No rule that applies is longer than the best. -/
theorem Best.len_le (h : Best pre len rules addr r) {s : ρ} (hs : s ∈ rules)
    (hmatch : Matches pre len addr s) : len s ≤ len r := by
  obtain ⟨-, before, after, rfl, hbefore, hafter⟩ := h
  rw [List.mem_append, List.mem_cons] at hs
  obtain hs | rfl | hs := hs
  · exact hbefore s hs hmatch
  · exact Nat.le_refl _
  · exact (hafter s hs hmatch).le

/-- A rule in front of the list that is not longer does not beat the best one. -/
theorem Best.cons (h : Best pre len rules addr r) {s : ρ}
    (hs : Matches pre len addr s → len s ≤ len r) : Best pre len (s :: rules) addr r := by
  obtain ⟨hr, before, after, rfl, hbefore, hafter⟩ := h
  exact ⟨hr, s :: before, after, rfl, List.forall_mem_cons.mpr ⟨hs, hbefore⟩, hafter⟩

/-- There is only one best rule. -/
theorem Best.unique (h : Best pre len rules addr r) {s : ρ} (hs : Best pre len rules addr s) :
    s = r := by
  obtain ⟨hr, before, after, hrules, hbefore, hafter⟩ := h
  obtain ⟨hs, before', after', hrules', hbefore', hafter'⟩ := hs
  rw [hrules, List.append_eq_append_iff] at hrules'
  -- one of the two comes first in the list, and would have to be shorter and not shorter
  obtain ⟨between, rfl, hrest⟩ | ⟨between, rfl, hrest⟩ := hrules'
  · cases between with
    | nil => exact (List.cons.inj hrest).1.symm
    | cons t between =>
      obtain ⟨rfl, rfl⟩ := List.cons.inj hrest
      have hlt := hafter s (by simp) hs
      have hle := hbefore' r (by simp) hr
      omega
  · cases between with
    | nil => exact (List.cons.inj hrest).1
    | cons t between =>
      obtain ⟨rfl, rfl⟩ := List.cons.inj hrest
      have hlt := hafter' r (by simp) hr
      have hle := hbefore s (by simp) hs
      omega

/-- Where a rule applies, there is a best one. -/
theorem exists_best (h : ∃ r ∈ rules, Matches pre len addr r) :
    ∃ r, Best pre len rules addr r := by
  induction rules with
  | nil => simp at h
  | cons s rules ih =>
    by_cases hrest : ∃ r ∈ rules, Matches pre len addr r
    · obtain ⟨r, hr⟩ := ih hrest
      by_cases hs : Matches pre len addr s → len s ≤ len r
      · exact ⟨r, hr.cons hs⟩
      · -- the first rule applies and is longer than any that applies after it
        push Not at hs
        refine ⟨s, hs.1, [], rules, rfl, by simp, fun t ht hmatch => ?_⟩
        exact (hr.len_le ht hmatch).trans_lt hs.2
    · obtain ⟨r, hr, hmatch⟩ := h
      obtain rfl | hr := List.mem_cons.mp hr
      · exact ⟨r, hmatch, [], rules, rfl, by simp, fun t ht ht' => absurd ⟨t, ht, ht'⟩ hrest⟩
      · exact absurd ⟨r, hr, hmatch⟩ hrest

/-! ### What the tables hold -/

/-- A rule that is added replaces the entry under its length and key. -/
theorem stored_append (key : ρ → BitVec w) (rules : List ρ) (r : ρ) (n : Nat) (k : BitVec w) :
    stored key len value (rules ++ [r]) n k =
      if len r = n ∧ key r = k then some (value r) else stored key len value rules n k := by
  unfold stored
  rw [List.filter_append]
  split <;> simp_all

/-- There is no entry where no rule has the length and the key. -/
theorem stored_eq_none {key : ρ → BitVec w} {n : Nat} {k : BitVec w}
    (h : ∀ r ∈ rules, len r = n → key r ≠ k) : stored key len value rules n k = none := by
  have hempty : (rules.filter fun r => len r = n ∧ key r = k) = [] := by
    simpa [List.filter_eq_nil_iff] using h
  rw [stored, hempty]
  rfl

/-- The entry is that of the last rule with the length and the key. -/
theorem stored_eq_some {key : ρ → BitVec w} {before after : List ρ}
    (h : ∀ s ∈ after, len s = len r → key s ≠ key r) :
    stored key len value (before ++ r :: after) (len r) (key r) = some (value r) := by
  have hempty : (after.filter fun s => len s = len r ∧ key s = key r) = [] := by
    simpa [List.filter_eq_nil_iff] using h
  rw [stored, List.filter_append, List.filter_cons_of_pos (by simp), hempty, List.getLast?_concat]
  rfl

/-! ### The walk -/

/-- One bit less is left to shift out. -/
theorem shift_one_shift (a : BitVec w) {n k : Nat} (hk : k ≤ n) :
    a >>> 1 >>> (n - k) = a >>> (n + 1 - k) := by
  rw [← BitVec.shiftRight_add, show 1 + (n - k) = n + 1 - k by omega]

/-- The walk stops at the first table that has the address. -/
theorem walk_eq_some {table : Nat → BitVec w → Option α} {n m : Nat} {a : BitVec w} {v : α}
    (hm : m ≤ n) (hlonger : ∀ k, m < k → k ≤ n → table k (a >>> (n - k)) = none)
    (hfound : table m (a >>> (n - m)) = some v) : walk table n a = some v := by
  induction n generalizing a with
  | zero =>
    obtain rfl : m = 0 := by omega
    simpa [walk] using hfound
  | succ n ih =>
    rw [walk]
    obtain rfl | hlt := Nat.eq_or_lt_of_le hm
    · rw [Nat.sub_self, BitVec.ushiftRight_zero] at hfound
      rw [hfound]
    · have hhere : table (n + 1) a = none := by simpa using hlonger (n + 1) hlt (Nat.le_refl _)
      rw [hhere]
      refine ih (by omega) (fun k hlow hk => ?_) ?_
      · rw [shift_one_shift a hk]
        exact hlonger k hlow (by omega)
      · rw [shift_one_shift a (by omega)]
        exact hfound

/-- Nothing is found where no table on the way down has an entry. -/
theorem walk_eq_none {table : Nat → BitVec w → Option α} {n : Nat} {a : BitVec w}
    (h : ∀ k ≤ n, table k (a >>> (n - k)) = none) : walk table n a = none := by
  induction n generalizing a with
  | zero => simpa [walk] using h 0 (Nat.le_refl _)
  | succ n ih =>
    have hhere : table (n + 1) a = none := by simpa using h (n + 1) (Nat.le_refl _)
    rw [walk, hhere]
    refine ih fun k hk => ?_
    rw [shift_one_shift a hk]
    exact h k (by omega)

section

variable {key : ρ → BitVec w} (hlen : ∀ r ∈ rules, len r ≤ w)
  (hkey : ∀ r ∈ rules, 0 < len r → key r = pre r >>> (w - len r))

include hlen hkey

/-- A rule found under the bits of the address applies to it. -/
theorem matches_of_key {s : ρ} (hs : s ∈ rules) (h : key s = addr >>> (w - len s)) :
    Matches pre len addr s := by
  obtain hzero | hpos := Nat.eq_zero_or_pos (len s)
  · intro i hi
    omega
  · rw [matches_iff_shift (hlen s hs), ← hkey s hs hpos, h]

/-- **The walk ends at the best rule**, if that is where it can be found. -/
theorem walk_of_best (h : Best pre len rules addr r) (hr : key r = addr >>> (w - len r)) :
    walk (stored key len value rules) w addr = some (value r) := by
  have ⟨_, before, after, hrules, _, hafter⟩ := h
  have hmem : r ∈ rules := by simp [hrules]
  refine walk_eq_some (hlen r hmem) (fun k hlow hk => ?_) ?_
  · -- a rule in a longer table would be better
    refine stored_eq_none fun s hs hsk hsame => ?_
    have hle := h.len_le hs (matches_of_key hlen hkey hs (hsk ▸ hsame))
    omega
  · -- so would be one that was entered in the same place later
    rw [← hr, hrules]
    refine stored_eq_some fun s hs hsame heq => ?_
    have hlt := hafter s hs
      (matches_of_key hlen hkey (by simp [hrules, hs]) (by rw [heq, hr, hsame]))
    omega

/-- Where every rule that applies has length zero, the walk looks into the last table with no bits
    left. -/
theorem walk_of_zero (h : ∀ r ∈ rules, Matches pre len addr r → len r = 0) :
    walk (stored key len value rules) w addr = stored key len value rules 0 (addr >>> w) := by
  have hlonger : ∀ k, 0 < k → stored key len value rules k (addr >>> (w - k)) = none := by
    refine fun k hk => stored_eq_none fun s hs hsk hsame => ?_
    have hzero := h s hs (matches_of_key hlen hkey hs (hsk ▸ hsame))
    omega
  cases hfound : stored key len value rules 0 (addr >>> w) with
  | some v => exact walk_eq_some (Nat.zero_le w) (fun k hk _ => hlonger k hk) hfound
  | none =>
    refine walk_eq_none fun k _ => ?_
    obtain rfl | hk := Nat.eq_zero_or_pos k
    · exact hfound
    · exact hlonger k hk

/-- Nothing is found where no rule applies. -/
theorem walk_of_no_match (h : ∀ r ∈ rules, ¬ Matches pre len addr r) :
    walk (stored key len value rules) w addr = none :=
  walk_eq_none fun _ _ => stored_eq_none fun s hs hsk hsame =>
    h s hs (matches_of_key hlen hkey hs (hsk ▸ hsame))

end

end LongestPrefix
