import Mathlib

/-!
# Fields of a few bits

Machine integers that pack several fields are taken apart with shifts and masks.  The lemmas here
say what is found there in the number that was read: the upper and the lower half of a byte, the
lower bits of a word, and single bits; and what number is written when they are put together.
-/

namespace BitField

/-- The upper half of a byte. -/
theorem shiftRight_four {n : Nat} (h : n < 256) : UInt8.ofNat n >>> 4 = .ofNat (n / 2 ^ 4) := by
  refine UInt8.toNat.inj ?_
  rw [UInt8.toNat_shiftRight, UInt8.toNat_ofNat', UInt8.toNat_ofNat', Nat.shiftRight_eq_div_pow]
  show n % 2 ^ 8 / 2 ^ 4 = n / 2 ^ 4 % 2 ^ 8
  omega

/-- The lower half of a byte. -/
theorem and_fifteen (n : Nat) : UInt8.ofNat n &&& 0x0f = .ofNat (n % 2 ^ 4) := by
  refine UInt8.toNat.inj ?_
  rw [UInt8.toNat_and, UInt8.toNat_ofNat', UInt8.toNat_ofNat']
  show n % 2 ^ 8 &&& (2 ^ 4 - 1) = n % 2 ^ 4 % 2 ^ 8
  rw [Nat.and_two_pow_sub_one_eq_mod]
  omega

/-- The lower thirteen bits of a word. -/
theorem and_thirteen (n : Nat) : UInt16.ofNat n &&& 0x1fff = .ofNat (n % 2 ^ 13) := by
  refine UInt16.toNat.inj ?_
  rw [UInt16.toNat_and, UInt16.toNat_ofNat', UInt16.toNat_ofNat']
  show n % 2 ^ 16 &&& (2 ^ 13 - 1) = n % 2 ^ 13 % 2 ^ 16
  rw [Nat.and_two_pow_sub_one_eq_mod]
  omega

/-- One bit of a number of which the lower `w` bits are left. -/
theorem mod_and_two_pow_ne_zero (n : Nat) {i w : Nat} (hi : i < w) :
    n % 2 ^ w &&& 2 ^ i ≠ 0 ↔ n.testBit i = true := by
  rw [Nat.and_two_pow, Nat.testBit_mod_two_pow]
  cases n.testBit i <;> simp [hi]

/-- One bit of a word. -/
theorem flag16 (n : Nat) {i : Nat} {mask : UInt16} (hi : i < 16) (hmask : mask.toNat = 2 ^ i) :
    decide (UInt16.ofNat n &&& mask ≠ 0) = n.testBit i := by
  rw [Bool.eq_iff_iff, decide_eq_true_iff, ne_eq, ← UInt16.toNat_inj, UInt16.toNat_and, hmask,
    UInt16.toNat_ofNat']
  exact mod_and_two_pow_ne_zero n hi

/-- One bit of a byte. -/
theorem flag8 (n : Nat) {i : Nat} {mask : UInt8} (hi : i < 8) (hmask : mask.toNat = 2 ^ i) :
    decide (UInt8.ofNat n &&& mask ≠ 0) = n.testBit i := by
  rw [Bool.eq_iff_iff, decide_eq_true_iff, ne_eq, ← UInt8.toNat_inj, UInt8.toNat_and, hmask,
    UInt8.toNat_ofNat']
  exact mod_and_two_pow_ne_zero n hi

/-! ### Putting fields together -/

/-- Two halves of a byte. -/
theorem toNat_halves (upper lower : UInt8) :
    ((upper <<< 4) ||| (lower &&& 0xf)).toNat =
      upper.toNat % 2 ^ 4 * 2 ^ 4 + lower.toNat % 2 ^ 4 := by
  have hupper : upper.toNat <<< 4 % 2 ^ 8 = 2 ^ 4 * (upper.toNat % 2 ^ 4) := by
    rw [Nat.shiftLeft_eq]
    omega
  have hlower : lower.toNat &&& 0xf = lower.toNat % 2 ^ 4 := Nat.and_two_pow_sub_one_eq_mod _ 4
  rw [UInt8.toNat_or, UInt8.toNat_shiftLeft, UInt8.toNat_and]
  show upper.toNat <<< 4 % 2 ^ 8 ||| (lower.toNat &&& 0xf) = _
  rw [hupper, hlower, ← Nat.two_pow_add_eq_or_of_lt (Nat.mod_lt _ (by decide))]
  omega

/-- A mask that is set or not. -/
theorem testBit_mask16 (c : Bool) (mask : UInt16) (i : Nat) :
    (if c then mask else 0).toNat.testBit i = (c && mask.toNat.testBit i) := by
  cases c <;> simp

end BitField
