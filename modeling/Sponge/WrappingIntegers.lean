import Mathlib

namespace Sponge

/-!
# Wrapping sequence numbers

`WrappingInt32` is a 32-bit number counted from an arbitrary initial sequence number.
`wrap` takes an absolute 64-bit sequence number there, `unwrap` takes it back to the
absolute number closest to a checkpoint.  Both compute with the machine's 32- and 64-bit
arithmetic.

`unwrap_wrap` is the fact everything above rests on: an absolute number within `2^31` of the
checkpoint survives the round trip, wherever the two lie in the 64-bit range.  `unwrap_nearest` is
what `unwrap` promises for every 32-bit number.
-/

/-- A 32-bit integer, expressed relative to an arbitrary initial sequence number. -/
structure WrappingInt32 where
  rawValue : UInt32
  deriving DecidableEq, Repr

/-- Transform an absolute 64-bit sequence number into a `WrappingInt32`: the 64-bit sum
    with the initial sequence number, cut to 32 bits. -/
def wrap (n : UInt64) (isn : WrappingInt32) : WrappingInt32 :=
  ⟨(n + isn.rawValue.toUInt64).toUInt32⟩

/-- Transform a `WrappingInt32` into the absolute 64-bit sequence number that wraps to it
    and is closest to `checkpoint`. -/
def unwrap (n isn : WrappingInt32) (checkpoint : UInt64) : UInt64 :=
  let absSqn : UInt64 := (n.rawValue - isn.rawValue).toUInt64
  let maxUInt : UInt64 := 0x100000000
  if checkpoint > absSqn then
    let factor := (checkpoint - absSqn) / maxUInt
    let absSqn := absSqn + maxUInt * factor
    if absSqn + maxUInt - checkpoint < checkpoint - absSqn then absSqn + maxUInt else absSqn
  else absSqn

/-- The point `b` steps before `a`. -/
def WrappingInt32.sub (a : WrappingInt32) (b : UInt32) : WrappingInt32 := ⟨a.rawValue - b⟩

/-- The SYN's own number is the initial sequence number. -/
theorem wrap_zero (isn : WrappingInt32) : wrap (.ofNat 0) isn = isn := by
  cases isn
  simp [wrap]

/-- The difference of a wrapped number and its initial sequence number is the residue
    of the absolute number. -/
theorem toNat_wrap_sub (v : Nat) (isn : WrappingInt32) :
    ((wrap (.ofNat v) isn).rawValue - isn.rawValue).toUInt64.toNat = v % 2 ^ 32 := by
  have hisn : isn.rawValue.toNat < 2 ^ 32 := isn.rawValue.toNat_lt
  simp only [wrap, UInt32.toNat_toUInt64, UInt32.toNat_sub, UInt64.toNat_toUInt32,
    UInt64.toNat_add, UInt64.toNat_ofNat']
  omega

/-- `unwrap` in plain arithmetic.  With `r` the residue and `a` the largest number of that residue
    that is not above the checkpoint, only the last addition can wrap. -/
theorem toNat_unwrap (n isn : WrappingInt32) (checkpoint : UInt64) :
    let r := (n.rawValue - isn.rawValue).toUInt64.toNat
    let a := r + 2 ^ 32 * ((checkpoint.toNat - r) / 2 ^ 32)
    (unwrap n isn checkpoint).toNat =
      if checkpoint.toNat ≤ r then r
      else if a + 2 ^ 32 - checkpoint.toNat < checkpoint.toNat - a then (a + 2 ^ 32) % 2 ^ 64
      else a := by
  intro r a
  have hr : r < 2 ^ 32 := by
    simp only [r, UInt32.toNat_toUInt64]
    exact UInt32.toNat_lt _
  have hc : checkpoint.toNat < 2 ^ 64 := checkpoint.toNat_lt
  have hmax : (0x100000000 : UInt64).toNat = 2 ^ 32 := rfl
  unfold unwrap
  simp only [gt_iff_lt]
  by_cases hle : checkpoint.toNat ≤ r
  · rw [if_neg (by rw [UInt64.lt_iff_toNat_lt]; exact not_lt.mpr hle), if_pos hle]
  rw [if_pos (by rw [UInt64.lt_iff_toNat_lt]; exact not_le.mp hle), if_neg hle]
  have hfactor : ((checkpoint - (n.rawValue - isn.rawValue).toUInt64) / 0x100000000).toNat
      = (checkpoint.toNat - r) / 2 ^ 32 := by
    rw [UInt64.toNat_div, UInt64.toNat_sub, hmax]
    show (2 ^ 64 - r + checkpoint.toNat) % 2 ^ 64 / 2 ^ 32 = _
    omega
  have habs : ((n.rawValue - isn.rawValue).toUInt64 + 0x100000000 *
      ((checkpoint - (n.rawValue - isn.rawValue).toUInt64) / 0x100000000)).toNat = a := by
    rw [UInt64.toNat_add, UInt64.toNat_mul, hfactor, hmax]
    show (r + _) % _ = a
    omega
  generalize (n.rawValue - isn.rawValue).toUInt64 + 0x100000000 *
      ((checkpoint - (n.rawValue - isn.rawValue).toUInt64) / 0x100000000) = abs at habs ⊢
  -- both differences are below `2^32`, whether or not the sum on the left has wrapped
  have hcloser : abs + 0x100000000 - checkpoint < checkpoint - abs ↔
      a + 2 ^ 32 - checkpoint.toNat < checkpoint.toNat - a := by
    rw [UInt64.lt_iff_toNat_lt, UInt64.toNat_sub, UInt64.toNat_sub, UInt64.toNat_add, hmax, habs]
    omega
  by_cases hup : a + 2 ^ 32 - checkpoint.toNat < checkpoint.toNat - a
  · rw [if_pos (hcloser.mpr hup), if_pos hup, UInt64.toNat_add, hmax, habs]
  · rw [if_neg (fun h => hup (hcloser.mp h)), if_neg hup, habs]

/-- **Round trip.**  An absolute sequence number within `2^31` of the checkpoint is what
    `unwrap` finds for its wrapped form. -/
theorem unwrap_wrap (isn : WrappingInt32) {v checkpoint : Nat} (hv : v < 2 ^ 64)
    (hc : checkpoint < 2 ^ 64) (hlo : checkpoint ≤ v + 2 ^ 31) (hhi : v < checkpoint + 2 ^ 31) :
    (unwrap (wrap (.ofNat v) isn) isn (.ofNat checkpoint)).toNat = v := by
  have hunwrap := toNat_unwrap (wrap (.ofNat v) isn) isn (.ofNat checkpoint)
  have hcn : (UInt64.ofNat checkpoint).toNat = checkpoint := UInt64.toNat_ofNat_of_lt hc
  dsimp only at hunwrap
  rw [toNat_wrap_sub, hcn] at hunwrap
  rw [hunwrap]
  split
  · omega
  · split <;> omega

/-- The residue of the numbers that wrap to `n`. -/
theorem residue_eq (n isn : WrappingInt32) :
    ((n.rawValue - isn.rawValue).toUInt64.toNat : ℤ)
      = ((n.rawValue.toNat : ℤ) - isn.rawValue.toNat) % 2 ^ 32 := by
  have hn := n.rawValue.toNat_lt
  have hisn := isn.rawValue.toNat_lt
  rw [UInt32.toNat_toUInt64, UInt32.toNat_sub]
  omega

/-- **The nearest number.**  For a checkpoint not above `2^64 - 2^31`, `unwrap` finds a number
    congruent to `n - isn`, and no 64-bit number of that residue is closer to the checkpoint, nor as
    close and smaller; in particular every number within `2^31` survives the round trip. -/
theorem unwrap_nearest (n isn : WrappingInt32) (checkpoint : UInt64)
    (hc : checkpoint.toNat ≤ 2 ^ 64 - 2 ^ 31) :
    ((unwrap n isn checkpoint).toNat ≡ n.rawValue.toNat - isn.rawValue.toNat [ZMOD 2 ^ 32]) ∧
      (∀ w : UInt64, (w.toNat ≡ n.rawValue.toNat - isn.rawValue.toNat [ZMOD 2 ^ 32]) →
        (unwrap n isn checkpoint).toNat.dist checkpoint.toNat < w.toNat.dist checkpoint.toNat ∨
          (unwrap n isn checkpoint).toNat.dist checkpoint.toNat = w.toNat.dist checkpoint.toNat ∧
            unwrap n isn checkpoint ≤ w) ∧
      ∀ v : UInt64, v.toNat.dist checkpoint.toNat < 2 ^ 31 →
        unwrap (wrap v isn) isn checkpoint = v := by
  have hunwrap := toNat_unwrap n isn checkpoint
  have hres := residue_eq n isn
  dsimp only at hunwrap
  generalize (n.rawValue - isn.rawValue).toUInt64.toNat = r at hunwrap hres
  have hcongr : (unwrap n isn checkpoint).toNat % 2 ^ 32 = r := by
    split at hunwrap
    · omega
    · split at hunwrap <;> omega
  refine ⟨?_, fun w hw => ?_, fun v hv => ?_⟩
  · unfold Int.ModEq
    omega
  · -- the other number differs by a multiple of `2^32`
    have hw' : w.toNat % 2 ^ 32 = r := by
      unfold Int.ModEq at hw
      omega
    have hlt := w.toNat_lt
    rw [UInt64.le_iff_toNat_le]
    unfold Nat.dist
    split at hunwrap
    · omega
    · split at hunwrap <;> omega
  · unfold Nat.dist at hv
    have hround := unwrap_wrap isn v.toNat_lt checkpoint.toNat_lt (by omega) (by omega)
    rw [UInt64.ofNat_toNat, UInt64.ofNat_toNat] at hround
    exact UInt64.toNat.inj hround

/-- One past a multiple of `2^32`, seen from just before it. -/
theorem unwrap_nearest_above :
    unwrap ⟨1⟩ ⟨0⟩ 0xfffffff0 = 0x100000001 ∧
      (unwrap ⟨1⟩ ⟨0⟩ 0xfffffff0).toNat.dist 0xfffffff0 < (1 : UInt64).toNat.dist 0xfffffff0 := by
  have hvalue : unwrap ⟨1⟩ ⟨0⟩ 0xfffffff0 = 0x100000001 := by decide
  have hnearest := (unwrap_nearest ⟨1⟩ ⟨0⟩ 0xfffffff0 (by decide)).2.1 1 (by decide)
  exact ⟨hvalue, hnearest.resolve_right (by rw [hvalue]; decide)⟩

end Sponge
