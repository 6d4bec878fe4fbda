import Mathlib

/-!
# Runs without end

A system is a step function on states and operations, and an endless run of it is a sequence of
operations.  `after step s ops n` is the state after the first `n` of them.  That something happens
infinitely often is `∃ᶠ n in atTop`, and that it holds from some point on `∀ᶠ n in atTop`.

Two facts carry the arguments about such runs.  What only grows and is bounded stands still in the
end (`eventually_const`); and a bounded counter that is never turned back but where something
happens, and that infinitely often rises unless it happens, makes it happen infinitely often
(`frequently_of_counter`).
-/

namespace Endless

open Filter

variable {σ ω : Type} {step : σ → ω → σ} {P : ℕ → Prop} {f : ℕ → ℕ} {bound : ℕ}

/-- The state of an endless run after its first `n` operations. -/
def after (step : σ → ω → σ) (s : σ) (ops : ℕ → ω) : ℕ → σ
  | 0 => s
  | n + 1 => step (after step s ops n) (ops n)

/-- What holds once and is kept by every step holds from then on. -/
theorem eventually_of_kept (hkept : ∀ n, P n → P (n + 1)) {n : ℕ} (hn : P n) :
    ∀ᶠ m in atTop, P m :=
  eventually_atTop.mpr ⟨n, fun _ hle => Nat.le_induction hn (fun m _ hm => hkept m hm) _ hle⟩

/-- What only grows and is bounded stands still in the end. -/
theorem eventually_const (hmono : ∀ n, f n ≤ f (n + 1)) (hbound : ∀ n, f n ≤ bound) :
    ∃ c, ∀ᶠ n in atTop, f n = c := by
  have hlimit := tendsto_atTop_ciSup (monotone_nat_of_le_succ hmono)
    ⟨bound, Set.forall_mem_range.mpr hbound⟩
  rw [nhds_discrete, tendsto_pure] at hlimit
  exact ⟨_, hlimit⟩

/-- **A bounded counter.**  If from some point on it only rises but where `P` holds, and
    infinitely often it rises or `P` holds, then `P` holds infinitely often. -/
theorem frequently_of_counter (hbound : ∀ n, f n ≤ bound)
    (hkeep : ∀ᶠ n in atTop, P n ∨ f n ≤ f (n + 1))
    (hrise : ∃ᶠ n in atTop, P n ∨ f n < f (n + 1)) : ∃ᶠ n in atTop, P n := by
  by_contra hnever
  obtain ⟨N, hN⟩ := eventually_atTop.mp (hkeep.and (not_frequently.mp hnever))
  -- from `N` on the counter only rises, so it stands still in the end
  have hmono : ∀ k, f (N + k) ≤ f (N + (k + 1)) := fun k =>
    have hk := hN (N + k) (Nat.le_add_right N k)
    hk.1.resolve_left hk.2
  obtain ⟨c, hc⟩ := eventually_const hmono (fun k => hbound (N + k))
  obtain ⟨K, hK⟩ := eventually_atTop.mp hc
  obtain ⟨n, hn, hstep⟩ := frequently_atTop.mp hrise (N + K)
  have hnow := hK (n - N) (by omega)
  have hnext := hK (n + 1 - N) (by omega)
  rw [show N + (n - N) = n by omega] at hnow
  rw [show N + (n + 1 - N) = n + 1 by omega] at hnext
  have hlt := hstep.resolve_left (hN n (by omega)).2
  omega

end Endless
