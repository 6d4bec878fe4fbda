import Mathlib

/-!
# Loops with a body that says when to stop

`run body fuel s` executes a loop whose body answers `.yield t` to go on from `t` and
`.done t` to leave the loop in `t`.  The fuel is a bound on the number of iterations.

* `run_rule` — what the body keeps, the loop keeps;
* `run_done`, `run_yield` — where every iteration lowers a measure, fuel equal to the measure
  is enough: the loop then satisfies its own equation, and fuel appears in it no more;
* `run_total` — where every iteration that goes on lowers a measure, more fuel than the measure
  is enough for any loop, and it is left by `.done`;
* `run_stops` — where the body changes nothing when it says `.done`, the loop ends in a state
  in which the body has nothing left to do;
* `Ends` — the loop stops by itself, in so many iterations and in this state;
* `walk` — the body of a loop that takes items from a list in the state, one in each iteration;
* `visited` — the states in which the body is executed, for what is said about every
  iteration.
-/

namespace Loop

variable {σ : Type} {body : σ → ForInStep σ}

/-- Execute the body until it says `.done`, at most `fuel` times. -/
def run (body : σ → ForInStep σ) : Nat → σ → σ
  | 0, s => s
  | fuel + 1, s =>
    match body s with
    | .done t => t
    | .yield t => run body fuel t

/-- The states in which the body is executed. -/
def visited (body : σ → ForInStep σ) : Nat → σ → List σ
  | 0, _ => []
  | fuel + 1, s =>
    s :: match body s with
      | .done _ => []
      | .yield t => visited body fuel t

/-- **Loop rule.**  What every iteration keeps holds at the end of the loop. -/
theorem run_rule {P : σ → Prop} (hdone : ∀ s t, P s → body s = .done t → P t)
    (hyield : ∀ s t, P s → body s = .yield t → P t) (fuel : Nat) {s : σ} (hs : P s) :
    P (run body fuel s) := by
  induction fuel generalizing s with
  | zero => exact hs
  | succ fuel ih =>
    rw [run]
    cases hbody : body s with
    | done t => exact hdone s t hs hbody
    | yield t => exact ih (hyield s t hs hbody)

/-- Once there is as much fuel as the measure, more of it changes nothing. -/
theorem run_fuel {μ : σ → Nat} (hstop : ∀ s, μ s = 0 → body s = .done s)
    (hdec : ∀ s t, body s = .yield t → μ t < μ s) (n m : Nat) {s : σ} (hn : μ s ≤ n)
    (hm : μ s ≤ m) : run body n s = run body m s := by
  induction n generalizing m s with
  | zero =>
    cases m with
    | zero => rfl
    | succ m =>
      -- the measure is zero, so the fuel that is left is not used
      rw [run, run, hstop s (by omega)]
  | succ n ih =>
    cases m with
    | zero => rw [run, run, hstop s (by omega)]
    | succ m =>
      rw [run, run]
      cases hbody : body s with
      | done t => rfl
      | yield t =>
        have hlt := hdec s t hbody
        exact ih m (by omega) (by omega)

/-- **The loop equation.**  With the measure for fuel, the loop is the body followed by the
    loop. -/
theorem run_done {μ : σ → Nat} (hstop : ∀ s, μ s = 0 → body s = .done s) {s t : σ}
    (hbody : body s = .done t) : run body (μ s) s = t := by
  cases hμ : μ s with
  | zero =>
    rw [hstop s hμ] at hbody
    cases hbody
    rfl
  | succ n => rw [run, hbody]

/-- With the measure for fuel, an iteration that goes on leaves enough for the rest. -/
theorem run_yield {μ : σ → Nat} (hstop : ∀ s, μ s = 0 → body s = .done s)
    (hdec : ∀ s t, body s = .yield t → μ t < μ s) {s t : σ} (hbody : body s = .yield t) :
    run body (μ s) s = run body (μ t) t := by
  have hlt := hdec s t hbody
  -- one unit more makes the first iteration visible, and the rest of it is enough for `t`
  rw [run_fuel hstop hdec (μ s) (μ s + 1) (le_refl _) (Nat.le_succ _), run, hbody]
  exact run_fuel hstop hdec _ _ (by omega) (le_refl _)

/-- **Exhaustion.**  The loop ends where the body stops. -/
theorem run_stops {μ : σ → Nat} (hstop : ∀ s, μ s = 0 → body s = .done s)
    (hdec : ∀ s t, body s = .yield t → μ t < μ s) (hsame : ∀ s t, body s = .done t → t = s)
    (n : Nat) {s : σ} (hn : μ s ≤ n) : body (run body n s) = .done (run body n s) := by
  induction n generalizing s with
  | zero => exact hstop s (by omega)
  | succ n ih =>
    rw [run]
    cases hbody : body s with
    | done t =>
      -- `t` is the state the body has just stopped in
      obtain rfl := hsame s t hbody
      exact hbody
    | yield t =>
      have hlt := hdec s t hbody
      exact ih (by omega)

/-- **Total correctness.**  As long as each iteration that goes on keeps the invariant and lowers
    the measure, the loop is left by the body, and any fuel above the measure gives the same
    result. -/
theorem run_total {μ : σ → Nat} {P Q : σ → Prop} (hdone : ∀ s t, P s → body s = .done t → Q t)
    (hyield : ∀ s t, P s → body s = .yield t → P t ∧ μ t < μ s) {s : σ} (hs : P s) {n : Nat}
    (hn : μ s < n) : Q (run body n s) ∧ ∀ m, μ s < m → run body m s = run body n s := by
  induction n generalizing s with
  | zero => omega
  | succ n ih =>
    cases hbody : body s with
    | done t =>
      refine ⟨by rw [run, hbody]; exact hdone s t hs hbody, fun m hm => ?_⟩
      obtain ⟨m, rfl⟩ : ∃ k, m = k + 1 := ⟨m - 1, by omega⟩
      rw [run, run, hbody]
    | yield t =>
      obtain ⟨ht, hlt⟩ := hyield s t hs hbody
      obtain ⟨hq, hsame⟩ := ih ht (by omega)
      refine ⟨by rw [run, hbody]; exact hq, fun m hm => ?_⟩
      obtain ⟨m, rfl⟩ : ∃ k, m = k + 1 := ⟨m - 1, by omega⟩
      rw [run, run, hbody]
      exact hsame m (by omega)

/-- The loop stops by itself, after at most `n` iterations: in `t` there is nothing left to do, and
    more fuel changes nothing. -/
def Ends (body : σ → ForInStep σ) (n : Nat) (s t : σ) : Prop :=
  body t = .done t ∧ ∀ fuel, n ≤ fuel → run body fuel s = t

/-- **Termination.**  A loop whose iterations lower a measure stops by itself. -/
theorem ends {μ : σ → Nat} (hstop : ∀ s, μ s = 0 → body s = .done s)
    (hdec : ∀ s t, body s = .yield t → μ t < μ s) (hsame : ∀ s t, body s = .done t → t = s)
    (s : σ) : Ends body (μ s) s (run body (μ s) s) :=
  ⟨run_stops hstop hdec hsame (μ s) (le_refl _),
    fun _ hfuel => run_fuel hstop hdec _ _ hfuel (le_refl _)⟩

/-! ### Loops that use up a list -/

section Walk

variable {ε : Type} {iter : σ → List ε} {goes : σ → ε → Bool} {next : σ → ε → σ}

/-- Look at the first item of the list, and go on with the state after it or stop. -/
def walk (iter : σ → List ε) (goes : σ → ε → Bool) (next : σ → ε → σ) (s : σ) : ForInStep σ :=
  match iter s with
  | [] => .done s
  | e :: _ => if goes s e then .yield (next s e) else .done s

/-- The walk is over at the end of the list. -/
theorem walk_of_nil {s : σ} (h : iter s = []) : walk iter goes next s = .done s := by
  rw [walk, h]

/-- Otherwise the condition decides about the next element. -/
theorem walk_of_cons {s : σ} {e : ε} {rest : List ε} (h : iter s = e :: rest) :
    walk iter goes next s = if goes s e then .yield (next s e) else .done s := by
  rw [walk, h]

/-- A loop that takes the first item away in each iteration stops by itself. -/
theorem walk_ends (hnext : ∀ s e rest, iter s = e :: rest → iter (next s e) = rest) (s : σ) :
    Ends (walk iter goes next) (iter s).length s
      (run (walk iter goes next) (iter s).length s) := by
  refine ends (μ := fun s => (iter s).length) ?_ ?_ ?_ s
  · intro s hs
    exact walk_of_nil (List.eq_nil_of_length_eq_zero hs)
  · intro s t hyield
    cases hiter : iter s with
    | nil => rw [walk_of_nil hiter] at hyield; cases hyield
    | cons e rest =>
      rw [walk_of_cons hiter] at hyield
      split at hyield <;> cases hyield
      rw [hnext s e rest hiter]
      exact Nat.lt_succ_self _
  · intro s t hdone
    cases hiter : iter s with
    | nil => rw [walk_of_nil hiter] at hdone; cases hdone; rfl
    | cons e rest =>
      rw [walk_of_cons hiter] at hdone
      split at hdone <;> cases hdone
      rfl

end Walk

end Loop
