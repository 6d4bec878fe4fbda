import Mathlib

/-!
# Runs of a system, step by step

A system is a step function on states and operations, and a run of it is a list of
operations applied one after another.

* `Steps step cond s ops` — every operation of the run meets `cond` in the state in which
  it is applied;
* `Always step Q s ops` — `Q` holds in every state of the run, the first one included.

`Steps.always` is the invariant rule for the runs whose steps meet a condition.
`always_iff_steps` is its exact form: where in the states of an invariant one step keeps `Q`
if and only if it meets the condition, a run keeps `Q` throughout if and only if all of its
steps do.
-/

namespace Run

variable {σ ω : Type} {step : σ → ω → σ} {cond : σ → ω → Prop} {I Q : σ → Prop}

/-- Every operation meets the condition in the state in which it is applied. -/
def Steps (step : σ → ω → σ) (cond : σ → ω → Prop) : σ → List ω → Prop
  | _, [] => True
  | s, op :: ops => cond s op ∧ Steps step cond (step s op) ops

instance Steps.decidable [∀ s op, Decidable (cond s op)] :
    (s : σ) → (ops : List ω) → Decidable (Steps step cond s ops)
  | _, [] => inferInstanceAs (Decidable True)
  | s, op :: ops =>
    let _ := Steps.decidable (step s op) ops
    inferInstanceAs (Decidable (cond s op ∧ Steps step cond (step s op) ops))

/-- The property holds in every state of the run. -/
def Always (step : σ → ω → σ) (Q : σ → Prop) (s : σ) (ops : List ω) : Prop :=
  ∀ pre, pre <+: ops → Q (pre.foldl step s)

/-- The run without steps has one state. -/
theorem always_nil {s : σ} : Always step Q s [] ↔ Q s := by
  constructor
  · intro h
    exact h [] (List.prefix_refl _)
  · intro h pre hpre
    rw [List.prefix_nil.mp hpre]
    exact h

/-- What holds in every state of a run holds at its start, and in every state after the first step.
    -/
theorem always_cons {s : σ} {op : ω} {ops : List ω} :
    Always step Q s (op :: ops) ↔ Q s ∧ Always step Q (step s op) ops := by
  constructor
  · intro h
    exact ⟨h [] List.nil_prefix, fun pre hpre =>
      h (op :: pre) (List.cons_prefix_cons.mpr ⟨rfl, hpre⟩)⟩
  · rintro ⟨hs, hrest⟩ pre hpre
    cases pre with
    | nil => exact hs
    | cons o pre =>
      obtain ⟨rfl, htail⟩ := List.cons_prefix_cons.mp hpre
      exact hrest pre htail

/-- **Invariant rule.**  What every step that meets the condition keeps holds throughout the
    runs whose steps all meet it. -/
theorem Steps.always {A : ω → Prop} (hstep : ∀ s op, A op → I s → cond s op → I (step s op))
    {s : σ} {ops : List ω} (hops : ∀ op ∈ ops, A op) (hs : I s) (h : Steps step cond s ops) :
    Always step I s ops := by
  induction ops generalizing s with
  | nil => exact always_nil.mpr hs
  | cons op ops ih =>
    rw [List.forall_mem_cons] at hops
    exact always_cons.mpr ⟨hs, ih hops.2 (hstep s op hops.1 hs h.1) h.2⟩

/-- The invariant rule for a property of the steps themselves. -/
theorem Steps.imp {A : ω → Prop} {post : σ → ω → Prop}
    (hstep : ∀ s op, A op → I s → cond s op → post s op ∧ I (step s op))
    {s : σ} {ops : List ω} (hops : ∀ op ∈ ops, A op) (hs : I s) (h : Steps step cond s ops) :
    Steps step post s ops := by
  induction ops generalizing s with
  | nil => trivial
  | cons op ops ih =>
    obtain ⟨hpost, hnext⟩ := hstep s op (hops op (by simp)) hs h.1
    exact ⟨hpost, ih (fun o ho => hops o (List.mem_cons_of_mem _ ho)) hnext h.2⟩

/-- **Exact rule.**  In the states of the invariant a step keeps `Q` if and only if it meets
    the condition; then so does a run. -/
theorem always_iff_steps {A : ω → Prop}
    (hinv : ∀ s op, A op → I s → I (step s op))
    (hexact : ∀ s op, A op → I s → Q s → (Q (step s op) ↔ cond s op))
    {s : σ} {ops : List ω} (hops : ∀ op ∈ ops, A op) (hs : I s) (hq : Q s) :
    Always step Q s ops ↔ Steps step cond s ops := by
  induction ops generalizing s with
  | nil => exact ⟨fun _ => trivial, fun _ => always_nil.mpr hq⟩
  | cons op ops ih =>
    have hop := hops op (by simp)
    have hnext := hinv s op hop hs
    have hrest := fun o ho => hops o (List.mem_cons_of_mem _ ho)
    have hone := hexact s op hop hs hq
    rw [always_cons]
    constructor
    · rintro ⟨-, h⟩
      have hq' : Q (step s op) := h [] List.nil_prefix
      exact ⟨hone.mp hq', (ih hrest hnext hq').mp h⟩
    · rintro ⟨hc, h⟩
      exact ⟨hq, (ih hrest hnext (hone.mpr hc)).mpr h⟩

end Run
