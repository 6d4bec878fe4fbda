import Mathlib

/-!
# Items that wait for their key

A mailbox holds items, each handed in for a key, until the key is resolved: then everything that
waits for it is due at once, in the order in which it was handed in.  An item for a key that is
already resolved is passed on directly.

`waitingFor_due_append` is the conservation law: what is due and what still waits is what waited and
what was handed in, for every key and in order.
-/

namespace Mailbox

variable {κ α : Type} [DecidableEq κ]

/-- What can happen to a mailbox. -/
inductive Event (κ α : Type) where
  | pass (k : κ) (x : α)
  | submit (k : κ) (x : α)
  | resolve (k : κ)
  | idle

/-- The items for one key, in order. -/
def waitingFor (w : List (κ × α)) (k : κ) : List α := (w.filter (fun e => e.1 = k)).map Prod.snd

/-- What has to be delivered at an event. -/
def due (w : List (κ × α)) : Event κ α → List (κ × α)
  | .pass k x => [(k, x)]
  | .submit _ _ => []
  | .resolve k => w.filter (fun e => e.1 = k)
  | .idle => []

/-- What waits after it. -/
def rest (w : List (κ × α)) : Event κ α → List (κ × α)
  | .pass _ _ => w
  | .submit k x => w ++ [(k, x)]
  | .resolve k => w.filter (fun e => e.1 ≠ k)
  | .idle => w

/-- What an event hands in. -/
def handedIn : Event κ α → List (κ × α)
  | .pass k x => [(k, x)]
  | .submit k x => [(k, x)]
  | .resolve _ => []
  | .idle => []

/-- An item is passed on directly only if nothing waits for its key. -/
def InOrder (w : List (κ × α)) : Event κ α → Prop
  | .pass k _ => waitingFor w k = []
  | _ => True

@[simp] theorem waitingFor_nil (k : κ) : waitingFor ([] : List (κ × α)) k = [] := rfl

/-- What waits for a key, in the order of arrival. -/
theorem waitingFor_append (v w : List (κ × α)) (k : κ) :
    waitingFor (v ++ w) k = waitingFor v k ++ waitingFor w k := by
  simp [waitingFor]

/-- One item waits for its own key only. -/
theorem waitingFor_singleton (k j : κ) (x : α) :
    waitingFor [(k, x)] j = if k = j then [x] else [] := by
  by_cases h : k = j <;> simp [waitingFor, h]

/-- Resolving a key leaves the items of the other keys. -/
theorem waitingFor_rest_resolve (w : List (κ × α)) (k j : κ) :
    waitingFor (rest w (.resolve k)) j = if k = j then [] else waitingFor w j := by
  unfold waitingFor rest
  rw [List.filter_filter]
  by_cases h : k = j
  · subst h
    simp
  · rw [if_neg h]
    congr 1
    refine List.filter_congr fun e _ => ?_
    by_cases he : e.1 = j
    · simp [he, Ne.symm h]
    · simp [he]

/-- Resolving a key releases what waits for it, and nothing else. -/
theorem waitingFor_due_resolve (w : List (κ × α)) (k j : κ) :
    waitingFor (due w (.resolve k)) j = if k = j then waitingFor w j else [] := by
  unfold waitingFor due
  rw [List.filter_filter]
  by_cases h : k = j
  · subst h
    simp
  · simp only [if_neg h, List.map_eq_nil_iff, List.filter_eq_nil_iff]
    rintro e - he
    simp only [Bool.and_eq_true, decide_eq_true_eq] at he
    exact h (he.2.symm.trans he.1)

/-- What is released keeps its order. -/
theorem due_resolve (w : List (κ × α)) (k : κ) :
    due w (.resolve k) = (waitingFor w k).map (fun x => (k, x)) := by
  unfold waitingFor due
  rw [List.map_map]
  refine (List.map_id _).symm.trans (List.map_congr_left fun e he => ?_)
  have hk : e.1 = k := by simpa using (List.mem_filter.mp he).2
  exact Prod.ext hk rfl

/-- **Nothing is lost or doubled** at an event. -/
theorem waitingFor_due_append {w : List (κ × α)} {e : Event κ α} (h : InOrder w e) (j : κ) :
    waitingFor (due w e) j ++ waitingFor (rest w e) j
      = waitingFor w j ++ waitingFor (handedIn e) j := by
  cases e with
  | pass k x =>
    show waitingFor [(k, x)] j ++ waitingFor w j = waitingFor w j ++ waitingFor [(k, x)] j
    rw [waitingFor_singleton]
    by_cases hk : k = j
    · -- nothing waits for this key, so the order does not matter
      subst hk
      have hnone : waitingFor w k = [] := h
      rw [hnone, List.append_nil, List.nil_append]
    · rw [if_neg hk, List.append_nil, List.nil_append]
  | submit k x => exact waitingFor_append w [(k, x)] j
  | resolve k =>
    rw [waitingFor_due_resolve, waitingFor_rest_resolve]
    split <;> simp [handedIn]
  | idle => simp [due, rest, handedIn]

end Mailbox
