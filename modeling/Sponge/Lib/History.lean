import Mathlib

/-!
# Timed histories

A history is a list of events with a key, a value and a time, the newest first.

* `latest` is the last event of a key, and `fresh limit now` its value and age as long as it is at
  most `limit` old.  `fresh_cons` says what a new event and `fresh_elapse` what time does to it: a
  table that is written at an event, and whose entries age and are dropped one by one, holds just
  what is fresh.
* `Spaced gap` says of a list of keys and times, the oldest first, that two events of one key are at
  least `gap` apart.
-/

namespace History

variable {κ α : Type} [DecidableEq κ]

/-- The last event of a key. -/
def latest (log : List (κ × α × Nat)) (k : κ) : Option (α × Nat) :=
  (log.find? fun event => event.1 = k).map Prod.snd

/-- The age and the value of the last event of a key, if it is not too old. -/
def fresh (limit now : Nat) (log : List (κ × α × Nat)) (k : κ) : Option (Nat × α) :=
  (latest log k).bind fun event =>
    if now - event.2 ≤ limit then some (now - event.2, event.1) else none

variable {limit now : Nat} {log : List (κ × α × Nat)}

/-- An event now. -/
theorem fresh_cons (k : κ) (v : α) (j : κ) :
    fresh limit now ((k, v, now) :: log) j =
      if k = j then some (0, v) else fresh limit now log j := by
  by_cases hj : k = j
  · simp [fresh, latest, hj]
  · simp [fresh, latest, hj]

/-- The latest event is not in the future. -/
theorem time_le_of_latest (hpast : ∀ event ∈ log, event.2.2 ≤ now) {k : κ} {event : α × Nat}
    (h : latest log k = some event) : event.2 ≤ now := by
  obtain ⟨found, hfound, rfl⟩ := Option.map_eq_some_iff.mp h
  exact hpast found (List.mem_of_find?_eq_some hfound)

/-- Time passes. -/
theorem fresh_elapse (hpast : ∀ event ∈ log, event.2.2 ≤ now) (ms : Nat) (k : κ) :
    fresh limit (now + ms) log k = (fresh limit now log k).bind fun entry =>
      if entry.1 + ms ≤ limit then some (entry.1 + ms, entry.2) else none := by
  unfold fresh
  cases hlatest : latest log k with
  | none => rfl
  | some event =>
    have hle := time_le_of_latest hpast hlatest
    have hage : now + ms - event.2 = now - event.2 + ms := by omega
    simp only [Option.bind_some, hage]
    by_cases hold : now - event.2 ≤ limit
    · simp [hold]
    · simp [hold]
      omega

/-- What is fresh happened at its age before now. -/
theorem fresh_eq_some (hpast : ∀ event ∈ log, event.2.2 ≤ now) {k : κ} {age : Nat} {v : α} :
    fresh limit now log k = some (age, v) ↔
      ∃ t, latest log k = some (v, t) ∧ t + age = now ∧ age ≤ limit := by
  unfold fresh
  cases hlatest : latest log k with
  | none => simp
  | some event =>
    have hle := time_le_of_latest hpast hlatest
    constructor
    · intro h
      by_cases hold : now - event.2 ≤ limit
      · simp only [Option.bind_some, if_pos hold, Option.some.injEq, Prod.mk.injEq] at h
        obtain ⟨rfl, rfl⟩ := h
        exact ⟨event.2, rfl, by omega, hold⟩
      · simp only [Option.bind_some, if_neg hold, reduceCtorEq] at h
    · rintro ⟨t, heq, hage, hlimit⟩
      obtain rfl := Option.some.inj heq
      have hsub : now - t = age := by omega
      simp only [Option.bind_some, hsub, if_pos hlimit]

/-- Two events of one key are at least `gap` apart. -/
def Spaced (gap : Nat) (log : List (κ × Nat)) : Prop :=
  log.Pairwise fun earlier later => earlier.1 = later.1 → earlier.2 + gap ≤ later.2

omit [DecidableEq κ] in
/-- New events, of different keys, long enough after those of the same key. -/
theorem Spaced.append {gap : Nat} {log : List (κ × Nat)} (h : Spaced gap log) {keys : List κ}
    (hnodup : keys.Nodup) (hold : ∀ event ∈ log, event.1 ∈ keys → event.2 + gap ≤ now) :
    Spaced gap (log ++ keys.map fun k => (k, now)) := by
  refine List.pairwise_append.mpr ⟨h, ?_, ?_⟩
  · refine List.pairwise_map.mpr (hnodup.imp ?_)
    exact fun hne heq => absurd heq hne
  · rintro event hevent _ hnew heq
    obtain ⟨k, hk, rfl⟩ := List.mem_map.mp hnew
    exact hold event hevent (heq ▸ hk)

end History
