import Mathlib

/-!
# Ordered maps, and ordered maps of pieces

`OrdMap κ ν` is a finite map kept in increasing order of its keys, with the part of the
interface a program needs that walks such a map with iterators:

* `below m k` / `lowerBound m k` — what stands before and from the first key `≥ k`;
* `erase` and `emplace` — the latter keeps the old value of a key that is present.

An iterator is the list of entries from its position on.

The second half looks at maps whose values are lists, an entry `(k, d)` being the piece
`d` put at position `k`.  `Covers es p` says that some piece of `es` has position `p`, and
`Chained es` that the pieces follow one another without overlap.  Then the `total` length of
the pieces is the number of their positions.
-/

/-- A finite map, its entries in increasing order of the keys. -/
structure OrdMap (κ ν : Type) [LinearOrder κ] where
  entries : List (κ × ν)
  sorted : entries.Pairwise (fun a b => a.1 < b.1)

namespace OrdMap

variable {κ ν : Type} [LinearOrder κ]

/-- The map with no entries. -/
def empty : OrdMap κ ν := ⟨[], List.Pairwise.nil⟩

@[simp] theorem entries_empty : (empty : OrdMap κ ν).entries = [] := rfl

/-- The entries before the first key that is not less than `k`. -/
def below (m : OrdMap κ ν) (k : κ) : List (κ × ν) := m.entries.takeWhile (fun e => e.1 < k)

/-- The entries from the first key on that is not less than `k`. -/
def lowerBound (m : OrdMap κ ν) (k : κ) : List (κ × ν) := m.entries.dropWhile (fun e => e.1 < k)

/-- Remove the entry of key `k`, if there is one. -/
def erase (m : OrdMap κ ν) (k : κ) : OrdMap κ ν where
  entries := m.entries.filter (fun e => e.1 ≠ k)
  sorted := m.sorted.sublist List.filter_sublist

/-- The two iterators split the entries at the key. -/
theorem below_append_lowerBound (m : OrdMap κ ν) (k : κ) :
    m.below k ++ m.lowerBound k = m.entries :=
  List.takeWhile_append_dropWhile

/-- What comes before the iterator is smaller than the key. -/
theorem lt_of_mem_below {m : OrdMap κ ν} {k : κ} {e : κ × ν} (h : e ∈ m.below k) : e.1 < k := by
  have := List.mem_takeWhile_imp h
  simpa using this

/-- What the iterator goes over is not. -/
theorem le_of_mem_lowerBound {m : OrdMap κ ν} {k : κ} {e : κ × ν} (h : e ∈ m.lowerBound k) :
    k ≤ e.1 := by
  have hsorted : (m.lowerBound k).Pairwise (fun a b => a.1 < b.1) :=
    m.sorted.sublist (List.dropWhile_sublist _)
  cases hlb : m.lowerBound k with
  | nil => rw [hlb] at h; exact absurd h (by simp)
  | cons x xs =>
    -- the walk stopped at `x`, and every later key is larger
    have hx : k ≤ x.1 := by
      have hhead := List.head?_dropWhile_not (fun e : κ × ν => decide (e.1 < k)) m.entries
      rw [← lowerBound, hlb] at hhead
      simpa using hhead
    rw [hlb] at h hsorted
    rcases List.mem_cons.mp h with rfl | hmem
    · exact hx
    · exact le_trans hx (le_of_lt ((List.pairwise_cons.mp hsorted).1 e hmem))

/-- Insert a value at a key that is absent; a key that is present keeps its value. -/
def emplace (m : OrdMap κ ν) (k : κ) (v : ν) : OrdMap κ ν :=
  if h : ∀ e ∈ m.entries, e.1 ≠ k then
    { entries := m.below k ++ (k, v) :: m.lowerBound k
      sorted := by
        have hs := m.sorted
        rw [← below_append_lowerBound m k, List.pairwise_append] at hs
        rw [List.pairwise_append, List.pairwise_cons]
        refine ⟨hs.1, ⟨fun e he => ?_, hs.2.1⟩, fun a ha b hb => ?_⟩
        · have hmem : e ∈ m.entries := by
            rw [← below_append_lowerBound m k]; exact List.mem_append_right _ he
          exact lt_of_le_of_ne (le_of_mem_lowerBound he) (fun heq => h e hmem heq.symm)
        · rcases List.mem_cons.mp hb with rfl | hb
          · exact lt_of_mem_below ha
          · exact hs.2.2 a ha b hb }
  else m

/-- Erasing a key takes exactly its entry out of the sequence of entries. -/
theorem entries_erase {m : OrdMap κ ν} {a b : List (κ × ν)} {e : κ × ν}
    (h : m.entries = a ++ e :: b) : (m.erase e.1).entries = a ++ b := by
  have hs := m.sorted
  rw [h, List.pairwise_append, List.pairwise_cons] at hs
  have ha : a.filter (fun x => decide (x.1 ≠ e.1)) = a := by
    rw [List.filter_eq_self]
    intro x hx
    simpa using ne_of_lt (hs.2.2 x hx e (by simp))
  have hb : b.filter (fun x => decide (x.1 ≠ e.1)) = b := by
    rw [List.filter_eq_self]
    intro x hx
    simpa using (ne_of_lt (hs.2.1.1 x hx)).symm
  show m.entries.filter (fun x => decide (x.1 ≠ e.1)) = a ++ b
  rw [h, List.filter_append, List.filter_cons_of_neg (by simp), ha, hb]

/-- A new key goes between the smaller and the larger ones. -/
theorem entries_emplace_of_absent {m : OrdMap κ ν} {k : κ} (v : ν)
    (h : ∀ e ∈ m.entries, e.1 ≠ k) :
    (m.emplace k v).entries = m.below k ++ (k, v) :: m.lowerBound k := by
  rw [emplace, dif_pos h]

/-- A key that is there keeps its value, as in `std::map::emplace`. -/
theorem emplace_of_present {m : OrdMap κ ν} {k : κ} (v : ν) {e : κ × ν}
    (he : e ∈ m.entries) (hk : e.1 = k) : m.emplace k v = m := by
  rw [emplace, dif_neg]
  intro h
  exact h e he hk

/-- The split of a map at a key is determined by the keys on the two sides. -/
theorem below_lowerBound_eq {m : OrdMap κ ν} {k : κ} {a b : List (κ × ν)}
    (h : m.entries = a ++ b) (ha : ∀ e ∈ a, e.1 < k) (hb : ∀ e ∈ b, k ≤ e.1) :
    m.below k = a ∧ m.lowerBound k = b := by
  have hbelow : m.below k = a := by
    rw [below, h, List.takeWhile_append_of_pos (by simpa using ha)]
    cases b with
    | nil => simp
    | cons x xs =>
      have hx : ¬ x.1 < k := not_lt.mpr (hb x (by simp))
      simp [hx]
  refine ⟨hbelow, ?_⟩
  have hcat := below_append_lowerBound m k
  rw [hbelow, h] at hcat
  exact List.append_cancel_left hcat

/-- Erasing the entry at the iterator moves it on. -/
theorem lowerBound_erase {m : OrdMap κ ν} {k : κ} {e : κ × ν} {rest : List (κ × ν)}
    (h : m.lowerBound k = e :: rest) : (m.erase e.1).lowerBound k = rest := by
  have hentries : m.entries = m.below k ++ e :: rest := by rw [← h, below_append_lowerBound]
  refine (below_lowerBound_eq (entries_erase hentries) (fun x hx => lt_of_mem_below hx) ?_).2
  intro x hx
  exact le_of_mem_lowerBound (m := m) (by rw [h]; exact List.mem_cons_of_mem e hx)

end OrdMap

/-! ### Entries as pieces at positions -/

namespace Pieces

variable {α : Type}

/-- Some piece of `es` has the position `p`. -/
def Covers (es : List (Nat × List α)) (p : Nat) : Prop :=
  ∃ e ∈ es, e.1 ≤ p ∧ p < e.1 + e.2.length

/-- The pieces follow one another: keys increase and no piece runs into a later one. -/
def Chained (es : List (Nat × List α)) : Prop :=
  es.Pairwise (fun a b => a.1 < b.1 ∧ a.1 + a.2.length ≤ b.1)

@[simp] theorem covers_nil (p : Nat) : ¬ Covers ([] : List (Nat × List α)) p := by
  rintro ⟨e, he, -⟩
  exact absurd he (by simp)

@[simp] theorem covers_cons {e : Nat × List α} {es : List (Nat × List α)} {p : Nat} :
    Covers (e :: es) p ↔ (e.1 ≤ p ∧ p < e.1 + e.2.length) ∨ Covers es p := by
  simp [Covers]

@[simp] theorem covers_append {a b : List (Nat × List α)} {p : Nat} :
    Covers (a ++ b) p ↔ Covers a p ∨ Covers b p := by
  simp only [Covers, List.mem_append]
  constructor
  · rintro ⟨e, he | he, hp⟩
    · exact Or.inl ⟨e, he, hp⟩
    · exact Or.inr ⟨e, he, hp⟩
  · rintro (⟨e, he, hp⟩ | ⟨e, he, hp⟩)
    · exact ⟨e, Or.inl he, hp⟩
    · exact ⟨e, Or.inr he, hp⟩

/-- Both parts of a chain are chains, and the first ends before the second starts. -/
theorem Chained.append {a b : List (Nat × List α)} (h : Chained (a ++ b)) :
    Chained a ∧ Chained b ∧
      ∀ x ∈ a, ∀ y ∈ b, x.1 < y.1 ∧ x.1 + x.2.length ≤ y.1 :=
  List.pairwise_append.mp h

/-- The first piece ends before the others start. -/
theorem Chained.cons {e : Nat × List α} {es : List (Nat × List α)} (h : Chained (e :: es)) :
    (∀ x ∈ es, e.1 < x.1 ∧ e.1 + e.2.length ≤ x.1) ∧ Chained es :=
  List.pairwise_cons.mp h

/-- Pieces that follow one another are disjoint. -/
theorem Chained.disjoint {es : List (Nat × List α)} (h : Chained es) :
    es.Pairwise fun a b =>
      Disjoint (Set.Ico a.1 (a.1 + a.2.length)) (Set.Ico b.1 (b.1 + b.2.length)) := by
  refine List.Pairwise.imp (fun {a b} hab => Set.disjoint_left.mpr fun p hp hq => ?_) h
  have hlt := hp.2
  have hge := hq.1
  omega

/-- A chained list keeps its order when a stretch in its middle is taken out. -/
theorem Chained.erase_middle {a b c : List (Nat × List α)} (h : Chained (a ++ b ++ c)) :
    Chained (a ++ c) := by
  rw [List.append_assoc] at h
  exact List.Pairwise.sublist (List.Sublist.append_left (List.sublist_append_right b c) a) h

/-- A piece that fits between two parts of a chained list can be put there. -/
theorem Chained.insert_middle {a c : List (Nat × List α)} (h : Chained (a ++ c))
    {e : Nat × List α} (ha : ∀ x ∈ a, x.1 < e.1 ∧ x.1 + x.2.length ≤ e.1)
    (hc : ∀ y ∈ c, e.1 < y.1 ∧ e.1 + e.2.length ≤ y.1) : Chained (a ++ e :: c) := by
  obtain ⟨h1, h2, h3⟩ := h.append
  refine List.pairwise_append.mpr ⟨h1, List.pairwise_cons.mpr ⟨hc, h2⟩, ?_⟩
  intro x hx y hy
  rcases List.mem_cons.mp hy with rfl | hy
  · exact ha x hx
  · exact h3 x hx y hy

/-- `es'` is `es` with the piece `data` placed at `index`: the pieces are still apart,
    the positions are those of `es` and of the new piece, and every piece of `es'` is one of
    `es` or a part of the new one. -/
structure Placed (es es' : List (Nat × List α)) (index : Nat) (data : List α) : Prop where
  chained : Chained es'
  covers : ∀ p, Covers es' p ↔ Covers es p ∨ (index ≤ p ∧ p < index + data.length)
  parts : ∀ e ∈ es', e ∈ es ∨
    ∃ a b, a ≤ data.length ∧ e = (index + a, (data.drop a).take b)

section Placed

variable {before gone rest : List (Nat × List α)} {index : Nat} {data : List α}

/-- Nothing of the new piece is kept: the pieces that are left have all of its positions. -/
theorem placed_of_covered (h : Chained (before ++ gone ++ rest))
    (hgone : ∀ e ∈ gone, index ≤ e.1 ∧ e.1 + e.2.length ≤ index + data.length)
    (hcov : ∀ p, index ≤ p → p < index + data.length → Covers before p ∨ Covers rest p) :
    Placed (before ++ gone ++ rest) (before ++ rest) index data := by
  refine ⟨h.erase_middle, fun p => ?_, fun e he => Or.inl ?_⟩
  · simp only [covers_append]
    constructor
    · rintro (hp | hp)
      · exact Or.inl (Or.inl (Or.inl hp))
      · exact Or.inl (Or.inr hp)
    · rintro (((hp | ⟨e, he, hp⟩) | hp) | ⟨hlo, hhi⟩)
      · exact Or.inl hp
      · have hin := hgone e he
        exact hcov p (by omega) (by omega)
      · exact Or.inr hp
      · exact hcov p hlo hhi
  · rcases List.mem_append.mp he with he | he
    · exact List.mem_append_left _ (List.mem_append_left _ he)
    · exact List.mem_append_right _ he

/-- A part of the new piece goes between the pieces that are left, which have the rest of
    its positions. -/
theorem placed_of_part (h : Chained (before ++ gone ++ rest)) {a b : Nat} (hlen : a ≤ data.length)
    (hgone : ∀ e ∈ gone, index ≤ e.1 ∧ e.1 + e.2.length ≤ index + data.length)
    (hbefore : ∀ x ∈ before, x.1 < index + a ∧ x.1 + x.2.length ≤ index + a)
    (hrest : ∀ y ∈ rest, index + a < y.1 ∧ index + a + ((data.drop a).take b).length ≤ y.1)
    (hcov : ∀ p, index ≤ p → p < index + data.length →
      (index + a ≤ p ∧ p < index + a + ((data.drop a).take b).length) ∨
        Covers before p ∨ Covers rest p) :
    Placed (before ++ gone ++ rest)
      (before ++ (index + a, (data.drop a).take b) :: rest) index data := by
  refine ⟨h.erase_middle.insert_middle hbefore hrest, fun p => ?_, fun e he => ?_⟩
  · simp only [covers_append, covers_cons]
    have hpart : ((data.drop a).take b).length ≤ data.length - a := by
      rw [List.length_take, List.length_drop]; omega
    constructor
    · rintro (hp | hp | hp)
      · exact Or.inl (Or.inl (Or.inl hp))
      · exact Or.inr ⟨by omega, by omega⟩
      · exact Or.inl (Or.inr hp)
    · have hback : ∀ p, index ≤ p → p < index + data.length → Covers before p ∨
          (index + a ≤ p ∧ p < index + a + ((data.drop a).take b).length) ∨ Covers rest p := by
        intro q hlo hhi
        rcases hcov q hlo hhi with hq | hq | hq
        · exact Or.inr (Or.inl hq)
        · exact Or.inl hq
        · exact Or.inr (Or.inr hq)
      rintro (((hp | ⟨e, he, hp⟩) | hp) | ⟨hlo, hhi⟩)
      · exact Or.inl hp
      · have hin := hgone e he
        exact hback p (by omega) (by omega)
      · exact Or.inr (Or.inr hp)
      · exact hback p hlo hhi
  · rcases List.mem_append.mp he with he | he
    · exact Or.inl (List.mem_append_left _ (List.mem_append_left _ he))
    · rcases List.mem_cons.mp he with rfl | he
      · exact Or.inr ⟨a, b, hlen, rfl⟩
      · exact Or.inl (List.mem_append_right _ he)

end Placed

/-! ### The total length of the pieces -/

section Total

variable {es a b : List (Nat × List α)} {e : Nat × List α}

/-- The total length of the pieces. -/
def total (es : List (Nat × List α)) : Nat := (es.map (fun e => e.2.length)).sum

@[simp] theorem total_nil : total ([] : List (Nat × List α)) = 0 := rfl

@[simp] theorem total_cons : total (e :: es) = e.2.length + total es := rfl

@[simp] theorem total_append : total (a ++ b) = total a + total b := by
  simp [total]

/-- The bytes of a new piece are added to the total. -/
theorem total_emplace_of_absent {m : OrdMap Nat (List α)} {k : Nat} (d : List α)
    (h : ∀ e ∈ m.entries, e.1 ≠ k) :
    total (m.emplace k d).entries = total m.entries + d.length := by
  have hsplit := congrArg total (m.below_append_lowerBound k)
  rw [total_append] at hsplit
  rw [OrdMap.entries_emplace_of_absent d h, total_append, total_cons]
  simp only
  omega

/-- The positions of the pieces, piece by piece. -/
def positions (es : List (Nat × List α)) : List Nat :=
  es.flatMap (fun e => List.range' e.1 e.2.length)

/-- The positions are those that some piece covers. -/
theorem mem_positions {p : Nat} : p ∈ positions es ↔ Covers es p := by
  simp [positions, Covers]

/-- There are as many, counted with repetition, as bytes in the pieces. -/
theorem length_positions : (positions es).length = total es := by
  simp [positions, total]

/-- Pieces that follow one another share no position. -/
theorem Chained.nodup_positions (h : Chained es) : (positions es).Nodup := by
  induction es with
  | nil => exact List.nodup_nil
  | cons e es ih =>
    obtain ⟨hfirst, hrest⟩ := h.cons
    show (List.range' e.1 e.2.length ++ positions es).Nodup
    refine List.nodup_append.mpr ⟨List.nodup_range', ih hrest, fun p hp q hq => ?_⟩
    obtain ⟨x, hx, hxq, -⟩ := mem_positions.mp hq
    have hxe := hfirst x hx
    have hpe := (List.mem_range'_1.mp hp).2
    omega

/-- The total length is the number of positions. -/
theorem Chained.total_eq_ncard (h : Chained es) : total es = {p | Covers es p}.ncard := by
  have hset : {p | Covers es p} = ↑(positions es).toFinset := by
    ext p
    simp [mem_positions]
  rw [hset, Set.ncard_coe_finset, List.toFinset_card_of_nodup h.nodup_positions, length_positions]

/-- Pieces that lie between two positions are together no longer than the distance. -/
theorem Chained.total_le (h : Chained es) {lo hi : Nat} (hin : ∀ p, Covers es p → lo ≤ p ∧ p < hi) :
    total es ≤ hi - lo := by
  have hsub : (positions es).toFinset ⊆ Finset.Ico lo hi := by
    intro p hp
    rw [List.mem_toFinset, mem_positions] at hp
    exact Finset.mem_Ico.mpr (hin p hp)
  have hcard := Finset.card_le_card hsub
  rwa [List.toFinset_card_of_nodup h.nodup_positions, length_positions, Nat.card_Ico] at hcard

/-- There are no bytes exactly if nothing is covered. -/
theorem total_eq_zero_iff : total es = 0 ↔ ∀ p, ¬ Covers es p := by
  simp only [← length_positions, ← mem_positions, List.length_eq_zero_iff,
    List.eq_nil_iff_forall_not_mem]

end Total

end Pieces
