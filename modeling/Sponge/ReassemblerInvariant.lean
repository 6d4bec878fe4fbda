import Sponge.ReassemblerMerge
import Sponge.Lib.Slice

namespace Sponge

open Pieces Slice

/-!
# What a reassembler holds of a stream

The substrings pushed into a reassembler are pieces of one stream `S`.  The invariant
`Holds S seen Q P taken r` says what `r` then has of it:

* the bytes taken out by the reader followed by those still in the output stream are the
  first `expected` bytes of `S`, and every waiting substring stands in `S` at its key;
* every position in `Q` (positions that must not be lost) is assembled or waiting, and
  every position that is assembled or waiting is in `P` (positions that were ever pushed);
* the index of the end is recorded exactly when an end was `seen`, and the output stream is
  closed exactly when then all of `S` is assembled.

`pushSubstring_holds` is the one step lemma: a push of a piece of `S` keeps the invariant,
`Q` growing by the positions the output stream has room for and `P` by all of them.
-/

namespace StreamReassembler

/-- The positions a substring occupies. -/
def Span (index : Nat) (data : List UInt8) (p : Nat) : Prop :=
  index ≤ p ∧ p < index + data.length

/-- The end of the room of the output stream: the first position it cannot take. -/
def limit (r : StreamReassembler) : Nat := r.output.bytesRead + r.output.capacity

/-- The part of the invariant that also holds between the iterations of
    `send_to_bytestream`. -/
structure Sound (S : List UInt8) (Q P : Nat → Prop) (taken : List UInt8)
    (r : StreamReassembler) : Prop where
  chained : Chained r.reassembleBuffer.entries
  bounded : ∀ e ∈ r.reassembleBuffer.entries, e.1 + e.2.length < 2 ^ 64
  expected_eq : r.expected = r.output.bytesWritten
  expected_le : r.expected ≤ S.length
  assembled : taken ++ r.output.bufferList = S.take r.expected
  stands : ∀ e ∈ r.reassembleBuffer.entries, StandsAt S e.1 e.2
  full : r.output.inputEnded = true → r.expected = S.length
  kept : ∀ p, Q p → p < r.expected ∨ Covers r.reassembleBuffer.entries p
  within : ∀ p, Q p → p < r.limit
  origin : ∀ p, p < r.expected ∨ Covers r.reassembleBuffer.entries p → P p

/-- The invariant between two calls. -/
structure Holds (S : List UInt8) (seen : Bool) (Q P : Nat → Prop) (taken : List UInt8)
    (r : StreamReassembler) : Prop extends Sound S Q P taken r where
  ahead : ∀ e ∈ r.reassembleBuffer.entries, r.expected < e.1
  eof_index : r.eofIndex = if seen then S.length else 2 ^ 64 - 1
  ended_iff : r.output.inputEnded = true ↔ seen = true ∧ r.expected = S.length

variable {S taken data : List UInt8} {seen eof : Bool} {Q P : Nat → Prop}
  {r : StreamReassembler} {index : Nat}

/-- A fresh reassembler holds nothing of any stream. -/
theorem new_holds (S : List UInt8) (capacity : Nat) :
    Holds S false (fun _ => False) (fun _ => False) [] (new capacity) where
  chained := List.Pairwise.nil
  bounded := by simp [new]
  expected_eq := rfl
  expected_le := Nat.zero_le _
  assembled := rfl
  stands := by simp [new]
  full := by simp [new, ByteStream.new]
  kept := by simp
  within := by simp
  origin := by simp [new]
  ahead := by simp [new]
  eof_index := rfl
  ended_iff := by simp [new, ByteStream.new]

/-! ### Writing one entry out -/

/-- What `assemble` writes: the part of the entry from `expected` on, as far as there is
    room. -/
def writable (r : StreamReassembler) (index : Nat) (data : List UInt8) : List UInt8 :=
  (data.drop (r.expected - index)).take r.output.remainingCapacity

/-- The cut on the left does nothing where it is not needed. -/
theorem cut_eq_drop (data : List UInt8) (index expected : Nat) :
    (if index < expected then data.drop (expected - index) else data)
      = data.drop (expected - index) := by
  by_cases h : index < expected
  · rw [if_pos h]
  · rw [if_neg h, show expected - index = 0 by omega, List.drop_zero]

/-- Nor does the clip on the right. -/
theorem clip_eq_take (data : List UInt8) (room : Nat) :
    (if data.length > room then data.take room else data) = data.take room := by
  by_cases h : data.length > room
  · rw [if_pos h]
  · rw [if_neg h, List.take_of_length_le (by omega)]

/-- The bytes from the first missing one on are written, as many as there is room for. -/
theorem assemble_eq (hend : r.expected < index + data.length)
    (hbound : index + data.length < 2 ^ 64) :
    r.assemble index data =
      { r with
        output := (r.output.write (r.writable index data)).2
        expected := r.expected + (r.writable index data).length
        unassembledBytes := subSize r.unassembledBytes (r.writable index data).length } := by
  unfold assemble
  rw [if_pos (by rw [addSize_eq hbound]; omega), cut_eq_drop]
  simp only [clip_eq_take]
  rfl

/-- Writing does not touch the map. -/
theorem assemble_reassembleBuffer (r : StreamReassembler) (index : Nat) (data : List UInt8) :
    (r.assemble index data).reassembleBuffer = r.reassembleBuffer := by
  unfold assemble
  split <;> rfl

/-- Writing the next bytes of `S` to an output stream that has room for them. -/
theorem Sound.write (h : Sound S Q P taken r) {d : List UInt8} {unassembled : Nat}
    (hd : StandsAt S r.expected d) (hopen : r.output.inputEnded = false)
    (hroom : d.length ≤ r.output.remainingCapacity) (hP : ∀ p, Span r.expected d p → P p) :
    Sound S Q P taken { r with
      output := (r.output.write d).2
      expected := r.expected + d.length
      unassembledBytes := unassembled } := by
  have hall : (r.output.write d).1 = d.length := r.output.write_fst_of_le _ hopen hroom
  constructor
  case chained => exact h.chained
  case bounded => exact h.bounded
  case expected_eq =>
    show r.expected + d.length = (r.output.write d).2.bytesWritten
    rw [ByteStream.write_bytesWritten, hall, h.expected_eq]
  case expected_le =>
    show r.expected + d.length ≤ S.length
    rcases Nat.eq_zero_or_pos d.length with hz | hpos
    · rw [hz]; exact h.expected_le
    · exact hd.le_length hpos
  case assembled =>
    show taken ++ (r.output.write d).2.bufferList = S.take (r.expected + d.length)
    rw [ByteStream.write_bufferList, hall, List.take_length, ← List.append_assoc, h.assembled,
      hd.take_append h.expected_le]
  case stands => exact h.stands
  case full =>
    intro hended
    rw [ByteStream.write_inputEnded, hopen] at hended
    exact absurd hended (by simp)
  case kept =>
    intro p hp
    show p < r.expected + d.length ∨ _
    rcases h.kept p hp with hlt | hcov
    · exact Or.inl (by omega)
    · exact Or.inr hcov
  case within =>
    intro p hp
    show p < (r.output.write d).2.bytesRead + (r.output.write d).2.capacity
    rw [ByteStream.write_bytesRead, ByteStream.write_capacity]
    exact h.within p hp
  case origin =>
    intro p hor
    change p < r.expected + d.length ∨ _ at hor
    by_cases hold : p < r.expected
    · exact h.origin p (Or.inl hold)
    · rcases hor with hlt | hcov
      · exact hP p ⟨by omega, hlt⟩
      · exact h.origin p (Or.inr hcov)

/-- Erasing the first entry, once those of its positions that must not be lost are
    assembled. -/
theorem Sound.eraseFront (h : Sound S Q P taken r) {e : Nat × List UInt8}
    {rest : List (Nat × List UInt8)} (hr : r.reassembleBuffer.entries = e :: rest)
    (hdone : ∀ p, Q p → p < e.1 + e.2.length → p < r.expected) :
    Sound S Q P taken { r with reassembleBuffer := r.reassembleBuffer.erase e.1 } := by
  have herase : (r.reassembleBuffer.erase e.1).entries = rest := OrdMap.entries_erase (a := []) hr
  have hchain := h.chained
  have hbound := h.bounded
  have hstands := h.stands
  have hkept := h.kept
  have horigin := h.origin
  rw [hr] at hchain hbound hstands
  simp only [hr, covers_cons] at hkept horigin
  constructor
  case chained => simp only [herase]; exact hchain.cons.2
  case bounded => simp only [herase]; exact fun x hx => hbound x (by simp [hx])
  case expected_eq => exact h.expected_eq
  case expected_le => exact h.expected_le
  case assembled => exact h.assembled
  case stands => simp only [herase]; exact fun x hx => hstands x (by simp [hx])
  case full => exact h.full
  case kept =>
    intro p hp
    simp only [herase]
    rcases hkept p hp with hlt | ⟨-, hlt⟩ | hcov
    · exact Or.inl hlt
    · exact Or.inl (hdone p hp hlt)
    · exact Or.inr hcov
  case within => exact h.within
  case origin =>
    intro p hp
    simp only [herase] at hp
    rcases hp with hlt | hcov
    · exact horigin p (Or.inl hlt)
    · exact horigin p (Or.inr (Or.inr hcov))

/-- **One iteration of `send_to_bytestream`** keeps the invariant: the first entry starts at
    or before `expected`, its new bytes go to the output stream, and it is erased. -/
theorem assemble_sound (h : Sound S Q P taken r) {e : Nat × List UInt8}
    {rest : List (Nat × List UInt8)} (hr : r.reassembleBuffer.entries = e :: rest)
    (hle : e.1 ≤ r.expected) :
    Sound S Q P taken { r.assemble e.1 e.2 with
      reassembleBuffer := (r.assemble e.1 e.2).reassembleBuffer.erase e.1 } := by
  have he : e ∈ r.reassembleBuffer.entries := by rw [hr]; simp
  have hebound := h.bounded e he
  rw [assemble_reassembleBuffer]
  by_cases hend : r.expected < e.1 + e.2.length
  · have hroom := r.output.bytesWritten_add_remainingCapacity
    have heq := h.expected_eq
    -- the bytes written stand in `S` where the assembled prefix ends
    have hcut : StandsAt S r.expected (e.2.drop (r.expected - e.1)) := by
      have hd := (h.stands e he).drop (r.expected - e.1)
      rwa [show e.1 + (r.expected - e.1) = r.expected by omega] at hd
    have hlen : (r.writable e.1 e.2).length
        = min r.output.remainingCapacity (e.1 + e.2.length - r.expected) := by
      simp only [writable, List.length_take, List.length_drop]
      omega
    -- a stream that has ended has all of `S`, and then the entry would bring nothing new
    have hopen : r.output.inputEnded = false := by
      by_contra hended
      have hfull := h.full (by simpa using hended)
      have hinside := hcut.le_length (by rw [List.length_drop]; omega)
      rw [List.length_drop] at hinside
      omega
    rw [assemble_eq hend hebound]
    have hpiece : StandsAt S r.expected (r.writable e.1 e.2) := hcut.take _
    refine Sound.eraseFront (h.write hpiece hopen (by omega) (fun p hp => ?_)) hr
      (fun p hp hlt => ?_)
    · obtain ⟨hlo, hhi⟩ := hp
      exact h.origin p (Or.inr ⟨e, he, by omega, by omega⟩)
    · -- a position of the entry that is not written lies past the room, hence outside `Q`
      have hlimit : p < r.output.bytesRead + r.output.capacity := h.within p hp
      show p < r.expected + (r.writable e.1 e.2).length
      omega
  · -- the entry is already assembled: it is only erased
    have hsame : r.assemble e.1 e.2 = r := by
      unfold assemble
      rw [if_neg (by rw [addSize_eq hebound]; omega)]
    rw [hsame]
    exact h.eraseFront hr (fun p _ hlt => by omega)

/-- **The loop of `send_to_bytestream`** keeps the invariant, and leaves only entries that
    start after what is assembled. -/
theorem sendLoop_sound : ∀ (es : List (Nat × List UInt8)) (r : StreamReassembler),
    r.reassembleBuffer.entries = es → Sound S Q P taken r →
      Sound S Q P taken (sendLoop es r) ∧
        ∀ e ∈ (sendLoop es r).reassembleBuffer.entries, (sendLoop es r).expected < e.1
  | [], r, hr, h => ⟨h, fun e he => by rw [sendLoop, hr] at he; exact absurd he (by simp)⟩
  | e :: rest, r, hr, h => by
    by_cases hle : e.1 ≤ r.expected
    · have hstep : sendLoop (e :: rest) r = sendLoop rest { r.assemble e.1 e.2 with
          reassembleBuffer := (r.assemble e.1 e.2).reassembleBuffer.erase e.1 } := by
        rw [sendLoop, if_pos hle]
      rw [hstep]
      refine sendLoop_sound rest _ ?_ (assemble_sound h hr hle)
      rw [assemble_reassembleBuffer]
      exact OrdMap.entries_erase (a := []) hr
    · -- the loop stops: the entries are in order, so all of them start after `expected`
      have hstep : sendLoop (e :: rest) r = r := by rw [sendLoop, if_neg hle]
      rw [hstep]
      refine ⟨h, fun x hx => ?_⟩
      have hchain := h.chained
      rw [hr] at hx hchain
      rcases List.mem_cons.mp hx with rfl | hx
      · omega
      · have hex := hchain.cons.1 x hx
        omega

/-- The loop leaves the reader's side and the end of the stream alone. -/
theorem sendLoop_frame (es : List (Nat × List UInt8)) (r : StreamReassembler) :
    (sendLoop es r).eofIndex = r.eofIndex ∧
      (sendLoop es r).output.inputEnded = r.output.inputEnded ∧
      (sendLoop es r).output.bytesRead = r.output.bytesRead ∧
      (sendLoop es r).output.capacity = r.output.capacity ∧
      (sendLoop es r).output.error = r.output.error ∧
      r.output.bytesWritten ≤ (sendLoop es r).output.bytesWritten := by
  induction es generalizing r with
  | nil => exact ⟨rfl, rfl, rfl, rfl, rfl, le_refl _⟩
  | cons e rest ih =>
    have hone : (r.assemble e.1 e.2).eofIndex = r.eofIndex ∧
        (r.assemble e.1 e.2).output.inputEnded = r.output.inputEnded ∧
        (r.assemble e.1 e.2).output.bytesRead = r.output.bytesRead ∧
        (r.assemble e.1 e.2).output.capacity = r.output.capacity ∧
        (r.assemble e.1 e.2).output.error = r.output.error ∧
        r.output.bytesWritten ≤ (r.assemble e.1 e.2).output.bytesWritten := by
      unfold assemble
      split <;> simp [ByteStream.write_bytesWritten]
    rw [sendLoop]
    split
    · obtain ⟨h1, h2, h3, h4, h5, h6⟩ := ih { r.assemble e.1 e.2 with
        reassembleBuffer := (r.assemble e.1 e.2).reassembleBuffer.erase e.1 }
      exact ⟨h1.trans hone.1, h2.trans hone.2.1, h3.trans hone.2.2.1, h4.trans hone.2.2.2.1,
        h5.trans hone.2.2.2.2.1, le_trans hone.2.2.2.2.2 h6⟩
    · exact ⟨rfl, rfl, rfl, rfl, rfl, le_refl _⟩

/-! ### A push -/

/-- Storing a piece of `S` keeps the invariant; all of its positions are held. -/
theorem insert_sound (h : Sound S Q P taken r) (hs : StandsAt S index data)
    (hbound : index + data.length < 2 ^ 64) :
    Sound S (fun p => Q p ∨ (Span index data p ∧ p < r.limit)) (fun p => P p ∨ Span index data p)
      taken (r.insert index data) := by
  have hp : Placed r.reassembleBuffer.entries (r.insert index data).reassembleBuffer.entries
      index data := insert_placed h.chained h.bounded hbound
  obtain ⟨hexp, hout, -⟩ := insert_frame r index data
  constructor
  case chained => exact hp.chained
  case bounded =>
    intro e he
    rcases hp.parts e he with hold | ⟨a, b, ha, rfl⟩
    · exact h.bounded e hold
    · -- a part of the new substring ends where that ends at the latest
      have hlen : ((data.drop a).take b).length ≤ data.length - a := by
        rw [List.length_take, List.length_drop]; omega
      show index + a + ((data.drop a).take b).length < 2 ^ 64
      omega
  case expected_eq => rw [hexp, hout]; exact h.expected_eq
  case expected_le => rw [hexp]; exact h.expected_le
  case assembled => rw [hexp, hout]; exact h.assembled
  case stands =>
    intro e he
    rcases hp.parts e he with hold | ⟨a, b, -, rfl⟩
    · exact h.stands e hold
    · exact (hs.drop a).take b
  case full => rw [hexp, hout]; exact h.full
  case kept =>
    intro p hq
    rw [hexp, hp.covers p]
    rcases hq with hq | ⟨hspan, -⟩
    · rcases h.kept p hq with hlt | hcov
      · exact Or.inl hlt
      · exact Or.inr (Or.inl hcov)
    · exact Or.inr (Or.inr hspan)
  case within =>
    intro p hq
    rw [limit, hout]
    rcases hq with hq | ⟨-, hlt⟩
    · exact h.within p hq
    · exact hlt
  case origin =>
    intro p hor
    rw [hexp, hp.covers p] at hor
    rcases hor with hlt | hcov | hspan
    · exact Or.inl (h.origin p (Or.inl hlt))
    · exact Or.inl (h.origin p (Or.inr hcov))
    · exact Or.inr hspan

/-- The bytes of a push, before the end of the stream is looked at. -/
def acceptBytes (r : StreamReassembler) (data : List UInt8) (index : Nat) : StreamReassembler :=
  if addSize index data.length > r.expected then (r.insert index data).sendToBytestream else r

/-- **A push** in three parts: the end is noted, the bytes are accepted, and the stream is ended
    where the end is reached. -/
theorem pushSubstring_eq : r.pushSubstring data index eof =
    let r' := acceptBytes (if eof then { r with eofIndex := addSize data.length index } else r)
      data index
    if r'.expected = r'.eofIndex then { r' with output := r'.output.endInput } else r' := rfl

/-- Accepting bytes touches neither the end of the stream nor its reader. -/
theorem acceptBytes_frame (r : StreamReassembler) (data : List UInt8) (index : Nat) :
    (r.acceptBytes data index).eofIndex = r.eofIndex ∧
    (r.acceptBytes data index).output.inputEnded = r.output.inputEnded ∧
    (r.acceptBytes data index).output.bytesRead = r.output.bytesRead ∧
    (r.acceptBytes data index).output.capacity = r.output.capacity ∧
    (r.acceptBytes data index).output.error = r.output.error ∧
    r.output.bytesWritten ≤ (r.acceptBytes data index).output.bytesWritten := by
  unfold acceptBytes
  split
  · obtain ⟨-, hout, heof⟩ := insert_frame r index data
    obtain ⟨h1, h2, h3, h4, h5, h6⟩ :=
      sendLoop_frame (r.insert index data).reassembleBuffer.entries (r.insert index data)
    rw [hout] at h2 h3 h4 h5 h6
    exact ⟨h1.trans heof, h2, h3, h4, h5, h6⟩
  · exact ⟨rfl, rfl, rfl, rfl, rfl, le_refl _⟩

/-- Accepting a piece of `S` keeps the invariant. -/
theorem acceptBytes_sound (h : Sound S Q P taken r)
    (hahead : ∀ e ∈ r.reassembleBuffer.entries, r.expected < e.1) (hs : StandsAt S index data)
    (hbound : index + data.length < 2 ^ 64) :
    Sound S (fun p => Q p ∨ (Span index data p ∧ p < r.limit)) (fun p => P p ∨ Span index data p)
        taken (r.acceptBytes data index) ∧
      ∀ e ∈ (r.acceptBytes data index).reassembleBuffer.entries,
        (r.acceptBytes data index).expected < e.1 := by
  unfold acceptBytes
  rw [addSize_eq hbound]
  by_cases hnew : index + data.length > r.expected
  · rw [if_pos hnew]
    exact sendLoop_sound _ _ rfl (insert_sound h hs hbound)
  · -- every byte of the substring is assembled already
    rw [if_neg hnew]
    refine ⟨{ h with
      kept := fun p hq => ?_
      within := fun p hq => ?_
      origin := fun p hor => Or.inl (h.origin p hor) }, hahead⟩
    · rcases hq with hq | ⟨⟨-, hlt⟩, -⟩
      · exact h.kept p hq
      · exact Or.inl (by omega)
    · rcases hq with hq | ⟨-, hlt⟩
      · exact h.within p hq
      · exact hlt

/-- Everything `Sound` says survives when only the end of the stream is recorded or the
    output stream is closed at the end of `S`. -/
theorem Sound.closeAt (h : Sound S Q P taken r) {eofIndex : Nat} :
    Sound S Q P taken { r with eofIndex := eofIndex } :=
  ⟨h.chained, h.bounded, h.expected_eq, h.expected_le, h.assembled, h.stands, h.full, h.kept,
    h.within, h.origin⟩

/-- The input is ended where the whole stream has been assembled. -/
theorem Sound.endInput (h : Sound S Q P taken r) (hfull : r.expected = S.length) :
    Sound S Q P taken { r with output := r.output.endInput } :=
  ⟨h.chained, h.bounded, h.expected_eq, h.expected_le, h.assembled, h.stands, fun _ => hfull,
    h.kept, h.within, h.origin⟩

/-- **Step lemma.**  A push of a piece of `S`, with `eof` set only where `S` ends, keeps the
    invariant.  Positions stay below `2^64 - 2`, so that no index of a byte is mistaken for
    the mark of an unknown end. -/
theorem pushSubstring_holds (h : Holds S seen Q P taken r) (hs : StandsAt S index data)
    (hbound : index + data.length < 2 ^ 64) (heof : eof = true → index + data.length = S.length)
    (hP : ∀ p, P p ∨ Span index data p → p < 2 ^ 64 - 2) :
    Holds S (seen || eof) (fun p => Q p ∨ (Span index data p ∧ p < r.limit))
      (fun p => P p ∨ Span index data p) taken (r.pushSubstring data index eof) := by
  rw [pushSubstring_eq]
  -- record the end
  have hmark : ∃ r0 : StreamReassembler,
      (if eof then { r with eofIndex := addSize data.length index } else r) = r0 ∧
        Sound S Q P taken r0 ∧ r0.limit = r.limit ∧ r0.expected = r.expected ∧
        r0.reassembleBuffer = r.reassembleBuffer ∧ r0.output = r.output ∧
        r0.eofIndex = if seen || eof then S.length else 2 ^ 64 - 1 := by
    cases eof with
    | false =>
      refine ⟨r, rfl, h.toSound, rfl, rfl, rfl, rfl, ?_⟩
      rw [h.eof_index, Bool.or_false]
    | true =>
      refine ⟨_, rfl, h.toSound.closeAt, rfl, rfl, rfl, rfl, ?_⟩
      have hlen := heof rfl
      simp only [if_true, Bool.or_true]
      rw [addSize_eq (by omega)]
      omega
  obtain ⟨r0, hr0, h0, hlim, hexp0, hmap0, hout0, heof0⟩ := hmark
  simp only [hr0]
  obtain ⟨hsound, hahead⟩ := acceptBytes_sound h0
    (by rw [hmap0, hexp0]; exact h.ahead) hs hbound
  rw [hlim] at hsound
  obtain ⟨hf1, hf2, -, -, -, hf6⟩ := acceptBytes_frame r0 data index
  generalize acceptBytes r0 data index = r1 at hsound hahead hf1 hf2 hf6
  rw [heof0] at hf1
  rw [hout0] at hf2
  rw [hout0, ← h.expected_eq, ← hsound.expected_eq] at hf6
  -- the last assembled byte was pushed, so `expected` stays off the mark of an unknown end
  have hbelow : r1.expected ≤ 2 ^ 64 - 2 := by
    rcases Nat.eq_zero_or_pos r1.expected with hz | hpos
    · omega
    · have hlast := hP _ (hsound.origin (r1.expected - 1) (Or.inl (by omega)))
      omega
  by_cases hat : r1.expected = r1.eofIndex
  · -- the recorded end is reached: the output stream is closed
    rw [if_pos hat]
    have hseen : (seen || eof) = true := by
      by_contra hns
      rw [hf1, if_neg hns] at hat
      omega
    rw [hf1, if_pos hseen] at hat
    exact { hsound.endInput hat with
      ahead := hahead
      eof_index := hf1
      ended_iff := by simp [hseen, hat, ByteStream.endInput] }
  · -- not reached: had the stream been closed before, it would still be at its end
    rw [if_neg hat]
    exact { hsound with
      ahead := hahead
      eof_index := hf1
      ended_iff := by
        constructor
        · intro hended
          rw [hf2, h.ended_iff] at hended
          have hle := hsound.expected_le
          exact absurd (show r1.expected = r1.eofIndex by
            rw [hf1, hended.1, Bool.true_or, if_pos rfl]; omega) hat
        · rintro ⟨hseen, hfull⟩
          exact absurd (show r1.expected = r1.eofIndex by rw [hf1, if_pos hseen, hfull]) hat }

/-- A push leaves the reader's side alone, and neither takes bytes back nor reopens the
    stream. -/
theorem pushSubstring_frame (r : StreamReassembler) (data : List UInt8) (index : Nat) (eof : Bool) :
    (r.pushSubstring data index eof).output.bytesRead = r.output.bytesRead ∧
    (r.pushSubstring data index eof).output.capacity = r.output.capacity ∧
    (r.pushSubstring data index eof).output.error = r.output.error ∧
    r.output.bytesWritten ≤ (r.pushSubstring data index eof).output.bytesWritten ∧
    (r.output.inputEnded = true → (r.pushSubstring data index eof).output.inputEnded = true) := by
  rw [pushSubstring_eq]
  obtain ⟨-, h2, h3, h4, h5, h6⟩ :=
    acceptBytes_frame (if eof then { r with eofIndex := addSize data.length index } else r) data
      index
  have hmark : (if eof then { r with eofIndex := addSize data.length index } else r).output
      = r.output := by
    split <;> rfl
  rw [hmark] at h2 h3 h4 h5 h6
  generalize acceptBytes _ data index = r1 at h2 h3 h4 h5 h6 ⊢
  dsimp only
  split
  · exact ⟨h3, h4, h5, h6, fun _ => rfl⟩
  · exact ⟨h3, h4, h5, h6, fun hended => by rw [h2, hended]⟩

/-! ### The reader's operations, and a stream that grows -/

/-- Popping bytes keeps the invariant, the bytes moving to those taken. -/
theorem popOutput_holds (h : Holds S seen Q P taken r) (len : Nat) :
    Holds S seen Q P (taken ++ r.output.peekOutput len) (r.popOutput len) :=
  { h with
    assembled := by
      show _ ++ (r.output.popOutput len).bufferList = _
      rw [List.append_assoc, ByteStream.peekOutput_append_popOutput]
      exact h.assembled
    within := fun p hq => by
      have hlt : p < r.output.bytesRead + r.output.capacity := h.within p hq
      show p < r.output.bytesRead + min len r.output.bufferList.length + r.output.capacity
      omega }

/-- What is read has been assembled, so it is a part of the stream. -/
theorem read_holds (h : Holds S seen Q P taken r) (len : Nat) :
    Holds S seen Q P (taken ++ (r.read len).1) (r.read len).2 := by
  unfold read ByteStream.read
  by_cases hend : r.output.endOutput = true
  · rw [if_pos hend, List.append_nil]
    exact h
  · rw [if_neg hend]
    exact popOutput_holds h len

/-- The assembled prefix reaches as far as every position had to be kept: the first position
    that is not assembled is in no waiting substring. -/
theorem Holds.le_expected (h : Holds S seen Q P taken r) {m : Nat} (hm : ∀ k, k < m → Q k) :
    m ≤ r.expected := by
  by_contra hlt
  -- `expected` itself would have to be held, and every waiting substring starts after it
  rcases h.kept r.expected (hm _ (by omega)) with hself | ⟨e, he, hle, -⟩
  · omega
  · have hahead := h.ahead e he
    omega

/-- While its end has not been seen, the stream may grow. -/
theorem Holds.grow (h : Holds S false Q P taken r) {S' : List UInt8} (hS : S <+: S') :
    Holds S' false Q P taken r := by
  have hopen : ¬ r.output.inputEnded = true := by simp [h.ended_iff]
  have hle := h.expected_le
  exact { h with
    expected_le := le_trans hle hS.length_le
    assembled := by
      obtain ⟨t, rfl⟩ := hS
      rw [h.assembled, List.take_append_of_le_length hle]
    stands := fun e he => (h.stands e he).mono hS
    full := fun hended => absurd hended hopen
    eof_index := h.eof_index
    ended_iff := by simp [hopen] }

/-- The invariant with fewer positions to keep and more positions allowed. -/
theorem Holds.weaken (h : Holds S seen Q P taken r) {Q' P' : Nat → Prop}
    (hQ : ∀ p, Q' p → Q p) (hP : ∀ p, P p → P' p) : Holds S seen Q' P' taken r :=
  { h with
    kept := fun p hq => h.kept p (hQ p hq)
    within := fun p hq => h.within p (hQ p hq)
    origin := fun p hor => hP p (h.origin p hor) }

end StreamReassembler

end Sponge
