import Sponge.ReassemblerInvariant
import Sponge.Lib.Run

namespace Sponge

open Pieces

/-!
# What a reassembler stores

Here the substrings that are pushed have nothing to do with one another: any bytes at any
index, with any mark of the end.  Two things are followed through every run of pushes and
reads.

* **Memory.**  The only comparison with the capacity is made when bytes are written to the
  output stream.  A substring that starts after the first unassembled byte is stored whole, also
  where it reaches past the `limit` of the output stream's room.
  `push_within_iff` says that these are the only pushes that put a byte past the limit, and
  `Within.held_add_bufferSize_le` that the storage stays within the capacity without them.

* **The byte count.**  `insert` keeps the count exact (`insert_balanced`).  The loop that writes
  bytes out takes off what it writes but erases whole entries: what an entry has before
  `expected`, and what the output stream has no room for, stays in the count for good
  (`sendLoop_balanced`, with `leak` for the amount).
-/

namespace StreamReassembler

/-- The total length of the substrings in the reassembly map. -/
def held (r : StreamReassembler) : Nat := total r.reassembleBuffer.entries

/-- The entries are apart and their ends are 64-bit numbers. -/
structure Tidy (r : StreamReassembler) : Prop where
  chained : Chained r.reassembleBuffer.entries
  bounded : ∀ e ∈ r.reassembleBuffer.entries, e.1 + e.2.length < 2 ^ 64

/-- What holds between two calls, whatever is pushed: the entries also start after the first
    unassembled byte.  The output stream may have taken less than `expected` bytes, since it
    takes none after its end. -/
structure Layout (r : StreamReassembler) : Prop extends Tidy r where
  ahead : ∀ e ∈ r.reassembleBuffer.entries, r.expected < e.1
  written_le : r.output.bytesWritten ≤ r.expected

variable {r : StreamReassembler} {index lost : Nat} {data : List UInt8} {eof : Bool}

/-- The map of a fresh reassembler is empty. -/
theorem new_layout (capacity : Nat) : Layout (new capacity) where
  chained := List.Pairwise.nil
  bounded := by simp [new]
  ahead := by simp [new]
  written_le := le_refl _

/-- Pieces that are apart and have 64-bit ends are fewer than `2^64` bytes together. -/
theorem Tidy.held_lt (h : Tidy r) : r.held < 2 ^ 64 := by
  have hle : r.held ≤ 2 ^ 64 - 1 - 0 := h.chained.total_le (fun p hp => by
    obtain ⟨e, he, -, hlt⟩ := hp
    have hend := h.bounded e he
    omega)
  omega

/-! ### The layout through a push -/

/-- **Merging keeps the entries apart.** -/
theorem insert_tidy (h : Tidy r) (hdata : index + data.length < 2 ^ 64) :
    Tidy (r.insert index data) := by
  have hp := insert_placed h.chained h.bounded hdata
  refine ⟨hp.chained, fun e he => ?_⟩
  rcases hp.parts e he with hold | ⟨a, b, ha, rfl⟩
  · exact h.bounded e hold
  · -- a part of the new substring ends where that ends at the latest
    have hlen : ((data.drop a).take b).length ≤ data.length - a := by
      rw [List.length_take, List.length_drop]; omega
    show index + a + ((data.drop a).take b).length < 2 ^ 64
    omega

/-- One iteration of the loop that writes bytes out: the entry at the front goes. -/
def sendFront (r : StreamReassembler) (e : Nat × List UInt8) : StreamReassembler :=
  { r.assemble e.1 e.2 with
    reassembleBuffer := (r.assemble e.1 e.2).reassembleBuffer.erase e.1 }

/-- The first entry has the next byte, or ends before it: it is taken out. -/
theorem sendLoop_cons_of_le {e : Nat × List UInt8} {rest : List (Nat × List UInt8)}
    (hle : e.1 ≤ r.expected) : sendLoop (e :: rest) r = sendLoop rest (r.sendFront e) := by
  rw [sendLoop, if_pos hle]
  rfl

/-- The first entry starts later: the loop stops. -/
theorem sendLoop_cons_of_lt {e : Nat × List UInt8} {rest : List (Nat × List UInt8)}
    (hlt : r.expected < e.1) : sendLoop (e :: rest) r = r := by
  rw [sendLoop, if_neg (by omega)]

/-- Taking out the first entry leaves the others. -/
theorem sendFront_entries {e : Nat × List UInt8} {rest : List (Nat × List UInt8)}
    (hr : r.reassembleBuffer.entries = e :: rest) :
    (r.sendFront e).reassembleBuffer.entries = rest := by
  show ((r.assemble e.1 e.2).reassembleBuffer.erase e.1).entries = rest
  rw [assemble_reassembleBuffer]
  exact OrdMap.entries_erase (a := []) hr

/-- The output stream never gets ahead of the assembled bytes. -/
theorem sendFront_written_le {e : Nat × List UInt8} (h : r.output.bytesWritten ≤ r.expected) :
    (r.sendFront e).output.bytesWritten ≤ (r.sendFront e).expected := by
  show (r.assemble e.1 e.2).output.bytesWritten ≤ (r.assemble e.1 e.2).expected
  unfold assemble
  split
  · simp only [ByteStream.write_bytesWritten]
    exact Nat.add_le_add h (ByteStream.write_fst_le _ _)
  · exact h

/-- The loop only takes entries from the front, and stops where they start after
    `expected`. -/
theorem sendLoop_layout : ∀ (es : List (Nat × List UInt8)) (r : StreamReassembler),
    r.reassembleBuffer.entries = es → Tidy r → r.output.bytesWritten ≤ r.expected →
      Layout (sendLoop es r) ∧ (sendLoop es r).reassembleBuffer.entries <:+ es
  | [], r, hr, h, hw => ⟨⟨h, by rw [sendLoop, hr]; simp, hw⟩, by rw [sendLoop, hr]⟩
  | e :: rest, r, hr, h, hw => by
    have hchain := h.chained
    rw [hr] at hchain
    -- the loop goes on exactly while the first key is not past the next byte
    by_cases hle : e.1 ≤ r.expected
    · rw [sendLoop_cons_of_le hle]
      have hrest := sendFront_entries hr
      obtain ⟨hlay, hsuf⟩ := sendLoop_layout rest (r.sendFront e) hrest
        ⟨by rw [hrest]; exact hchain.cons.2,
          fun x hx => h.bounded x (by rw [hr]; rw [hrest] at hx; simp [hx])⟩
        (sendFront_written_le hw)
      exact ⟨hlay, hsuf.trans (List.suffix_cons e rest)⟩
    · rw [sendLoop_cons_of_lt (by omega)]
      refine ⟨⟨h, fun x hx => ?_, hw⟩, by rw [hr]⟩
      -- the first entry starts later, and the others after it
      rw [hr] at hx
      rcases List.mem_cons.mp hx with rfl | hx
      · omega
      · have hex := hchain.cons.1 x hx
        omega

/-- **A push keeps the layout**: the loop runs until the first entry starts after the next byte. -/
theorem acceptBytes_layout (h : Layout r) (hdata : index + data.length < 2 ^ 64) :
    Layout (r.acceptBytes data index) := by
  unfold acceptBytes
  split
  · obtain ⟨hexp, hout, -⟩ := insert_frame r index data
    exact (sendLoop_layout _ _ rfl (insert_tidy h.toTidy hdata)
      (by rw [hexp, hout]; exact h.written_le)).1
  · exact h

/-- Where a substring starts after the first unassembled byte, nothing is written out. -/
theorem acceptBytes_of_ahead (h : Layout r) (hdata : index + data.length < 2 ^ 64)
    (hlt : r.expected < index) : r.acceptBytes data index = r.insert index data := by
  rw [acceptBytes, addSize_eq hdata, if_pos (by omega), sendToBytestream]
  have hp := insert_placed h.chained h.bounded hdata
  have hahead : ∀ e ∈ (r.insert index data).reassembleBuffer.entries,
      (r.insert index data).expected < e.1 := by
    intro e he
    rw [(insert_frame r index data).1]
    rcases hp.parts e he with hold | ⟨a, b, -, rfl⟩
    · exact h.ahead e hold
    · show r.expected < index + a
      omega
  cases hes : (r.insert index data).reassembleBuffer.entries with
  | nil => rfl
  | cons e rest => exact sendLoop_cons_of_lt (hahead e (by rw [hes]; simp))

/-- The map after a substring is stored that starts before all of the entries: those that end
    inside it are gone, and it is cut where the first of the others starts. -/
def inFront (r : StreamReassembler) (index : Nat) (data : List UInt8) :
    List (Nat × List UInt8) :=
  let rest := r.reassembleBuffer.entries.dropWhile
    (fun e => e.1 + e.2.length ≤ index + data.length)
  (index, cutAt index data rest) :: rest

/-- A substring that starts no later than the next byte comes to stand before all entries. -/
theorem insert_inFront (h : Layout r) (hdata : index + data.length < 2 ^ 64)
    (hle : index ≤ r.expected) :
    (r.insert index data).reassembleBuffer.entries = r.inFront index data := by
  obtain ⟨before, gone, rest, r', hs, hcase⟩ := insert_cases h.chained h.bounded hdata
  have hahead := h.ahead
  rw [hs.entries] at hahead
  -- no entry starts before the substring, nor where it does
  have hnil : before = [] := by
    rw [List.eq_nil_iff_forall_not_mem]
    intro e he
    have h1 := hahead e (by simp [he])
    have h2 := hs.before_lt e he
    omega
  subst hnil
  -- the entries that end inside of the substring are gone, and only these
  have hdrop : r.reassembleBuffer.entries.dropWhile
      (fun e => e.1 + e.2.length ≤ index + data.length) = rest := by
    rw [hs.entries, List.nil_append,
      List.dropWhile_append_of_pos (fun e he => by simpa using (hs.gone_inside e he).2)]
    cases rest with
    | nil => rfl
    | cons next tail =>
      have hbeyond := hs.rest_beyond next tail rfl
      rw [List.dropWhile_cons_of_neg (by simpa using hbeyond)]
  rw [inFront, hdrop]
  -- the substring would have to end inside of the next entry, which starts too late for that
  rcases hcase with ⟨next, tail, rfl, hnext, -⟩ | ⟨hrest, heq⟩
  · have hlt := hahead next (by simp)
    omega
  · rw [heq]
    exact store_entries hs.left _ (by simp) (fun y hy => (hrest y hy).1)

/-- Where a substring starts at or before the first unassembled byte, what is left in the map
    was there before. -/
theorem acceptBytes_suffix (h : Layout r) (hdata : index + data.length < 2 ^ 64)
    (hle : index ≤ r.expected) :
    (r.acceptBytes data index).reassembleBuffer.entries <:+ r.reassembleBuffer.entries := by
  unfold acceptBytes
  split
  · obtain ⟨hexp, hout, -⟩ := insert_frame r index data
    have hes := insert_inFront h hdata hle
    rw [sendToBytestream, hes]
    -- the substring itself is taken out first; what follows it was in the map before
    have hfirst : (index, cutAt index data (r.reassembleBuffer.entries.dropWhile
        (fun e => e.1 + e.2.length ≤ index + data.length))).1 ≤ (r.insert index data).expected := by
      rw [hexp]; exact hle
    have htidy := insert_tidy h.toTidy hdata
    have hchain := htidy.chained
    rw [hes] at hchain
    rw [inFront, sendLoop_cons_of_le hfirst]
    have hrest := sendFront_entries hes
    refine (sendLoop_layout _ _ hrest ⟨?_, ?_⟩ (sendFront_written_le ?_)).2.trans
      (List.dropWhile_suffix _)
    · rw [hrest]; exact hchain.cons.2
    · intro x hx
      rw [hrest] at hx
      exact htidy.bounded x (by rw [hes]; exact List.mem_cons_of_mem _ hx)
    · rw [hexp, hout]; exact h.written_le
  · exact List.suffix_refl _

/-! ### The end of the stream plays no part -/

/-- Record an index as the end of the stream. -/
def markEof (r : StreamReassembler) (i : Nat) : StreamReassembler := { r with eofIndex := i }

@[simp] theorem markEof_expected (r : StreamReassembler) (i : Nat) :
    (r.markEof i).expected = r.expected := rfl

@[simp] theorem markEof_reassembleBuffer (r : StreamReassembler) (i : Nat) :
    (r.markEof i).reassembleBuffer = r.reassembleBuffer := rfl

/-- The loop of `merge` does not look at the noted end. -/
theorem mergeForward_markEof (i index : Nat) (data : List UInt8)
    (above : List (Nat × List UInt8)) (r : StreamReassembler) :
    mergeForward index data above (r.markEof i)
      = ((mergeForward index data above r).1.markEof i, (mergeForward index data above r).2) := by
  induction above generalizing r with
  | nil => rfl
  | cons e above ih =>
    rw [mergeForward, mergeForward]
    split
    · exact ih
        { r with
          unassembledBytes := subSize r.unassembledBytes e.2.length
          reassembleBuffer := r.reassembleBuffer.erase e.1 }
    · rfl

/-- Nor does storing. -/
theorem insert_markEof (i : Nat) (r : StreamReassembler) (index : Nat) (data : List UInt8) :
    (r.markEof i).insert index data = (r.insert index data).markEof i := by
  have hstore : ∀ m r', storeMerged (m, r'.markEof i) = (storeMerged (m, r')).markEof i := by
    intro m r'
    unfold storeMerged
    split <;> rfl
  rw [insert_eq, insert_eq, merge, merge, markEof_reassembleBuffer, mergeForward_markEof]
  generalize mergeForward index data (r.reassembleBuffer.lowerBound index) r = fwd
  dsimp only
  split
  · exact hstore _ _
  · split
    · exact hstore _ _
    · split <;> exact hstore _ _

/-- Nor does the loop that writes bytes out. -/
theorem sendLoop_markEof (i : Nat) (es : List (Nat × List UInt8)) (r : StreamReassembler) :
    sendLoop es (r.markEof i) = (sendLoop es r).markEof i := by
  induction es generalizing r with
  | nil => rfl
  | cons e rest ih =>
    -- writing out looks at the next byte and the room only
    have hfront : (r.markEof i).sendFront e = (r.sendFront e).markEof i := by
      have hone : (r.markEof i).assemble e.1 e.2 = (r.assemble e.1 e.2).markEof i := by
        unfold assemble
        rw [markEof_expected]
        split <;> rfl
      rw [sendFront, hone]
      rfl
    by_cases hle : e.1 ≤ r.expected
    · rw [sendLoop_cons_of_le hle, sendLoop_cons_of_le (r := r.markEof i) (by simpa using hle),
        hfront, ih]
    · have hlt : r.expected < e.1 := by omega
      rw [sendLoop_cons_of_lt hlt, sendLoop_cons_of_lt (r := r.markEof i) (by simpa using hlt)]

/-- So the noted end makes no difference to what is accepted. -/
theorem acceptBytes_markEof (i : Nat) (r : StreamReassembler) (data : List UInt8) (index : Nat) :
    (r.markEof i).acceptBytes data index = (r.acceptBytes data index).markEof i := by
  unfold acceptBytes
  rw [insert_markEof, sendToBytestream, sendToBytestream, sendLoop_markEof, markEof_expected]
  split <;> rfl

/-- A push marks the end of the stream if it is told to, and looks whether it is met. -/
theorem pushSubstring_mark (r : StreamReassembler) (data : List UInt8) (index : Nat) (eof : Bool) :
    r.pushSubstring data index eof =
      let r' := (r.acceptBytes data index).markEof
        (if eof then addSize data.length index else r.eofIndex)
      if r'.expected = r'.eofIndex then { r' with output := r'.output.endInput } else r' := by
  have hmark : acceptBytes (if eof then { r with eofIndex := addSize data.length index } else r)
      data index = (r.acceptBytes data index).markEof
        (if eof then addSize data.length index else r.eofIndex) := by
    cases eof with
    | false =>
      rw [if_neg (by simp), if_neg (by simp), ← (acceptBytes_frame r data index).1]
      rfl
    | true => exact acceptBytes_markEof _ r data index
  rw [pushSubstring_eq, hmark]

/-- Around its bytes, a push looks at the end of the stream only: the map, the count and
    `expected` are those of `acceptBytes`, and so is what the output stream holds. -/
theorem pushSubstring_same (r : StreamReassembler) (data : List UInt8) (index : Nat) (eof : Bool) :
    (r.pushSubstring data index eof).reassembleBuffer
        = (r.acceptBytes data index).reassembleBuffer ∧
      (r.pushSubstring data index eof).expected = (r.acceptBytes data index).expected ∧
      (r.pushSubstring data index eof).unassembledBytes
        = (r.acceptBytes data index).unassembledBytes ∧
      (r.pushSubstring data index eof).output.bytesWritten
        = (r.acceptBytes data index).output.bytesWritten := by
  rw [pushSubstring_mark]
  generalize (if eof then addSize data.length index else r.eofIndex) = i
  dsimp only
  split <;> exact ⟨rfl, rfl, rfl, rfl⟩

/-! ### Runs of pushes and reads -/

/-- A call on a reassembler or on its output stream, the substrings being arbitrary. -/
inductive StorageOp where
  /-- `push_substring(data, index, eof)` -/
  | push (data : List UInt8) (index : Nat) (eof : Bool)
  /-- `stream_out().read(len)` -/
  | read (len : Nat)
  /-- `stream_out().pop_output(len)` -/
  | pop (len : Nat)
  deriving DecidableEq, Repr

/-- The end of the substring is a 64-bit number. -/
def StorageOp.Fits : StorageOp → Prop
  | .push data index _ => index + data.length < 2 ^ 64
  | .read _ => True
  | .pop _ => True

instance (op : StorageOp) : Decidable op.Fits := by
  cases op <;> unfold StorageOp.Fits <;> infer_instance

/-- Execute a call. -/
def apply (r : StreamReassembler) : StorageOp → StreamReassembler
  | .push data index eof => r.pushSubstring data index eof
  | .read len => (r.read len).2
  | .pop len => r.popOutput len

/-- **Step lemma** for the layout. -/
theorem apply_layout (h : Layout r) (op : StorageOp) (hfits : op.Fits) : Layout (r.apply op) := by
  cases op with
  | push data index eof =>
    obtain ⟨hmap, hexp, -, hwritten⟩ := pushSubstring_same r data index eof
    have hlay := acceptBytes_layout h hfits
    show Layout (r.pushSubstring data index eof)
    constructor
    -- the end of the stream is noted beside the map
    case toTidy => exact ⟨by rw [hmap]; exact hlay.chained, by rw [hmap]; exact hlay.bounded⟩
    case ahead => rw [hmap, hexp]; exact hlay.ahead
    case written_le => rw [hwritten, hexp]; exact hlay.written_le
  | read len =>
    exact ⟨⟨h.chained, h.bounded⟩, h.ahead, by
      show (r.output.read len).2.bytesWritten ≤ r.expected
      rw [ByteStream.read_bytesWritten]
      exact h.written_le⟩
  | pop len => exact ⟨⟨h.chained, h.bounded⟩, h.ahead, h.written_le⟩

theorem apply_capacity (r : StreamReassembler) (op : StorageOp) :
    (r.apply op).output.capacity = r.output.capacity := by
  cases op with
  | push data index eof => exact (pushSubstring_frame r data index eof).2.1
  | read len => exact ByteStream.read_capacity _ _
  | pop len => rfl

/-! ### Memory -/

/-- No byte is held that lies past the room of the output stream. -/
def Within (r : StreamReassembler) : Prop := ∀ p, Covers r.reassembleBuffer.entries p → p < r.limit

/-- The bytes held lie between `expected` and the limit, the bytes buffered between the bytes
    read and `expected`: together they are no more than the capacity. -/
theorem Within.held_add_bufferSize_le (hw : Within r) (h : Layout r) :
    r.held + r.output.bufferSize ≤ r.output.capacity := by
  have hfits := r.output.fits
  have hacc := r.output.accounted
  have hwritten := h.written_le
  have hheld : r.held ≤ r.limit - (r.expected + 1) := by
    refine h.chained.total_le (fun p hp => ⟨?_, hw p hp⟩)
    obtain ⟨e, he, hlo, -⟩ := hp
    have hahead := h.ahead e he
    omega
  rw [limit] at hheld
  rw [ByteStream.bufferSize]
  omega

/-- A push of bytes that start after the first unassembled byte ends within the room of the
    output stream. -/
def InRoom (r : StreamReassembler) : StorageOp → Prop
  | .push data index _ => data = [] ∨ index ≤ r.expected ∨ index + data.length ≤ r.limit
  | .read _ => True
  | .pop _ => True

instance (r : StreamReassembler) (op : StorageOp) : Decidable (r.InRoom op) := by
  cases op <;> unfold InRoom <;> infer_instance

/-- A push past the limit, and no other, stores a byte past the limit. -/
theorem push_within_iff (h : Layout r) (hw : Within r) (hdata : index + data.length < 2 ^ 64) :
    Within (r.pushSubstring data index eof) ↔ r.InRoom (.push data index eof) := by
  obtain ⟨hmap, -, -, -⟩ := pushSubstring_same r data index eof
  obtain ⟨hread, hcap, -⟩ := pushSubstring_frame r data index eof
  have hlimit : (r.pushSubstring data index eof).limit = r.limit := by
    rw [limit, limit, hread, hcap]
  unfold Within InRoom
  rw [hmap, hlimit]
  by_cases hle : index ≤ r.expected
  · -- what is left in the map was there before
    refine ⟨fun _ => Or.inr (Or.inl hle), fun _ p hp => hw p ?_⟩
    obtain ⟨e, he, hin⟩ := hp
    exact ⟨e, (acceptBytes_suffix h hdata hle).subset he, hin⟩
  · rw [acceptBytes_of_ahead h hdata (by omega)]
    have hp := insert_placed h.chained h.bounded hdata
    constructor
    · -- the last byte of the substring is held now
      intro hall
      by_cases hnil : data = []
      · exact Or.inl hnil
      · have hpos := List.length_pos_iff.mpr hnil
        have hlast := hall (index + data.length - 1) ((hp.covers _).mpr (Or.inr (by omega)))
        exact Or.inr (Or.inr (by omega))
    · intro hroom p hcov
      rcases (hp.covers p).mp hcov with hold | hnew
      · exact hw p hold
      · rcases hroom with rfl | hbad | hin
        · simp only [List.length_nil] at hnew
          omega
        · exact absurd hbad hle
        · omega

/-- **One call** leaves room for all that is held exactly if it brings no byte that does not fit. -/
theorem apply_within_iff (h : Layout r) (hw : Within r) (op : StorageOp) (hfits : op.Fits) :
    Within (r.apply op) ↔ r.InRoom op := by
  cases op with
  | push data index eof => exact push_within_iff h hw hfits
  | read len =>
    refine ⟨fun _ => trivial, fun _ p hp => ?_⟩
    -- reading only raises the limit
    have hlt := hw p hp
    show p < (r.output.read len).2.bytesRead + (r.output.read len).2.capacity
    rw [ByteStream.read_bytesRead, ByteStream.read_capacity]
    rw [limit] at hlt
    omega
  | pop len =>
    refine ⟨fun _ => trivial, fun _ p hp => ?_⟩
    have hlt := hw p hp
    show p < (r.output.popOutput len).bytesRead + r.output.capacity
    rw [ByteStream.popOutput_bytesRead]
    rw [limit] at hlt
    omega

/-- **The pushes that break the memory bound.**  In a run of arbitrary pushes and reads no byte
    is ever held past the room of the output stream if and only if no push that starts after the
    first unassembled byte ends past it. -/
theorem run_within_iff (capacity : Nat) (ops : List StorageOp) (hfits : ∀ op ∈ ops, op.Fits) :
    Run.Always apply Within (new capacity) ops ↔ Run.Steps apply InRoom (new capacity) ops :=
  Run.always_iff_steps (I := Layout) (fun _ op hop h => apply_layout h op hop)
    (fun _ op hop h hw => apply_within_iff h hw op hop) hfits (new_layout capacity)
    (by simp [Within, new])

/-- **Memory bound.**  As long as no push that starts after the first unassembled byte ends past
    the room of the output stream, the substrings held and the bytes buffered are together never
    more than the capacity. -/
theorem held_add_bufferSize_le_capacity (capacity : Nat) (ops : List StorageOp)
    (hfits : ∀ op ∈ ops, op.Fits) (hroom : Run.Steps apply InRoom (new capacity) ops) :
    Run.Always apply (fun r => r.held + r.streamOut.bufferSize ≤ capacity) (new capacity) ops := by
  have hwithin := (run_within_iff capacity ops hfits).mpr hroom
  intro pre hpre
  have hlay : Layout (pre.foldl apply (new capacity)) ∧
      (pre.foldl apply (new capacity)).output.capacity = capacity := by
    refine List.foldlRecOn pre apply (motive := fun r => Layout r ∧ r.output.capacity = capacity)
      ⟨new_layout capacity, rfl⟩ (fun r hr op hop => ?_)
    exact ⟨apply_layout hr.1 op (hfits op (hpre.subset hop)), by rw [apply_capacity, hr.2]⟩
  have hle := (hwithin pre hpre).held_add_bufferSize_le hlay.1
  rwa [hlay.2] at hle

/-- Out of order and up to the last byte there is room for, before and after a read. -/
theorem held_add_bufferSize_le_capacity_four :
    Run.Always apply (fun r => r.held + r.streamOut.bufferSize ≤ 4) (new 4)
      [.push [3, 4] 2 false, .push [1, 2] 0 false, .read 2, .push [6] 5 true] :=
  held_add_bufferSize_le_capacity 4 _ (by decide) (by decide)

/-- Four bytes at index 5 are held by a reassembler with room for two. -/
theorem held_exceeds_capacity :
    (∀ op ∈ [StorageOp.push [1, 2, 3, 4] 5 false], op.Fits) ∧
      ¬ Run.Always apply (fun r => r.held + r.streamOut.bufferSize ≤ 2) (new 2)
        [.push [1, 2, 3, 4] 5 false] :=
  ⟨by decide, fun h => absurd (h _ (List.prefix_refl _)) (by decide)⟩

/-! ### The byte count -/

/-- The count is the total length held and `lost` bytes more, in 64 bits. -/
def Balanced (lost : Nat) (r : StreamReassembler) : Prop :=
  r.unassembledBytes = (r.held + lost) % 2 ^ 64

/-- A difference in 64 bits, from a true sum. -/
theorem subSize_mod {a b c : Nat} (h : c = a + b) : subSize (c % 2 ^ 64) b = a % 2 ^ 64 := by
  unfold subSize
  omega

/-- A sum in 64 bits may be reduced before or after. -/
theorem addSize_mod (a b : Nat) : addSize (a % 2 ^ 64) b = (a + b) % 2 ^ 64 := by
  unfold addSize
  omega

/-- The erasing loop takes the length of every entry it erases off the count. -/
theorem mergeForward_balanced {before : List (Nat × List UInt8)} :
    ∀ (above : List (Nat × List UInt8)) (r : StreamReassembler),
      r.reassembleBuffer.entries = before ++ above → Balanced lost r →
        Balanced lost (mergeForward index data above r).1
  | [], _, _, hb => hb
  | e :: above, r, hr, hb => by
    rw [mergeForward]
    split
    · have herase : (r.reassembleBuffer.erase e.1).entries = before ++ above :=
        OrdMap.entries_erase hr
      refine mergeForward_balanced above _ herase ?_
      unfold Balanced held at hb ⊢
      rw [hr, total_append, total_cons] at hb
      simp only [herase, total_append, hb]
      exact subSize_mod (by omega)
    · exact hb

/-- Storing at a free key, or storing nothing, adds the length of what is stored. -/
theorem store_balanced (hb : Balanced lost r) {k : Nat} {d : List UInt8}
    (hfree : d = [] ∨ ∀ e ∈ r.reassembleBuffer.entries, e.1 ≠ k) :
    Balanced lost (r.store k d) := by
  have htotal : total (r.reassembleBuffer.emplace k d).entries
      = total r.reassembleBuffer.entries + d.length := by
    by_cases habsent : ∀ e ∈ r.reassembleBuffer.entries, e.1 ≠ k
    · exact total_emplace_of_absent d habsent
    · -- the key is taken, and `emplace` keeps the map
      obtain ⟨e, he, hk⟩ : ∃ e ∈ r.reassembleBuffer.entries, e.1 = k := by simpa using habsent
      rcases hfree with rfl | hfree
      · rw [OrdMap.emplace_of_present _ he hk, List.length_nil, Nat.add_zero]
      · exact absurd hk (hfree e he)
  unfold Balanced held at hb ⊢
  show addSize r.unassembledBytes d.length
    = (total (r.reassembleBuffer.emplace k d).entries + lost) % 2 ^ 64
  rw [htotal, hb, addSize_mod]
  congr 1
  omega

/-- After the comparison with the entry before, a key that is taken is met only when nothing is left
    to store. -/
theorem mergeBackward_free {before rest : List (Nat × List UInt8)} {d : List UInt8}
    (hbound : ∀ e ∈ before, e.1 + e.2.length < 2 ^ 64) (hdata : index + d.length < 2 ^ 64)
    (hbefore : ∀ e ∈ before, e.1 < index)
    (hrest : ∀ y ∈ rest, index < y.1 ∧ index + d.length ≤ y.1) :
    (mergeBackward before index d).2.2 = [] ∨
      ∀ e ∈ before ++ rest, e.1 ≠ (mergeBackward before index d).2.1 := by
  -- the key of the uncut substring is free
  have hwhole : ∀ e ∈ before ++ rest, e.1 ≠ index := by
    intro e he
    rcases List.mem_append.mp he with he | he
    · exact ne_of_lt (hbefore e he)
    · exact (ne_of_lt (hrest e he).1).symm
  unfold mergeBackward
  cases hlast : before.getLast? with
  | none => exact Or.inr hwhole
  | some prev =>
    have hprev : prev ∈ before := List.mem_of_getLast? hlast
    simp only [addSize_eq (hbound prev hprev), addSize_eq hdata]
    split
    · split
      · exact Or.inr hwhole
      · -- what is left starts where `prev` ends
        rename_i hover hin
        by_cases hend : prev.1 + prev.2.length = index + d.length
        · exact Or.inl (List.drop_eq_nil_of_le (by omega))
        · refine Or.inr (fun e he => ?_)
          rcases List.mem_append.mp he with he | he
          · have hlt := hbefore e he
            simp only
            omega
          · have hlt := hrest e he
            simp only
            omega
    · exact Or.inr hwhole

/-- The comparison with the entry before, and the store after it, keep the count exact. -/
theorem storeMerged_backward_balanced (hb : Balanced lost r)
    {before rest : List (Nat × List UInt8)} {d : List UInt8}
    (hr : r.reassembleBuffer.entries = before ++ rest)
    (hbound : ∀ e ∈ before, e.1 + e.2.length < 2 ^ 64) (hdata : index + d.length < 2 ^ 64)
    (hbefore : ∀ e ∈ before, e.1 < index)
    (hrest : ∀ y ∈ rest, index < y.1 ∧ index + d.length ≤ y.1) :
    Balanced lost (storeMerged (mergeBackward before index d, r)) := by
  have hfree := mergeBackward_free hbound hdata hbefore hrest
  rw [← hr] at hfree
  unfold storeMerged
  split
  · exact store_balanced hb hfree
  · exact hb

/-- **`insert` keeps the count exact.** -/
theorem insert_balanced (h : Tidy r) (hb : Balanced lost r) (hdata : index + data.length < 2 ^ 64) :
    Balanced lost (r.insert index data) := by
  obtain ⟨before, gone, rest, r', hs, hcase⟩ := insert_cases h.chained h.bounded hdata
  have hb' : Balanced lost r' := by
    rw [hs.loop]
    exact mergeForward_balanced (gone ++ rest) r (by rw [hs.entries, List.append_assoc]) hb
  rcases hcase with ⟨-, -, -, -, heq⟩ | ⟨hrest, heq⟩
  · rw [heq]
    exact hb'
  · rw [heq]
    have hcut := length_cutAt_le index data rest
    exact storeMerged_backward_balanced hb' hs.left
      (fun e he => h.bounded e (by rw [hs.entries]; simp [he])) (by omega) hs.before_lt hrest

/-! ### What the writing loop leaves in the count -/

/-- The bytes of an entry that are erased with it without being written. -/
def spilled (r : StreamReassembler) (e : Nat × List UInt8) : Nat :=
  e.2.length - (r.writable e.1 e.2).length

/-- The bytes the loop erases without writing them. -/
def leak : List (Nat × List UInt8) → StreamReassembler → Nat
  | [], _ => 0
  | e :: rest, r => if e.1 ≤ r.expected then r.spilled e + leak rest (r.sendFront e) else 0

/-- No more of an entry is written than it has. -/
theorem writable_length_le (e : Nat × List UInt8) : (r.writable e.1 e.2).length ≤ e.2.length := by
  rw [writable, List.length_take, List.length_drop]
  omega

/-- No more is lost than there was. -/
theorem leak_le_total (es : List (Nat × List UInt8)) (r : StreamReassembler) :
    leak es r ≤ total es := by
  induction es generalizing r with
  | nil => exact le_refl _
  | cons e rest ih =>
    rw [leak, total_cons]
    split
    · have hone : r.spilled e ≤ e.2.length := Nat.sub_le _ _
      exact Nat.add_le_add hone (ih _)
    · exact Nat.zero_le _

/-- What one iteration writes is taken off the count. -/
theorem sendFront_count {e : Nat × List UInt8} (hcount : r.unassembledBytes < 2 ^ 64)
    (hbound : e.1 + e.2.length < 2 ^ 64) :
    (r.sendFront e).unassembledBytes
      = subSize r.unassembledBytes (r.writable e.1 e.2).length := by
  show (r.assemble e.1 e.2).unassembledBytes = _
  by_cases hend : r.expected < e.1 + e.2.length
  · rw [assemble_eq hend hbound]
  · -- an entry that is already assembled is erased as it is
    have hzero : (r.writable e.1 e.2).length = 0 := by
      rw [writable, List.length_take, List.length_drop]
      omega
    rw [assemble, if_neg (by rw [addSize_eq hbound]; omega), hzero, subSize]
    omega

/-- What one iteration spills stays in the count. -/
theorem sendFront_balanced (hb : Balanced lost r) {e : Nat × List UInt8}
    {rest : List (Nat × List UInt8)} (hr : r.reassembleBuffer.entries = e :: rest)
    (hbound : e.1 + e.2.length < 2 ^ 64) : Balanced (lost + r.spilled e) (r.sendFront e) := by
  have hwle := r.writable_length_le e
  have hrest := sendFront_entries hr
  have hcount := sendFront_count (by rw [hb]; exact Nat.mod_lt _ (by decide)) hbound
  unfold Balanced held at hb ⊢
  rw [hr, total_cons] at hb
  rw [hrest, hcount, hb, spilled]
  exact subSize_mod (by omega)

/-- **The writing loop** leaves in the count what it erases without writing. -/
theorem sendLoop_balanced : ∀ (es : List (Nat × List UInt8)) (r : StreamReassembler) (lost : Nat),
    r.reassembleBuffer.entries = es → (∀ e ∈ es, e.1 + e.2.length < 2 ^ 64) → Balanced lost r →
      Balanced (lost + leak es r) (sendLoop es r)
  | [], _, _, _, _, hb => hb
  | e :: rest, r, lost, hr, hbound, hb => by
    by_cases hle : e.1 ≤ r.expected
    · rw [sendLoop_cons_of_le hle, leak, if_pos hle, ← Nat.add_assoc]
      exact sendLoop_balanced rest _ _ (sendFront_entries hr)
        (fun x hx => hbound x (List.mem_cons_of_mem _ hx))
        (sendFront_balanced hb hr (hbound e (by simp)))
    · rw [sendLoop_cons_of_lt (by omega), leak, if_neg hle]
      exact hb

/-- The substrings that follow one another from `pos` on each fit into the room that is left when
    their turn comes.  An output stream that has ended takes nothing, so its room stays. -/
def fitsOut (ended : Bool) : Nat → Nat → List (Nat × List UInt8) → Bool
  | _, _, [] => true
  | room, pos, e :: rest =>
    if pos < e.1 then true
    else
      decide (e.2.length ≤ room) &&
        fitsOut ended (if ended then room else room - e.2.length) (pos + e.2.length) rest

/-- The next byte moves on by what is written. -/
theorem sendFront_expected {e : Nat × List UInt8} (hbound : e.1 + e.2.length < 2 ^ 64) :
    (r.sendFront e).expected = r.expected + (r.writable e.1 e.2).length := by
  show (r.assemble e.1 e.2).expected = _
  by_cases hend : r.expected < e.1 + e.2.length
  · rw [assemble_eq hend hbound]
  · rw [assemble, if_neg (by rw [addSize_eq hbound]; omega), writable, List.length_take,
      List.length_drop]
    omega

/-- An entry that fits uses up as much of the room as it is long, if the output stream takes
    bytes at all. -/
theorem sendFront_room {e : Nat × List UInt8} (hbound : e.1 + e.2.length < 2 ^ 64)
    (heq : e.1 = r.expected) (hfit : e.2.length ≤ r.output.remainingCapacity) :
    (r.sendFront e).output.inputEnded = r.output.inputEnded ∧
      (r.sendFront e).output.remainingCapacity
        = if r.output.inputEnded then r.output.remainingCapacity
          else r.output.remainingCapacity - e.2.length := by
  -- all of the entry fits, so nothing is spilled
  have hw : r.writable e.1 e.2 = e.2 := by
    rw [writable, heq, Nat.sub_self, List.drop_zero, List.take_of_length_le hfit]
  show (r.assemble e.1 e.2).output.inputEnded = _ ∧
    (r.assemble e.1 e.2).output.remainingCapacity = _
  by_cases hend : r.expected < e.1 + e.2.length
  · rw [assemble_eq hend hbound, hw]
    refine ⟨ByteStream.write_inputEnded _ _, ?_⟩
    rw [ByteStream.write_remainingCapacity]
    by_cases hended : r.output.inputEnded = true
    · rw [if_pos hended, ByteStream.write_of_ended _ _ hended, Nat.sub_zero]
    · rw [if_neg hended, ByteStream.write_fst_of_le _ _ (by simpa using hended) hfit]
  · -- an empty entry changes nothing
    rw [assemble, if_neg (by rw [addSize_eq hbound]; omega), show e.2.length = 0 by omega,
      Nat.sub_zero, ite_self]
    exact ⟨rfl, rfl⟩

/-- Entries that stand one behind the other from `expected` on are written without loss exactly
    when each of them fits. -/
theorem leak_eq_zero_iff : ∀ (es : List (Nat × List UInt8)) (r : StreamReassembler),
    Chained es → (∀ e ∈ es, r.expected ≤ e.1) → (∀ e ∈ es, e.1 + e.2.length < 2 ^ 64) →
      (leak es r = 0 ↔
        fitsOut r.output.inputEnded r.output.remainingCapacity r.expected es = true)
  | [], _, _, _, _ => by simp [leak, fitsOut]
  | e :: rest, r, hchain, hge, hbound => by
    have hbe := hbound e (by simp)
    have hfirst := hge e (by simp)
    rw [leak, fitsOut]
    by_cases hlt : r.expected < e.1
    · rw [if_neg (by omega), if_pos hlt]
      simp
    · have heq : e.1 = r.expected := by omega
      have hlen : (r.writable e.1 e.2).length = min r.output.remainingCapacity e.2.length := by
        rw [writable, List.length_take, List.length_drop]
        omega
      have hone : r.spilled e = 0 ↔ e.2.length ≤ r.output.remainingCapacity := by
        rw [spilled, hlen]
        omega
      rw [if_pos (by omega), if_neg hlt, Bool.and_eq_true, decide_eq_true_iff, Nat.add_eq_zero_iff,
        hone]
      refine and_congr_right (fun hfit => ?_)
      -- the entry is written whole, and the next one is at or after its end
      have hexp := sendFront_expected (r := r) hbe
      rw [hlen, Nat.min_eq_right hfit] at hexp
      obtain ⟨hended, hroom⟩ := sendFront_room hbe heq hfit
      have hrec := leak_eq_zero_iff rest (r.sendFront e) hchain.cons.2
        (fun x hx => by have hx' := hchain.cons.1 x hx; omega)
        (fun x hx => hbound x (List.mem_cons_of_mem _ hx))
      rwa [hended, hroom, hexp] at hrec

/-- The push leaves the count exact: it brings nothing new; or it starts after the first
    unassembled byte; or it starts at that byte, and it and the substrings that become contiguous
    with it fit into the output stream. -/
def Accounts (r : StreamReassembler) : StorageOp → Prop
  | .push data index _ =>
    index + data.length ≤ r.expected ∨ r.expected < index ∨
      (index = r.expected ∧
        fitsOut r.output.inputEnded r.output.remainingCapacity r.expected
          (r.inFront index data) = true)
  | .read _ => True
  | .pop _ => True

instance (r : StreamReassembler) (op : StorageOp) : Decidable (r.Accounts op) := by
  cases op <;> unfold Accounts <;> infer_instance

/-- A part of the substring is before the first unassembled byte, and is erased unwritten. -/
theorem leak_inFront_pos (h : Layout r) (hlt : index < r.expected)
    (hend : r.expected < index + data.length) :
    0 < leak (r.inFront index data) (r.insert index data) := by
  -- the bytes of the new substring before `expected` are erased without being written
  rw [inFront, leak, if_pos (by rw [(insert_frame r index data).1]; omega)]
  generalize hrest : r.reassembleBuffer.entries.dropWhile
    (fun e => e.1 + e.2.length ≤ index + data.length) = rest
  have hpos : 0 < (cutAt index data rest).length := by
    cases rest with
    | nil =>
      rw [cutAt]
      omega
    | cons next tail =>
      have hmem : next ∈ r.reassembleBuffer.entries :=
        (List.dropWhile_sublist _).subset (by rw [hrest]; simp)
      have hahead := h.ahead next hmem
      rw [cutAt, List.length_take]
      omega
  have hspill : 0 < (r.insert index data).spilled (index, cutAt index data rest) := by
    rw [spilled, writable, (insert_frame r index data).1, List.length_take, List.length_drop]
    simp only
    omega
  omega

/-- **One push.** -/
theorem acceptBytes_balanced_iff (h : Layout r) (hb : Balanced 0 r)
    (hdata : index + data.length < 2 ^ 64) :
    Balanced 0 (r.acceptBytes data index) ↔ r.Accounts (.push data index eof) := by
  unfold Accounts
  -- by where the substring starts: all of it is known, or it starts later, or it has the next byte
  by_cases hold : index + data.length ≤ r.expected
  · rw [acceptBytes, addSize_eq hdata, if_neg (by omega)]
    exact ⟨fun _ => Or.inl hold, fun _ => hb⟩
  by_cases hlt : r.expected < index
  · rw [acceptBytes_of_ahead h hdata hlt]
    exact ⟨fun _ => Or.inr (Or.inl hlt), fun _ => insert_balanced h.toTidy hb hdata⟩
  obtain ⟨hexp, hout, -⟩ := insert_frame r index data
  have htidy := insert_tidy h.toTidy hdata
  have hes := insert_inFront h hdata (show index ≤ r.expected by omega)
  have hheld := htidy.held_lt
  have hbound := htidy.bounded
  have hchain := htidy.chained
  rw [held, hes] at hheld
  rw [hes] at hbound hchain
  have hloop := sendLoop_balanced _ _ _ hes hbound (insert_balanced h.toTidy hb hdata)
  have hleak := leak_le_total (r.inFront index data) (r.insert index data)
  -- the loop loses what `leak` says, and the count is right exactly if that is nothing
  have hzero : Balanced 0 (r.acceptBytes data index) ↔
      leak (r.inFront index data) (r.insert index data) = 0 := by
    rw [acceptBytes, addSize_eq hdata, if_pos (by omega), sendToBytestream, hes]
    unfold Balanced at hloop ⊢
    rw [hloop]
    omega
  rw [hzero]
  by_cases heq : index = r.expected
  · have hiff := leak_eq_zero_iff (r.inFront index data) (r.insert index data) hchain
      (fun e he => by
        rw [hexp, ← heq]
        rcases List.mem_cons.mp he with rfl | he
        · exact le_refl _
        · exact le_of_lt (hchain.cons.1 e he).1) hbound
    rw [hexp, hout] at hiff
    rw [hiff]
    exact ⟨fun hfit => Or.inr (Or.inr ⟨heq, hfit⟩), fun hacc => by
      rcases hacc with hbad | hbad | ⟨-, hfit⟩
      · exact absurd hbad hold
      · exact absurd hbad hlt
      · exact hfit⟩
  · -- a substring that starts before the next byte loses its first bytes
    have hpos : 0 < leak (r.inFront index data) (r.insert index data) :=
      leak_inFront_pos h (by omega) (by omega)
    constructor
    · intro hbad
      omega
    · rintro (hbad | hbad | ⟨hbad, -⟩)
      · exact absurd hbad hold
      · exact absurd hbad hlt
      · exact absurd hbad heq

/-- The count is the total length of the substrings held, which is the number of positions they
    have, and `empty` says whether there is any. -/
structure Accounted (r : StreamReassembler) : Prop where
  count : r.unassembledBytes = r.held
  distinct : r.unassembledBytes = {p | Covers r.reassembleBuffer.entries p}.ncard
  empty_iff : r.empty = true ↔ ∀ p, ¬ Covers r.reassembleBuffer.entries p

/-- The three ways to say that the count is right come to one: nothing has been lost. -/
theorem accounted_iff (h : Layout r) : Accounted r ↔ Balanced 0 r := by
  have hlt := h.toTidy.held_lt
  have hbal : Balanced 0 r ↔ r.unassembledBytes = r.held := by
    unfold Balanced
    rw [Nat.add_zero, Nat.mod_eq_of_lt hlt]
  rw [hbal]
  constructor
  · exact Accounted.count
  · intro hcount
    refine ⟨hcount, hcount.trans h.chained.total_eq_ncard, ?_⟩
    rw [empty, beq_iff_eq, hcount]
    exact total_eq_zero_iff

/-- **One call** keeps the count right exactly if it makes no entry spill bytes. -/
theorem apply_accounted_iff (h : Layout r) (ha : Accounted r) (op : StorageOp) (hfits : op.Fits) :
    Accounted (r.apply op) ↔ r.Accounts op := by
  have hb := (accounted_iff h).mp ha
  rw [accounted_iff (apply_layout h op hfits)]
  cases op with
  | push data index eof =>
    obtain ⟨hmap, -, hcount, -⟩ := pushSubstring_same r data index eof
    rw [← acceptBytes_balanced_iff h hb hfits]
    show Balanced 0 (r.pushSubstring data index eof) ↔ _
    unfold Balanced held
    rw [hmap, hcount]
  | read len => exact ⟨fun _ => trivial, fun _ => hb⟩
  | pop len => exact ⟨fun _ => trivial, fun _ => hb⟩

/-- **The byte count.**  In a run of arbitrary pushes and reads the count is exact in every state
    if and only if every push meets `Accounts`. -/
theorem unassembledBytes_accounted_iff (capacity : Nat) (ops : List StorageOp)
    (hfits : ∀ op ∈ ops, op.Fits) :
    Run.Always apply Accounted (new capacity) ops ↔
      Run.Steps apply Accounts (new capacity) ops :=
  Run.always_iff_steps (I := Layout) (fun _ op hop h => apply_layout h op hop)
    (fun _ op hop h ha => apply_accounted_iff h ha op hop) hfits (new_layout capacity)
    ((accounted_iff (new_layout capacity)).mpr rfl)

/-- A gap, the bytes that fill it and go on where the stored ones start, and an old byte. -/
theorem unassembledBytes_accounted_gap :
    Run.Always apply Accounted (new 6)
      [.push [3, 4] 2 false, .push [4, 5] 3 false, .push [1, 2, 3] 0 false, .push [1] 0 false,
        .read 3, .push [] 8 true] :=
  (unassembledBytes_accounted_iff 6 _ (by decide)).mpr (by decide)

/-- The second push repeats one assembled byte.  That byte stays in the count, although the map
    is empty. -/
theorem unassembledBytes_of_overlap :
    (∀ op ∈ [StorageOp.push [97, 98] 0 false, .push [98, 99, 100] 1 false], op.Fits) ∧
      (let r := [StorageOp.push [97, 98] 0 false, .push [98, 99, 100] 1 false].foldl apply (new 10)
       ¬ Accounted r ∧ r.unassembledBytes = 1 ∧ r.held = 0 ∧ r.empty = false) :=
  ⟨by decide, fun h => absurd h.count (by decide), by decide⟩

end StreamReassembler

end Sponge
