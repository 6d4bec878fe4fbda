import Sponge.Lib.Chunks

namespace Sponge

/-!
# Buffers

A `Buffer` is a read-only string that can discard bytes from its front, and a `BufferList` a
discontiguous string made of them, as packets with several headers are.  What throws in the
source answers with an `Exception`.

A buffer is read through `str` alone; `str_removePrefix` says what is left of it.  A list is read
through `concatenate`.  A `BufferViewList` is a list of views of strings that others own, and is
shortened by the same loop as a `BufferList`: `like_one_string` says that both behave as the one
string they hold.
-/

/-- The exceptions of the standard library that are thrown, with their texts. -/
inductive Exception where
  | runtimeError (what : String)
  | outOfRange (what : String)
  deriving DecidableEq, Repr

/-- A string, and the number of bytes discarded from its front.  A buffer all of whose bytes have
    been discarded lets its string go. -/
structure Buffer where
  storage : Option (List UInt8) := none
  startingOffset : Nat := 0
  offset_le : ∀ s ∈ storage, startingOffset ≤ s.length := by simp
  deriving DecidableEq, Repr

namespace Buffer

/-- Construct from a string. -/
def ofString (str : List UInt8) : Buffer := { storage := some str }

/-- The contents. -/
def str (b : Buffer) : List UInt8 :=
  match b.storage with
  | none => []
  | some s => s.drop b.startingOffset

/-- Size of the string. -/
def size (b : Buffer) : Nat := b.str.length

/-- Discard the first `n` bytes. -/
def removePrefix (b : Buffer) (n : Nat) : Except Exception Buffer :=
  if h : n > b.size then .error (.outOfRange "Buffer::remove_prefix")
  else
    .ok
      { storage :=
          if b.storage.map List.length = some (b.startingOffset + n) then none else b.storage
        startingOffset := b.startingOffset + n
        offset_le := by
          intro s hs
          split at hs
          · exact absurd hs (by simp)
          · have hle := b.offset_le s hs
            rw [size, str, Option.mem_def.mp hs, List.length_drop] at h
            omega }

@[simp] theorem str_ofString (str : List UInt8) : (ofString str).str = str := rfl

theorem size_eq (b : Buffer) : b.size = b.str.length := rfl

/-- Discarding throws exactly when there are not as many bytes, and leaves the others. -/
theorem str_removePrefix {b b' : Buffer} {n : Nat} (h : b.removePrefix n = .ok b') :
    n ≤ b.size ∧ b'.str = b.str.drop n := by
  rw [removePrefix] at h
  split at h
  · exact absurd h (by simp)
  · rename_i hle
    refine ⟨by omega, ?_⟩
    obtain rfl := Except.ok.inj h
    unfold str
    dsimp only
    cases hs : b.storage with
    | none => simp
    | some s =>
      by_cases hall : s.length = b.startingOffset + n
      · -- nothing is left, and the string is let go
        simp [hall]
      · simp [hall]

/-- Discarding succeeds where there are as many bytes. -/
theorem removePrefix_of_le {b : Buffer} {n : Nat} (h : n ≤ b.size) :
    ∃ b', b.removePrefix n = .ok b' ∧ b'.str = b.str.drop n := by
  have hok : ∃ b', b.removePrefix n = .ok b' := ⟨_, dif_neg (by omega)⟩
  obtain ⟨b', hb'⟩ := hok
  exact ⟨b', hb', (str_removePrefix hb').2⟩

end Buffer

/-- A string in several pieces. -/
structure BufferList where
  buffers : List Buffer := []
  deriving DecidableEq, Repr

namespace BufferList

/-- Construct from a buffer. -/
def ofBuffer (buffer : Buffer) : BufferList := ⟨[buffer]⟩

/-- Construct from a string. -/
def ofString (str : List UInt8) : BufferList := ⟨[Buffer.ofString str]⟩

/-- Append a `BufferList`. -/
def append (l other : BufferList) : BufferList := ⟨l.buffers ++ other.buffers⟩

/-- Transform to a `Buffer`; throws unless the list is contiguous. -/
def toBuffer (l : BufferList) : Except Exception Buffer :=
  match l.buffers with
  | [] => .ok {}
  | [b] => .ok b
  | _ => .error (.runtimeError
      "BufferList: please use concatenate() to combine a multi-Buffer BufferList into one Buffer")

/-- Discard the first `n` bytes.  What has been discarded when it throws stays discarded. -/
def removePrefix (l : BufferList) (n : Nat) : Except Exception Unit × BufferList :=
  let (result, buffers) := Chunks.removeFront Buffer.size Buffer.removePrefix
    (.outOfRange "BufferList::remove_prefix") l.buffers n
  (result, ⟨buffers⟩)

/-- Size of the string. -/
def size (l : BufferList) : Nat := l.buffers.foldl (fun ret buf => ret + buf.size) 0

/-- The contents as one string. -/
def concatenate (l : BufferList) : List UInt8 := l.buffers.foldl (fun ret buf => ret ++ buf.str) []

/-- The loop over the buffers puts their strings one after another. -/
theorem concatenate_eq (l : BufferList) : l.concatenate = l.buffers.flatMap Buffer.str := by
  -- the fold from any start
  have hfold : ∀ (buffers : List Buffer) (ret : List UInt8),
      buffers.foldl (fun ret buf => ret ++ buf.str) ret = ret ++ buffers.flatMap Buffer.str := by
    intro buffers
    induction buffers with
    | nil => simp
    | cons buf buffers ih =>
      intro ret
      rw [List.foldl_cons, ih, List.flatMap_cons, List.append_assoc]
  rw [concatenate, hfold, List.nil_append]

/-- The sizes of the buffers add up to the length of the whole. -/
theorem size_eq_length (l : BufferList) : l.size = l.concatenate.length := by
  rw [size, Chunks.foldl_size Buffer.size_eq, concatenate_eq, Nat.zero_add]

@[simp] theorem concatenate_ofBuffer (buffer : Buffer) :
    (ofBuffer buffer).concatenate = buffer.str := by
  simp [concatenate_eq, ofBuffer]

@[simp] theorem concatenate_ofString (str : List UInt8) : (ofString str).concatenate = str := by
  simp [concatenate_eq, ofString]

@[simp] theorem concatenate_append (l other : BufferList) :
    (l.append other).concatenate = l.concatenate ++ other.concatenate := by
  simp [concatenate_eq, append]

/-- A list that converts to a single buffer has all its bytes in it. -/
theorem concatenate_of_toBuffer {l : BufferList} {buffer : Buffer}
    (h : l.toBuffer = .ok buffer) : l.concatenate = buffer.str := by
  unfold toBuffer at h
  split at h
  · rename_i hbuffers
    cases h
    rw [concatenate_eq, hbuffers]
    rfl
  · rename_i hbuffers
    cases h
    rw [concatenate_eq, hbuffers, List.flatMap_singleton]
  · cases h

/-! ### Discarding bytes -/

/-- A prefix that is there is removed from the front, across as many buffers as it takes. -/
theorem removePrefix_of_le {l : BufferList} {n : Nat} (h : n ≤ l.size) :
    (l.removePrefix n).1 = .ok () ∧
      (l.removePrefix n).2.concatenate = l.concatenate.drop n := by
  rw [size_eq_length, concatenate_eq] at h
  obtain ⟨hok, hleft⟩ := Chunks.removeFront_of_le Buffer.size_eq
    (fun b n hlt => Buffer.removePrefix_of_le (Nat.le_of_lt hlt)) h
  refine ⟨hok, ?_⟩
  rw [concatenate_eq, concatenate_eq]
  exact hleft

/-- A prefix that is longer than the list throws, and the list has been emptied by then. -/
theorem removePrefix_of_lt {l : BufferList} {n : Nat} (h : l.size < n) :
    l.removePrefix n = (.error (.outOfRange "BufferList::remove_prefix"), {}) := by
  rw [size_eq_length, concatenate_eq] at h
  rw [removePrefix, Chunks.removeFront_of_lt Buffer.size_eq h]

/-- The list after bytes have been discarded several times. -/
def after (l : BufferList) (ns : List Nat) : BufferList :=
  ns.foldl (fun l n => (l.removePrefix n).2) l

end BufferList

/-- A view of a string in several pieces. -/
structure BufferViewList where
  views : List (List UInt8) := []
  deriving DecidableEq, Repr

namespace BufferViewList

/-- Construct from a `BufferList`. -/
def ofBufferList (buffers : BufferList) : BufferViewList := ⟨buffers.buffers.map Buffer.str⟩

/-- Discard the first `n` bytes. -/
def removePrefix (v : BufferViewList) (n : Nat) : Except Exception Unit × BufferViewList :=
  let (result, views) := Chunks.removeFront List.length (fun view n => .ok (view.drop n))
    (.outOfRange "BufferListView::remove_prefix") v.views n
  (result, ⟨views⟩)

/-- Size of the string. -/
def size (v : BufferViewList) : Nat := v.views.foldl (fun ret buf => ret + buf.length) 0

/-- The string that is viewed. -/
def concatenate (v : BufferViewList) : List UInt8 := v.views.flatten

/-- The view after bytes have been discarded several times. -/
def after (v : BufferViewList) (ns : List Nat) : BufferViewList :=
  ns.foldl (fun v n => (v.removePrefix n).2) v

/-- A view of a list shows the bytes of the list. -/
theorem concatenate_ofBufferList (l : BufferList) :
    (ofBufferList l).concatenate = l.concatenate := by
  rw [concatenate, ofBufferList, BufferList.concatenate_eq, List.flatMap_def]

/-- The sizes of the views add up to the length of what they show. -/
theorem size_eq_length (v : BufferViewList) : v.size = v.concatenate.length := by
  have hsum : v.size = 0 + (v.views.flatMap id).length := Chunks.foldl_size (fun _ => rfl) _ _
  rw [hsum, Nat.zero_add, concatenate, List.flatMap_id]

/-- Discarding bytes leaves the rest of what is shown. -/
theorem removePrefix_of_le {v : BufferViewList} {n : Nat} (h : n ≤ v.size) :
    (v.removePrefix n).1 = .ok () ∧
      (v.removePrefix n).2.concatenate = v.concatenate.drop n := by
  rw [size_eq_length, concatenate, ← List.flatMap_id] at h
  obtain ⟨hok, hleft⟩ := Chunks.removeFront_of_le (fun _ => rfl)
    (fun view n _ => ⟨view.drop n, rfl, rfl⟩) h
  refine ⟨hok, ?_⟩
  rw [concatenate, concatenate, ← List.flatMap_id, ← List.flatMap_id]
  exact hleft

/-- Discarding more than there is throws, and the view is empty then. -/
theorem removePrefix_of_lt {v : BufferViewList} {n : Nat} (h : v.size < n) :
    v.removePrefix n = (.error (.outOfRange "BufferListView::remove_prefix"), {}) := by
  rw [size_eq_length, concatenate, ← List.flatMap_id] at h
  have hsize : ∀ view : List UInt8, view.length = (id view).length := fun _ => rfl
  rw [removePrefix, Chunks.removeFront_of_lt hsize h]

/-- **Step lemma.**  The views of a list stay its views. -/
theorem removePrefix_ofBufferList (l : BufferList) (n : Nat) :
    ((ofBufferList l).removePrefix n).2 = ofBufferList (l.removePrefix n).2 ∧
      (((ofBufferList l).removePrefix n).1 = .ok () ↔ (l.removePrefix n).1 = .ok ()) := by
  have hcut : ∀ (b : Buffer) (n : Nat), n < b.size → ∃ b', b.removePrefix n = .ok b' ∧
      (.ok (b.str.drop n) : Except Exception (List UInt8)) = .ok b'.str := by
    intro b n hlt
    obtain ⟨b', hok, hstr⟩ := Buffer.removePrefix_of_le (Nat.le_of_lt hlt)
    exact ⟨b', hok, by rw [hstr]⟩
  have hboth := @Chunks.removeFront_map _ _ _ Buffer.size Buffer.removePrefix
    (.outOfRange "BufferList::remove_prefix") (.outOfRange "BufferListView::remove_prefix")
    List.length (fun view n => .ok (view.drop n)) Buffer.str (fun _ => rfl) hcut l.buffers n
  exact ⟨congrArg BufferViewList.mk hboth.1, hboth.2⟩

/-- **Run lemma.** -/
theorem after_ofBufferList (l : BufferList) (ns : List Nat) :
    (ofBufferList l).after ns = ofBufferList (l.after ns) := by
  induction ns generalizing l with
  | nil => rfl
  | cons n ns ih =>
    show after ((ofBufferList l).removePrefix n).2 ns = ofBufferList (BufferList.after _ ns)
    rw [(removePrefix_ofBufferList l n).1, ih]

end BufferViewList

/-- **Strings in pieces behave like one string.**  Sizes and appending are those of the
    concatenation.  Discarding `n` bytes throws exactly where there are not as many, and otherwise
    leaves the other bytes; a view of the list does the same, and stays the view of the list however
    often bytes are discarded from both. -/
theorem BufferList.like_one_string (l other : BufferList) (n : Nat) (ns : List Nat) :
    let v := BufferViewList.ofBufferList l
    (l.size = l.concatenate.length ∧ v.size = l.size ∧ v.concatenate = l.concatenate) ∧
      (l.append other).concatenate = l.concatenate ++ other.concatenate ∧
      (l.removePrefix n).1
        = (if l.size < n then .error (.outOfRange "BufferList::remove_prefix") else .ok ()) ∧
      (v.removePrefix n).1
        = (if l.size < n then .error (.outOfRange "BufferListView::remove_prefix") else .ok ()) ∧
      (n ≤ l.size → (l.removePrefix n).2.concatenate = l.concatenate.drop n ∧
        (v.removePrefix n).2.concatenate = l.concatenate.drop n) ∧
      v.after ns = BufferViewList.ofBufferList (l.after ns) ∧
      (((v.after ns).removePrefix n).1 = .ok () ↔ ((l.after ns).removePrefix n).1 = .ok ()) := by
  intro v
  have hcontents : v.concatenate = l.concatenate := BufferViewList.concatenate_ofBufferList l
  have hsize : v.size = l.size := by
    rw [BufferViewList.size_eq_length, hcontents, size_eq_length]
  have hafter := BufferViewList.after_ofBufferList l ns
  refine ⟨⟨size_eq_length l, hsize, hcontents⟩, concatenate_append l other, ?_, ?_, fun hle => ?_,
    hafter, ?_⟩
  · by_cases hlt : l.size < n
    · rw [if_pos hlt, removePrefix_of_lt hlt]
    · rw [if_neg hlt, (removePrefix_of_le (by omega)).1]
  · rw [← hsize]
    by_cases hlt : v.size < n
    · rw [if_pos hlt, BufferViewList.removePrefix_of_lt hlt]
    · rw [if_neg hlt, (BufferViewList.removePrefix_of_le (by omega)).1]
  · rw [← hcontents]
    exact ⟨(removePrefix_of_le hle).2.trans (by rw [hcontents]),
      (BufferViewList.removePrefix_of_le (by omega)).2⟩
  · rw [hafter]
    exact (BufferViewList.removePrefix_ofBufferList (l.after ns) n).2

-- the cut falls on the end of a chunk, with an empty one behind it, and then into the last one
example : (BufferList.after ⟨[.ofString [1, 2], .ofString [], .ofString [3, 4]]⟩ [2, 1]).concatenate
    = [4] := by decide

end Sponge
