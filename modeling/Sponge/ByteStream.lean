import Mathlib

namespace Sponge

/-!
# The flow-controlled byte stream

`ByteStream` is the bounded FIFO between a writer and a reader.  The two facts every
operation keeps are fields of the structure, so a stream that breaks them cannot be built:

* `fits` — the buffer never holds more than the capacity, hence `remainingCapacity` is a
  true difference;
* `accounted` — the bytes written are the bytes popped and the bytes still buffered.

The byte counters are natural numbers, and so are the absolute sequence numbers that `TCPSender` and
`TCPReceiver.absAck` compute from them; the source counts in 64 bits.  A stream that moves `2^64`
bytes is thus out of scope of every result about streams, senders, receivers, connections and
sockets.  Only the indices of `StreamReassembler` are taken modulo `2^64`, because any index can be
pushed; there a sum that overflows is a fault (`StreamReassembler.representation_invariant`).
-/

/-- An in-order byte stream with room for `capacity` bytes. -/
structure ByteStream where
  bufferList : List UInt8
  capacity : Nat
  bytesWritten : Nat
  bytesRead : Nat
  inputEnded : Bool
  endOutput : Bool
  error : Bool
  fits : bufferList.length ≤ capacity
  accounted : bytesWritten = bytesRead + bufferList.length
  deriving DecidableEq, Repr

namespace ByteStream

/-- A fresh stream. -/
def new (capacity : Nat) : ByteStream where
  bufferList := []
  capacity := capacity
  bytesWritten := 0
  bytesRead := 0
  inputEnded := false
  endOutput := false
  error := false
  fits := Nat.zero_le _
  accounted := rfl

def bufferSize (s : ByteStream) : Nat := s.bufferList.length

def bufferEmpty (s : ByteStream) : Bool := s.bufferList.isEmpty

/-- The number of additional bytes the stream has space for. -/
def remainingCapacity (s : ByteStream) : Nat := s.capacity - s.bufferList.length

/-- The output has reached the ending. -/
def eof (s : ByteStream) : Bool := s.inputEnded && s.bufferEmpty

/-- Write as many bytes as fit; the number of bytes accepted is returned first. -/
def write (s : ByteStream) (data : List UInt8) : Nat × ByteStream :=
  if s.inputEnded then (0, s)
  else
    let writeSize := min data.length s.remainingCapacity
    (writeSize,
      { s with
        bufferList := s.bufferList ++ data.take writeSize
        bytesWritten := s.bytesWritten + writeSize
        fits := by
          have hfits := s.fits
          simp only [List.length_append, List.length_take, writeSize, remainingCapacity]
          omega
        accounted := by
          have hacc := s.accounted
          simp only [List.length_append, List.length_take, writeSize]
          omega })

/-- Copy (at most) the next `len` bytes. -/
def peekOutput (s : ByteStream) (len : Nat) : List UInt8 :=
  s.bufferList.take (min len s.bufferList.length)

/-- Remove (at most) the next `len` bytes. -/
def popOutput (s : ByteStream) (len : Nat) : ByteStream :=
  let sz := min len s.bufferSize
  { s with
    bytesRead := s.bytesRead + sz
    bufferList := s.bufferList.drop sz
    fits := by
      have hfits := s.fits
      rw [List.length_drop]
      omega
    accounted := by
      have hacc := s.accounted
      simp only [List.length_drop, sz, bufferSize]
      omega }

/-- Copy and then pop the next `len` bytes. -/
def read (s : ByteStream) (len : Nat) : List UInt8 × ByteStream :=
  if s.endOutput then ([], s) else (s.peekOutput len, s.popOutput len)

def endInput (s : ByteStream) : ByteStream := { s with inputEnded := true }

def setError (s : ByteStream) : ByteStream := { s with error := true }

/-! ### What the operations change -/

section
variable (s : ByteStream) (data : List UInt8) (len : Nat)

@[simp] theorem write_capacity : (s.write data).2.capacity = s.capacity := by
  unfold write; split <;> rfl

@[simp] theorem write_bytesRead : (s.write data).2.bytesRead = s.bytesRead := by
  unfold write; split <;> rfl

@[simp] theorem write_inputEnded : (s.write data).2.inputEnded = s.inputEnded := by
  unfold write; split <;> rfl

@[simp] theorem write_error : (s.write data).2.error = s.error := by
  unfold write; split <;> rfl

@[simp] theorem write_endOutput : (s.write data).2.endOutput = s.endOutput := by
  unfold write; split <;> rfl

/-- The buffer grows by exactly the accepted bytes. -/
theorem write_bufferList :
    (s.write data).2.bufferList = s.bufferList ++ data.take (s.write data).1 := by
  unfold write; split <;> simp

/-- The count of the bytes written grows by what is accepted. -/
theorem write_bytesWritten : (s.write data).2.bytesWritten = s.bytesWritten + (s.write data).1 := by
  unfold write; split <;> rfl

/-- No more is accepted than is offered. -/
theorem write_fst_le : (s.write data).1 ≤ data.length := by
  unfold write
  split
  · exact Nat.zero_le _
  · exact Nat.min_le_left _ _

/-- The bytes accepted are taken from the room. -/
theorem write_remainingCapacity :
    (s.write data).2.remainingCapacity = s.remainingCapacity - (s.write data).1 := by
  have hle := s.write_fst_le data
  rw [remainingCapacity, write_capacity, write_bufferList, List.length_append, List.length_take,
    remainingCapacity]
  omega

/-- A stream that has ended accepts nothing. -/
theorem write_of_ended (hended : s.inputEnded = true) : s.write data = (0, s) := by
  rw [write, if_pos hended]

/-- An open stream accepts everything that fits into it. -/
theorem write_fst_of_le (hopen : s.inputEnded = false) (hfit : data.length ≤ s.remainingCapacity) :
    (s.write data).1 = data.length := by
  simp [write, hopen, Nat.min_eq_left hfit]

/-- Popping more than is buffered empties the buffer and does no harm. -/
@[simp] theorem popOutput_bufferList : (s.popOutput len).bufferList = s.bufferList.drop len := by
  show s.bufferList.drop (min len s.bufferList.length) = s.bufferList.drop len
  rcases Nat.le_total len s.bufferList.length with h | h
  · rw [Nat.min_eq_left h]
  · rw [Nat.min_eq_right h, List.drop_length, List.drop_eq_nil_of_le h]

/-- Only bytes that were there are counted as read. -/
@[simp] theorem popOutput_bytesRead :
    (s.popOutput len).bytesRead = s.bytesRead + min len s.bufferList.length := rfl

/-- Peeking shows the next bytes, as many as there are. -/
theorem peekOutput_eq_take : s.peekOutput len = s.bufferList.take len := by
  rw [peekOutput, ← List.take_eq_take_min]

/-- What `pop_output` removes is what `peek_output` shows. -/
theorem peekOutput_append_popOutput :
    s.peekOutput len ++ (s.popOutput len).bufferList = s.bufferList := by
  rw [peekOutput_eq_take, popOutput_bufferList, List.take_append_drop]

/-- `read` returns what it removes, also when the output side was closed. -/
theorem read_fst_append : (s.read len).1 ++ (s.read len).2.bufferList = s.bufferList := by
  unfold read
  split
  · rfl
  · exact s.peekOutput_append_popOutput len

/-- The count of the bytes read grows by what is returned. -/
theorem read_bytesRead : (s.read len).2.bytesRead = s.bytesRead + (s.read len).1.length := by
  unfold read
  split
  · rfl
  · simp [peekOutput]

/-- A read that returns nothing changes nothing. -/
theorem read_snd_of_nil (hnil : (s.read len).1 = []) : (s.read len).2 = s := by
  unfold read at hnil ⊢
  split
  · rfl
  · rename_i hend
    rw [if_neg hend] at hnil
    have hzero : min len s.bufferList.length = 0 := by
      have hlen := congrArg List.length hnil
      simp only [peekOutput, List.length_take, List.length_nil] at hlen
      omega
    cases s
    simp only [popOutput, bufferSize] at hzero ⊢
    simp [hzero]

/-- No more is returned than is asked for. -/
theorem read_fst_length_le : (s.read len).1.length ≤ len := by
  unfold read
  split
  · exact Nat.zero_le _
  · rw [peekOutput_eq_take, List.length_take]
    exact Nat.min_le_left _ _

@[simp] theorem read_bytesWritten : (s.read len).2.bytesWritten = s.bytesWritten := by
  unfold read; split <;> rfl

@[simp] theorem read_capacity : (s.read len).2.capacity = s.capacity := by
  unfold read; split <;> rfl

@[simp] theorem read_inputEnded : (s.read len).2.inputEnded = s.inputEnded := by
  unfold read; split <;> rfl

@[simp] theorem read_error : (s.read len).2.error = s.error := by
  unfold read; split <;> rfl

@[simp] theorem read_endOutput : (s.read len).2.endOutput = s.endOutput := by
  unfold read; split <;> rfl

/-- The end of the room: what has been read plus the capacity. -/
theorem bytesWritten_add_remainingCapacity :
    s.bytesWritten + s.remainingCapacity = s.bytesRead + s.capacity := by
  have hfits := s.fits
  have hacc := s.accounted
  unfold remainingCapacity
  omega

/-- The reader is at the end when the writer has ended and nothing is left. -/
theorem eof_iff : s.eof = true ↔ s.inputEnded = true ∧ s.bufferList = [] := by
  simp [eof, bufferEmpty]

end

end ByteStream

end Sponge
