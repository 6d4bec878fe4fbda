import Sponge.ByteStream
import Sponge.Lib.OrdMap

namespace Sponge

/-!
# The stream reassembler

`StreamReassembler` takes substrings of a byte stream in any order and writes what has
become contiguous into its output stream.  Substrings that cannot be written yet wait in
an ordered map from the index of their first byte to their bytes.

Indices are 64-bit numbers in the source.  A sum of an index and a size is therefore taken
modulo `2^64` here (`addSize`), and so are the updates of `unassembledBytes`
(`addSize`, `subSize`); the differences of the source are all taken under a comparison that
makes them exact.
-/

/-- The 64-bit sum. -/
def addSize (a b : Nat) : Nat := (a + b) % 2 ^ 64

/-- The 64-bit difference. -/
def subSize (a b : Nat) : Nat := (a + 2 ^ 64 - b % 2 ^ 64) % 2 ^ 64

/-- A sum that does not overflow. -/
theorem addSize_eq {a b : Nat} (h : a + b < 2 ^ 64) : addSize a b = a + b := Nat.mod_eq_of_lt h

theorem addSize_le (a b : Nat) : addSize a b ≤ a + b := Nat.mod_le _ _

theorem addSize_lt (a b : Nat) : addSize a b < 2 ^ 64 := Nat.mod_lt _ (by decide)

/-- The reassembler's state. -/
structure StreamReassembler where
  reassembleBuffer : OrdMap Nat (List UInt8)
  expected : Nat
  eofIndex : Nat
  unassembledBytes : Nat
  output : ByteStream

namespace StreamReassembler

/-- A fresh reassembler.  The index of the end is not known yet: `-1` as a 64-bit number. -/
def new (capacity : Nat) : StreamReassembler where
  reassembleBuffer := OrdMap.empty
  expected := 0
  eofIndex := 2 ^ 64 - 1
  unassembledBytes := 0
  output := ByteStream.new capacity

def streamOut (r : StreamReassembler) : ByteStream := r.output

/-- The right interval ends inside the left one. -/
def repeatedInterval (leftBegin leftLength rightBegin rightLength : Nat) : Bool :=
  addSize rightBegin rightLength ≤ addSize leftBegin leftLength

/-- The first loop of `merge`: from `lower_bound` on, erase the entries that end inside the
    new substring.  The second component is where the iterator stands afterwards. -/
def mergeForward (index : Nat) (data : List UInt8) :
    List (Nat × List UInt8) → StreamReassembler → StreamReassembler × List (Nat × List UInt8)
  | [], r => (r, [])
  | e :: rest, r =>
    if repeatedInterval index data.length e.1 e.2.length then
      mergeForward index data rest
        { r with
          unassembledBytes := subSize r.unassembledBytes e.2.length
          reassembleBuffer := r.reassembleBuffer.erase e.1 }
    else (r, e :: rest)

/-- The second half of `merge`: trim the new substring against the entry before the
    iterator, which is the last one whose key is less than `index`. -/
def mergeBackward (before : List (Nat × List UInt8)) (index : Nat) (data : List UInt8) :
    Bool × Nat × List UInt8 :=
  match before.getLast? with
  | none => (true, index, data)
  | some prev =>
    if addSize prev.1 prev.2.length > index then
      -- the entry before it covers it; an entry that ends with it still leaves an empty rest
      if addSize prev.1 prev.2.length > addSize index data.length then (false, index, data)
      else
        (true, addSize prev.1 prev.2.length, data.drop (addSize prev.1 prev.2.length - index))
    else (true, index, data)

/-- Cut the new substring free of what is stored: whether anything of it is to be stored,
    its index and its bytes afterwards, and the reassembler with the covered entries gone. -/
def merge (r : StreamReassembler) (index : Nat) (data : List UInt8) :
    (Bool × Nat × List UInt8) × StreamReassembler :=
  let before := r.reassembleBuffer.below index
  let (r, mergeIter) := mergeForward index data (r.reassembleBuffer.lowerBound index) r
  match mergeIter with
  | [] => (mergeBackward before index data, r)
  | next :: _ =>
    -- an entry of the same index that reaches further
    if next.1 = index then ((false, index, data), r)
    else if next.1 < addSize index data.length then
      (mergeBackward before index (data.take (next.1 - index)), r)
    else (mergeBackward before index data, r)

/-- Put a substring into the reassembly map. -/
def store (r : StreamReassembler) (index : Nat) (data : List UInt8) : StreamReassembler :=
  { r with
    unassembledBytes := addSize r.unassembledBytes data.length
    reassembleBuffer := r.reassembleBuffer.emplace index data }

/-- Insert the received data into the reassembly map. -/
def insert (r : StreamReassembler) (index : Nat) (data : List UInt8) : StreamReassembler :=
  -- the empty map has no neighbours to merge with
  if r.reassembleBuffer.entries.isEmpty then r.store index data
  else
    match r.merge index data with
    | ((true, index, data), r) => r.store index data
    | ((false, _, _), r) => r

/-- Hand one entry that starts at or before `expected` to the output stream: what lies
    before `expected` is cut off, and so is what the output stream has no room for. -/
def assemble (r : StreamReassembler) (index : Nat) (data : List UInt8) : StreamReassembler :=
  if addSize index data.length > r.expected then
    -- what does not fit is erased with the entry by the loop below
    let data := if index < r.expected then data.drop (r.expected - index) else data
    let data :=
      if data.length > r.output.remainingCapacity then data.take r.output.remainingCapacity
      else data
    { r with
      output := (r.output.write data).2
      expected := r.expected + data.length
      unassembledBytes := subSize r.unassembledBytes data.length }
  else r

/-- The loop of `send_to_bytestream` over the entries from the iterator on. -/
def sendLoop : List (Nat × List UInt8) → StreamReassembler → StreamReassembler
  | [], r => r
  | e :: rest, r =>
    if e.1 ≤ r.expected then
      let r := r.assemble e.1 e.2
      sendLoop rest { r with reassembleBuffer := r.reassembleBuffer.erase e.1 }
    else r

/-- Send ordered data to the byte stream. -/
def sendToBytestream (r : StreamReassembler) : StreamReassembler :=
  sendLoop r.reassembleBuffer.entries r

/-- Accept a substring of the stream, possibly out of order, and write what has become
    contiguous into the output stream. -/
def pushSubstring (r : StreamReassembler) (data : List UInt8) (index : Nat) (eof : Bool) :
    StreamReassembler :=
  let r := if eof then { r with eofIndex := addSize data.length index } else r
  let r :=
    if addSize index data.length > r.expected then (r.insert index data).sendToBytestream else r
  if r.expected = r.eofIndex then { r with output := r.output.endInput } else r

/-- No substrings are waiting to be assembled. -/
def empty (r : StreamReassembler) : Bool := r.unassembledBytes == 0

/-- Pop bytes from the output stream, as its reader does. -/
def popOutput (r : StreamReassembler) (len : Nat) : StreamReassembler :=
  { r with output := r.output.popOutput len }

/-- Read bytes from the output stream, as its reader does. -/
def read (r : StreamReassembler) (len : Nat) : List UInt8 × StreamReassembler :=
  ((r.output.read len).1, { r with output := (r.output.read len).2 })

/-- Put the output stream into the error state. -/
def setError (r : StreamReassembler) : StreamReassembler := { r with output := r.output.setError }

end StreamReassembler

end Sponge
