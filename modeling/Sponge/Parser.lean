import Sponge.Buffer
import Sponge.Lib.BigEndian

namespace Sponge

/-!
# Parsing and unparsing packets

`NetParser` takes integers in network byte order off the front of a buffer.  Its error is sticky:
once there were not enough bytes, nothing more is taken off and every integer is zero.
`NetUnparser` appends integers to a string.

`Reads p bytes` says that `bytes` are left to be read and no error has occurred.  `At p b k` says of
a parser that it has been asked for the first `k` bytes of `b`, whether or not there are as many;
there is one lemma for each reader that says what it returns and what it leaves.
-/

/-- The result of parsing or unparsing an IP datagram, TCP segment, Ethernet frame, or ARP
    message. -/
inductive ParseResult where
  | noError
  | badChecksum
  | packetTooShort
  | wrongIPVersion
  | headerTooShort
  | truncatedPacket
  | unsupported
  deriving DecidableEq, Repr

/-- A buffer, and the result of parsing so far. -/
structure NetParser where
  buffer : Buffer
  error : ParseResult := .noError
  deriving DecidableEq, Repr

namespace NetParser

/-- Check that there is sufficient data to parse the next token. -/
def checkSize (p : NetParser) (size : Nat) : NetParser :=
  if size > p.buffer.size then { p with error := .packetTooShort } else p

/-- Take bytes off the buffer whose number has been checked. -/
def discard (p : NetParser) (n : Nat) : NetParser :=
  match p.buffer.removePrefix n with
  | .ok buffer => { p with buffer := buffer }
  | .error _ => p  -- not reached

/-- Parse an integer of `len` bytes. -/
def parseInt (p : NetParser) (len : Nat) : Nat × NetParser :=
  let p := p.checkSize len
  if p.error ≠ .noError then (0, p)
  else (BigEndian.ofBytes (p.buffer.str.take len), p.discard len)

/-- Remove `n` bytes from the buffer. -/
def removePrefix (p : NetParser) (n : Nat) : NetParser :=
  let p := p.checkSize n
  if p.error ≠ .noError then p else p.discard n

def u32 (p : NetParser) : UInt32 × NetParser := (.ofNat (p.parseInt 4).1, (p.parseInt 4).2)

def u16 (p : NetParser) : UInt16 × NetParser := (.ofNat (p.parseInt 2).1, (p.parseInt 2).2)

def u8 (p : NetParser) : UInt8 × NetParser := (.ofNat (p.parseInt 1).1, (p.parseInt 1).2)

/-- Fill an array of `n` bytes, one after another. -/
def u8s (p : NetParser) : (n : Nat) → Vector UInt8 n × NetParser
  | 0 => (#v[], p)
  | n + 1 => ((p.u8s n).1.push (p.u8s n).2.u8.1, (p.u8s n).2.u8.2)

/-- These bytes are left to be read, and no error has occurred. -/
structure Reads (p : NetParser) (bytes : List UInt8) : Prop where
  left : p.buffer.str = bytes
  ok : p.error = .noError

variable {p : NetParser} {rest : List UInt8}

/-- **A reader takes its own bytes off the front** and leaves the others. -/
theorem Reads.parseInt {front : List UInt8} {len : Nat} (h : Reads p (front ++ rest))
    (hlen : front.length = len) :
    (p.parseInt len).1 = BigEndian.ofBytes front ∧ Reads (p.parseInt len).2 rest := by
  have hsize : ¬ len > p.buffer.size := by
    rw [Buffer.size, h.left, List.length_append]
    omega
  have hcheck : p.checkSize len = p := by rw [checkSize, if_neg hsize]
  unfold NetParser.parseInt
  rw [hcheck]
  dsimp only
  rw [if_neg (by simp [h.ok])]
  refine ⟨by rw [h.left, List.take_left' hlen], ?_⟩
  unfold discard
  split
  · rename_i buffer hbuffer
    refine ⟨?_, h.ok⟩
    rw [(Buffer.str_removePrefix hbuffer).2, h.left, List.drop_left' hlen]
  · rename_i hthrown
    rw [Buffer.removePrefix, dif_neg hsize] at hthrown
    exact absurd hthrown (by simp)

/-! ### Parsing a string of any length -/

/-- The parser has been asked for the first `k` bytes of `b`: they have been taken off, or there
    were not as many and it has failed. -/
structure At (p : NetParser) (b : List UInt8) (k : Nat) : Prop where
  reads : k ≤ b.length → Reads p (b.drop k)
  fails : b.length < k → p.error ≠ .noError

variable {b : List UInt8} {k : Nat}

/-- A new parser has been asked for nothing. -/
theorem At.start (buffer : Buffer) : At { buffer := buffer } buffer.str 0 :=
  ⟨fun _ => ⟨rfl, rfl⟩, fun h => absurd h (Nat.not_lt_zero _)⟩

/-- Whether it has failed tells whether it was asked for too much. -/
theorem At.error_iff (h : At p b k) : p.error = .noError ↔ k ≤ b.length := by
  refine ⟨fun hok => ?_, fun hle => (h.reads hle).ok⟩
  by_contra hlt
  exact h.fails (by omega) hok

/-- An error is not taken back. -/
theorem checkSize_error {n : Nat} (h : p.error ≠ .noError) : (p.checkSize n).error ≠ .noError := by
  unfold checkSize
  split
  · simp
  · exact h

/-- There are too few bytes, or there were before. -/
theorem At.checkSize_fails (h : At p b k) {n : Nat} (hshort : b.length < k + n) :
    (p.checkSize n).error ≠ .noError := by
  by_cases hle : k ≤ b.length
  · have hsize : n > p.buffer.size := by
      rw [Buffer.size, (h.reads hle).left, List.length_drop]
      omega
    rw [checkSize, if_pos hsize]
    simp
  · exact checkSize_error (h.fails (by omega))

/-- **An integer** is the field at the current position, if the string is long enough. -/
theorem At.parseInt (h : At p b k) (len : Nat) :
    At (p.parseInt len).2 b (k + len) ∧
      (k + len ≤ b.length → (p.parseInt len).1 = BigEndian.field b k len) := by
  by_cases hlong : k + len ≤ b.length
  · have hreads := h.reads (by omega)
    have hfront : ((b.drop k).take len).length = len := by
      rw [List.length_take, List.length_drop]
      omega
    rw [← List.take_append_drop len (b.drop k), List.drop_drop] at hreads
    obtain ⟨hvalue, hrest⟩ := hreads.parseInt hfront
    exact ⟨⟨fun _ => hrest, fun hlt => absurd hlt (by omega)⟩, fun _ => hvalue⟩
  · refine ⟨⟨fun hle => absurd hle hlong, fun hlt => ?_⟩, fun hle => absurd hle hlong⟩
    have hfails := h.checkSize_fails hlt
    unfold NetParser.parseInt
    dsimp only
    rw [if_pos hfails]
    exact hfails

theorem At.u32 (h : At p b k) :
    At p.u32.2 b (k + 4) ∧ (k + 4 ≤ b.length → p.u32.1 = .ofNat (BigEndian.field b k 4)) :=
  ⟨(h.parseInt 4).1, fun hle => congrArg UInt32.ofNat ((h.parseInt 4).2 hle)⟩

theorem At.u16 (h : At p b k) :
    At p.u16.2 b (k + 2) ∧ (k + 2 ≤ b.length → p.u16.1 = .ofNat (BigEndian.field b k 2)) :=
  ⟨(h.parseInt 2).1, fun hle => congrArg UInt16.ofNat ((h.parseInt 2).2 hle)⟩

theorem At.u8 (h : At p b k) :
    At p.u8.2 b (k + 1) ∧ (k + 1 ≤ b.length → p.u8.1 = .ofNat (BigEndian.field b k 1)) :=
  ⟨(h.parseInt 1).1, fun hle => congrArg UInt8.ofNat ((h.parseInt 1).2 hle)⟩

/-- An array is filled with the bytes that stand there. -/
theorem At.u8s (h : At p b k) (n : Nat) :
    At (p.u8s n).2 b (k + n) ∧ (k + n ≤ b.length → (p.u8s n).1 = BigEndian.array b k n) := by
  induction n with
  | zero => exact ⟨h, fun _ => Vector.ext fun i hi => absurd hi (Nat.not_lt_zero i)⟩
  | succ n ih =>
    obtain ⟨hat, hinit⟩ := ih
    obtain ⟨hat, hlast⟩ := hat.u8
    refine ⟨hat, fun hle => ?_⟩
    show (p.u8s n).1.push (p.u8s n).2.u8.1 = _
    rw [hinit (by omega), hlast (by omega), BigEndian.field_one, BigEndian.array_succ]

/-- Skipped bytes are asked for like others. -/
theorem At.removePrefix (h : At p b k) (n : Nat) : At (p.removePrefix n) b (k + n) := by
  -- but for the value, it is the reader of `n` bytes
  have hsame : p.removePrefix n = (p.parseInt n).2 := by
    unfold NetParser.removePrefix NetParser.parseInt
    dsimp only
    split <;> rfl
  rw [hsame]
  exact (h.parseInt n).1

end NetParser

namespace NetUnparser

/-- Write an integer of `len` bytes. -/
def unparseInt (s : List UInt8) (len val : Nat) : List UInt8 := s ++ BigEndian.toBytes len val

def u32 (s : List UInt8) (val : UInt32) : List UInt8 := unparseInt s 4 val.toNat

def u16 (s : List UInt8) (val : UInt16) : List UInt8 := unparseInt s 2 val.toNat

def u8 (s : List UInt8) (val : UInt8) : List UInt8 := unparseInt s 1 val.toNat

/-- Write an array of bytes, one after another. -/
def u8s {n : Nat} (s : List UInt8) (bytes : Vector UInt8 n) : List UInt8 :=
  bytes.toList.foldl u8 s

theorem u8_eq (s : List UInt8) (val : UInt8) : u8 s val = s ++ [val] := by
  simp [u8, unparseInt, BigEndian.toBytes]

theorem u8s_eq {n : Nat} (s : List UInt8) (bytes : Vector UInt8 n) :
    u8s s bytes = s ++ bytes.toList := by
  unfold u8s
  generalize bytes.toList = l
  induction l generalizing s with
  | nil => simp
  | cons b l ih => rw [List.foldl_cons, ih, u8_eq, List.append_assoc, List.singleton_append]

end NetUnparser

end Sponge
