import Sponge.Buffer
import Sponge.Lib.Loop

namespace Sponge

/-!
# File descriptors

A `FileDescriptor` is a handle to an open file of the kernel.  All copies of a handle share the
end-of-file flag and the two counters, from which the event loop tells whether a callback has done
anything; here they are the handle itself.

What the kernel answers to a system call is an argument of the model, so every result holds
whatever the kernel does.  `write` hands a string over in as many calls as the kernel needs for it:
`write_exact` says what it has got in the end, however it cuts the string into pieces and wherever
it refuses.
-/

/-- Throw what a failed system call says, with the name of the call. -/
def systemCall {α : Type} (attempt : String) : Except String α → Except Exception α
  | .ok value => .ok value
  | .error what => .error (.runtimeError (attempt ++ ": " ++ what))

/-- What the kernel answers to the write of a packet of the given size: how many bytes of it were
    taken, or what went wrong. -/
abbrev PacketAnswer := Nat → Except String Nat

/-- The exceptions for a system call that fails, or that has done what it cannot have done. -/
inductive CallFailure : Exception → Prop where
  | refused (attempt what : String)
      (h : attempt ∈ ["read", "writev", "recvfrom", "sendmsg", "shutdown"]) :
      CallFailure (.runtimeError (attempt ++ ": " ++ what))
  | readMore : CallFailure (.runtimeError "read() read more than requested")
  | wroteNothing : CallFailure (.runtimeError "write returned 0 given non-empty input buffer")
  | wroteMore : CallFailure (.runtimeError "write wrote more than length of input buffer")
  | oversized : CallFailure (.runtimeError "recvfrom (oversized datagram)")
  | tooBig : CallFailure (.runtimeError "datagram payload too big for sendmsg()")

/-- What tells the exception of a system call from others. -/
theorem CallFailure.head {what : String} (h : CallFailure (.runtimeError what)) :
    what.toList.head? ∈ [some 'r', some 'w', some 's', some 'd'] := by
  cases h with
  | refused attempt what h =>
    simp only [List.mem_cons, List.not_mem_nil, or_false] at h
    rcases h with rfl | rfl | rfl | rfl | rfl <;> simp [String.toList_append]
  | readMore => decide
  | wroteNothing => decide
  | wroteMore => decide
  | oversized => decide
  | tooBig => decide

/-- An open file: the flags and counters of its `FDWrapper`. -/
structure FileDescriptor where
  eof : Bool := false
  closed : Bool := false
  readCount : UInt32 := 0
  writeCount : UInt32 := 0
  deriving DecidableEq, Repr

namespace FileDescriptor

def registerRead (fd : FileDescriptor) : FileDescriptor := { fd with readCount := fd.readCount + 1 }

def registerWrite (fd : FileDescriptor) : FileDescriptor :=
  { fd with writeCount := fd.writeCount + 1 }

/-- Close the file. -/
def close (fd : FileDescriptor) (kernel : Except String Unit) :
    Except Exception Unit × FileDescriptor :=
  match systemCall "close" kernel with
  | .error e => (.error e, fd)
  | .ok _ => (.ok (), { fd with eof := true, closed := true })

/-- Read up to `limit` bytes; the kernel answers with those it has read.  A read that asks for
    something and gets nothing has reached the end. -/
def read (fd : FileDescriptor) (limit : Nat) (kernel : Except String (List UInt8)) :
    Except Exception (List UInt8) × FileDescriptor :=
  let bufferSize := 1024 * 1024
  let sizeToRead := min bufferSize limit
  match systemCall "read" kernel with
  | .error e => (.error e, fd)
  | .ok str =>
    let fd := if limit > 0 ∧ str.length = 0 then { fd with eof := true } else fd
    if str.length > sizeToRead then (.error (.runtimeError "read() read more than requested"), fd)
    else (.ok str, fd.registerRead)

/-- A read that returns hands over what the kernel has read, and is counted. -/
theorem read_ok {fd fd' : FileDescriptor} {limit : Nat} {kernel : Except String (List UInt8)}
    {str : List UInt8} (h : fd.read limit kernel = (.ok str, fd')) :
    kernel = .ok str ∧ str.length ≤ limit ∧ fd'.readCount = fd.readCount + 1 ∧
      fd'.eof = (fd.eof || decide (limit > 0 ∧ str = [])) ∧ fd'.closed = fd.closed := by
  unfold read at h
  cases kernel with
  | error what => cases h
  | ok bytes =>
    simp only [systemCall] at h
    -- the buffer of the read is at most a megabyte
    by_cases hmore : bytes.length > min (1024 * 1024) limit
    · rw [if_pos hmore] at h
      cases h
    rw [if_neg hmore] at h
    cases h
    refine ⟨rfl, by omega, ?_, ?_, ?_⟩ <;> by_cases hend : limit > 0 ∧ str = [] <;>
      simp [registerRead, List.length_eq_zero_iff, hend]

/-- A read that throws leaves the descriptor as it is. -/
theorem read_error {fd fd' : FileDescriptor} {limit : Nat} {kernel : Except String (List UInt8)}
    {e : Exception} (h : fd.read limit kernel = (.error e, fd')) : CallFailure e ∧ fd' = fd := by
  unfold read at h
  cases kernel with
  | error what =>
    cases h
    exact ⟨.refused "read" what (by simp), rfl⟩
  | ok bytes =>
    simp only [systemCall] at h
    by_cases hmore : bytes.length > min (1024 * 1024) limit
    · rw [if_pos hmore] at h
      cases h
      exact ⟨.readMore, if_neg fun hempty => by omega⟩
    · rw [if_neg hmore] at h
      cases h

/-! ### Writing -/

/-- The state of the loop of `write`: the variables of the function, the number of calls made, and
    the bytes the kernel has taken. -/
structure Writing where
  fd : FileDescriptor
  buffer : BufferViewList
  totalBytesWritten : Nat := 0
  calls : Nat := 0
  taken : List UInt8 := []
  thrown : Option Exception := none

/-- What `write` returns. -/
def Writing.result (w : Writing) : Except Exception Nat :=
  match w.thrown with
  | some e => .error e
  | none => .ok w.totalBytesWritten

/-- The kernel has taken the next `bytesWritten` bytes.  They are all in the buffer, so
    `remove_prefix` does not throw. -/
def Writing.advance (w : Writing) (bytesWritten : Nat) : Writing :=
  { w with
    fd := w.fd.registerWrite
    buffer := (w.buffer.removePrefix bytesWritten).2
    totalBytesWritten := w.totalBytesWritten + bytesWritten
    calls := w.calls + 1
    taken := w.taken ++ w.buffer.concatenate.take bytesWritten }

/-- One iteration: a call of `writev`, which takes so many bytes from the front of the buffer. -/
def writeStep (writeAll : Bool) (kernel : Nat → Except String Nat) (w : Writing) :
    ForInStep Writing :=
  match systemCall "writev" (kernel w.calls) with
  | .error e => .done { w with thrown := some e }
  | .ok bytesWritten =>
    if bytesWritten = 0 ∧ w.buffer.size ≠ 0 then
      let e := .runtimeError "write returned 0 given non-empty input buffer"
      .done { w with thrown := some e }
    else if bytesWritten > w.buffer.size then
      let e := .runtimeError "write wrote more than length of input buffer"
      .done { w with thrown := some e }
    else
      let w := w.advance bytesWritten
      if writeAll ∧ w.buffer.size ≠ 0 then .yield w else .done w

/-- Write a buffer, in one call or until all of it is written.  An iteration that goes on has
    written something, so the size of the buffer bounds their number. -/
def write (fd : FileDescriptor) (buffer : BufferViewList) (writeAll : Bool)
    (kernel : Nat → Except String Nat) : Writing :=
  Loop.run (writeStep writeAll kernel) (buffer.size + 1) { fd := fd, buffer := buffer }

/-- The kernel takes bytes of a buffer: no more than there are, and some if there are any. -/
def Takes (buffer : BufferViewList) (answer : Except String Nat) : Prop :=
  ∃ n, answer = .ok n ∧ n ≤ buffer.size ∧ (buffer.size ≠ 0 → n ≠ 0)

/-- What an iteration can do: throw, because the kernel does not take anything, or go on to the
    next bytes. -/
theorem writeStep_cases (writeAll : Bool) (kernel : Nat → Except String Nat) (w : Writing) :
    (¬ Takes w.buffer (kernel w.calls) ∧
        ∃ e, CallFailure e ∧ writeStep writeAll kernel w = .done { w with thrown := some e }) ∨
      ∃ n, kernel w.calls = .ok n ∧ n ≤ w.buffer.size ∧ (w.buffer.size ≠ 0 → n ≠ 0) ∧
        writeStep writeAll kernel w =
          if writeAll ∧ (w.advance n).buffer.size ≠ 0 then .yield (w.advance n)
          else .done (w.advance n) := by
  unfold writeStep Takes
  cases hkernel : kernel w.calls with
  | error what => exact Or.inl ⟨by simp, _, .refused "writev" what (by simp), rfl⟩
  | ok n =>
    simp only [systemCall, Except.ok.injEq, exists_eq_left']
    -- the two answers that no kernel gives are errors, too
    by_cases hzero : n = 0 ∧ w.buffer.size ≠ 0
    · rw [if_pos hzero]
      exact Or.inl ⟨fun h => h.2 hzero.2 hzero.1, _, .wroteNothing, rfl⟩
    rw [if_neg hzero]
    by_cases hmore : n > w.buffer.size
    · rw [if_pos hmore]
      exact Or.inl ⟨fun h => by omega, _, .wroteMore, rfl⟩
    rw [if_neg hmore]
    exact Or.inr ⟨by omega, fun hsize hn => hzero ⟨hn, hsize⟩, rfl⟩

/-- The loop at work on `buffer`: what the kernel has taken and what is left make it up. -/
structure Writing.Splits (fd : FileDescriptor) (buffer : BufferViewList) (w : Writing) : Prop where
  whole : w.taken ++ w.buffer.concatenate = buffer.concatenate
  total : w.totalBytesWritten = w.taken.length
  count : w.fd = { fd with writeCount := fd.writeCount + .ofNat w.calls }

section

variable {fd : FileDescriptor} {buffer : BufferViewList} {w : Writing} {n : Nat}

/-- The bytes taken leave the buffer from the front. -/
theorem Writing.concatenate_advance (hn : n ≤ w.buffer.size) :
    (w.advance n).buffer.concatenate = w.buffer.concatenate.drop n := by
  obtain ⟨-, hrest⟩ := BufferViewList.removePrefix_of_le hn
  exact hrest

/-- An answer of the kernel moves bytes from what is left to what is taken. -/
theorem Writing.Splits.advance (h : w.Splits fd buffer) (hn : n ≤ w.buffer.size) :
    (w.advance n).Splits fd buffer where
  whole := by
    rw [concatenate_advance hn, ← h.whole]
    simp [Writing.advance]
  total := by
    rw [w.buffer.size_eq_length] at hn
    simp [Writing.advance, h.total, hn]
  count := by
    have hcount := h.count
    simp only [Writing.advance, registerWrite, hcount, FileDescriptor.mk.injEq, true_and]
    rw [UInt32.ofNat_add, ← add_assoc]
    rfl

/-- Before an iteration nothing has been thrown, and every call so far has taken something. -/
def Writing.Goes (writeAll : Bool) (w : Writing) : Prop :=
  w.thrown = none ∧ w.calls ≤ w.taken.length ∧
    (writeAll = false → w.calls = 0 ∧ w.totalBytesWritten = 0)

/-- After the last iteration: the kernel has refused, or all has been written, or the one call has
    been made. -/
def Writing.Over (writeAll : Bool) (kernel : Nat → Except String Nat) (w : Writing) : Prop :=
  (∃ e, w.thrown = some e ∧ CallFailure e ∧ ¬ Takes w.buffer (kernel w.calls) ∧
      (writeAll = false → w.calls = 0 ∧ w.totalBytesWritten = 0)) ∨
    (w.thrown = none ∧ 0 < w.calls ∧ w.calls ≤ w.taken.length + 1 ∧
      (writeAll = true → w.buffer.size = 0) ∧
      (writeAll = false → w.calls = 1 ∧ kernel 0 = .ok w.totalBytesWritten))

variable {writeAll : Bool} {kernel : Nat → Except String Nat} {w' : Writing}

/-- **The last iteration**: an exception, everything written, or the only call that was to be made.
    -/
theorem writeStep_done (h : w.Splits fd buffer) (hgoes : w.Goes writeAll)
    (hstep : writeStep writeAll kernel w = .done w') :
    w'.Splits fd buffer ∧ w'.Over writeAll kernel := by
  obtain ⟨hnone, hcalls, hfirst⟩ := hgoes
  -- the loop ends with an exception, or after a round that was the last
  obtain ⟨hrefused, e, hcall, heq⟩ | ⟨n, hn, hle, hpos, heq⟩ := writeStep_cases writeAll kernel w
  · rw [heq] at hstep
    cases hstep
    exact ⟨⟨h.whole, h.total, h.count⟩, Or.inl ⟨e, rfl, hcall, hrefused, hfirst⟩⟩
  · rw [heq] at hstep
    by_cases hmore : writeAll ∧ (w.advance n).buffer.size ≠ 0
    · rw [if_pos hmore] at hstep
      cases hstep
    rw [if_neg hmore] at hstep
    cases hstep
    refine ⟨h.advance hle, Or.inr ⟨hnone, Nat.succ_pos _, ?_, fun hall => ?_, fun hone => ?_⟩⟩
    · simp only [Writing.advance, List.length_append]
      omega
    · by_contra hsize
      exact hmore ⟨hall, hsize⟩
    · -- without `write_all` this was the first round
      obtain ⟨hzero, htotal⟩ := hfirst hone
      rw [hzero] at hn
      simp [Writing.advance, hzero, htotal, hn]

/-- **Any other iteration** takes at least one byte, so the buffer shrinks. -/
theorem writeStep_yield (h : w.Splits fd buffer) (hgoes : w.Goes writeAll)
    (hstep : writeStep writeAll kernel w = .yield w') :
    (w'.Splits fd buffer ∧ w'.Goes writeAll) ∧ w'.buffer.size < w.buffer.size := by
  obtain ⟨hnone, hcalls, -⟩ := hgoes
  obtain ⟨-, e, -, heq⟩ | ⟨n, -, hle, hpos, heq⟩ := writeStep_cases writeAll kernel w
  · rw [heq] at hstep
    cases hstep
  · rw [heq] at hstep
    by_cases hmore : writeAll ∧ (w.advance n).buffer.size ≠ 0
    swap
    · rw [if_neg hmore] at hstep
      cases hstep
    rw [if_pos hmore] at hstep
    cases hstep
    -- something is left, so the buffer was not empty and the kernel has taken a part of it
    have hsize : (w.advance n).buffer.size = w.buffer.size - n := by
      rw [BufferViewList.size_eq_length, Writing.concatenate_advance hle, List.length_drop,
        ← BufferViewList.size_eq_length]
    have hne : n ≠ 0 := hpos (by have hleft := hmore.2; omega)
    have hlength : (w.buffer.concatenate.take n).length = n := by
      rw [List.length_take, ← BufferViewList.size_eq_length]
      omega
    refine ⟨⟨h.advance hle, hnone, ?_, fun hone => absurd hmore.1 (by simp [hone])⟩, by omega⟩
    simp only [Writing.advance, List.length_append, hlength]
    omega

end

/-- The loop of `write` ends by a `break`, whatever the kernel answers. -/
theorem write_over (fd : FileDescriptor) (buffer : BufferViewList) (writeAll : Bool)
    (kernel : Nat → Except String Nat) :
    ((fd.write buffer writeAll kernel).Splits fd buffer ∧
        (fd.write buffer writeAll kernel).Over writeAll kernel) ∧
      ∀ fuel, buffer.size < fuel →
        Loop.run (writeStep writeAll kernel) fuel { fd := fd, buffer := buffer }
          = fd.write buffer writeAll kernel :=
  Loop.run_total (μ := fun w : Writing => w.buffer.size)
    (P := fun w => w.Splits fd buffer ∧ w.Goes writeAll)
    (Q := fun w => w.Splits fd buffer ∧ w.Over writeAll kernel)
    (fun _ _ h hstep => writeStep_done h.1 h.2 hstep)
    (fun _ _ h hstep => writeStep_yield h.1 h.2 hstep)
    ⟨⟨rfl, rfl, by simp⟩, rfl, le_refl _, fun _ => ⟨rfl, rfl⟩⟩ (Nat.lt_succ_self _)

/-- What one call for the whole of a buffer can do: the kernel refuses and nothing has happened, or
    it takes the first bytes. -/
theorem write_once (fd : FileDescriptor) (buffer : BufferViewList)
    (kernel : Nat → Except String Nat) :
    let w := fd.write buffer false kernel
    (∃ e, CallFailure e ∧ w.result = .error e ∧ w.fd = fd ∧ w.taken = []) ∨
      ∃ n ≤ buffer.size, kernel 0 = .ok n ∧ w.result = .ok n ∧ w.fd = fd.registerWrite ∧
        w.taken = buffer.concatenate.take n := by
  intro w
  obtain ⟨⟨hsplits, hover⟩, -⟩ := write_over fd buffer false kernel
  have hcount := hsplits.count
  obtain ⟨e, hthrown, hcall, -, hfirst⟩ | ⟨hnone, -, -, -, hone⟩ := hover
  · -- in the first round nothing has been written before
    obtain ⟨hcalls, htotal⟩ := hfirst rfl
    refine Or.inl ⟨e, hcall, by rw [Writing.result, hthrown], ?_, ?_⟩
    · rw [hcount, hcalls]
      simp
    · rw [← List.length_eq_zero_iff, ← hsplits.total, htotal]
  · obtain ⟨hcalls, hkernel⟩ := hone rfl
    have hsize := congrArg List.length hsplits.whole
    rw [List.length_append, ← hsplits.total, ← buffer.size_eq_length] at hsize
    refine Or.inr ⟨_, by omega, hkernel, by rw [Writing.result, hnone], ?_, ?_⟩
    · rw [hcount, hcalls]
      rfl
    · rw [← hsplits.whole, hsplits.total, List.take_left']
      rfl

/-- A call that was to write everything, and returns, has written everything. -/
theorem write_all (fd : FileDescriptor) (buffer : BufferViewList)
    (kernel : Nat → Except String Nat) (h : (fd.write buffer true kernel).thrown = none) :
    (fd.write buffer true kernel).taken = buffer.concatenate := by
  obtain ⟨⟨hsplits, hover⟩, -⟩ := write_over fd buffer true kernel
  obtain ⟨e, hthrown, -⟩ | ⟨-, -, -, hall, -⟩ := hover
  · rw [h] at hthrown
    cases hthrown
  have hempty := hall rfl
  rw [BufferViewList.size_eq_length, List.length_eq_zero_iff] at hempty
  rw [← hsplits.whole, hempty, List.append_nil]

/-- **What is written.**  The loop of `write` ends, whatever the kernel answers.  The bytes it has
    taken are the first ones of the buffer, in order, and the others are left.  A call that returns
    has had at least one answer and counts the bytes taken: all there are if all were to be written,
    and otherwise those of the one answer.  A call throws only where the kernel does not take
    anything from a buffer with bytes in it, or claims more than there are.  The write counter has
    counted the calls that succeeded. -/
theorem write_exact (fd : FileDescriptor) (buffer : BufferViewList) (writeAll : Bool)
    (kernel : Nat → Except String Nat) :
    let w := fd.write buffer writeAll kernel
    (∀ fuel, buffer.size < fuel →
        Loop.run (writeStep writeAll kernel) fuel { fd := fd, buffer := buffer } = w) ∧
      w.taken ++ w.buffer.concatenate = buffer.concatenate ∧
      w.fd = { fd with writeCount := fd.writeCount + .ofNat w.calls } ∧
      (∀ n, w.result = .ok n → n = w.taken.length ∧ 0 < w.calls ∧ w.calls ≤ w.taken.length + 1 ∧
        (writeAll = true → w.taken = buffer.concatenate) ∧
        (writeAll = false → w.calls = 1 ∧ kernel 0 = .ok n)) ∧
      (∀ e, w.result = .error e → ¬ Takes w.buffer (kernel w.calls)) := by
  intro w
  obtain ⟨⟨hsplits, hover⟩, hfuel⟩ := write_over fd buffer writeAll kernel
  refine ⟨hfuel, hsplits.whole, hsplits.count, fun n hresult => ?_, fun e hresult => ?_⟩
  · -- a returned number means that no round has thrown
    obtain ⟨e, hthrown, -⟩ | ⟨hnone, hpos, hcalls, -, hone⟩ := hover
    · rw [Writing.result, hthrown] at hresult
      cases hresult
    rw [Writing.result, hnone] at hresult
    obtain rfl : w.totalBytesWritten = n := Except.ok.inj hresult
    refine ⟨hsplits.total, hpos, hcalls, fun hflag => ?_, hone⟩
    subst hflag
    exact write_all fd buffer kernel hnone
  · obtain ⟨-, -, -, hrefused, -⟩ | ⟨hnone, -⟩ := hover
    · exact hrefused
    · rw [Writing.result, hnone] at hresult
      cases hresult

/-! ### Packets -/

/-- Write a packet to a device that takes it whole or fails, and what the device has got.  The call
    returns no other number but the size of the packet, so `FileDescriptor.write` never comes back
    with the rest of one. -/
def writePacket (fd : FileDescriptor) (packet : BufferList) (answer : PacketAnswer) :
    Except Exception Unit × FileDescriptor × List (List UInt8) :=
  let w := fd.write (.ofBufferList packet) true fun _ =>
    (answer packet.size).map fun _ => packet.size
  match w.thrown with
  | some e => (.error e, w.fd, [])
  | none => (.ok (), w.fd, [w.taken])

/-- A device gets a packet whole or not at all. -/
theorem mem_writePacket {fd : FileDescriptor} {packet : BufferList} {answer : PacketAnswer}
    {bytes : List UInt8} (h : bytes ∈ (fd.writePacket packet answer).2.2) :
    bytes = packet.concatenate := by
  unfold writePacket at h
  dsimp only at h
  split at h
  · cases h
  · rename_i hnone
    rw [List.mem_singleton.mp h, write_all _ _ _ hnone, BufferViewList.concatenate_ofBufferList]

/-- Only the kernel can make the write of a packet throw. -/
theorem writePacket_error {fd : FileDescriptor} {packet : BufferList} {answer : PacketAnswer}
    {e : Exception} (h : (fd.writePacket packet answer).1 = .error e) : CallFailure e := by
  unfold writePacket at h
  dsimp only at h
  split at h
  · rename_i hthrown
    obtain ⟨e', hthrown', hcall, -⟩ | ⟨hnone, -⟩ := (write_over fd _ true _).1.2
    · rw [hthrown', Option.some.injEq] at hthrown
      rw [← Except.error.inj h, ← hthrown]
      exact hcall
    · rw [hnone] at hthrown
      cases hthrown
  · cases h

theorem writePacket_readCount (fd : FileDescriptor) (packet : BufferList)
    (answer : PacketAnswer) :
    (fd.writePacket packet answer).2.1.readCount = fd.readCount := by
  unfold writePacket
  dsimp only
  split <;> rw [(write_over _ _ _ _).1.1.count]

end FileDescriptor

end Sponge
