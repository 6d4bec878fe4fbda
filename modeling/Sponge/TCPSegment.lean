import Sponge.WrappingIntegers
import Sponge.Lib.Slice

namespace Sponge

open Slice

/-!
# TCP segments

A segment as the TCP modules see it: the header fields with their defaults, and the payload
bytes.  `lengthInSequenceSpace` counts the payload and one number each for SYN and FIN.

`Carries S isn v seg` says that `seg` is a true part of the stream `S` at the absolute
sequence number `v`, and `Near v checkpoint` that `v` can be recovered from its 32 low bits.
-/

/-- The header of a segment (options are not supported). -/
structure TCPHeader where
  sport : UInt16 := 0
  dport : UInt16 := 0
  seqno : WrappingInt32 := ⟨0⟩
  ackno : WrappingInt32 := ⟨0⟩
  doff : UInt8 := 5
  urg : Bool := false
  ack : Bool := false
  psh : Bool := false
  rst : Bool := false
  syn : Bool := false
  fin : Bool := false
  win : UInt16 := 0
  cksum : UInt16 := 0
  uptr : UInt16 := 0
  deriving DecidableEq, Repr

/-- A TCP segment. -/
structure TCPSegment where
  header : TCPHeader := {}
  payload : List UInt8 := []
  deriving DecidableEq, Repr

namespace TCPSegment

/-- The segment's length in sequence space. -/
def lengthInSequenceSpace (seg : TCPSegment) : Nat :=
  seg.payload.length + (if seg.header.syn then 1 else 0) + (if seg.header.fin then 1 else 0)

/-- A segment without length carries nothing. -/
theorem lengthInSequenceSpace_eq_zero {seg : TCPSegment} :
    seg.lengthInSequenceSpace = 0 ↔
      seg.payload = [] ∧ seg.header.syn = false ∧ seg.header.fin = false := by
  unfold lengthInSequenceSpace
  cases seg.header.syn <;> cases seg.header.fin <;> simp

end TCPSegment

/-! ### Segments that carry a stream -/

/-- The absolute sequence number `v` is within `2^31` of the checkpoint, both of 64 bits: of
    the numbers with its 32 low bits, it is the closest one (below the checkpoint in case of a
    draw). -/
def Near (v checkpoint : Nat) : Prop :=
  v < 2 ^ 64 ∧ checkpoint < 2 ^ 64 ∧ v < checkpoint + 2 ^ 31 ∧ checkpoint ≤ v + 2 ^ 31

instance (v checkpoint : Nat) : Decidable (Near v checkpoint) := by
  unfold Near; infer_instance

/-- A near number is what `unwrap` finds for its wrapped form. -/
theorem Near.unwrap_wrap {v checkpoint : Nat} (h : Near v checkpoint) (isn : WrappingInt32) :
    (unwrap (wrap (.ofNat v) isn) isn (.ofNat checkpoint)).toNat = v :=
  Sponge.unwrap_wrap isn h.1 h.2.1 h.2.2.2 h.2.2.1

/-- The segment is a true part of the stream `S` at the absolute sequence number `v`: SYN
    stands at `0`, the byte of index `i` at `1 + i`, and FIN after the last byte.  A segment
    that carries nothing may have any number from `1` on. -/
structure Carries (S : List UInt8) (isn : WrappingInt32) (v : Nat) (seg : TCPSegment) : Prop where
  seqno : seg.header.seqno = wrap (.ofNat v) isn
  syn_iff : seg.header.syn = true ↔ v = 0
  payload : StandsAt S (v - 1) seg.payload
  fin : seg.header.fin = true → v - 1 + seg.payload.length = S.length

/-- Where the numbers of a segment fit into 64 bits, its bytes have smaller indices. -/
theorem Carries.end_lt {S : List UInt8} {isn : WrappingInt32} {v : Nat} {seg : TCPSegment}
    (h : Carries S isn v seg) (hfit : v + seg.lengthInSequenceSpace < 2 ^ 64) :
    v - 1 + seg.payload.length < 2 ^ 64 - 1 := by
  unfold TCPSegment.lengthInSequenceSpace at hfit
  by_cases hsyn : seg.header.syn = true
  · have hzero := h.syn_iff.mp hsyn
    rw [if_pos hsyn] at hfit
    omega
  · have hne : v ≠ 0 := fun hzero => hsyn (h.syn_iff.mpr hzero)
    omega

end Sponge
