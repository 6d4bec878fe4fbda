import Sponge.ReassemblerInvariant
import Sponge.TCPSegment

namespace Sponge

open Pieces Slice

/-!
# The TCP receiver

The receiver turns the 32-bit sequence number of an arriving segment into a stream index,
drops what lies behind its window and hands the rest to the reassembler; back to the sender
it gives an acknowledgment number and a window size.

`segmentReceived_holds` is the step lemma: the arrival of a segment that carries a part of a
stream `S`, near the receiver's checkpoint, keeps what the reassembler holds of `S`.  Nothing
bounds the length of `S` but the 64 bits of an absolute sequence number.
-/

/-- The receiver's state. -/
structure TCPReceiver where
  reassembler : StreamReassembler
  isn : WrappingInt32
  inListen : Bool

namespace TCPReceiver

/-- A fresh receiver; its `isn` is arbitrary until a SYN arrives. -/
def new (capacity : Nat) (isn : WrappingInt32) : TCPReceiver where
  reassembler := StreamReassembler.new capacity
  isn := isn
  inListen := true

def streamOut (r : TCPReceiver) : ByteStream := r.reassembler.streamOut

theorem streamOut_eq (r : TCPReceiver) : r.streamOut = r.reassembler.output := rfl

def unassembledBytes (r : TCPReceiver) : Nat := r.reassembler.unassembledBytes

/-- The absolute acknowledgment number: SYN, the bytes written, and FIN once it counts. -/
def absAck (r : TCPReceiver) : Nat :=
  r.streamOut.bytesWritten + 1 + (if r.streamOut.inputEnded then 1 else 0)

/-- The acknowledgment number for the peer; none before a SYN has arrived. -/
def ackno (r : TCPReceiver) : Option WrappingInt32 :=
  if r.inListen then none else some (wrap (.ofNat r.absAck) r.isn)

/-- The window size for the peer. -/
def windowSize (r : TCPReceiver) : Nat := r.streamOut.remainingCapacity

/-- The absolute sequence number of a segment, unwrapped against the bytes written. -/
def absSeq (r : TCPReceiver) (seg : TCPSegment) : Nat :=
  (unwrap seg.header.seqno r.isn (.ofNat r.streamOut.bytesWritten)).toNat

/-- The index of a segment's payload in the stream. -/
def streamIndex (r : TCPReceiver) (seg : TCPSegment) : Nat :=
  subSize (r.absSeq seg) (if seg.header.syn then 0 else 1)

/-- The part of `segment_received` after the SYN has been seen to: check the segment against
    the window and push its payload. -/
def pushSegment (r : TCPReceiver) (seg : TCPSegment) : TCPReceiver :=
  if r.absSeq seg ≥ addSize r.absAck r.windowSize then r
  else
    { r with
      reassembler := r.reassembler.pushSubstring seg.payload (r.streamIndex seg) seg.header.fin }

/-- Handle an inbound segment. -/
def segmentReceived (r : TCPReceiver) (seg : TCPSegment) : TCPReceiver :=
  if r.inListen then
    if seg.header.syn then pushSegment { r with inListen := false, isn := seg.header.seqno } seg
    else r
  else pushSegment r seg

/-- Read bytes from the output stream, as its reader does. -/
def read (r : TCPReceiver) (len : Nat) : List UInt8 × TCPReceiver :=
  ((r.reassembler.read len).1, { r with reassembler := (r.reassembler.read len).2 })

/-- Pop bytes from the output stream, as its reader does. -/
def popOutput (r : TCPReceiver) (len : Nat) : TCPReceiver :=
  { r with reassembler := r.reassembler.popOutput len }

/-- Put the output stream into the error state. -/
def setError (r : TCPReceiver) : TCPReceiver := { r with reassembler := r.reassembler.setError }

end TCPReceiver

/-! ### Receiving a stream -/

namespace TCPReceiver

variable {S taken : List UInt8} {seen : Bool} {Q P : Nat → Prop} {r : TCPReceiver}
  {isn : WrappingInt32} {seg : TCPSegment} {v : Nat}

/-- A near segment is unwrapped to its true absolute sequence number, and its payload to its
    true stream index. -/
theorem pushSegment_eq (hseg : Carries S isn v seg) (hisn : r.isn = isn)
    (hnear : Near v r.streamOut.bytesWritten) :
    r.pushSegment seg =
      if v ≥ addSize r.absAck r.windowSize then r
      else { r with
        reassembler := r.reassembler.pushSubstring seg.payload (v - 1) seg.header.fin } := by
  have habs : r.absSeq seg = v := by
    rw [absSeq, hseg.seqno, hisn]
    exact hnear.unwrap_wrap isn
  have hindex : r.streamIndex seg = v - 1 := by
    have hv := hnear.1
    rw [streamIndex, habs, subSize]
    by_cases hsyn : seg.header.syn = true
    · have h0 := hseg.syn_iff.mp hsyn
      rw [if_pos hsyn]
      omega
    · have hne : v ≠ 0 := fun h => hsyn (hseg.syn_iff.mpr h)
      rw [if_neg hsyn]
      omega
  rw [pushSegment, habs, hindex]

/-- The window check lets a segment at `v` through. -/
def InWindow (r : TCPReceiver) (v : Nat) : Prop := v < addSize r.absAck r.windowSize

/-- What must be kept after the segment: what was to be kept, and the positions of a segment
    that passed the window check, as far as the output stream has room. -/
def Keeps (r : TCPReceiver) (v : Nat) (seg : TCPSegment) (Q : Nat → Prop) (p : Nat) : Prop :=
  Q p ∨ (r.InWindow v ∧ StreamReassembler.Span (v - 1) seg.payload p ∧ p < r.reassembler.limit)

/-- A segment that carries a part of `S` keeps what the reassembler holds of `S`. -/
theorem pushSegment_holds (h : r.reassembler.Holds S seen Q P taken) (hseg : Carries S isn v seg)
    (hisn : r.isn = isn) (hnear : Near v r.streamOut.bytesWritten)
    (hfit : v - 1 + seg.payload.length < 2 ^ 64)
    (hP : ∀ p, P p ∨ StreamReassembler.Span (v - 1) seg.payload p → p < 2 ^ 64 - 2) :
    ∃ seen', (seen' = true → seen = true ∨ seg.header.fin = true) ∧
      (r.pushSegment seg).reassembler.Holds S seen' (r.Keeps v seg Q)
        (fun p => P p ∨ StreamReassembler.Span (v - 1) seg.payload p) taken := by
  rw [pushSegment_eq hseg hisn hnear]
  by_cases hwin : v ≥ addSize r.absAck r.windowSize
  · -- rejected: nothing new has to be kept
    rw [if_pos hwin]
    refine ⟨seen, Or.inl, h.weaken (fun p hp => ?_) (fun _ => Or.inl)⟩
    rcases hp with hp | ⟨hin, -⟩
    · exact hp
    · exact absurd hin (by unfold InWindow; omega)
  · rw [if_neg hwin]
    refine ⟨seen || seg.header.fin, by simp, ?_⟩
    refine (StreamReassembler.pushSubstring_holds h hseg.payload hfit hseg.fin hP).weaken
      (fun p hp => ?_) (fun _ => id)
    rcases hp with hp | ⟨-, hspan⟩
    · exact Or.inl hp
    · exact Or.inr hspan

@[simp] theorem pushSegment_inListen (r : TCPReceiver) (seg : TCPSegment) :
    (r.pushSegment seg).inListen = r.inListen := by
  unfold pushSegment; split <;> rfl

@[simp] theorem pushSegment_isn (r : TCPReceiver) (seg : TCPSegment) :
    (r.pushSegment seg).isn = r.isn := by
  unfold pushSegment; split <;> rfl

/-- **Step lemma.**  A segment that carries a part of `S` either arrives before the SYN and is
    dropped, or leaves the receiver synchronized and keeps what it holds of `S`. -/
theorem segmentReceived_holds (h : r.reassembler.Holds S seen Q P taken)
    (hseg : Carries S isn v seg) (hisn : r.inListen = false → r.isn = isn)
    (hnear : Near v r.streamOut.bytesWritten) (hfit : v - 1 + seg.payload.length < 2 ^ 64)
    (hP : ∀ p, P p ∨ StreamReassembler.Span (v - 1) seg.payload p → p < 2 ^ 64 - 2) :
    (r.inListen = true ∧ seg.header.syn = false ∧ r.segmentReceived seg = r) ∨
      ((r.inListen = false ∨ seg.header.syn = true) ∧
        (r.segmentReceived seg).inListen = false ∧ (r.segmentReceived seg).isn = isn ∧
        ∃ seen', (seen' = true → seen = true ∨ seg.header.fin = true) ∧
          (r.segmentReceived seg).reassembler.Holds S seen' (r.Keeps v seg Q)
            (fun p => P p ∨ StreamReassembler.Span (v - 1) seg.payload p) taken) := by
  by_cases hlisten : r.inListen = true
  · by_cases hsyn : seg.header.syn = true
    · -- the SYN: its number becomes the receiver's `isn`
      have hnew : seg.header.seqno = isn := by
        rw [hseg.seqno, hseg.syn_iff.mp hsyn, wrap_zero]
      have hpush := pushSegment_holds (r := { r with inListen := false, isn := seg.header.seqno })
        h hseg hnew hnear hfit hP
      rw [segmentReceived, if_pos hlisten, if_pos hsyn]
      exact Or.inr ⟨Or.inr hsyn, by rw [pushSegment_inListen], by rw [pushSegment_isn, hnew], hpush⟩
    · rw [segmentReceived, if_pos hlisten, if_neg hsyn]
      exact Or.inl ⟨hlisten, by simpa using hsyn, rfl⟩
  · -- past the SYN every segment is checked against the window
    have hsync : r.inListen = false := by simpa using hlisten
    rw [segmentReceived, if_neg hlisten]
    exact Or.inr ⟨Or.inl hsync, by rw [pushSegment_inListen, hsync],
      by rw [pushSegment_isn, hisn hsync],
      pushSegment_holds h hseg (hisn hsync) hnear hfit hP⟩

/-- What handling a segment leaves alone, and what it only adds to. -/
def Advances (r r' : TCPReceiver) : Prop :=
  r'.streamOut.bytesRead = r.streamOut.bytesRead ∧ r'.streamOut.capacity = r.streamOut.capacity ∧
    r'.streamOut.error = r.streamOut.error ∧
    r.streamOut.bytesWritten ≤ r'.streamOut.bytesWritten ∧
    (r.streamOut.inputEnded = true → r'.streamOut.inputEnded = true)

/-- A push writes bytes, or none. -/
theorem pushSegment_advances (r : TCPReceiver) (seg : TCPSegment) :
    Advances r (r.pushSegment seg) := by
  have hframe := StreamReassembler.pushSubstring_frame r.reassembler seg.payload
    (r.streamIndex seg) seg.header.fin
  simp only [Advances, streamOut_eq]
  unfold pushSegment
  split
  · exact ⟨rfl, rfl, rfl, le_refl _, id⟩
  · exact hframe

/-- **Whatever arrives**, the receiver only moves on. -/
theorem segmentReceived_advances (r : TCPReceiver) (seg : TCPSegment) :
    Advances r (r.segmentReceived seg) := by
  unfold segmentReceived
  split
  · split
    · exact pushSegment_advances _ seg
    · exact ⟨rfl, rfl, rfl, le_refl _, id⟩
  · exact pushSegment_advances r seg

/-- Where bytes are only written and the end only comes, the acknowledgment number never goes
    back. -/
theorem absAck_mono {r r' : TCPReceiver}
    (hwritten : r.streamOut.bytesWritten ≤ r'.streamOut.bytesWritten)
    (hended : r.streamOut.inputEnded = true → r'.streamOut.inputEnded = true) :
    r.absAck ≤ r'.absAck := by
  unfold absAck
  by_cases hend : r.streamOut.inputEnded = true
  · rw [if_pos hend, if_pos (hended hend)]
    omega
  · rw [if_neg hend]
    omega

theorem Advances.absAck_le {r r' : TCPReceiver} (h : Advances r r') : r.absAck ≤ r'.absAck :=
  absAck_mono h.2.2.2.1 h.2.2.2.2

/-- Beside the bytes only SYN and FIN are acknowledged. -/
theorem absAck_le_add_two (r : TCPReceiver) : r.absAck ≤ r.streamOut.bytesWritten + 2 := by
  unfold absAck
  split <;> omega

/-- The right edge of the window: the first absolute number there is no room for. -/
def edge (r : TCPReceiver) : Nat := 1 + r.streamOut.bytesRead + r.streamOut.capacity

/-- The window ends at its right edge, one further once the FIN counts. -/
theorem absAck_add_windowSize (r : TCPReceiver) :
    r.absAck + r.windowSize = r.edge + (if r.streamOut.inputEnded then 1 else 0) := by
  have hroom := r.streamOut.bytesWritten_add_remainingCapacity
  unfold absAck windowSize edge
  omega

end TCPReceiver

end Sponge
