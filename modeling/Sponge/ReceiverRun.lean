import Sponge.TCPReceiver

namespace Sponge

open Pieces Slice

/-!
# Runs of a receiver

The segments of one sender arrive in any order, duplicated and overlapping, between reads of
the assembled stream.  Each arrival is a segment that carries a part of the stream `S` at an
absolute sequence number less than `2^31` away from the bytes written so far.  The stream may
be of any length; the arriving part of it must have absolute sequence numbers of 64 bits.

`receiver_correct` is the result: before the SYN nothing is acknowledged or stored, and after
it the assembled bytes are a prefix of `S` and the acknowledgment number is the wrapped
position after them, one further once the FIN counts.
-/

/-- A receiver with the history of its run: the bytes read out, and whether a SYN and a FIN
    have arrived. -/
structure ReceiverState where
  receiver : TCPReceiver
  taken : List UInt8
  synArrived : Bool
  finArrived : Bool

namespace ReceiverState

def start (capacity : Nat) (rand : WrappingInt32) : ReceiverState :=
  ⟨TCPReceiver.new capacity rand, [], false, false⟩

/-- A segment arrives. -/
def arrive (st : ReceiverState) (seg : TCPSegment) : ReceiverState where
  receiver := st.receiver.segmentReceived seg
  taken := st.taken
  synArrived := st.synArrived || seg.header.syn
  finArrived := st.finArrived || seg.header.fin

def read (st : ReceiverState) (len : Nat) : ReceiverState :=
  { st with receiver := (st.receiver.read len).2, taken := st.taken ++ (st.receiver.read len).1 }

def pop (st : ReceiverState) (len : Nat) : ReceiverState :=
  { st with
    receiver := st.receiver.popOutput len
    taken := st.taken ++ st.receiver.streamOut.peekOutput len }

/-- The assembled bytes: those read out and those still in the output stream. -/
def assembled (st : ReceiverState) : List UInt8 := st.taken ++ st.receiver.streamOut.bufferList

end ReceiverState

/-- The states a receiver can be in after segments of the stream `S` have arrived. -/
inductive ReceiverRun (S : List UInt8) (isn : WrappingInt32) (capacity : Nat)
    (rand : WrappingInt32) : ReceiverState → Prop where
  | start : ReceiverRun S isn capacity rand (.start capacity rand)
  | arrive {st : ReceiverState} (v : Nat) (seg : TCPSegment)
      (h : ReceiverRun S isn capacity rand st) (hseg : Carries S isn v seg)
      (hnear : Near v st.receiver.streamOut.bytesWritten)
      (hfit : v + seg.lengthInSequenceSpace < 2 ^ 64) :
      ReceiverRun S isn capacity rand (st.arrive seg)
  | read {st : ReceiverState} (len : Nat) (h : ReceiverRun S isn capacity rand st) :
      ReceiverRun S isn capacity rand (st.read len)
  | pop {st : ReceiverState} (len : Nat) (h : ReceiverRun S isn capacity rand st) :
      ReceiverRun S isn capacity rand (st.pop len)

/-- Nothing has been stored or written. -/
def TCPReceiver.Untouched (r : TCPReceiver) : Prop :=
  r.reassembler.reassembleBuffer.entries = [] ∧ r.reassembler.unassembledBytes = 0 ∧
    r.streamOut.bytesWritten = 0

/-- The invariant of a run. -/
structure ReceiverInv (S : List UInt8) (isn : WrappingInt32) (st : ReceiverState) : Prop where
  holds : ∃ seen, (seen = true → st.finArrived = true) ∧
    st.receiver.reassembler.Holds S seen (fun _ => False) (fun p => p < 2 ^ 64 - 2) st.taken
  listening : st.receiver.inListen = true → st.synArrived = false ∧ st.receiver.Untouched
  synchronized : st.receiver.inListen = false → st.synArrived = true ∧ st.receiver.isn = isn

variable {S : List UInt8} {isn rand : WrappingInt32} {capacity : Nat} {st : ReceiverState}

/-- A receiver without a SYN has received nothing. -/
theorem start_receiverInv : ReceiverInv S isn (.start capacity rand) where
  holds := ⟨false, by simp, (StreamReassembler.new_holds S capacity).weaken (fun _ => id) (by simp)⟩
  listening := fun _ => ⟨rfl, rfl, rfl, rfl⟩
  synchronized := by simp [ReceiverState.start, TCPReceiver.new]

/-- **Step lemma.**  The arrival of a segment of `S` keeps the invariant. -/
theorem arrive_receiverInv (h : ReceiverInv S isn st) {v : Nat} {seg : TCPSegment}
    (hseg : Carries S isn v seg) (hnear : Near v st.receiver.streamOut.bytesWritten)
    (hfit : v + seg.lengthInSequenceSpace < 2 ^ 64) : ReceiverInv S isn (st.arrive seg) := by
  obtain ⟨seen, hfin, hholds⟩ := h.holds
  have hend := hseg.end_lt hfit
  have hspan : ∀ p, p < 2 ^ 64 - 2 ∨ StreamReassembler.Span (v - 1) seg.payload p →
      p < 2 ^ 64 - 2 := by
    rintro p (hp | ⟨hlo, hhi⟩)
    · exact hp
    · omega
  rcases TCPReceiver.segmentReceived_holds hholds hseg (fun hl => (h.synchronized hl).2) hnear
    (by omega) hspan with ⟨hlisten, hflag, hsame⟩ | ⟨hsyn, hlisten, hisn, seen', hseen', hnew⟩
  · -- before the SYN: the segment is dropped
    obtain ⟨hnone, huntouched⟩ := h.listening hlisten
    constructor
    case holds =>
      show ∃ seen, _ ∧ (st.receiver.segmentReceived seg).reassembler.Holds S seen _ _ st.taken
      rw [hsame]
      exact ⟨seen, fun hs => by simp [ReceiverState.arrive, hfin hs], hholds⟩
    case listening =>
      show _ → _ ∧ (st.receiver.segmentReceived seg).Untouched
      rw [hsame]
      exact fun _ => ⟨by simp [ReceiverState.arrive, hnone, hflag], huntouched⟩
    case synchronized =>
      show (st.receiver.segmentReceived seg).inListen = false → _
      rw [hsame, hlisten]
      exact fun hcontra => absurd hcontra (by simp)
  · -- the SYN has arrived, with this segment or before it
    constructor
    case holds =>
      refine ⟨seen', fun hs => ?_, hnew.weaken (fun _ hp => hp.elim) hspan⟩
      rcases hseen' hs with hs | hs
      · simp [ReceiverState.arrive, hfin hs]
      · simp [ReceiverState.arrive, hs]
    case listening =>
      show (st.receiver.segmentReceived seg).inListen = true → _
      rw [hlisten]
      exact fun hcontra => absurd hcontra (by simp)
    case synchronized =>
      refine fun _ => ⟨?_, hisn⟩
      show (st.synArrived || seg.header.syn) = true
      rcases hsyn with hold | hflag
      · rw [(h.synchronized hold).1, Bool.true_or]
      · rw [hflag, Bool.or_true]

/-- Reading keeps the invariant: only the reader's side of the output stream moves. -/
theorem read_receiverInv (h : ReceiverInv S isn st) (len : Nat) :
    ReceiverInv S isn (st.read len) := by
  obtain ⟨seen, hfin, hholds⟩ := h.holds
  constructor
  case holds => exact ⟨seen, hfin, StreamReassembler.read_holds hholds len⟩
  case listening =>
    intro hl
    obtain ⟨hsyn, hmap, hbytes, hzero⟩ := h.listening hl
    refine ⟨hsyn, hmap, hbytes, ?_⟩
    show (st.receiver.reassembler.output.read len).2.bytesWritten = 0
    rw [ByteStream.read_bytesWritten]
    exact hzero
  case synchronized => exact h.synchronized

/-- Popping is reading bytes that nobody looks at. -/
theorem pop_receiverInv (h : ReceiverInv S isn st) (len : Nat) :
    ReceiverInv S isn (st.pop len) := by
  obtain ⟨seen, hfin, hholds⟩ := h.holds
  constructor
  case holds => exact ⟨seen, hfin, StreamReassembler.popOutput_holds hholds len⟩
  case listening => exact h.listening
  case synchronized => exact h.synchronized

/-- **Run lemma.**  The invariant holds in every state a receiver can be in. -/
theorem ReceiverRun.inv (h : ReceiverRun S isn capacity rand st) : ReceiverInv S isn st := by
  induction h with
  | start => exact start_receiverInv
  | arrive v seg _ hseg hnear hfit ih => exact arrive_receiverInv ih hseg hnear hfit
  | read len _ ih => exact read_receiverInv ih len
  | pop len _ ih => exact pop_receiverInv ih len

/-- **The receiver is correct across wraparound.**  Before a SYN has arrived nothing is
    acknowledged and nothing is stored.  Afterwards the assembled bytes are the first
    `bytesWritten` bytes of `S`, the acknowledgment number is the wrapped position after them,
    and the stream is closed only when a FIN has arrived and all of `S` is assembled. -/
theorem receiver_correct (h : ReceiverRun S isn capacity rand st) :
    (st.synArrived = false ∧ st.receiver.ackno = none ∧ st.receiver.Untouched) ∨
      (st.synArrived = true ∧
        st.receiver.streamOut.bytesWritten ≤ S.length ∧
        st.assembled = S.take st.receiver.streamOut.bytesWritten ∧
        st.receiver.ackno = some (wrap (.ofNat (1 + st.receiver.streamOut.bytesWritten +
          if st.receiver.streamOut.inputEnded then 1 else 0)) isn) ∧
        (st.receiver.streamOut.inputEnded = true →
          st.assembled = S ∧ st.finArrived = true)) := by
  have hinv := h.inv
  by_cases hlisten : st.receiver.inListen = true
  · obtain ⟨hsyn, huntouched⟩ := hinv.listening hlisten
    exact Or.inl ⟨hsyn, by rw [TCPReceiver.ackno, if_pos hlisten], huntouched⟩
  · obtain ⟨hsyn, hisn⟩ := hinv.synchronized (by simpa using hlisten)
    obtain ⟨seen, hfin, hholds⟩ := hinv.holds
    have hexp : st.receiver.reassembler.expected = st.receiver.streamOut.bytesWritten :=
      hholds.expected_eq
    have hle := hholds.expected_le
    have hassembled : st.assembled = S.take st.receiver.streamOut.bytesWritten := by
      rw [← hexp]
      exact hholds.assembled
    refine Or.inr ⟨hsyn, by omega, hassembled, ?_, fun hended => ?_⟩
    · rw [TCPReceiver.ackno, if_neg hlisten, hisn, TCPReceiver.absAck,
        Nat.add_comm _ 1]
    · -- the end was seen, which only a FIN can have told, and the prefix has reached it
      obtain ⟨hseen, hfull⟩ := hholds.ended_iff.mp hended
      refine ⟨?_, hfin hseen⟩
      rw [hassembled, ← hexp, hfull, List.take_length]

/-- The stream `abc` behind an initial sequence number that wraps: its end arrives first. -/
theorem receiver_correct_abc : ∃ st, ReceiverRun [97, 98, 99] ⟨0xFFFFFFFE⟩ 4 ⟨7⟩ st ∧
    st.assembled = [97, 98, 99] ∧ st.receiver.ackno = some ⟨3⟩ ∧
      st.receiver.streamOut.inputEnded = true := by
  have hsyn : ReceiverRun [97, 98, 99] ⟨0xFFFFFFFE⟩ 4 ⟨7⟩ _ :=
    .arrive 0 ⟨{ seqno := ⟨0xFFFFFFFE⟩, syn := true }, []⟩ .start
      ⟨by decide, by decide, by decide, by decide⟩ (by decide) (by decide)
  have hend : ReceiverRun [97, 98, 99] ⟨0xFFFFFFFE⟩ 4 ⟨7⟩ _ :=
    .arrive 2 ⟨{ seqno := ⟨0⟩, fin := true }, [98, 99]⟩ hsyn
      ⟨by decide, by decide, by decide, by decide⟩ (by decide) (by decide)
  have hall : ReceiverRun [97, 98, 99] ⟨0xFFFFFFFE⟩ 4 ⟨7⟩ _ :=
    .arrive 1 ⟨{ seqno := ⟨0xFFFFFFFF⟩ }, [97, 98]⟩ hend
      ⟨by decide, by decide, by decide, by decide⟩ (by decide) (by decide)
  rcases receiver_correct hall with ⟨hnone, -⟩ | ⟨-, -, hassembled, hackno, -⟩
  · exact absurd hnone (by decide)
  · exact ⟨_, hall, hassembled.trans (by decide), hackno.trans (by decide), by decide⟩

end Sponge
