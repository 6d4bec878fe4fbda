import Sponge.TCPSender
import Sponge.Lib.Tiling

namespace Sponge

open Slice Tiling

/-!
# What a sender keeps

`W` are the bytes its outgoing stream has accepted and `H` is the list of all segments it has
sent for the first time, each with its absolute sequence number.  The invariant
`SenderInv W H s` has three parts:

* `Ledger H s` — the segments of `H` tile the sequence space from `0` to the next sequence
  number, the outstanding ones are the last of them, and `bytesInFlight` is their length;
* `FirstSent` — every segment of `H` carries the part of `W` that its number says;
* `Phase` — the state, the next sequence number and the stream's counters are in step.

Each operation has one lemma that says what it does: `fillWindow_filled` for sending, and
`acknowledge_settled` for what an acknowledgment takes off the queue.
-/

/-- The length of an entry of the retransmission queue. -/
def seqLength (e : Nat × TCPSegment) : Nat := e.2.lengthInSequenceSpace

namespace TCPSender

/-- The left edge of what is outstanding. -/
def lowEdge (s : TCPSender) : Nat := s.nextSeqnoAbsolute - s.bytesInFlight

/-- A window of zero is treated as one of one. -/
theorem fillSize_eq (s : TCPSender) : s.fillSize = max 1 s.windowSize := by
  unfold fillSize
  split <;> omega

/-! ### The invariant -/

/-- The accounts of a sender that has sent the segments `H`. -/
structure Ledger (H : List (Nat × TCPSegment)) (s : TCPSender) : Prop where
  tiles : Tiles Prod.fst seqLength 0 H s.nextSeqnoAbsolute
  positive : ∀ e ∈ H, 0 < seqLength e
  last : s.segmentsOutstanding <:+ H
  bytes : s.bytesInFlight = (s.segmentsOutstanding.map seqLength).sum

/-- A segment as it is sent for the first time: SYN alone, or a part of `W`, the FIN only
    after the stream has `ended`. -/
structure FirstSent (W : List UInt8) (isn : WrappingInt32) (ended : Bool)
    (e : Nat × TCPSegment) : Prop where
  carries : Carries W isn e.1 e.2
  size_le : e.2.payload.length ≤ maxPayloadSize
  fin_ended : e.2.header.fin = true → ended = true
  syn_alone : e.2.header.syn = true → e.2.payload = [] ∧ e.2.header.fin = false
  plain : e.2.header =
    { seqno := e.2.header.seqno, syn := e.2.header.syn, fin := e.2.header.fin }

/-- The state and the counters are in step. -/
def Phase (s : TCPSender) : Prop :=
  match s.state with
  | .closed => s.nextSeqnoAbsolute = 0 ∧ s.streamIn.bytesRead = 0
  | .synSent => s.nextSeqnoAbsolute = 1 ∧ s.streamIn.bytesRead = 0 ∧ s.bytesInFlight = 1
  | .synAcked =>
    s.nextSeqnoAbsolute = 1 + s.streamIn.bytesRead ∧ s.bytesInFlight < s.nextSeqnoAbsolute
  | .finSent =>
    s.nextSeqnoAbsolute = 2 + s.streamIn.bytesRead ∧ s.bytesInFlight < s.nextSeqnoAbsolute ∧
      s.streamIn.eof = true
  | .finsAcked => False

/-- The invariant of a sender. -/
structure SenderInv (W : List UInt8) (H : List (Nat × TCPSegment)) (s : TCPSender) : Prop where
  ledger : Ledger H s
  sent : ∀ e ∈ H, FirstSent W s.isn s.streamIn.inputEnded e
  phase : Phase s
  written : s.streamIn.bytesWritten = W.length
  unread : W.drop s.streamIn.bytesRead = s.streamIn.bufferList

variable {W : List UInt8} {H : List (Nat × TCPSegment)} {s : TCPSender}

/-- The outstanding segments tile the stretch from the left edge to the next number. -/
theorem Ledger.outstanding_tiles (h : Ledger H s) :
    Tiles Prod.fst seqLength s.lowEdge s.segmentsOutstanding s.nextSeqnoAbsolute ∧
      s.bytesInFlight ≤ s.nextSeqnoAbsolute := by
  obtain ⟨acked, hacked⟩ := h.last
  have htiles := h.tiles
  rw [← hacked] at htiles
  obtain ⟨b, -, hb⟩ := tiles_append.mp htiles
  -- the stretch they tile is `bytesInFlight` long
  have hsum := hb.eq_add_sum
  rw [← h.bytes] at hsum
  have hedge : s.lowEdge = b := by
    unfold lowEdge
    omega
  rw [hedge]
  exact ⟨hb, by omega⟩

/-- What has been read of `W` is a part of it. -/
theorem SenderInv.bytesRead_le (h : SenderInv W H s) : s.streamIn.bytesRead ≤ W.length := by
  have hacc := s.streamIn.accounted
  have hwritten := h.written
  omega

/-- Nothing was sent by a sender whose next number is zero. -/
theorem Ledger.eq_nil (h : Ledger H s) (hzero : s.nextSeqnoAbsolute = 0) : H = [] := by
  cases H with
  | nil => rfl
  | cons e rest =>
    have hend := (h.tiles.mem_bounds (x := e) (by simp)).2
    have hpos := h.positive e (by simp)
    omega

/-- A segment is the SYN, which has number zero and nothing else in it, or comes later. -/
theorem FirstSent.syn_or_later {isn : WrappingInt32} {ended : Bool} {e : Nat × TCPSegment}
    (h : FirstSent W isn ended e) :
    (e.1 = 0 ∧ e.2.header.syn = true ∧ e.2.payload = [] ∧ e.2.header.fin = false) ∨
      (e.1 ≠ 0 ∧ e.2.header.syn = false) := by
  by_cases hsyn : e.2.header.syn = true
  · exact Or.inl ⟨h.carries.syn_iff.mp hsyn, hsyn, h.syn_alone hsyn⟩
  · exact Or.inr ⟨fun hzero => hsyn (h.carries.syn_iff.mpr hzero), by simpa using hsyn⟩

/-- What a segment carries of `W` ends with `W`, and so does its FIN. -/
theorem FirstSent.end_le {isn : WrappingInt32} {ended : Bool} {e : Nat × TCPSegment}
    (h : FirstSent W isn ended e) :
    e.1 + e.2.payload.length ≤ 1 + W.length ∨ seqLength e = 0 := by
  by_cases hpayload : 0 < e.2.payload.length
  · have hle := h.carries.payload.le_length hpayload
    exact Or.inl (by omega)
  · by_cases hfin : e.2.header.fin = true
    · have hend := h.carries.fin hfin
      exact Or.inl (by omega)
    · by_cases hsyn : e.2.header.syn = true
      · have hzero := h.carries.syn_iff.mp hsyn
        exact Or.inl (by omega)
      · -- neither payload nor flags: an empty segment
        have hnil : e.2.payload = [] := List.length_eq_zero_iff.mp (by omega)
        refine Or.inr ?_
        simp [seqLength, TCPSegment.lengthInSequenceSpace, hsyn, hfin, hnil]

/-- A SYN was sent exactly when the sender is not closed. -/
theorem SenderInv.syn_iff (h : SenderInv W H s) :
    (∃ e ∈ H, e.2.header.syn = true) ↔ s.state ≠ .closed := by
  have hphase := h.phase
  constructor
  · rintro ⟨e, he, -⟩ hclosed
    rw [Phase, hclosed] at hphase
    rw [h.ledger.eq_nil hphase.1] at he
    exact absurd he (by simp)
  · intro hopen
    have hpos : 0 < s.nextSeqnoAbsolute := by
      rw [Phase] at hphase
      cases hstate : s.state <;> rw [hstate] at hphase hopen <;> simp only at hphase
      case closed => exact absurd rfl hopen
      all_goals omega
    have htiles := h.ledger.tiles
    cases H with
    | nil => exact absurd (tiles_nil.mp htiles) (by omega)
    | cons e rest =>
      -- the first segment starts at zero
      have he := h.sent e (by simp)
      exact ⟨e, by simp, he.carries.syn_iff.mpr (tiles_cons.mp htiles).1⟩

/-- **After the FIN** the stream has ended, all of `W` has been read, and the FIN has the last
    number. -/
theorem SenderInv.finSent_all (h : SenderInv W H s) (hstate : s.state = .finSent) :
    s.streamIn.inputEnded = true ∧ s.streamIn.bytesRead = W.length ∧
      s.nextSeqnoAbsolute = W.length + 2 := by
  have hphase := h.phase
  rw [Phase, hstate] at hphase
  obtain ⟨hended, hempty⟩ := (ByteStream.eof_iff _).mp hphase.2.2
  -- nothing is left in the stream, so what was read is what was written
  have hacc := s.streamIn.accounted
  rw [hempty, List.length_nil, h.written] at hacc
  exact ⟨hended, by omega, by omega⟩

/-- A FIN was sent exactly when the sender says so. -/
theorem SenderInv.fin_iff (h : SenderInv W H s) :
    (∃ e ∈ H, e.2.header.fin = true) ↔ s.state = .finSent := by
  have hphase := h.phase
  have hread := h.bytesRead_le
  constructor
  · rintro ⟨e, he, hfin⟩
    have hsent := h.sent e he
    have hbounds := (h.ledger.tiles.mem_bounds he).2
    rcases hsent.syn_or_later with ⟨-, -, -, hnone⟩ | ⟨hne, hsyn⟩
    · rw [hfin] at hnone
      exact absurd hnone (by simp)
    · have hend := hsent.carries.fin hfin
      have hlen : seqLength e = e.2.payload.length + 1 := by
        simp [seqLength, TCPSegment.lengthInSequenceSpace, hsyn, hfin]
      -- the FIN takes the number after all of `W`: only `finSent` has got that far
      rw [Phase] at hphase
      cases hstate : s.state <;> rw [hstate] at hphase <;> simp only at hphase <;> omega
  · intro hstate
    have hall := h.finSent_all hstate
    have hne : H ≠ [] := by
      rintro rfl
      exact absurd (tiles_nil.mp h.ledger.tiles) (by omega)
    -- the segment that was sent last has the last number, and without the FIN it cannot
    obtain ⟨e, he, hlast⟩ := h.ledger.tiles.exists_end hne
    refine ⟨e, he, ?_⟩
    by_contra hfin
    have hsent := h.sent e he
    have hpos := h.ledger.positive e he
    have hend := hsent.end_le
    rcases hsent.syn_or_later with ⟨hzero, hsyn, hpayload, -⟩ | ⟨-, hsyn⟩
    · have hlen : seqLength e = 1 := by
        simp [seqLength, TCPSegment.lengthInSequenceSpace, hsyn, hfin, hpayload]
      omega
    · have hlen : seqLength e = e.2.payload.length := by
        simp [seqLength, TCPSegment.lengthInSequenceSpace, hsyn, hfin]
      omega

/-- The next number counts the SYN, the bytes read and the FIN. -/
theorem SenderInv.next_eq (h : SenderInv W H s) :
    s.nextSeqnoAbsolute = (if s.state ≠ .closed then 1 else 0) + s.streamIn.bytesRead +
      (if s.state = .finSent then 1 else 0) := by
  have hphase := h.phase
  rw [Phase] at hphase
  cases hstate : s.state <;> rw [hstate] at hphase <;> simp at hphase ⊢ <;> omega

/-- The accounts look at nothing but the next number and what is outstanding. -/
theorem Ledger.of_same {t : TCPSender} (h : Ledger H s)
    (hnext : t.nextSeqnoAbsolute = s.nextSeqnoAbsolute)
    (hout : t.segmentsOutstanding = s.segmentsOutstanding)
    (hbytes : t.bytesInFlight = s.bytesInFlight) : Ledger H t := by
  refine ⟨?_, h.positive, ?_, ?_⟩
  · rw [hnext]; exact h.tiles
  · rw [hout]; exact h.last
  · rw [hbytes, hout]; exact h.bytes

/-- Adding a segment at the next number keeps the accounts. -/
theorem Ledger.push (h : Ledger H s) {segment : TCPSegment}
    (hpos : 0 < segment.lengthInSequenceSpace) :
    Ledger (H ++ [(s.nextSeqnoAbsolute, segment)]) (s.push segment) := by
  constructor
  case tiles => exact tiles_append.mpr ⟨_, h.tiles, rfl, rfl⟩
  case positive =>
    intro e he
    rcases List.mem_append.mp he with he | he
    · exact h.positive e he
    · rw [List.mem_singleton.mp he]
      exact hpos
  case last =>
    obtain ⟨acked, rfl⟩ := h.last
    exact ⟨acked, by simp [TCPSender.push]⟩
  case bytes =>
    show s.bytesInFlight + segment.lengthInSequenceSpace = _
    simp [TCPSender.push, h.bytes, seqLength]

/-! ### Sending -/

/-- `t` is `s` after the segments `new` have been sent for the first time, none of them
    beyond the window. -/
structure Filled (W : List UInt8) (H : List (Nat × TCPSegment)) (s t : TCPSender)
    (new : List (Nat × TCPSegment)) : Prop where
  inv : SenderInv W (H ++ new) t
  outstanding : t.segmentsOutstanding = s.segmentsOutstanding ++ new
  queue : t.segmentsOut = s.segmentsOut ++ new.map Prod.snd
  edge : t.lowEdge = s.lowEdge
  bound : new = [] ∨ t.nextSeqnoAbsolute ≤ s.lowEdge + s.fillSize
  isn : t.isn = s.isn
  window : t.windowSize = s.windowSize
  count : t.retransmissionCount = s.retransmissionCount
  ended : t.streamIn.inputEnded = s.streamIn.inputEnded
  error : t.streamIn.error = s.streamIn.error
  opened : s.state ≠ .closed → t.state ≠ .closed
  acked : t.state = .synAcked → s.state = .synAcked
  closing : t.state = .finSent → s.state = .synAcked ∨ s.state = .finSent
  finished : s.state = .finSent → t.state = .finSent
  read_le : s.streamIn.bytesRead ≤ t.streamIn.bytesRead

/-- Sending nothing is a way of filling the window. -/
theorem Filled.refl (h : SenderInv W H s) : Filled W H s s [] := by
  constructor
  case inv => rw [List.append_nil]; exact h
  case closing => exact Or.inr
  all_goals simp

/-- The first fill of a fresh sender sends the SYN. -/
theorem sendSynSegment_filled (h : SenderInv W H s) (hclosed : s.state = .closed) :
    Filled W H s s.sendSynSegment
      [(0, { header := { seqno := s.nextSeqno, syn := true } })] := by
  have hphase := h.phase
  rw [Phase, hclosed] at hphase
  obtain ⟨hnext, hread⟩ := hphase
  -- a closed sender has sent nothing so far
  have hnil := h.ledger.eq_nil hnext
  subst hnil
  have hout : s.segmentsOutstanding = [] := List.suffix_nil.mp h.ledger.last
  have hseqno : s.nextSeqno = wrap (.ofNat 0) s.isn := by rw [nextSeqno, hnext]
  constructor
  case inv =>
    constructor
    case ledger =>
      constructor
      case tiles => exact ⟨rfl, rfl⟩
      case positive => simp [seqLength, TCPSegment.lengthInSequenceSpace]
      case last => simp [sendSynSegment, hout]
      case bytes => simp [sendSynSegment, hout, seqLength, TCPSegment.lengthInSequenceSpace]
    case sent =>
      intro e he
      rw [List.nil_append, List.mem_singleton] at he
      subst he
      exact ⟨⟨hseqno, by simp, standsAt_nil _ _, by simp⟩, by simp, by simp, by simp, rfl⟩
    case phase => exact ⟨rfl, hread, rfl⟩
    case written => exact h.written
    case unread => exact h.unread
  case outstanding => rfl
  case queue => rfl
  case edge =>
    show 1 - 1 = s.nextSeqnoAbsolute - s.bytesInFlight
    omega
  case bound =>
    refine Or.inr ?_
    show 1 ≤ s.lowEdge + s.fillSize
    rw [fillSize_eq]
    omega
  case isn => rfl
  case window => rfl
  case count => rfl
  case ended => rfl
  case error => rfl
  case opened => simp [sendSynSegment]
  case acked => simp [sendSynSegment]
  case closing => simp [sendSynSegment]
  case finished => simp [hclosed]
  case read_le => exact le_refl _

/-- The body of the loop stops without a change, or sends the next segment. -/
theorem fillStep_cases (w : Nat) (s : TCPSender) :
    fillStep w s = .done s ∨
      (s.state = .synAcked ∧ s.bytesInFlight < w ∧
        0 < (s.nextSegment w).lengthInSequenceSpace ∧
        fillStep w s = .yield ((s.readNext w).push (s.nextSegment w))) := by
  unfold fillStep
  by_cases hguard : s.state = .synAcked ∧ w > s.bytesInFlight
  · rw [if_pos hguard]
    by_cases hzero : (s.nextSegment w).lengthInSequenceSpace = 0
    · -- nothing was read and the FIN is not due: the sender is as it was
      obtain ⟨hpayload, -, hfin⟩ := TCPSegment.lengthInSequenceSpace_eq_zero.mp hzero
      have hsame : s.readNext w = s := by
        unfold readNext
        rw [hfin, ByteStream.read_snd_of_nil _ _ hpayload]
        rfl
      simp only [hzero, if_true, hsame, true_or]
    · refine Or.inr ⟨hguard.1, hguard.2, Nat.pos_of_ne_zero hzero, ?_⟩
      simp only [hzero, if_false]
  · rw [if_neg hguard]
    exact Or.inl rfl

/-- Where the loop stops, nothing has changed. -/
theorem eq_of_fillStep_done {w : Nat} {t : TCPSender} (hdone : fillStep w s = .done t) :
    t = s := by
  rcases fillStep_cases w s with hsame | ⟨-, -, -, hnext⟩
  · rw [hsame] at hdone
    cases hdone
    rfl
  · rw [hnext] at hdone
    cases hdone

/-- Where the loop goes on, the next segment has been sent. -/
theorem eq_of_fillStep_yield {w : Nat} {t : TCPSender} (hyield : fillStep w s = .yield t) :
    s.state = .synAcked ∧ s.bytesInFlight < w ∧ 0 < (s.nextSegment w).lengthInSequenceSpace ∧
      t = (s.readNext w).push (s.nextSegment w) := by
  rcases fillStep_cases w s with hsame | ⟨hstate, hroom, hpos, hnext⟩
  · rw [hsame] at hyield
    cases hyield
  · rw [hnext] at hyield
    cases hyield
    exact ⟨hstate, hroom, hpos, rfl⟩

/-- The next segment carries the next bytes of `W`, at most as many as the window allows. -/
theorem nextSegment_firstSent (h : SenderInv W H s) (hstate : s.state = .synAcked) (w : Nat) :
    FirstSent W s.isn s.streamIn.inputEnded (s.nextSeqnoAbsolute, s.nextSegment w) := by
  have hphase := h.phase
  rw [Phase, hstate] at hphase
  have hindex : s.nextSeqnoAbsolute - 1 = s.streamIn.bytesRead := by omega
  -- the payload is taken off the front of what is unread
  have hsplit : (s.nextSegment w).payload ++ (s.readNext w).streamIn.bufferList
      = W.drop s.streamIn.bytesRead := by
    rw [h.unread]
    exact s.streamIn.read_fst_append _
  have hsize : (s.nextSegment w).payload.length ≤ maxPayloadSize :=
    le_trans (s.streamIn.read_fst_length_le _) (Nat.min_le_left _ _)
  constructor
  case carries =>
    constructor
    case seqno => rfl
    case syn_iff =>
      constructor
      · intro hsyn
        exact absurd hsyn (by simp [nextSegment])
      · intro hzero
        change s.nextSeqnoAbsolute = 0 at hzero
        omega
    case payload =>
      show StandsAt W (s.nextSeqnoAbsolute - 1) (s.nextSegment w).payload
      rw [hindex]
      intro k hk
      rw [← List.getElem?_drop, ← hsplit, List.getElem?_append_left hk]
    case fin =>
      intro hfin
      show s.nextSeqnoAbsolute - 1 + (s.nextSegment w).payload.length = W.length
      -- with the FIN the payload is all that was left
      have heof : (s.readNext w).streamIn.eof = true := (Bool.and_eq_true_iff.mp hfin).1
      have hlen := congrArg List.length hsplit
      rw [(ByteStream.eof_iff _).mp heof |>.2, List.append_nil, List.length_drop] at hlen
      have hle := h.bytesRead_le
      omega
  case size_le => exact hsize
  case fin_ended =>
    intro hfin
    have heof : (s.readNext w).streamIn.eof = true := (Bool.and_eq_true_iff.mp hfin).1
    have hended := ((ByteStream.eof_iff _).mp heof).1
    rwa [readNext, ByteStream.read_inputEnded] at hended
  case syn_alone => simp [nextSegment]
  case plain => rfl

/-- **One iteration of `fill_window`** keeps the invariant. -/
theorem pushNext_inv (h : SenderInv W H s) {w : Nat} (hstate : s.state = .synAcked)
    (hpos : 0 < (s.nextSegment w).lengthInSequenceSpace) :
    SenderInv W (H ++ [(s.nextSeqnoAbsolute, s.nextSegment w)])
      ((s.readNext w).push (s.nextSegment w)) := by
  have hphase := h.phase
  rw [Phase, hstate] at hphase
  have hread : (s.readNext w).streamIn.bytesRead
      = s.streamIn.bytesRead + (s.nextSegment w).payload.length := s.streamIn.read_bytesRead _
  have hlen : (s.nextSegment w).lengthInSequenceSpace = (s.nextSegment w).payload.length
      + if (s.nextSegment w).header.fin then 1 else 0 := rfl
  constructor
  case ledger =>
    have hledger : Ledger H (s.readNext w) := h.ledger.of_same rfl rfl rfl
    exact hledger.push hpos
  case sent =>
    intro e he
    have hended : (s.readNext w).streamIn.inputEnded = s.streamIn.inputEnded :=
      s.streamIn.read_inputEnded _
    show FirstSent W s.isn (s.readNext w).streamIn.inputEnded e
    rw [hended]
    rcases List.mem_append.mp he with he | he
    · exact h.sent e he
    · rw [List.mem_singleton.mp he]
      exact nextSegment_firstSent h hstate w
  case phase =>
    show Phase ((s.readNext w).push (s.nextSegment w))
    by_cases hfin : (s.nextSegment w).header.fin = true
    · -- the FIN counts one number more than the bytes read
      have hst : ((s.readNext w).push (s.nextSegment w)).state = .finSent := by
        show (if _ then _ else _) = _
        rw [if_pos hfin]
      have heof : (s.readNext w).streamIn.eof = true := (Bool.and_eq_true_iff.mp hfin).1
      rw [hfin, if_pos rfl] at hlen
      rw [Phase, hst]
      refine ⟨?_, ?_, heof⟩
      · show s.nextSeqnoAbsolute + (s.nextSegment w).lengthInSequenceSpace
          = 2 + (s.readNext w).streamIn.bytesRead
        omega
      · show s.bytesInFlight + (s.nextSegment w).lengthInSequenceSpace
          < s.nextSeqnoAbsolute + (s.nextSegment w).lengthInSequenceSpace
        omega
    · have hst : ((s.readNext w).push (s.nextSegment w)).state = .synAcked := by
        show (if _ then _ else _) = _
        rw [if_neg hfin, hstate]
      rw [if_neg hfin] at hlen
      rw [Phase, hst]
      constructor
      · show s.nextSeqnoAbsolute + (s.nextSegment w).lengthInSequenceSpace
          = 1 + (s.readNext w).streamIn.bytesRead
        omega
      · show s.bytesInFlight + (s.nextSegment w).lengthInSequenceSpace
          < s.nextSeqnoAbsolute + (s.nextSegment w).lengthInSequenceSpace
        omega
  case written =>
    show (s.readNext w).streamIn.bytesWritten = W.length
    rw [readNext, ByteStream.read_bytesWritten]
    exact h.written
  case unread =>
    show W.drop (s.readNext w).streamIn.bytesRead = (s.readNext w).streamIn.bufferList
    have hsplit := s.streamIn.read_fst_append (min maxPayloadSize (w - s.bytesInFlight))
    rw [hread, ← List.drop_drop, h.unread, ← hsplit, nextSegment, List.drop_left]
    rfl

/-- The next segment ends inside the window. -/
theorem nextSegment_length_le {w : Nat} (hroom : s.bytesInFlight < w) :
    s.bytesInFlight + (s.nextSegment w).lengthInSequenceSpace ≤ w := by
  have hread : (s.nextSegment w).payload.length ≤ min maxPayloadSize (w - s.bytesInFlight) :=
    s.streamIn.read_fst_length_le _
  have hlen : (s.nextSegment w).lengthInSequenceSpace = (s.nextSegment w).payload.length
      + if (s.nextSegment w).header.fin then 1 else 0 := rfl
  by_cases hfin : (s.nextSegment w).header.fin = true
  · -- the FIN goes along only where a number is left for it
    have hleft : w - s.bytesInFlight > (s.nextSegment w).payload.length :=
      of_decide_eq_true (Bool.and_eq_true_iff.mp hfin).2
    rw [if_pos hfin] at hlen
    omega
  · rw [if_neg hfin] at hlen
    omega

/-- **The loop of `fill_window`** keeps the invariant and stays inside the window. -/
theorem fillLoop_filled (h : SenderInv W H s) (fuel : Nat) :
    ∃ new, Filled W H s (Loop.run (fillStep s.fillSize) fuel s) new := by
  -- the invariant of the loop: what has been sent so far fills the window of `s`
  refine Loop.run_rule (P := fun t => ∃ new, Filled W H s t new) ?_ ?_ fuel ⟨[], .refl h⟩
  · intro t u ht hdone
    rw [eq_of_fillStep_done hdone]
    exact ht
  · rintro t u ⟨new, ht⟩ hyield
    obtain ⟨hstate, hroom, hpos, rfl⟩ := eq_of_fillStep_yield hyield
    -- one more segment: it ends inside the window, and the left edge stays
    refine ⟨new ++ [(t.nextSeqnoAbsolute, t.nextSegment s.fillSize)], ?_⟩
    have hedge := ht.edge
    have hle := ht.inv.ledger.outstanding_tiles.2
    have hlen := nextSegment_length_le hroom
    have hnew :
        ((t.readNext s.fillSize).push (t.nextSegment s.fillSize)).lowEdge = t.lowEdge := by
      show t.nextSeqnoAbsolute + _ - (t.bytesInFlight + _) = t.nextSeqnoAbsolute - t.bytesInFlight
      omega
    constructor
    case inv =>
      rw [← List.append_assoc]
      exact pushNext_inv ht.inv hstate hpos
    case outstanding =>
      show t.segmentsOutstanding ++ _ = _
      rw [ht.outstanding, List.append_assoc]
      rfl
    case queue =>
      show t.segmentsOut ++ _ = _
      rw [ht.queue, List.append_assoc, List.map_append]
      rfl
    case edge => rw [hnew, hedge]
    case bound =>
      refine Or.inr ?_
      show t.nextSeqnoAbsolute + (t.nextSegment s.fillSize).lengthInSequenceSpace ≤ _
      rw [← hedge, lowEdge]
      omega
    case isn => exact ht.isn
    case window => exact ht.window
    case count => exact ht.count
    case ended => exact (ByteStream.read_inputEnded _ _).trans ht.ended
    case error => exact (ByteStream.read_error _ _).trans ht.error
    case opened =>
      intro _
      show (if _ then SenderState.finSent else t.state) ≠ .closed
      rw [hstate]
      split <;> simp
    case acked => exact fun _ => ht.acked hstate
    case closing => exact fun _ => Or.inl (ht.acked hstate)
    case finished =>
      -- after the FIN the loop does not get here
      intro hfin
      have hsame := ht.finished hfin
      rw [hstate] at hsame
      exact absurd hsame (by simp)
    case read_le =>
      refine le_trans ht.read_le ?_
      show t.streamIn.bytesRead ≤ (t.streamIn.read _).2.bytesRead
      rw [ByteStream.read_bytesRead]
      exact Nat.le_add_right _ _

/-- **`fill_window`** sends new segments, and only inside the window. -/
theorem fillWindow_filled (h : SenderInv W H s) : ∃ new, Filled W H s s.fillWindow new := by
  unfold fillWindow
  by_cases hclosed : s.state = .closed
  · rw [if_pos hclosed]
    exact ⟨_, sendSynSegment_filled h hclosed⟩
  · rw [if_neg hclosed]
    exact fillLoop_filled h _

/-- A sender that has filled its window is not closed. -/
theorem fillWindow_opened (h : SenderInv W H s) : s.fillWindow.state ≠ .closed := by
  obtain ⟨new, hf⟩ := fillWindow_filled h
  by_cases hclosed : s.state = .closed
  · rw [fillWindow, if_pos hclosed, sendSynSegment]
    simp
  · exact hf.opened hclosed

/-- In the states between the SYN and its acknowledgment and after the FIN, `fill_window` does
    nothing. -/
theorem fillWindow_idle (hopen : s.state ≠ .closed) (hidle : s.state ≠ .synAcked) :
    s.fillWindow = s := by
  have hdone : fillStep s.fillSize s = .done s := by
    rw [fillStep, if_neg (fun hguard => hidle hguard.1)]
  rw [fillWindow, if_neg hopen]
  cases s.fillSize - s.bytesInFlight with
  | zero => rfl
  | succ fuel => rw [Loop.run, hdone]

/-- An iteration that goes on lowers the room in the window. -/
theorem fillStep_room (w : Nat) (t u : TCPSender) (hyield : fillStep w t = .yield u) :
    w - u.bytesInFlight < w - t.bytesInFlight := by
  obtain ⟨-, hroom, hpos, rfl⟩ := eq_of_fillStep_yield hyield
  show w - (t.bytesInFlight + (t.nextSegment w).lengthInSequenceSpace) < w - t.bytesInFlight
  omega

/-- The fuel of `fill_window` is enough: it satisfies the equation of the source's loop. -/
theorem fillWindow_unfold (s : TCPSender) (hopen : s.state ≠ .closed) :
    (∀ t, fillStep s.fillSize s = .done t → s.fillWindow = t) ∧
      ∀ t, fillStep s.fillSize s = .yield t → s.fillWindow = t.fillWindow := by
  have hstop : ∀ t : TCPSender, s.fillSize - t.bytesInFlight = 0 →
      fillStep s.fillSize t = .done t := by
    intro t hzero
    rw [fillStep, if_neg (by omega)]
  rw [fillWindow, if_neg hopen]
  constructor
  · intro t hdone
    exact Loop.run_done (μ := fun t => s.fillSize - t.bytesInFlight) hstop hdone
  · intro t hyield
    have hloop := Loop.run_yield (μ := fun t => s.fillSize - t.bytesInFlight) hstop
      (fillStep_room s.fillSize) hyield
    obtain ⟨hstate, -, -, rfl⟩ := eq_of_fillStep_yield hyield
    -- the body neither changes the window nor goes back to `closed`
    have hne : ((s.readNext s.fillSize).push (s.nextSegment s.fillSize)).state ≠ .closed := by
      show (if _ then SenderState.finSent else s.state) ≠ .closed
      rw [hstate]
      split <;> simp
    rw [hloop, fillWindow, if_neg hne]
    rfl

/-! ### What is new -/

/-- The segments that are outstanding in `t` and were not sent yet in `s`. -/
def fresh (s t : TCPSender) : List (Nat × TCPSegment) :=
  t.segmentsOutstanding.filter (fun e => s.nextSeqnoAbsolute ≤ e.1)

variable {t : TCPSender} {new : List (Nat × TCPSegment)}

/-- The new segments tile the stretch between the two next numbers. -/
theorem Ledger.new_tiles (h : Ledger H s) (ht : Ledger (H ++ new) t) :
    Tiles Prod.fst seqLength s.nextSeqnoAbsolute new t.nextSeqnoAbsolute := by
  obtain ⟨b, hb, hnew⟩ := tiles_append.mp ht.tiles
  -- both lists tile from zero, so the old one ends where the new one starts
  have hend := hb.eq_add_sum
  rw [← h.tiles.eq_add_sum] at hend
  rwa [hend] at hnew

/-- The new segments can be told from the numbers of what is outstanding. -/
theorem Ledger.fresh_eq (h : Ledger H s) (ht : Ledger (H ++ new) t)
    (hout : t.segmentsOutstanding = s.segmentsOutstanding ++ new) : fresh s t = new := by
  have hold := h.outstanding_tiles.1
  rw [fresh, hout]
  refine hold.filter_ge (h.new_tiles ht) (fun e he => h.positive e ?_)
  exact h.last.subset he

/-! ### Acknowledgments -/

/-- **The loop of `ack_received`** takes whole segments off the front of the queue, none of
    them reaching beyond the acknowledgment. -/
theorem popAcked_ledger (A : Nat) : ∀ (es : List (Nat × TCPSegment)) (s : TCPSender),
    s.segmentsOutstanding = es → Ledger H s → s.lowEdge ≤ A →
      Ledger H (popAcked A es s) ∧ s.lowEdge ≤ (popAcked A es s).lowEdge ∧
        (popAcked A es s).lowEdge ≤ A ∧ (popAcked A es s).bytesInFlight ≤ s.bytesInFlight ∧
        ∃ k, (popAcked A es s).segmentsOutstanding = es.drop k
  | [], s, hes, h, hA => ⟨h, le_refl _, hA, le_refl _, 0, hes⟩
  | e :: rest, s, hes, h, hA => by
    by_cases hkeep : e.1 + e.2.lengthInSequenceSpace > A
    · -- the front is not fully acknowledged: the loop breaks
      rw [popAcked, if_pos hkeep]
      exact ⟨h, le_refl _, hA, le_refl _, 0, hes⟩
    · rw [popAcked, if_neg hkeep]
      have hbytes := h.bytes
      obtain ⟨htiles, hle⟩ := h.outstanding_tiles
      rw [hes] at htiles hbytes
      obtain ⟨hfirst, -⟩ := tiles_cons.mp htiles
      have hlast := h.last
      rw [hes] at hlast
      simp only [List.map_cons, List.sum_cons, seqLength] at hbytes
      -- the sender without its oldest segment
      have hpop : ∀ (rem rto : Nat), Ledger H { s with
          bytesInFlight := s.bytesInFlight - e.2.lengthInSequenceSpace
          segmentsOutstanding := rest
          remainingTime := rem
          retransmissionTimeout := rto } := by
        intro rem rto
        constructor
        case tiles => exact h.tiles
        case positive => exact h.positive
        case last => exact (List.suffix_cons e rest).trans hlast
        case bytes =>
          show s.bytesInFlight - e.2.lengthInSequenceSpace = (rest.map seqLength).sum
          omega
      unfold lowEdge at hfirst hA
      obtain ⟨h1, h2, h3, h4, k, h5⟩ := popAcked_ledger A rest { s with
          bytesInFlight := s.bytesInFlight - e.2.lengthInSequenceSpace
          segmentsOutstanding := rest
          remainingTime := 0
          retransmissionTimeout := s.initialRetransmissionTimeout } rfl (hpop _ _) (by
            show s.nextSeqnoAbsolute - (s.bytesInFlight - e.2.lengthInSequenceSpace) ≤ A
            omega)
      refine ⟨h1, le_trans ?_ h2, h3, le_trans h4 ?_, k + 1, h5⟩
      · show s.nextSeqnoAbsolute - s.bytesInFlight
          ≤ s.nextSeqnoAbsolute - (s.bytesInFlight - e.2.lengthInSequenceSpace)
        omega
      · exact Nat.sub_le _ _

/-- The loop changes nothing but the queue, its length and the timer. -/
theorem popAcked_frame (A : Nat) (es : List (Nat × TCPSegment)) (s : TCPSender) :
    (popAcked A es s).isn = s.isn ∧ (popAcked A es s).segmentsOut = s.segmentsOut ∧
      (popAcked A es s).streamIn = s.streamIn ∧
      (popAcked A es s).nextSeqnoAbsolute = s.nextSeqnoAbsolute ∧
      (popAcked A es s).state = s.state ∧ (popAcked A es s).windowSize = s.windowSize ∧
      (popAcked A es s).retransmissionCount = s.retransmissionCount := by
  induction es generalizing s with
  | nil => exact ⟨rfl, rfl, rfl, rfl, rfl, rfl, rfl⟩
  | cons e rest ih =>
    rw [popAcked]
    split
    · exact ⟨rfl, rfl, rfl, rfl, rfl, rfl, rfl⟩
    · exact ih _

/-- `t` is `s` after a valid acknowledgment of everything before `A`. -/
structure Settled (W : List UInt8) (H : List (Nat × TCPSegment)) (A : Nat) (window : UInt16)
    (s t : TCPSender) : Prop where
  inv : SenderInv W H t
  outstanding : ∃ k, t.segmentsOutstanding = s.segmentsOutstanding.drop k
  queue : t.segmentsOut = s.segmentsOut
  edge_ge : s.lowEdge ≤ t.lowEdge
  edge_le : t.lowEdge ≤ A
  next : t.nextSeqnoAbsolute = s.nextSeqnoAbsolute
  isn : t.isn = s.isn
  window_eq : t.windowSize = window.toNat
  stream : t.streamIn = s.streamIn
  state : t.state = s.state ∨ (s.state = .synSent ∧ t.state = .synAcked)

/-- **A valid acknowledgment** takes the segments it covers off the list of those outstanding, opens
    the connection where it covers the SYN, and changes nothing that was sent. -/
theorem acknowledge_settled (h : SenderInv W H s) {A : Nat} (hA : s.lowEdge ≤ A)
    (window : UInt16) : Settled W H A window s (s.acknowledge A window) := by
  have hstart : Ledger H { s with windowSize := window.toNat, retransmissionCount := 0 } :=
    h.ledger.of_same rfl rfl rfl
  obtain ⟨h1, h2, h3, h4, h5⟩ := popAcked_ledger A _ _ rfl hstart hA
  obtain ⟨f1, f2, f3, f4, f5, f6, -⟩ := popAcked_frame A s.segmentsOutstanding
    { s with windowSize := window.toNat, retransmissionCount := 0 }
  have hphase := h.phase
  have hacknowledge : s.acknowledge A window =
      let t := popAcked A s.segmentsOutstanding
        { s with windowSize := window.toNat, retransmissionCount := 0 }
      if t.state = .synSent ∧ t.bytesInFlight < t.nextSeqnoAbsolute then
        { t with state := .synAcked }
      else t := rfl
  rw [hacknowledge]
  generalize popAcked A s.segmentsOutstanding
    { s with windowSize := window.toNat, retransmissionCount := 0 } = t at *
  dsimp only at f1 f2 f3 f4 f5 f6 h4 ⊢
  by_cases hsyn : t.state = .synSent ∧ t.bytesInFlight < t.nextSeqnoAbsolute
  · -- the SYN is acknowledged
    rw [if_pos hsyn]
    have hsent : s.state = .synSent := by rw [← f5]; exact hsyn.1
    rw [Phase, hsent] at hphase
    refine ⟨⟨h1.of_same rfl rfl rfl, ?_, ?_, ?_, ?_⟩, h5, f2, h2, h3, f4, f1,
      f6, f3, Or.inr ⟨hsent, rfl⟩⟩
    · show ∀ e ∈ H, FirstSent W t.isn t.streamIn.inputEnded e
      rw [f1, f3]
      exact h.sent
    · show t.nextSeqnoAbsolute = 1 + t.streamIn.bytesRead ∧ t.bytesInFlight < t.nextSeqnoAbsolute
      refine ⟨?_, hsyn.2⟩
      rw [f4, f3]
      omega
    · show t.streamIn.bytesWritten = _
      rw [f3]
      exact h.written
    · show W.drop t.streamIn.bytesRead = t.streamIn.bufferList
      rw [f3]
      exact h.unread
  · -- the state stays, and with it the phase: fewer bytes are in flight than before
    rw [if_neg hsyn]
    refine ⟨⟨h1, ?_, ?_, ?_, ?_⟩, h5, f2, h2, h3, f4, f1, f6, f3, Or.inl f5⟩
    · rw [f1, f3]
      exact h.sent
    · rw [f5, f4] at hsyn
      rw [Phase, f5, f4, f3]
      rw [Phase] at hphase
      cases hstate : s.state <;> rw [hstate] at hphase hsyn <;> simp only at hphase ⊢
      case closed => exact hphase
      case synSent =>
        -- had the SYN been acknowledged, the state would have changed
        refine ⟨hphase.1, hphase.2.1, ?_⟩
        by_contra hne
        exact hsyn ⟨rfl, by omega⟩
      case synAcked => exact ⟨hphase.1, by omega⟩
      case finSent => exact ⟨hphase.1, by omega, hphase.2.2⟩
    · rw [f3]
      exact h.written
    · rw [f3]
      exact h.unread

/-- An acknowledgment is accepted if it lies between the left edge and the next number. -/
theorem accepts_iff (s : TCPSender) (ackno : WrappingInt32) : s.accepts ackno = true ↔
    s.lowEdge ≤ s.receivedAckno ackno ∧ s.receivedAckno ackno ≤ s.nextSeqnoAbsolute := by
  simp only [accepts, lowEdge, Bool.not_eq_true', Bool.or_eq_false_iff, decide_eq_false_iff_not]
  omega

/-- **`ack_received`** ignores an invalid acknowledgment; a valid one is settled, and then the
    window is filled. -/
theorem ackReceived_cases (h : SenderInv W H s) (ackno : WrappingInt32) (window : UInt16) :
    (s.accepts ackno = false ∧ s.ackReceived ackno window = s) ∨
      (s.accepts ackno = true ∧ ∃ t new, Settled W H (s.receivedAckno ackno) window s t ∧
        Filled W H t (s.ackReceived ackno window) new) := by
  unfold ackReceived
  by_cases hacc : s.accepts ackno = true
  · have hsettled := acknowledge_settled h ((accepts_iff s ackno).mp hacc).1 window
    refine Or.inr ⟨hacc, s.acknowledge (s.receivedAckno ackno) window, ?_⟩
    rw [if_pos hacc]
    -- the source fills the window only once the SYN is acknowledged and before the FIN
    by_cases hstate : (s.acknowledge (s.receivedAckno ackno) window).state = .synAcked
    · obtain ⟨new, hnew⟩ := fillWindow_filled hsettled.inv
      simp only [hstate, if_true]
      exact ⟨new, hsettled, hnew⟩
    · simp only [hstate, if_false]
      exact ⟨[], hsettled, .refl hsettled.inv⟩
  · rw [if_neg hacc]
    exact Or.inl ⟨by simpa using hacc, rfl⟩

/-! ### The other operations -/

/-- The invariant does not look at the outbound queue, the timer or the window. -/
theorem SenderInv.of_same (h : SenderInv W H s) (hisn : t.isn = s.isn)
    (hstream : t.streamIn = s.streamIn) (hnext : t.nextSeqnoAbsolute = s.nextSeqnoAbsolute)
    (hout : t.segmentsOutstanding = s.segmentsOutstanding)
    (hbytes : t.bytesInFlight = s.bytesInFlight) (hstate : t.state = s.state) :
    SenderInv W H t := by
  constructor
  case ledger => exact h.ledger.of_same hnext hout hbytes
  case sent => rw [hisn, hstream]; exact h.sent
  case phase =>
    rw [Phase, hstate, hnext, hstream, hbytes]
    exact h.phase
  case written => rw [hstream]; exact h.written
  case unread => rw [hstream]; exact h.unread

/-- `tick` sends nothing, or the oldest outstanding segment once more. -/
theorem tick_cases (s : TCPSender) (ms : Nat) :
    (s.tick ms).isn = s.isn ∧ (s.tick ms).streamIn = s.streamIn ∧
      (s.tick ms).nextSeqnoAbsolute = s.nextSeqnoAbsolute ∧
      (s.tick ms).segmentsOutstanding = s.segmentsOutstanding ∧
      (s.tick ms).bytesInFlight = s.bytesInFlight ∧ (s.tick ms).state = s.state ∧
      (s.tick ms).windowSize = s.windowSize ∧
      ((s.tick ms).segmentsOut = s.segmentsOut ∨
        ∃ front ∈ s.segmentsOutstanding.head?,
          (s.tick ms).segmentsOut = s.segmentsOut ++ [front.2]) := by
  unfold tick
  by_cases halarm : s.alarmRun = false
  · rw [if_pos halarm]
    exact ⟨rfl, rfl, rfl, rfl, rfl, rfl, rfl, Or.inl rfl⟩
  · rw [if_neg halarm]
    cases hout : s.segmentsOutstanding with
    | nil => simp
    | cons front rest =>
      simp only
      split
      · exact ⟨rfl, rfl, rfl, rfl, rfl, rfl, rfl, Or.inr ⟨front, rfl, rfl⟩⟩
      · exact ⟨rfl, rfl, rfl, rfl, rfl, rfl, rfl, Or.inl rfl⟩

/-- A tick sends a copy at most, which is no news to the ledger. -/
theorem tick_inv (h : SenderInv W H s) (ms : Nat) : SenderInv W H (s.tick ms) := by
  obtain ⟨h1, h2, h3, h4, h5, h6, -⟩ := s.tick_cases ms
  exact h.of_same h1 h2 h3 h4 h5 h6

/-- A segment without FIN stays right when more is written after it. -/
theorem FirstSent.grow {isn : WrappingInt32} {e : Nat × TCPSegment}
    (h : FirstSent W isn false e) (more : List UInt8) : FirstSent (W ++ more) isn false e := by
  -- an open stream has no FIN yet, the only thing that depends on where `W` ends
  have hfin : ¬ e.2.header.fin = true := fun hf => absurd (h.fin_ended hf) (by simp)
  exact { h with
    carries := { h.carries with
      payload := h.carries.payload.mono (List.prefix_append W more)
      fin := fun hf => absurd hf hfin } }

/-- A write appends the accepted bytes to `W`. -/
theorem write_inv (h : SenderInv W H s) (data : List UInt8) :
    SenderInv (W ++ data.take (s.streamIn.write data).1) H
      { s with streamIn := (s.streamIn.write data).2 } := by
  by_cases hended : s.streamIn.inputEnded = true
  · -- a closed stream takes nothing
    have hnone : s.streamIn.write data = (0, s.streamIn) := by simp [ByteStream.write, hended]
    rw [hnone, List.take_zero, List.append_nil]
    exact h
  · have hopen : s.streamIn.inputEnded = false := by simpa using hended
    have hread := h.bytesRead_le
    constructor
    case ledger => exact h.ledger.of_same rfl rfl rfl
    case sent =>
      intro e he
      have hsent := h.sent e he
      show FirstSent _ s.isn (s.streamIn.write data).2.inputEnded e
      rw [ByteStream.write_inputEnded, hopen]
      rw [hopen] at hsent
      exact hsent.grow _
    case phase =>
      have hphase := h.phase
      rw [Phase] at hphase ⊢
      cases hstate : s.state <;> rw [hstate] at hphase <;>
        simp only [ByteStream.write_bytesRead] at hphase ⊢
      case closed => exact hphase
      case synSent => exact hphase
      case synAcked => exact hphase
      case finSent =>
        -- the FIN is sent only after the stream has ended
        have hend := ((ByteStream.eof_iff _).mp hphase.2.2).1
        exact absurd hend hended
    case written =>
      show (s.streamIn.write data).2.bytesWritten = _
      have hle := s.streamIn.write_fst_le data
      rw [ByteStream.write_bytesWritten, List.length_append, List.length_take, h.written]
      omega
    case unread =>
      show (W ++ _).drop (s.streamIn.write data).2.bytesRead = (s.streamIn.write data).2.bufferList
      rw [ByteStream.write_bytesRead, ByteStream.write_bufferList,
        List.drop_append_of_le_length hread,
        h.unread]

/-- Ending the stream sends nothing yet. -/
theorem endInput_inv (h : SenderInv W H s) :
    SenderInv W H { s with streamIn := s.streamIn.endInput } := by
  constructor
  case ledger => exact h.ledger.of_same rfl rfl rfl
  case sent => exact fun e he => { h.sent e he with fin_ended := fun _ => rfl }
  case phase =>
    have hphase := h.phase
    rw [Phase] at hphase ⊢
    cases hstate : s.state <;> rw [hstate] at hphase <;> simp only at hphase ⊢
    case closed => exact hphase
    case synSent => exact hphase
    case synAcked => exact hphase
    case finSent =>
      have hempty := ((ByteStream.eof_iff _).mp hphase.2.2).2
      exact ⟨hphase.1, hphase.2.1, (ByteStream.eof_iff _).mpr ⟨rfl, hempty⟩⟩
  case written => exact h.written
  case unread => exact h.unread

/-- The error flag is not part of what was sent. -/
theorem setError_inv (h : SenderInv W H s) :
    SenderInv W H { s with streamIn := s.streamIn.setError } := by
  refine ⟨h.ledger.of_same rfl rfl rfl, h.sent, ?_, h.written, h.unread⟩
  have hphase := h.phase
  rw [Phase] at hphase ⊢
  cases hstate : s.state <;> rw [hstate] at hphase <;> simp only at hphase ⊢ <;>
    exact hphase

/-- A fresh sender has written and sent nothing. -/
theorem new_inv (capacity : Nat) (retxTimeout : UInt16) (isn : WrappingInt32) :
    SenderInv [] [] (TCPSender.new capacity retxTimeout isn) :=
  ⟨⟨rfl, by simp, List.suffix_refl _, rfl⟩, by simp, ⟨rfl, rfl⟩, rfl, rfl⟩

end TCPSender

end Sponge
