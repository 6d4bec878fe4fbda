import Sponge.SenderRun
import Sponge.SenderWork

namespace Sponge

/-!
# What filling the window sends

The loop of `fill_window` reads the outgoing stream until the window is full or the stream has
nothing more.  `Fills R data ended new` says which segments it sends from the buffered bytes
`data` into a window with room for `R` numbers:

* together they are as long as the room allows, or as what there is to send;
* their payloads are the first bytes of `data` in order, and only the last one may be smaller
  than `maxPayloadSize`;
* the FIN is on the last one, where the stream has ended and the room is larger than `data`.

`Fills.cons` is the step, one iteration of the loop before the others, and `fillWindow_fills` the
loop.  Over the runs of a sender, `run_fillWindow_exact` adds that the loop ends by itself, and
`run_stateSummary` compares the sender's own state with the summary computed from its counters.
-/

namespace TCPSender

variable {W : List UInt8} {H : List (Nat × TCPSegment)} {s : TCPSender}

/-- What is sent into a window with room for `R` numbers, from the bytes `data` of a stream that
    has ended or goes on. -/
structure Fills (R : Nat) (data : List UInt8) (ended : Bool) (new : List TCPSegment) : Prop where
  length : (new.map TCPSegment.lengthInSequenceSpace).sum
    = min R (data.length + if ended then 1 else 0)
  bytes : (new.map TCPSegment.payload).flatten = data.take (min R data.length)
  positive : ∀ seg ∈ new, 0 < seg.lengthInSequenceSpace
  size_le : ∀ seg ∈ new, seg.payload.length ≤ maxPayloadSize
  full : ∀ seg ∈ new.dropLast, seg.payload.length = maxPayloadSize
  early : ∀ seg ∈ new.dropLast, seg.header.fin = false
  fin_iff : (∃ seg, new.getLast? = some seg ∧ seg.header.fin = true) ↔
    ended = true ∧ data.length < R

/-! ### One iteration -/

section Step

variable {R : Nat} {data : List UInt8} {ended : Bool} {seg : TCPSegment}

/-- Where there is no room, or nothing to send, nothing is sent. -/
theorem fills_nil (hidle : R = 0 ∨ (data = [] ∧ ended = false)) : Fills R data ended [] := by
  rcases hidle with rfl | ⟨rfl, rfl⟩
  · exact ⟨by simp, by simp, by simp, by simp, by simp, by simp, by simp⟩
  · exact ⟨by simp, by simp, by simp, by simp, by simp, by simp, by simp⟩

/-- Nothing is sent only where there is no room or nothing to send. -/
theorem Fills.eq_nil {new : List TCPSegment} (h : Fills R data ended new)
    (hidle : R = 0 ∨ (data = [] ∧ ended = false)) : new = [] := by
  have hzero : (new.map TCPSegment.lengthInSequenceSpace).sum = 0 := by
    rw [h.length]
    rcases hidle with rfl | ⟨rfl, rfl⟩ <;> simp
  cases new with
  | nil => rfl
  | cons x xs =>
    have hpos := h.positive x (by simp)
    rw [List.map_cons, List.sum_cons] at hzero
    omega

/-- The segment of one iteration: as many bytes as the room and `maxPayloadSize` allow, and the
    FIN where this empties an ended stream and leaves room. -/
structure Cut (R : Nat) (data : List UInt8) (ended : Bool) (seg : TCPSegment) : Prop where
  payload : seg.payload = data.take (min maxPayloadSize R)
  syn : seg.header.syn = false
  fin : seg.header.fin = true ↔ ended = true ∧ data.length ≤ maxPayloadSize ∧ data.length < R
  positive : 0 < seg.lengthInSequenceSpace

/-- The payload is as long as the three bounds allow: the maximal size, the window and the stream.
    -/
theorem Cut.payload_length (h : Cut R data ended seg) :
    seg.payload.length = min (min maxPayloadSize R) data.length := by
  rw [h.payload, List.length_take]

/-- The FIN takes a number of its own. -/
theorem Cut.length_eq (h : Cut R data ended seg) : seg.lengthInSequenceSpace
    = min (min maxPayloadSize R) data.length + if seg.header.fin then 1 else 0 := by
  rw [TCPSegment.lengthInSequenceSpace, h.syn, h.payload_length]
  rfl

/-- With the FIN, everything has been sent. -/
theorem Cut.fills (h : Cut R data ended seg) (hfin : seg.header.fin = true) :
    Fills R data ended [seg] := by
  obtain ⟨hended, hsize, hroom⟩ := h.fin.mp hfin
  have hlen := h.length_eq
  have hpay := h.payload_length
  rw [if_pos hfin] at hlen
  constructor
  case length =>
    rw [if_pos hended, List.map_singleton, List.sum_singleton]
    omega
  case bytes =>
    rw [List.map_singleton, List.flatten_singleton, h.payload, List.take_of_length_le (by omega),
      List.take_of_length_le (by omega)]
  case positive => simpa using h.positive
  case size_le => simp only [List.mem_singleton, forall_eq]; omega
  case full => simp
  case early => simp
  case fin_iff => simp [hfin, hended, hroom]

/-- The segments after the first that are not the last. -/
theorem forall_dropLast_cons {P : TCPSegment → Prop} {rest : List TCPSegment}
    (hhead : rest ≠ [] → P seg) (hrest : ∀ x ∈ rest.dropLast, P x) :
    ∀ x ∈ (seg :: rest).dropLast, P x := by
  by_cases hnil : rest = []
  · simp [hnil]
  · rw [List.dropLast_cons_of_ne_nil hnil]
    exact List.forall_mem_cons.mpr ⟨hhead hnil, hrest⟩

/-- A payload that is not full fills the window, or takes the last byte of a stream that goes on:
    no segment follows. -/
theorem Fills.nil_of_small {rest : List TCPSegment} (hcut : Cut R data ended seg)
    (hfin : seg.header.fin = false)
    (h : Fills (R - seg.lengthInSequenceSpace) (data.drop (min maxPayloadSize R)) ended rest)
    (hsmall : seg.payload.length ≠ maxPayloadSize) : rest = [] := by
  have hlen := hcut.length_eq
  have hpay := hcut.payload_length
  rw [hfin, if_neg (by simp), Nat.add_zero] at hlen
  refine h.eq_nil ?_
  by_cases hall : R ≤ data.length
  · exact Or.inl (by omega)
  · refine Or.inr ⟨List.drop_eq_nil_of_le (by omega), ?_⟩
    by_contra hended
    have hdue := hcut.fin.mpr ⟨by simpa using hended, by omega, by omega⟩
    simp [hfin] at hdue

/-- **Step lemma.**  Without the FIN, the iterations that follow fill what is left of the room
    from what is left of the bytes. -/
theorem Fills.cons {rest : List TCPSegment} (hcut : Cut R data ended seg)
    (hfin : seg.header.fin = false)
    (h : Fills (R - seg.lengthInSequenceSpace) (data.drop (min maxPayloadSize R)) ended rest) :
    Fills R data ended (seg :: rest) := by
  have hlen := hcut.length_eq
  have hpay := hcut.payload_length
  have hpos := hcut.positive
  have hnot : ¬ (ended = true ∧ data.length ≤ maxPayloadSize ∧ data.length < R) :=
    fun hc => by simp [hcut.fin.mpr hc] at hfin
  rw [hfin, if_neg (by simp), Nat.add_zero] at hlen
  -- a segment that is followed by another one is full
  have hfull : rest ≠ [] → seg.payload.length = maxPayloadSize := by
    intro hsome
    by_contra hsmall
    exact hsome (h.nil_of_small hcut hfin hsmall)
  constructor
  case length =>
    rw [List.map_cons, List.sum_cons, h.length, List.length_drop]
    by_cases hended : ended = true
    · rw [if_pos hended]
      by_cases hsize : data.length ≤ maxPayloadSize
      · -- the FIN would have gone along with room for it
        have hroom : ¬ data.length < R := fun hroom => hnot ⟨hended, hsize, hroom⟩
        omega
      · omega
    · rw [if_neg hended]
      omega
  case bytes =>
    rw [List.map_cons, List.flatten_cons, h.bytes, hcut.payload, List.length_drop]
    by_cases hmore : min maxPayloadSize R ≤ data.length
    · rw [← List.take_add]
      congr 1
      omega
    · rw [List.drop_eq_nil_of_le (by omega), List.take_nil, List.append_nil,
        List.take_of_length_le (by omega), List.take_of_length_le (by omega)]
  case positive => exact List.forall_mem_cons.mpr ⟨hpos, h.positive⟩
  case size_le => exact List.forall_mem_cons.mpr ⟨by omega, h.size_le⟩
  case full => exact forall_dropLast_cons hfull h.full
  case early => exact forall_dropLast_cons (fun _ => hfin) h.early
  case fin_iff =>
    cases rest with
    | nil =>
      -- nothing follows, so the stream goes on or the window is full
      have hrest := h.fin_iff
      rw [List.length_drop] at hrest
      simp only [List.getLast?_nil, reduceCtorEq, false_and, exists_false, false_iff] at hrest
      simp only [List.getLast?_singleton, Option.some.injEq, exists_eq_left', hfin,
        Bool.false_eq_true, false_iff]
      rintro ⟨hended, hroom⟩
      exact hrest ⟨hended, by omega⟩
    | cons y ys =>
      rw [List.getLast?_cons_cons, h.fin_iff, List.length_drop]
      have hsize := hfull (by simp)
      refine and_congr_right fun _ => ?_
      omega

end Step

/-- The segment an iteration sends. -/
theorem nextSegment_cut (hopen : s.streamIn.endOutput = false) {w : Nat}
    (hpos : 0 < (s.nextSegment w).lengthInSequenceSpace) :
    Cut (w - s.bytesInFlight) s.streamIn.bufferList s.streamIn.inputEnded (s.nextSegment w) := by
  have hread : ∀ n, s.streamIn.read n = (s.streamIn.bufferList.take n, s.streamIn.popOutput n) := by
    intro n
    rw [ByteStream.read, hopen, if_neg (by simp), ByteStream.peekOutput_eq_take]
  refine ⟨by rw [nextSegment, hread], rfl, ?_, hpos⟩
  have hended : ∀ n, (s.streamIn.popOutput n).inputEnded = s.streamIn.inputEnded := fun _ => rfl
  rw [nextSegment]
  simp only [hread, Bool.and_eq_true, ByteStream.eof_iff, hended, ByteStream.popOutput_bufferList,
    List.drop_eq_nil_iff, decide_eq_true_eq, List.length_take, and_assoc]
  refine and_congr_right fun _ => ?_
  omega

/-! ### The loop -/

/-- **Loop lemma.**  What filling the window sends after the SYN is acknowledged and before the
    FIN is sent. -/
theorem fillWindow_fills (hopen : s.streamIn.endOutput = false) (hacked : s.state = .synAcked) :
    ∃ new, s.fillWindow.segmentsOut = s.segmentsOut ++ new ∧
      Fills (s.fillSize - s.bytesInFlight) s.streamIn.bufferList s.streamIn.inputEnded new := by
  -- every iteration takes something of the room
  induction hR : s.fillSize - s.bytesInFlight using Nat.strong_induction_on generalizing s with
  | _ R ih =>
    have hunfold := fillWindow_unfold s (by simp [hacked])
    rcases fillStep_cases s.fillSize s with hdone | ⟨-, hroom, hpos, hyield⟩
    · refine ⟨[], by rw [hunfold.1 s hdone, List.append_nil], fills_nil ?_⟩
      have hidle := idle_of_not_hasWork hacked ((fillStep_done_iff hopen).mp hdone)
      exact hidle.imp (fun hfull => by omega) id
    · have hcut := nextSegment_cut hopen hpos
      rw [hR] at hcut
      rw [hunfold.2 _ hyield]
      generalize hseg : s.nextSegment s.fillSize = seg at hcut hpos
      set t := (s.readNext s.fillSize).push seg with ht
      have hbuffer : t.streamIn.bufferList = s.streamIn.bufferList.drop (min maxPayloadSize R) := by
        show (s.streamIn.read _).2.bufferList = _
        rw [ByteStream.read, hopen, if_neg (by simp), hR, ByteStream.popOutput_bufferList]
      have hended : t.streamIn.inputEnded = s.streamIn.inputEnded := ByteStream.read_inputEnded _ _
      have hsize : t.fillSize - t.bytesInFlight = R - seg.lengthInSequenceSpace := by
        show s.fillSize - (s.bytesInFlight + seg.lengthInSequenceSpace) = _
        omega
      have hstate : t.state = if seg.header.fin then .finSent else .synAcked := by
        show (if (s.nextSegment s.fillSize).header.fin then _ else s.state) = _
        rw [hseg, hacked]
      cases hfin : seg.header.fin with
      | true =>
        -- after the FIN the loop stops
        rw [hfin, if_pos rfl] at hstate
        rw [fillWindow_idle (by simp [hstate]) (by simp [hstate])]
        exact ⟨[seg], rfl, hcut.fills hfin⟩
      | false =>
        rw [hfin, if_neg (by simp)] at hstate
        obtain ⟨rest, hqueue, hrest⟩ := ih (R - seg.lengthInSequenceSpace) (by omega)
          ((ByteStream.read_endOutput _ _).trans hopen) hstate hsize
        rw [hbuffer, hended] at hrest
        exact ⟨seg :: rest, by rw [hqueue]; simp [ht, push, readNext], .cons hcut hfin hrest⟩

end TCPSender

namespace SenderRun

open TCPSender

/-! ### Over the runs of a sender -/

/-- Nothing closes the output side of the outgoing stream. -/
theorem run_endOutput (capacity : Nat) (retxTimeout : UInt16) (isn : WrappingInt32)
    (ops : List SenderOp) :
    (run capacity retxTimeout isn ops).sender.streamIn.endOutput = false := by
  induction ops using List.reverseRecOn with
  | nil => rfl
  | append_singleton ops op ih =>
    obtain ⟨H, hs, -⟩ := (run_inv capacity retxTimeout isn ops).sender
    rw [run_snoc]
    show (op.apply _).streamIn.endOutput = false
    cases op with
    | fillWindow => exact (fillWindow_endOutput _).trans ih
    | ackReceived ackno windowSize => exact (ackReceived_endOutput hs ackno windowSize).trans ih
    | tick ms =>
      obtain ⟨-, hstream, -⟩ := tick_cases (run capacity retxTimeout isn ops).sender ms
      exact (congrArg ByteStream.endOutput hstream).trans ih
    | write data => exact (ByteStream.write_endOutput _ _).trans ih
    | sendEmptySegment => exact ih
    | endInput => exact ih
    | setError => exact ih
    | popSegment => exact ih

/-- **Filling the window is exact.**  In every state a sender can reach between the
    acknowledgment of its SYN and its FIN, the loop of `fill_window` stops by itself, the segments
    it sends are those of `Fills`, and it leaves a full window, a sent FIN, or a stream that has
    nothing more yet. -/
theorem run_fillWindow_exact (capacity : Nat) (retxTimeout : UInt16) (isn : WrappingInt32)
    (ops : List SenderOp) (hacked : (run capacity retxTimeout isn ops).sender.state = .synAcked) :
    let s := (run capacity retxTimeout isn ops).sender
    let w := max 1 s.windowSize
    let R := w - s.bytesInFlight
    (∀ fuel, R ≤ fuel → Loop.run (fillStep w) fuel s = s.fillWindow) ∧
      fillStep w s.fillWindow = .done s.fillWindow ∧
      (∃ new, s.fillWindow.segmentsOut = s.segmentsOut ++ new ∧
        Fills R s.streamIn.bufferList s.streamIn.inputEnded new) ∧
      (w ≤ s.fillWindow.bytesInFlight ∨ s.fillWindow.state = .finSent ∨
        (s.fillWindow.streamIn.bufferList = [] ∧ s.fillWindow.streamIn.inputEnded = false)) := by
  obtain ⟨H, hs, -⟩ := (run_inv capacity retxTimeout isn ops).sender
  have hopen := run_endOutput capacity retxTimeout isn ops
  generalize (run capacity retxTimeout isn ops).accepted = W at hs
  generalize (run capacity retxTimeout isn ops).sender = s at hacked hs hopen ⊢
  intro s' w R
  have hw : s.fillSize = w := s.fillSize_eq
  obtain ⟨new, hf⟩ := fillWindow_filled hs
  have hsize : s.fillWindow.fillSize = w := by rw [fillSize, hf.window, ← hw, fillSize]
  have hne : s.state ≠ .closed := by simp [hacked]
  have hidle := fillWindow_not_hasWork hs hopen hne
  refine ⟨fun fuel hfuel => ?_, ?_, ?_, ?_⟩
  · rw [fillWindow, if_neg hne, hw]
    exact Loop.run_fuel (μ := fun t : TCPSender => w - t.bytesInFlight)
      (fun t hzero => by rw [fillStep, if_neg (by omega)]) (fillStep_room w) _ _ hfuel (le_refl _)
  · have hdone := (fillStep_done_iff (by rw [fillWindow_endOutput, hopen])).mpr hidle
    rwa [hsize] at hdone
  · have hfills := fillWindow_fills hopen hacked
    rwa [hw] at hfills
  · rcases fillWindow_state hs hacked with hstate | hstate
    · -- the FIN is not sent, so either there is no room or there is nothing to send
      have hrests := idle_of_not_hasWork hstate hidle
      rw [hsize] at hrests
      exact hrests.imp id Or.inr
    · exact Or.inr (Or.inl hstate)

/-- A window of size zero is taken for one number: the last byte goes out without the FIN. -/
theorem run_fillWindow_exact_zero_window :
    let s := (run 10 1000 ⟨0⟩ [.fillWindow, .ackReceived ⟨1⟩ 0, .write [97], .endInput]).sender
    s.state = .synAcked ∧
      ∃ new, s.fillWindow.segmentsOut = s.segmentsOut ++ new ∧ Fills 1 [97] true new :=
  ⟨by decide, (run_fillWindow_exact 10 1000 ⟨0⟩
    [.fillWindow, .ackReceived ⟨1⟩ 0, .write [97], .endInput] (by decide)).2.2.1⟩

/-! ### The two views of the state -/

/-- **The summary agrees with the state.**  In every state a sender can reach without an error on
    its stream, the summary computed from its counters is the state it acts on. -/
theorem run_stateSummary (capacity : Nat) (retxTimeout : UInt16) (isn : WrappingInt32)
    (ops : List SenderOp)
    (herror : (run capacity retxTimeout isn ops).sender.streamIn.error = false) :
    let s := (run capacity retxTimeout isn ops).sender
    (s.stateSummary = .closed ↔ s.state = .closed) ∧
      (s.stateSummary = .synSent ↔ s.state = .synSent) ∧
      (s.stateSummary = .synAcked ↔ s.state = .synAcked) ∧
      (s.stateSummary = .finSent ∨ s.stateSummary = .finAcked ↔ s.state = .finSent) ∧
      (s.state = .finSent → (s.stateSummary = .finAcked ↔ s.bytesInFlight = 0)) := by
  obtain ⟨H, hs, -⟩ := (run_inv capacity retxTimeout isn ops).sender
  generalize (run capacity retxTimeout isn ops).accepted = W at hs
  generalize (run capacity retxTimeout isn ops).sender = s at herror hs ⊢
  have hphase := hs.phase
  have hsummary := stateSummary_eq hs herror
  intro s'
  rw [Phase] at hphase
  cases hst : s.state <;> rw [hst] at hphase hsummary <;> simp only at hphase hsummary
  case finSent =>
    by_cases hzero : s.bytesInFlight = 0
    · simp [s', hsummary, hzero]
    · simp [s', hsummary, hzero]
  all_goals simp [s', hsummary]

/-- A byte and the FIN in flight after the end of the stream. -/
theorem run_stateSummary_closing :
    let s := (run 10 1000 ⟨0⟩
      [.fillWindow, .ackReceived ⟨1⟩ 5, .write [97], .endInput, .fillWindow]).sender
    s.state = .finSent ∧ (s.stateSummary = .finSent ∨ s.stateSummary = .finAcked) :=
  ⟨by decide, (run_stateSummary 10 1000 ⟨0⟩
    [.fillWindow, .ackReceived ⟨1⟩ 5, .write [97], .endInput, .fillWindow]
    (by decide)).2.2.2.1.mpr (by decide)⟩

end SenderRun

end Sponge
