import Sponge.SenderInvariant

namespace Sponge

open Slice Tiling

/-!
# Runs of a sender

A run is any sequence of calls on a fresh sender: filling the window, acknowledgments with
any number and any window, ticks, empty segments, the writer's calls on the outgoing stream,
and the owner taking segments off the outbound queue.  `SenderRun` keeps, next to the sender,
the bytes its stream has accepted, the segments that `fill_window` and `ack_received` have
queued, and the last acknowledgment that was accepted.

* `run_fidelity` — what is sent for the first time is the SYN, then the accepted bytes in
  order, then the FIN; what is sent besides is a copy of the oldest outstanding segment or
  occupies no sequence space;
* `run_accounting` — the counters, the retransmission queue and the stream agree, and no
  unsigned subtraction underflows;
* `run_within_window` — new segments end inside the window of the last accepted
  acknowledgment.
-/

/-- A call on a sender. -/
inductive SenderOp where
  | fillWindow
  | ackReceived (ackno : WrappingInt32) (windowSize : UInt16)
  | tick (msSinceLastTick : Nat)
  | sendEmptySegment
  /-- `stream_in().write(data)` -/
  | write (data : List UInt8)
  /-- `stream_in().end_input()` -/
  | endInput
  /-- `stream_in().set_error()` -/
  | setError
  /-- `segments_out().pop()`, by the owner -/
  | popSegment
  deriving DecidableEq, Repr

namespace SenderOp

/-- The sender after the call. -/
def apply (s : TCPSender) : SenderOp → TCPSender
  | .fillWindow => s.fillWindow
  | .ackReceived ackno windowSize => s.ackReceived ackno windowSize
  | .tick ms => s.tick ms
  | .sendEmptySegment => s.sendEmptySegment
  | .write data => { s with streamIn := (s.streamIn.write data).2 }
  | .endInput => { s with streamIn := s.streamIn.endInput }
  | .setError => { s with streamIn := s.streamIn.setError }
  | .popSegment => { s with segmentsOut := s.segmentsOut.tail }

/-- The bytes the outgoing stream accepts in the call. -/
def takes (s : TCPSender) : SenderOp → List UInt8
  | .write data => data.take (s.streamIn.write data).1
  | _ => []

/-- The segments the call puts into the outbound queue. -/
def queues (s : TCPSender) (op : SenderOp) : List TCPSegment :=
  (op.apply s).segmentsOut.drop s.segmentsOut.length

/-- The calls that send new segments. -/
def sends : SenderOp → Bool
  | .fillWindow => true
  | .ackReceived _ _ => true
  | _ => false

end SenderOp

/-- A sender with the history of its run. -/
structure SenderRun where
  sender : TCPSender
  accepted : List UInt8
  firsts : List TCPSegment
  lastAck : Option (Nat × Nat)

namespace SenderRun

def start (capacity : Nat) (retxTimeout : UInt16) (isn : WrappingInt32) : SenderRun :=
  ⟨TCPSender.new capacity retxTimeout isn, [], [], none⟩

/-- The last accepted acknowledgment after a call. -/
def acked (st : SenderRun) : SenderOp → Option (Nat × Nat)
  | .ackReceived ackno windowSize =>
    if st.sender.accepts ackno then some (st.sender.receivedAckno ackno, windowSize.toNat)
    else st.lastAck
  | _ => st.lastAck

def step (st : SenderRun) (op : SenderOp) : SenderRun where
  sender := op.apply st.sender
  accepted := st.accepted ++ op.takes st.sender
  firsts := st.firsts ++ (if op.sends then op.queues st.sender else [])
  lastAck := st.acked op

/-- The state after a sequence of calls. -/
def run (capacity : Nat) (retxTimeout : UInt16) (isn : WrappingInt32) (ops : List SenderOp) :
    SenderRun :=
  ops.foldl step (start capacity retxTimeout isn)

variable {capacity : Nat} {retxTimeout : UInt16} {isn : WrappingInt32}

/-- A run is made longer at its end. -/
theorem run_snoc (ops : List SenderOp) (op : SenderOp) :
    run capacity retxTimeout isn (ops ++ [op]) = (run capacity retxTimeout isn ops).step op := by
  rw [run, List.foldl_append]
  rfl

/-! ### One call -/

/-- What one call does: it sends the segments `new` for the first time, and queues them, or a
    copy of the oldest outstanding segment, or an empty one, or nothing. -/
structure Called (W : List UInt8) (H : List (Nat × TCPSegment)) (s : TCPSender) (op : SenderOp)
    (new : List (Nat × TCPSegment)) : Prop where
  inv : TCPSender.SenderInv (W ++ op.takes s) (H ++ new) (op.apply s)
  fresh_eq : TCPSender.fresh s (op.apply s) = new
  queued : op.sends = true → op.queues s = new.map Prod.snd
  quiet : op.sends = false → new = []
  bound : new = [] ∨
    (op.apply s).nextSeqnoAbsolute ≤ (op.apply s).lowEdge + max 1 (op.apply s).windowSize
  isn : (op.apply s).isn = s.isn
  ended : (op.apply s).streamIn.inputEnded = true → s.streamIn.inputEnded = true ∨ op = .endInput

variable {W : List UInt8} {H : List (Nat × TCPSegment)} {s : TCPSender}

/-- A sender that has not moved has nothing new. -/
theorem fresh_eq_nil (h : TCPSender.SenderInv W H s) {t : TCPSender}
    (hout : t.segmentsOutstanding = s.segmentsOutstanding) : TCPSender.fresh s t = [] := by
  rw [TCPSender.fresh, hout]
  exact h.ledger.fresh_eq (t := s) (by rw [List.append_nil]; exact h.ledger) (by simp)

/-- A call that sends nothing. -/
private theorem called_quiet (h : TCPSender.SenderInv W H s) {op : SenderOp}
    (hop : op.sends = false) (hinv : TCPSender.SenderInv (W ++ op.takes s) H (op.apply s))
    (hout : (op.apply s).segmentsOutstanding = s.segmentsOutstanding)
    (hisn : (op.apply s).isn = s.isn)
    (hended : (op.apply s).streamIn.inputEnded = true →
      s.streamIn.inputEnded = true ∨ op = .endInput) : Called W H s op [] := by
  refine ⟨by rw [List.append_nil]; exact hinv, fresh_eq_nil h hout, ?_, fun _ => rfl, Or.inl rfl,
    hisn, hended⟩
  intro hsends
  rw [hop] at hsends
  exact absurd hsends (by simp)

/-- A call that neither sends nor takes bytes. -/
private theorem called_silent (h : TCPSender.SenderInv W H s) {op : SenderOp}
    (hop : op.sends = false) (htakes : op.takes s = [])
    (hinv : TCPSender.SenderInv W H (op.apply s))
    (hout : (op.apply s).segmentsOutstanding = s.segmentsOutstanding)
    (hisn : (op.apply s).isn = s.isn)
    (hended : (op.apply s).streamIn.inputEnded = true →
      s.streamIn.inputEnded = true ∨ op = .endInput) : Called W H s op [] := by
  refine called_quiet h hop ?_ hout hisn hended
  rw [htakes, List.append_nil]
  exact hinv

/-- A call that fills the window of `t`, which is `s` or `s` after an acknowledgment. -/
private theorem called_filled {t : TCPSender} {op : SenderOp}
    {new : List (Nat × TCPSegment)} (hop : op.sends = true) (htakes : op.takes s = [])
    (hnext : t.nextSeqnoAbsolute = s.nextSeqnoAbsolute) (hqueue : t.segmentsOut = s.segmentsOut)
    (hstream : t.streamIn = s.streamIn) (hisn : t.isn = s.isn)
    (ht : TCPSender.SenderInv W H t) (hf : TCPSender.Filled W H t (op.apply s) new) :
    Called W H s op new := by
  constructor
  case inv => rw [htakes, List.append_nil]; exact hf.inv
  case fresh_eq =>
    rw [TCPSender.fresh, ← hnext]
    exact ht.ledger.fresh_eq hf.inv.ledger hf.outstanding
  case queued =>
    intro _
    rw [SenderOp.queues, hf.queue, hqueue, List.drop_left]
  case quiet =>
    intro hquiet
    rw [hop] at hquiet
    exact absurd hquiet (by simp)
  case bound =>
    rw [hf.edge, hf.window, ← TCPSender.fillSize_eq]
    exact hf.bound
  case isn => rw [hf.isn, hisn]
  case ended =>
    rw [hf.ended, hstream]
    exact Or.inl

/-- **Step lemma.**  Every call keeps the sender's invariant. -/
theorem called (h : TCPSender.SenderInv W H s) (op : SenderOp) : ∃ new, Called W H s op new := by
  cases op with
  | fillWindow =>
    obtain ⟨new, hf⟩ := TCPSender.fillWindow_filled h
    exact ⟨new, called_filled rfl rfl rfl rfl rfl rfl h hf⟩
  | ackReceived ackno windowSize =>
    rcases TCPSender.ackReceived_cases h ackno windowSize with ⟨-, hsame⟩ | ⟨-, t, new, ht, hf⟩
    · -- not accepted: nothing happens
      refine ⟨[], called_filled rfl rfl rfl rfl rfl rfl h ?_⟩
      show TCPSender.Filled W H s (s.ackReceived ackno windowSize) []
      rw [hsame]
      exact .refl h
    · exact ⟨new, called_filled rfl rfl ht.next ht.queue ht.stream ht.isn ht.inv hf⟩
  | tick ms =>
    obtain ⟨h1, h2, -, h4, -⟩ := s.tick_cases ms
    refine ⟨[], called_silent h rfl rfl (TCPSender.tick_inv h ms) h4 h1 ?_⟩
    show (s.tick ms).streamIn.inputEnded = true → _
    rw [h2]
    exact Or.inl
  | sendEmptySegment =>
    have hinv : TCPSender.SenderInv W H s.sendEmptySegment :=
      h.of_same rfl rfl rfl rfl rfl rfl
    exact ⟨[], called_silent h rfl rfl hinv rfl rfl Or.inl⟩
  | write data =>
    refine ⟨[], called_quiet h rfl (TCPSender.write_inv h data) rfl rfl ?_⟩
    show (s.streamIn.write data).2.inputEnded = true → _
    rw [ByteStream.write_inputEnded]
    exact Or.inl
  | endInput =>
    have hinv := TCPSender.endInput_inv h
    exact ⟨[], called_silent h rfl rfl hinv rfl rfl (fun _ => Or.inr rfl)⟩
  | setError => exact ⟨[], called_silent h rfl rfl (TCPSender.setError_inv h) rfl rfl Or.inl⟩
  | popSegment =>
    have hinv : TCPSender.SenderInv W H { s with segmentsOut := s.segmentsOut.tail } :=
      h.of_same rfl rfl rfl rfl rfl rfl
    exact ⟨[], called_silent h rfl rfl hinv rfl rfl Or.inl⟩

/-! ### The invariant over runs -/

/-- The invariant of a run of the calls `ops`. -/
structure Inv (isn : WrappingInt32) (ops : List SenderOp) (st : SenderRun) : Prop where
  sender : ∃ H, TCPSender.SenderInv st.accepted H st.sender ∧ H.map Prod.snd = st.firsts
  isn_eq : st.sender.isn = isn
  ended : st.sender.streamIn.inputEnded = true → .endInput ∈ ops
  unacked : st.lastAck = none → st.sender.state = .closed ∨ st.sender.state = .synSent
  acked : ∀ A window, st.lastAck = some (A, window) →
    st.sender.lowEdge ≤ A ∧ st.sender.windowSize = window

/-- In the beginning nothing is written and nothing sent. -/
theorem start_inv : Inv isn [] (start capacity retxTimeout isn) where
  sender := ⟨[], TCPSender.new_inv capacity retxTimeout isn, rfl⟩
  isn_eq := rfl
  ended := by simp [start, TCPSender.new, ByteStream.new]
  unacked := fun _ => Or.inl rfl
  acked := by simp [start]

variable {ops : List SenderOp} {st : SenderRun}

/-- The calls other than `ack_received` move neither the left edge nor the window. -/
theorem apply_edge (h : TCPSender.SenderInv W H s) {op : SenderOp}
    (hop : ∀ ackno windowSize, op ≠ .ackReceived ackno windowSize) :
    (op.apply s).lowEdge = s.lowEdge ∧ (op.apply s).windowSize = s.windowSize ∧
      (s.state = .closed ∨ s.state = .synSent →
        (op.apply s).state = .closed ∨ (op.apply s).state = .synSent) := by
  cases op with
  | fillWindow =>
    obtain ⟨new, hf⟩ := TCPSender.fillWindow_filled h
    refine ⟨hf.edge, hf.window, fun hstate => ?_⟩
    rcases hstate with hclosed | hsent
    · -- the first fill sends the SYN
      refine Or.inr ?_
      show s.fillWindow.state = .synSent
      rw [TCPSender.fillWindow, if_pos hclosed]
      rfl
    · -- and until that is acknowledged nothing else
      refine Or.inr ?_
      show s.fillWindow.state = .synSent
      rw [TCPSender.fillWindow_idle (by simp [hsent]) (by simp [hsent]), hsent]
  | ackReceived ackno windowSize => exact absurd rfl (hop ackno windowSize)
  | tick ms =>
    obtain ⟨-, -, h3, -, h5, h6, h7, -⟩ := s.tick_cases ms
    refine ⟨?_, h7, fun hstate => ?_⟩
    · show (s.tick ms).nextSeqnoAbsolute - (s.tick ms).bytesInFlight = _
      rw [h3, h5]
      rfl
    · show (s.tick ms).state = _ ∨ (s.tick ms).state = _
      rw [h6]
      exact hstate
  | sendEmptySegment => exact ⟨rfl, rfl, id⟩
  | write data => exact ⟨rfl, rfl, id⟩
  | endInput => exact ⟨rfl, rfl, id⟩
  | setError => exact ⟨rfl, rfl, id⟩
  | popSegment => exact ⟨rfl, rfl, id⟩

/-- An acknowledgment that is accepted is remembered with a left edge not beyond it. -/
theorem step_acked (h : Inv isn ops st) (op : SenderOp) :
    ((st.step op).lastAck = none →
        (st.step op).sender.state = .closed ∨ (st.step op).sender.state = .synSent) ∧
      ∀ A window, (st.step op).lastAck = some (A, window) →
        (st.step op).sender.lowEdge ≤ A ∧ (st.step op).sender.windowSize = window := by
  obtain ⟨H, hs, -⟩ := h.sender
  by_cases hop : ∃ ackno windowSize, op = .ackReceived ackno windowSize
  · obtain ⟨ackno, windowSize, rfl⟩ := hop
    show ((if st.sender.accepts ackno then some (st.sender.receivedAckno ackno, windowSize.toNat)
        else st.lastAck) = none → _) ∧ ∀ A window, (if st.sender.accepts ackno then
          some (st.sender.receivedAckno ackno, windowSize.toNat) else st.lastAck)
            = some (A, window) → _
    show (_ → (st.sender.ackReceived ackno windowSize).state = _ ∨
      (st.sender.ackReceived ackno windowSize).state = _) ∧ ∀ A window, _ →
        (st.sender.ackReceived ackno windowSize).lowEdge ≤ A ∧
          (st.sender.ackReceived ackno windowSize).windowSize = window
    rcases TCPSender.ackReceived_cases hs ackno windowSize with
      ⟨hacc, hsame⟩ | ⟨hacc, t, new, ht, hf⟩
    · -- rejected: the last acknowledgment stays, and so does the sender
      rw [hsame, hacc]
      exact ⟨h.unacked, h.acked⟩
    · -- accepted: the left edge moves to the acknowledgment at most
      rw [hacc, if_pos rfl]
      refine ⟨fun hnone => absurd hnone (by simp), fun A window hsome => ?_⟩
      cases hsome
      rw [hf.edge, hf.window]
      exact ⟨ht.edge_le, ht.window_eq⟩
  · -- any other call leaves the left edge and the window alone
    have hne : ∀ ackno windowSize, op ≠ .ackReceived ackno windowSize :=
      fun ackno windowSize heq => hop ⟨ackno, windowSize, heq⟩
    have hlast : (st.step op).lastAck = st.lastAck := by
      cases op with
      | ackReceived ackno windowSize => exact absurd rfl (hne ackno windowSize)
      | _ => rfl
    obtain ⟨hedge, hwindow, hstate⟩ := apply_edge hs hne
    rw [hlast]
    refine ⟨fun hnone => hstate (h.unacked hnone), fun A window hsome => ?_⟩
    show (op.apply st.sender).lowEdge ≤ A ∧ (op.apply st.sender).windowSize = window
    rw [hedge, hwindow]
    exact h.acked A window hsome

/-- **Step lemma** for the whole run, one case for each operation. -/
theorem step_inv (h : Inv isn ops st) (op : SenderOp) : Inv isn (ops ++ [op]) (st.step op) := by
  obtain ⟨H, hs, hfirsts⟩ := h.sender
  obtain ⟨new, hc⟩ := called hs op
  obtain ⟨hunacked, hacked⟩ := step_acked h op
  constructor
  case sender =>
    refine ⟨H ++ new, hc.inv, ?_⟩
    show (H ++ new).map Prod.snd = st.firsts ++ if op.sends = true then op.queues st.sender else []
    rw [List.map_append, hfirsts]
    by_cases hsends : op.sends = true
    · rw [if_pos hsends, hc.queued hsends]
    · rw [if_neg hsends, hc.quiet (by simpa using hsends)]
      rfl
  case isn_eq => exact hc.isn.trans h.isn_eq
  case ended =>
    intro hended
    rcases hc.ended hended with hold | rfl
    · exact List.mem_append_left _ (h.ended hold)
    · exact List.mem_append_right _ (by simp)
  case unacked => exact hunacked
  case acked => exact hacked

/-- **Run lemma.**  The invariant holds after every sequence of calls. -/
theorem run_inv (capacity : Nat) (retxTimeout : UInt16) (isn : WrappingInt32)
    (ops : List SenderOp) : Inv isn ops (run capacity retxTimeout isn ops) := by
  induction ops using List.reverseRecOn with
  | nil => exact start_inv
  | append_singleton ops op ih =>
    rw [run_snoc]
    exact step_inv ih op

/-! ### What is sent -/

def synSegment (isn : WrappingInt32) : TCPSegment := { header := { seqno := isn, syn := true } }

/-- The segments carry the bytes of `W` from index `i` on, without gap or overlap.  Only a last
    one that ends where `W` ends may have the FIN, and only after `end_input`. -/
def CarriesInOrder (W : List UInt8) (isn : WrappingInt32) (ops : List SenderOp) :
    Nat → List TCPSegment → Prop
  | _, [] => True
  | i, seg :: rest =>
    seg =
      { header := { seqno := wrap (.ofNat (1 + i)) isn, fin := seg.header.fin }
        payload := slice W i seg.payload.length } ∧
    i + seg.payload.length ≤ W.length ∧ seg.payload.length ≤ maxPayloadSize ∧
    0 < seg.lengthInSequenceSpace ∧
    (seg.header.fin = true → i + seg.payload.length = W.length ∧ .endInput ∈ ops ∧ rest = []) ∧
    CarriesInOrder W isn ops (i + seg.payload.length) rest

/-- Where segments of `W` tile the sequence space after the SYN, they carry `W` in order. -/
theorem carriesInOrder_of_tiles {ended : Bool} (hended : ended = true → .endInput ∈ ops) :
    ∀ (es : List (Nat × TCPSegment)) (i b : Nat), Tiles Prod.fst seqLength (1 + i) es b →
      (∀ e ∈ es, TCPSender.FirstSent W isn ended e) → (∀ e ∈ es, 0 < seqLength e) →
        CarriesInOrder W isn ops i (es.map Prod.snd)
  | [], _, _, _, _, _ => trivial
  | e :: rest, i, b, htiles, hsent, hpos => by
    obtain ⟨hat, hrest⟩ := tiles_cons.mp htiles
    have he := hsent e (by simp)
    have hepos := hpos e (by simp)
    have hindex : e.1 - 1 = i := by omega
    -- numbers from `1` on are those after the SYN
    have hsyn : e.2.header.syn = false := by
      rcases he.syn_or_later with ⟨hzero, -⟩ | ⟨-, hsyn⟩
      · omega
      · exact hsyn
    have hstands := he.carries.payload
    have hfin := he.carries.fin
    rw [hindex] at hstands hfin
    have hlen : seqLength e = e.2.payload.length + if e.2.header.fin then 1 else 0 := by
      simp [seqLength, TCPSegment.lengthInSequenceSpace, hsyn]
    have hend : i + e.2.payload.length ≤ W.length := by
      by_cases hf : e.2.header.fin = true
      · exact le_of_eq (hfin hf)
      · rw [if_neg hf] at hlen
        exact hstands.le_length (by omega)
    have hequal : e.2 =
        { header := { seqno := wrap (.ofNat (1 + i)) isn, fin := e.2.header.fin }
          payload := slice W i e.2.payload.length } := by
      have hplain := he.plain
      rw [he.carries.seqno, hsyn, hat] at hplain
      rw [← hplain, ← hstands.eq_slice]
    have hlast : e.2.header.fin = true → rest = [] := by
      intro hf
      rw [if_pos hf] at hlen
      cases rest with
      | nil => rfl
      | cons x xs =>
        -- after the FIN nothing of `W` is left to be carried
        exfalso
        have hxat : x.1 = 1 + i + seqLength e := (tiles_cons.mp hrest).1
        have hwhole := hfin hf
        have hxpos := hpos x (by simp)
        rcases (hsent x (by simp)).end_le with hxend | hxzero <;> omega
    -- the induction goes on where this segment ends, unless it has the FIN
    refine ⟨hequal, hend, he.size_le, hepos, fun hf => ⟨hfin hf, hended (he.fin_ended hf),
      by rw [hlast hf]; rfl⟩, ?_⟩
    by_cases hf : e.2.header.fin = true
    · rw [hlast hf]
      trivial
    · rw [if_neg hf, Nat.add_zero] at hlen
      rw [hlen, Nat.add_assoc] at hrest
      exact carriesInOrder_of_tiles hended rest _ b hrest (fun x hx => hsent x (by simp [hx]))
        (fun x hx => hpos x (by simp [hx]))

/-- The segments sent for the first time: nothing, or the SYN and then `W` in order. -/
theorem firsts_cases (hs : TCPSender.SenderInv W H s) (hisn : s.isn = isn)
    (hended : s.streamIn.inputEnded = true → .endInput ∈ ops) :
    H.map Prod.snd = [] ∨
      ∃ data, H.map Prod.snd = synSegment isn :: data ∧ CarriesInOrder W isn ops 0 data := by
  have htiles := hs.ledger.tiles
  have hsent := hs.sent
  have hpos := hs.ledger.positive
  rw [hisn] at hsent
  cases H with
  | nil => exact Or.inl rfl
  | cons e rest =>
    obtain ⟨hat, hrest⟩ := tiles_cons.mp htiles
    have he := hsent e (by simp)
    -- the segment with number zero is the SYN, and has nothing else in it
    have hsyn : e.2.header.syn = true := he.carries.syn_iff.mpr hat
    obtain ⟨hpayload, hfin⟩ := he.syn_alone hsyn
    have hlen : seqLength e = 1 := by
      simp [seqLength, TCPSegment.lengthInSequenceSpace, hsyn, hpayload, hfin]
    have hequal : e.2 = synSegment isn := by
      have hplain := he.plain
      rw [he.carries.seqno, hsyn, hfin, hat, wrap_zero] at hplain
      rw [synSegment, ← hplain, ← hpayload]
    rw [hlen] at hrest
    refine Or.inr ⟨rest.map Prod.snd, by rw [List.map_cons, hequal], ?_⟩
    exact carriesInOrder_of_tiles hended rest 0 _ hrest (fun x hx => hsent x (by simp [hx]))
      (fun x hx => hpos x (by simp [hx]))

/-- A call that sends nothing new queues nothing, an empty segment, or the oldest outstanding
    segment. -/
theorem queues_cases (s : TCPSender) (op : SenderOp) (hop : op.sends = false) :
    op.queues s = [] ∨
      (op = .sendEmptySegment ∧ ∃ seg, op.queues s = [seg] ∧ seg.lengthInSequenceSpace = 0) ∨
      ∃ ms front, op = .tick ms ∧ s.segmentsOutstanding.head? = some front ∧
        op.queues s = [front.2] := by
  cases op with
  | fillWindow => exact absurd hop (by simp [SenderOp.sends])
  | ackReceived ackno windowSize => exact absurd hop (by simp [SenderOp.sends])
  | tick ms =>
    obtain ⟨-, -, -, -, -, -, -, hsame | ⟨front, hfront, hcopy⟩⟩ := s.tick_cases ms
    · refine Or.inl ?_
      show (s.tick ms).segmentsOut.drop s.segmentsOut.length = []
      rw [hsame, List.drop_length]
    · refine Or.inr (Or.inr ⟨ms, front, rfl, hfront, ?_⟩)
      show (s.tick ms).segmentsOut.drop s.segmentsOut.length = [front.2]
      rw [hcopy, List.drop_left]
  | sendEmptySegment =>
    refine Or.inr (Or.inl ⟨rfl, { header := { seqno := s.nextSeqno } }, ?_, rfl⟩)
    show (s.segmentsOut ++ [_]).drop s.segmentsOut.length = _
    rw [List.drop_left]
  | write data => exact Or.inl (List.drop_length)
  | endInput => exact Or.inl (List.drop_length)
  | setError => exact Or.inl (List.drop_length)
  | popSegment =>
    -- the queue has become shorter
    refine Or.inl ?_
    show s.segmentsOut.tail.drop s.segmentsOut.length = []
    exact List.drop_eq_nil_of_le (by rw [List.length_tail]; omega)

/-- The calls only add to the outbound queue; only its owner takes segments off it. -/
theorem apply_segmentsOut (hs : TCPSender.SenderInv W H s) (op : SenderOp)
    (hop : op ≠ .popSegment) : (op.apply s).segmentsOut = s.segmentsOut ++ op.queues s := by
  -- whatever is added at the end is what the call queues
  have hqueues : ∀ more, (op.apply s).segmentsOut = s.segmentsOut ++ more →
      (op.apply s).segmentsOut = s.segmentsOut ++ op.queues s := by
    intro more hmore
    rw [SenderOp.queues, hmore, List.drop_left]
  cases op with
  | fillWindow =>
    obtain ⟨new, hf⟩ := TCPSender.fillWindow_filled hs
    exact hqueues _ hf.queue
  | ackReceived ackno windowSize =>
    rcases TCPSender.ackReceived_cases hs ackno windowSize with ⟨-, hsame⟩ | ⟨-, t, new, ht, hf⟩
    · exact hqueues [] (by
        show (s.ackReceived ackno windowSize).segmentsOut = _
        rw [hsame, List.append_nil])
    · exact hqueues _ (hf.queue.trans (by rw [ht.queue]))
  | tick ms =>
    obtain ⟨-, -, -, -, -, -, -, hsame | ⟨front, -, hcopy⟩⟩ := s.tick_cases ms
    · exact hqueues [] (hsame.trans (List.append_nil _).symm)
    · exact hqueues _ hcopy
  | sendEmptySegment => exact hqueues _ rfl
  | write data => exact hqueues [] (List.append_nil _).symm
  | endInput => exact hqueues [] (List.append_nil _).symm
  | setError => exact hqueues [] (List.append_nil _).symm
  | popSegment => exact absurd rfl hop

/-- **Sender fidelity.**  What `fill_window` and `ack_received` send is the SYN and then the
    accepted bytes in order, ended by the FIN; every other call sends nothing, an empty
    segment, or a copy of a segment that was sent before and is still outstanding. -/
theorem run_fidelity (capacity : Nat) (retxTimeout : UInt16) (isn : WrappingInt32)
    (ops : List SenderOp) :
    ((run capacity retxTimeout isn ops).firsts = [] ∨
      ∃ data, (run capacity retxTimeout isn ops).firsts = synSegment isn :: data ∧
        CarriesInOrder (run capacity retxTimeout isn ops).accepted isn ops 0 data) ∧
    (∀ op : SenderOp, op ≠ .popSegment →
      (op.apply (run capacity retxTimeout isn ops).sender).segmentsOut
        = (run capacity retxTimeout isn ops).sender.segmentsOut
          ++ op.queues (run capacity retxTimeout isn ops).sender) ∧
    ∀ op : SenderOp, op.sends = false →
      op.queues (run capacity retxTimeout isn ops).sender = [] ∨
      (op = .sendEmptySegment ∧ ∃ seg,
        op.queues (run capacity retxTimeout isn ops).sender = [seg] ∧
          seg.lengthInSequenceSpace = 0) ∨
      ∃ ms front, op = .tick ms ∧
        (run capacity retxTimeout isn ops).sender.segmentsOutstanding.head? = some front ∧
        op.queues (run capacity retxTimeout isn ops).sender = [front.2] ∧
        front.2 ∈ (run capacity retxTimeout isn ops).firsts := by
  have hinv := run_inv capacity retxTimeout isn ops
  obtain ⟨H, hs, hfirsts⟩ := hinv.sender
  refine ⟨?_, fun op hop => apply_segmentsOut hs op hop, ?_⟩
  · rw [← hfirsts]
    exact firsts_cases hs hinv.isn_eq hinv.ended
  · intro op hop
    rcases queues_cases _ op hop with hnil | hempty | ⟨ms, front, htick, hfront, hcopy⟩
    · exact Or.inl hnil
    · exact Or.inr (Or.inl hempty)
    · refine Or.inr (Or.inr ⟨ms, front, htick, hfront, hcopy, ?_⟩)
      rw [← hfirsts]
      exact List.mem_map_of_mem (hs.ledger.last.subset (List.mem_of_mem_head? hfront))

-- `abc` with a window of exactly its size: the FIN waits for the next acknowledgment
example : (run 10 1000 ⟨5⟩ [.fillWindow, .write [97, 98, 99], .endInput, .ackReceived ⟨6⟩ 3,
    .ackReceived ⟨9⟩ 0]).firsts =
      [synSegment ⟨5⟩, ⟨{ seqno := ⟨6⟩ }, [97, 98, 99]⟩, ⟨{ seqno := ⟨9⟩, fin := true }, []⟩] := by
  decide

/-! ### The accounts -/

/-- The operands of the differences `_bytes_in_flight -= length` in the loop of
    `ack_received`. -/
def popSubtractions (A : Nat) : List (Nat × TCPSegment) → Nat → List (Nat × Nat)
  | [], _ => []
  | e :: rest, bytes =>
    if e.1 + e.2.lengthInSequenceSpace > A then []
    else
      (bytes, e.2.lengthInSequenceSpace) ::
        popSubtractions A rest (bytes - e.2.lengthInSequenceSpace)

/-- The operands of the differences `window_size - bytes_in_flight()` in `fill_window`: the
    body computes them in every iteration in which the condition of the loop holds. -/
def fillSubtractions (s : TCPSender) : List (Nat × Nat) :=
  if s.state = .closed then []
  else
    ((Loop.visited (TCPSender.fillStep s.fillSize) (s.fillSize - s.bytesInFlight) s).filter
      (fun t => t.state = .synAcked ∧ s.fillSize > t.bytesInFlight)).map
        (fun t => (s.fillSize, t.bytesInFlight))

/-- The operands of all unsigned subtractions in a call, the minuend first. -/
def subtractions (s : TCPSender) : SenderOp → List (Nat × Nat)
  | .fillWindow => fillSubtractions s
  | .ackReceived ackno windowSize =>
    (s.nextSeqnoAbsolute, s.bytesInFlight) ::
      if s.accepts ackno then
        popSubtractions (s.receivedAckno ackno) s.segmentsOutstanding s.bytesInFlight ++
          if (s.acknowledge (s.receivedAckno ackno) windowSize).state = .synAcked then
            fillSubtractions (s.acknowledge (s.receivedAckno ackno) windowSize)
          else []
      else []
  | _ => []

/-- The loop that removes acknowledged segments takes off no more than is in flight. -/
theorem popSubtractions_le (A : Nat) (es : List (Nat × TCPSegment)) {bytes : Nat}
    (hbytes : bytes = (es.map seqLength).sum) {p : Nat × Nat}
    (hp : p ∈ popSubtractions A es bytes) : p.2 ≤ p.1 := by
  induction es generalizing bytes with
  | nil => exact absurd hp (by simp [popSubtractions])
  | cons e rest ih =>
    rw [List.map_cons, List.sum_cons, seqLength] at hbytes
    rw [popSubtractions] at hp
    split at hp
    · exact absurd hp (by simp)
    · rcases List.mem_cons.mp hp with rfl | hp
      · show e.2.lengthInSequenceSpace ≤ bytes
        omega
      · exact ih (by omega) hp

/-- The window is never smaller than what is in flight where the difference is taken. -/
theorem fillSubtractions_le (s : TCPSender) {p : Nat × Nat} (hp : p ∈ fillSubtractions s) :
    p.2 ≤ p.1 := by
  unfold fillSubtractions at hp
  split at hp
  · exact absurd hp (by simp)
  · obtain ⟨t, ht, rfl⟩ := List.mem_map.mp hp
    have hguard := (List.mem_filter.mp ht).2
    simp only [decide_eq_true_eq] at hguard
    exact le_of_lt hguard.2

/-- **No subtraction of a call underflows.** -/
theorem subtractions_le (hs : TCPSender.SenderInv W H s) (op : SenderOp) {p : Nat × Nat}
    (hp : p ∈ subtractions s op) : p.2 ≤ p.1 := by
  cases op with
  | fillWindow => exact fillSubtractions_le s hp
  | ackReceived ackno windowSize =>
    rw [subtractions] at hp
    rcases List.mem_cons.mp hp with rfl | hp
    · -- `_next_seqno - bytes_in_flight()`, in the test of the acknowledgment
      exact hs.ledger.outstanding_tiles.2
    · split at hp
      · rcases List.mem_append.mp hp with hp | hp
        · exact popSubtractions_le _ _ hs.ledger.bytes hp
        · split at hp
          · exact fillSubtractions_le _ hp
          · exact absurd hp (by simp)
      · exact absurd hp (by simp)
  | _ => exact absurd hp (by simp [subtractions])

/-- **Sender accounting.**  In every state of every run `bytesInFlight` is the length of the
    outstanding segments, these are consecutive and end at the next sequence number, which
    counts the SYN, the bytes read from the stream and the FIN.  No subtraction underflows. -/
theorem run_accounting (capacity : Nat) (retxTimeout : UInt16) (isn : WrappingInt32)
    (ops : List SenderOp) :
    (run capacity retxTimeout isn ops).sender.bytesInFlight
        = ((run capacity retxTimeout isn ops).sender.segmentsOutstanding.map
            (fun e => e.2.lengthInSequenceSpace)).sum ∧
      (run capacity retxTimeout isn ops).sender.bytesInFlight
        ≤ (run capacity retxTimeout isn ops).sender.nextSeqnoAbsolute ∧
      Tiles Prod.fst (fun e => e.2.lengthInSequenceSpace)
        ((run capacity retxTimeout isn ops).sender.nextSeqnoAbsolute
          - (run capacity retxTimeout isn ops).sender.bytesInFlight)
        (run capacity retxTimeout isn ops).sender.segmentsOutstanding
        (run capacity retxTimeout isn ops).sender.nextSeqnoAbsolute ∧
      (run capacity retxTimeout isn ops).sender.nextSeqnoAbsolute
        = (if (run capacity retxTimeout isn ops).firsts.any (fun seg => seg.header.syn) then 1
            else 0)
          + (run capacity retxTimeout isn ops).sender.streamIn.bytesRead
          + (if (run capacity retxTimeout isn ops).firsts.any (fun seg => seg.header.fin) then 1
            else 0) ∧
      ∀ op : SenderOp, ∀ p ∈ subtractions (run capacity retxTimeout isn ops).sender op,
        p.2 ≤ p.1 := by
  have hinv := run_inv capacity retxTimeout isn ops
  obtain ⟨H, hs, hfirsts⟩ := hinv.sender
  obtain ⟨htiles, hle⟩ := hs.ledger.outstanding_tiles
  refine ⟨hs.ledger.bytes, hle, htiles, ?_, fun op p hp => subtractions_le hs op hp⟩
  -- the flags of what was sent and the sender's state say the same
  have hsyn : (run capacity retxTimeout isn ops).firsts.any (fun seg => seg.header.syn) = true ↔
      (run capacity retxTimeout isn ops).sender.state ≠ .closed := by
    rw [← hs.syn_iff, ← hfirsts]
    simp
  have hfin : (run capacity retxTimeout isn ops).firsts.any (fun seg => seg.header.fin) = true ↔
      (run capacity retxTimeout isn ops).sender.state = .finSent := by
    rw [← hs.fin_iff, ← hfirsts]
    simp
  simp only [hsyn, hfin]
  exact hs.next_eq

/-! ### The window -/

/-- **The sender respects the window.**  Whatever a call sends for the first time, the SYN
    apart, ends inside the window of the last accepted acknowledgment. -/
theorem run_within_window (capacity : Nat) (retxTimeout : UInt16) (isn : WrappingInt32)
    (ops : List SenderOp) (op : SenderOp) :
    (op.sends = true → op.queues (run capacity retxTimeout isn ops).sender
      = (TCPSender.fresh (run capacity retxTimeout isn ops).sender
          (run capacity retxTimeout isn (ops ++ [op])).sender).map Prod.snd) ∧
    ∀ e ∈ TCPSender.fresh (run capacity retxTimeout isn ops).sender
        (run capacity retxTimeout isn (ops ++ [op])).sender,
      e.2.header.syn = false →
        ∃ A window, (run capacity retxTimeout isn (ops ++ [op])).lastAck = some (A, window) ∧
          e.1 + e.2.lengthInSequenceSpace ≤ A + max 1 window := by
  have hinv := run_inv capacity retxTimeout isn ops
  have hafter := run_inv capacity retxTimeout isn (ops ++ [op])
  rw [run_snoc] at hafter ⊢
  generalize run capacity retxTimeout isn ops = st at hinv hafter ⊢
  obtain ⟨H, hs, -⟩ := hinv.sender
  obtain ⟨new, hc⟩ := called hs op
  have hfresh : TCPSender.fresh st.sender (st.step op).sender = new := hc.fresh_eq
  rw [hfresh]
  refine ⟨hc.queued, fun e he hsyn => ?_⟩
  have hmem : e ∈ H ++ new := List.mem_append_right H he
  have hend : e.1 + e.2.lengthInSequenceSpace ≤ (op.apply st.sender).nextSeqnoAbsolute :=
    (hc.inv.ledger.tiles.mem_bounds hmem).2
  have hbound : (op.apply st.sender).nextSeqnoAbsolute
      ≤ (op.apply st.sender).lowEdge + max 1 (op.apply st.sender).windowSize := by
    rcases hc.bound with hnil | hle
    · rw [hnil] at he
      exact absurd he (by simp)
    · exact hle
  cases hlast : (st.step op).lastAck with
  | none =>
    -- before the first acknowledgment only the SYN has been sent
    have hpos : 0 < e.2.lengthInSequenceSpace := hc.inv.ledger.positive e hmem
    have hphase := hc.inv.phase
    have hone : (op.apply st.sender).nextSeqnoAbsolute ≤ 1 := by
      have hstate : (op.apply st.sender).state = .closed ∨ (op.apply st.sender).state = .synSent :=
        hafter.unacked hlast
      rw [TCPSender.Phase] at hphase
      rcases hstate with hstate | hstate <;> rw [hstate] at hphase <;> simp only at hphase <;> omega
    have hzero : e.1 = 0 := by omega
    have hflag := (hc.inv.sent e hmem).carries.syn_iff.mpr hzero
    rw [hsyn] at hflag
    exact absurd hflag (by simp)
  | some ack =>
    obtain ⟨hedge, hwindow⟩ := hafter.acked ack.1 ack.2 hlast
    refine ⟨ack.1, ack.2, rfl, ?_⟩
    -- what is new ends inside the window from the left edge, which is not beyond `A`
    change (op.apply st.sender).lowEdge ≤ ack.1 at hedge
    change (op.apply st.sender).windowSize = ack.2 at hwindow
    rw [hwindow] at hbound
    omega

end SenderRun

end Sponge
