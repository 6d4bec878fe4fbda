import Sponge.SenderInvariant

namespace Sponge

open Slice Tiling

/-!
# A sender on its way

Inside a connection one event makes a sender do several things in a row: fill its window,
send an empty segment, have its queue emptied.  `Proceeds` says what such a row amounts to as
long as no acknowledgment is among it: new segments are sent inside the window that was
there, and whatever stands in the outbound queue is `Listed`.  It is transitive
(`Proceeds.trans`) and each operation is a case of it; an acknowledgment is a `Settled` step
in front.
-/

namespace TCPSender

/-- The segment was sent by `s`, or is an empty one numbered between the SYN and the next
    number. -/
def Listed (H : List (Nat × TCPSegment)) (s : TCPSender) (seg : TCPSegment) : Prop :=
  (∃ e ∈ H, e.2 = seg) ∨
    ∃ v, 1 ≤ v ∧ v ≤ s.nextSeqnoAbsolute ∧ seg = { header := { seqno := wrap (.ofNat v) s.isn } }

/-- Everything in the outbound queue is listed. -/
def QueueListed (H : List (Nat × TCPSegment)) (s : TCPSender) : Prop :=
  ∀ seg ∈ s.segmentsOut, Listed H s seg

/-- `t` is `s` after some operations without an acknowledgment: the bytes accepted have grown
    to `W'`, and the segments `new` have been sent. -/
structure Proceeds (W : List UInt8) (H : List (Nat × TCPSegment)) (s : TCPSender)
    (W' : List UInt8) (new : List (Nat × TCPSegment)) (t : TCPSender) : Prop where
  inv : SenderInv W' (H ++ new) t
  outstanding : t.segmentsOutstanding = s.segmentsOutstanding ++ new
  queue : QueueListed H s → QueueListed (H ++ new) t
  edge : t.lowEdge = s.lowEdge
  bound : new = [] ∨ t.nextSeqnoAbsolute ≤ s.lowEdge + s.fillSize
  isn : t.isn = s.isn
  window : t.windowSize = s.windowSize
  opened : s.state ≠ .closed → t.state ≠ .closed
  acked : t.state = .synAcked → s.state = .synAcked
  closing : t.state = .finSent → s.state = .synAcked ∨ s.state = .finSent
  finished : s.state = .finSent → t.state = .finSent
  read_le : s.streamIn.bytesRead ≤ t.streamIn.bytesRead
  ended : s.streamIn.inputEnded = true → t.streamIn.inputEnded = true
  grows : ∃ more, W' = W ++ more ∧ (s.streamIn.inputEnded = true → more = [])

variable {W W' W'' : List UInt8} {H new new' : List (Nat × TCPSegment)} {s t u : TCPSender}
  {seg : TCPSegment}

/-- A segment that was listed stays so while the sender goes on. -/
theorem Listed.mono (h : Listed H s seg) (hnext : s.nextSeqnoAbsolute ≤ t.nextSeqnoAbsolute)
    (hisn : t.isn = s.isn) : Listed (H ++ new) t seg := by
  rcases h with ⟨e, he, rfl⟩ | ⟨v, h1, h2, rfl⟩
  · exact Or.inl ⟨e, List.mem_append_left _ he, rfl⟩
  · exact Or.inr ⟨v, h1, le_trans h2 hnext, by rw [hisn]⟩

/-- A listed segment has no acknowledgment of its own and is no RST. -/
theorem Listed.plain (h : Listed H s seg) (hs : SenderInv W H s) :
    seg.header.ack = false ∧ seg.header.rst = false := by
  rcases h with ⟨e, he, rfl⟩ | ⟨v, -, -, rfl⟩
  · have hplain := (hs.sent e he).plain
    rw [hplain]
    exact ⟨rfl, rfl⟩
  · exact ⟨rfl, rfl⟩

/-- Only a sender that has sent its SYN has something in its queue. -/
theorem Listed.next_pos (h : Listed H s seg) (hs : SenderInv W H s) :
    1 ≤ s.nextSeqnoAbsolute := by
  rcases h with ⟨e, he, -⟩ | ⟨v, h1, h2, -⟩
  · have hpos := hs.ledger.positive e he
    have hend := (hs.ledger.tiles.mem_bounds he).2
    omega
  · omega

/-- The next sequence number does not go back. -/
theorem Proceeds.next_le (h : Ledger H s) (hp : Proceeds W H s W' new t) :
    s.nextSeqnoAbsolute ≤ t.nextSeqnoAbsolute := by
  have hnew := (h.new_tiles hp.inv.ledger).eq_add_sum
  omega

/-- Two pieces of progress after another are one. -/
theorem Proceeds.trans (h1 : Proceeds W H s W' new t) (h2 : Proceeds W' (H ++ new) t W'' new' u) :
    Proceeds W H s W'' (new ++ new') u := by
  have hsize : t.fillSize = s.fillSize := by rw [fillSize, fillSize, h1.window]
  constructor
  case inv => rw [← List.append_assoc]; exact h2.inv
  case outstanding => rw [h2.outstanding, h1.outstanding, List.append_assoc]
  case queue => rw [← List.append_assoc]; exact fun hs => h2.queue (h1.queue hs)
  case edge => rw [h2.edge, h1.edge]
  case bound =>
    rcases h2.bound with hnil | hle
    · -- the second row sent nothing, so the bound of the first one stands
      subst hnil
      have hnext := (h1.inv.ledger.new_tiles h2.inv.ledger)
      rw [tiles_nil] at hnext
      rw [List.append_nil, ← hnext]
      exact h1.bound
    · rw [h1.edge, hsize] at hle
      exact Or.inr hle
  case isn => rw [h2.isn, h1.isn]
  case window => rw [h2.window, h1.window]
  case opened => exact fun hs => h2.opened (h1.opened hs)
  case acked => exact fun hu => h1.acked (h2.acked hu)
  case closing =>
    intro hu
    rcases h2.closing hu with ht | ht
    · exact Or.inl (h1.acked ht)
    · exact h1.closing ht
  case finished => exact fun hs => h2.finished (h1.finished hs)
  case read_le => exact le_trans h1.read_le h2.read_le
  case ended => exact fun hs => h2.ended (h1.ended hs)
  case grows =>
    obtain ⟨more1, hmore1, hnone1⟩ := h1.grows
    obtain ⟨more2, hmore2, hnone2⟩ := h2.grows
    refine ⟨more1 ++ more2, by rw [hmore2, hmore1, List.append_assoc], fun hs => ?_⟩
    rw [hnone1 hs, hnone2 (h1.ended hs)]
    rfl

/-- Filling the window. -/
theorem Filled.proceeds (h : SenderInv W H s) (hf : Filled W H s t new) :
    Proceeds W H s W new t := by
  refine ⟨hf.inv, hf.outstanding, fun hqueue seg hseg => ?_, hf.edge, hf.bound, hf.isn, hf.window,
    hf.opened, hf.acked, hf.closing, hf.finished, hf.read_le, by rw [hf.ended]; exact id,
    [], (List.append_nil W).symm, fun _ => rfl⟩
  rw [hf.queue] at hseg
  -- what stood in the queue stays listed, and what is new in it is new in the history
  rcases List.mem_append.mp hseg with hseg | hseg
  · have hnext := (h.ledger.new_tiles hf.inv.ledger).eq_add_sum
    exact (hqueue seg hseg).mono (by omega) hf.isn
  · obtain ⟨e, he, rfl⟩ := List.mem_map.mp hseg
    exact Or.inl ⟨e, List.mem_append_right _ he, rfl⟩

/-- An operation that sends no new segment: what it changes of the outbound queue is
    listed. -/
theorem proceeds_of_inv (h : SenderInv W' H t) (hisn : t.isn = s.isn)
    (hnext : t.nextSeqnoAbsolute = s.nextSeqnoAbsolute)
    (hout : t.segmentsOutstanding = s.segmentsOutstanding)
    (hbytes : t.bytesInFlight = s.bytesInFlight) (hstate : t.state = s.state)
    (hwindow : t.windowSize = s.windowSize)
    (hread : t.streamIn.bytesRead = s.streamIn.bytesRead)
    (hended : s.streamIn.inputEnded = true → t.streamIn.inputEnded = true)
    (hgrows : ∃ more, W' = W ++ more ∧ (s.streamIn.inputEnded = true → more = []))
    (hqueue : QueueListed H s → ∀ seg ∈ t.segmentsOut, Listed H s seg) :
    Proceeds W H s W' [] t := by
  constructor
  case inv => rw [List.append_nil]; exact h
  case outstanding => rw [hout, List.append_nil]
  case queue => exact fun hs seg hseg => (hqueue hs seg hseg).mono (by omega) hisn
  case edge => rw [lowEdge, lowEdge, hnext, hbytes]
  case bound => exact Or.inl rfl
  case isn => exact hisn
  case window => exact hwindow
  case opened => rw [hstate]; exact id
  case acked => rw [hstate]; exact id
  case closing => rw [hstate]; exact Or.inr
  case finished => rw [hstate]; exact id
  case read_le => exact le_of_eq hread.symm
  case ended => exact hended
  case grows => exact hgrows

/-- An operation that does not touch the stream either. -/
theorem proceeds_of_same (h : SenderInv W H t) (hisn : t.isn = s.isn)
    (hstream : t.streamIn = s.streamIn) (hnext : t.nextSeqnoAbsolute = s.nextSeqnoAbsolute)
    (hout : t.segmentsOutstanding = s.segmentsOutstanding)
    (hbytes : t.bytesInFlight = s.bytesInFlight) (hstate : t.state = s.state)
    (hwindow : t.windowSize = s.windowSize)
    (hqueue : QueueListed H s → ∀ seg ∈ t.segmentsOut, Listed H s seg) :
    Proceeds W H s W [] t :=
  proceeds_of_inv h hisn hnext hout hbytes hstate hwindow (by rw [hstream])
    (by rw [hstream]; exact id) ⟨[], (List.append_nil W).symm, fun _ => rfl⟩ hqueue

/-- Standing still is progress, too. -/
theorem proceeds_refl (h : SenderInv W H s) : Proceeds W H s W [] s :=
  proceeds_of_same h rfl rfl rfl rfl rfl rfl rfl id

/-- A tick sends nothing for the first time. -/
theorem tick_proceeds (h : SenderInv W H s) (ms : Nat) : Proceeds W H s W [] (s.tick ms) := by
  obtain ⟨h1, h2, h3, h4, h5, h6, h7, hqueue⟩ := s.tick_cases ms
  refine proceeds_of_same (tick_inv h ms) h1 h2 h3 h4 h5 h6 h7 (fun hs seg hseg => ?_)
  rcases hqueue with hsame | ⟨front, hfront, hcopy⟩
  · rw [hsame] at hseg
    exact hs seg hseg
  · -- the copy is of a segment that is outstanding, hence was sent
    rw [hcopy] at hseg
    rcases List.mem_append.mp hseg with hseg | hseg
    · exact hs seg hseg
    · rw [List.mem_singleton.mp hseg]
      exact Or.inl ⟨front, h.ledger.last.subset (List.mem_of_mem_head? hfront), rfl⟩

/-- An empty segment takes no sequence number; after the SYN it is one of those listed. -/
theorem sendEmptySegment_proceeds (h : SenderInv W H s) (hpos : 1 ≤ s.nextSeqnoAbsolute) :
    Proceeds W H s W [] s.sendEmptySegment := by
  refine proceeds_of_same (h.of_same rfl rfl rfl rfl rfl rfl) rfl rfl rfl rfl rfl rfl rfl ?_
  intro hs seg hseg
  rcases List.mem_append.mp hseg with hseg | hseg
  · exact hs seg hseg
  · exact Or.inr ⟨s.nextSeqnoAbsolute, hpos, le_refl _, List.mem_singleton.mp hseg⟩

/-- Segments are taken off the outbound queue. -/
theorem dequeue_proceeds (h : SenderInv W H s) {queue : List TCPSegment}
    (hsub : queue ⊆ s.segmentsOut) : Proceeds W H s W [] { s with segmentsOut := queue } :=
  proceeds_of_same (h.of_same rfl rfl rfl rfl rfl rfl) rfl rfl rfl rfl rfl rfl rfl
    (fun hs seg hseg => hs seg (hsub hseg))

/-- A write: a stream that has ended accepts nothing. -/
theorem write_proceeds (h : SenderInv W H s) (data : List UInt8) :
    Proceeds W H s (W ++ data.take (s.streamIn.write data).1) []
      { s with streamIn := (s.streamIn.write data).2 } := by
  refine proceeds_of_inv (write_inv h data) rfl rfl rfl rfl rfl rfl
    (ByteStream.write_bytesRead _ _) ?_ ⟨_, rfl, fun hended => ?_⟩ id
  · show _ → (s.streamIn.write data).2.inputEnded = true
    rw [ByteStream.write_inputEnded]
    exact id
  · simp [ByteStream.write, hended]

/-- Ending the stream sends nothing by itself. -/
theorem endInput_proceeds (h : SenderInv W H s) :
    Proceeds W H s W [] { s with streamIn := s.streamIn.endInput } :=
  proceeds_of_inv (endInput_inv h) rfl rfl rfl rfl rfl rfl rfl (fun _ => rfl)
    ⟨[], (List.append_nil W).symm, fun _ => rfl⟩ id

theorem setError_proceeds (h : SenderInv W H s) :
    Proceeds W H s W [] { s with streamIn := s.streamIn.setError } :=
  proceeds_of_inv (setError_inv h) rfl rfl rfl rfl rfl rfl rfl id
    ⟨[], (List.append_nil W).symm, fun _ => rfl⟩ id

end TCPSender

end Sponge
