import Sponge.ConnectionProgress

namespace Sponge

open TCPSender Tiling Slice

/-!
# One direction of a connection

A flow is one direction of a connection between two endpoints: a sender on one side, a
receiver on the other, the segments on their way to the receiver and the acknowledgments on
their way back.  `Flow` is the invariant that ties the four together:

* every segment on the wire carries a part of the sender's stream, and the receiver's
  reassembler holds a part of that stream;
* no acknowledgment is ahead of the receiver, and the sender's left edge is not either, so
  whatever has left the retransmission queue has arrived;
* the right edge an acknowledgment advertises never lies beyond the receiver's own, and
  neither does what was sent under it.

The sender's side moves by `Flow.settle` and `Flow.proceed`, the receiver's by
`Flow.receive`, `Flow.takeOut` and `Flow.acknowledge`.
-/

/-- A segment sent for the first time: its absolute sequence number, and the sender's window
    at that moment. -/
structure Sent where
  seqno : Nat
  segment : TCPSegment
  window : Nat
  deriving DecidableEq, Repr

/-- The segment as it stands in the retransmission queue. -/
def Sent.entry (h : Sent) : Nat × TCPSegment := (h.seqno, h.segment)

/-- Segments of the retransmission queue that were sent under a window of the given size. -/
def tagged (window : Nat) (new : List (Nat × TCPSegment)) : List Sent :=
  new.map (fun e => ⟨e.1, e.2, window⟩)

/-- A segment on its way, with the absolute number its acknowledgment number stands for. -/
structure Flight where
  segment : TCPSegment
  ackno : Nat
  deriving DecidableEq, Repr

/-- The segment is a copy of `seg0` but for the fields the receiver fills in. -/
structure Copies (seg seg0 : TCPSegment) : Prop where
  seqno : seg.header.seqno = seg0.header.seqno
  syn : seg.header.syn = seg0.header.syn
  fin : seg.header.fin = seg0.header.fin
  payload : seg.payload = seg0.payload

/-- A copy of a segment carries what the segment carries. -/
theorem Copies.carries {S : List UInt8} {isn : WrappingInt32} {v : Nat} {seg seg0 : TCPSegment}
    (hcopy : Copies seg seg0) (h : Carries S isn v seg0) : Carries S isn v seg :=
  ⟨by rw [hcopy.seqno]; exact h.seqno, by rw [hcopy.syn]; exact h.syn_iff,
    by rw [hcopy.payload]; exact h.payload, by rw [hcopy.fin, hcopy.payload]; exact h.fin⟩

/-- A copy takes the same place in the sequence space. -/
theorem Copies.length_eq {seg seg0 : TCPSegment} (hcopy : Copies seg seg0) :
    seg.lengthInSequenceSpace = seg0.lengthInSequenceSpace := by
  unfold TCPSegment.lengthInSequenceSpace
  rw [hcopy.payload, hcopy.syn, hcopy.fin]

/-- The entries of the retransmission queue a history stands for. -/
def entries (hist : List Sent) : List (Nat × TCPSegment) := hist.map Sent.entry

theorem entry_mem {hist : List Sent} {x : Sent} (hx : x ∈ hist) : x.entry ∈ entries hist :=
  List.mem_map_of_mem hx

/-- The windows that are noted in the history do not matter for what was sent. -/
theorem entries_tagged (hist : List Sent) (window : Nat) (new : List (Nat × TCPSegment)) :
    entries (hist ++ tagged window new) = entries hist ++ new := by
  simp [entries, tagged, Sent.entry, Function.comp_def]

/-- The segment on the wire is a RST, or a copy of a listed segment. -/
def OnWire (hist : List Sent) (s : TCPSender) (f : Flight) : Prop :=
  f.segment.header.rst = true ∨ ∃ seg0, Listed (entries hist) s seg0 ∧ Copies f.segment seg0

/-- The acknowledgment on the wire was given by the receiver: it is not ahead of it, and its
    right edge is not beyond the receiver's, unless all has been sent. -/
structure Acknowledges (s : TCPSender) (r : TCPReceiver) (f : Flight) : Prop where
  synced : r.inListen = false
  ackno : f.segment.header.ackno = wrap (.ofNat f.ackno) s.isn
  not_ahead : f.ackno ≤ r.absAck
  inside : f.ackno + f.segment.header.win.toNat ≤ r.edge ∨ s.state = .finSent

/-- The wire keeps what is listed at the sender. -/
theorem OnWire.mono {hist hist' : List Sent} {s t : TCPSender} {f : Flight} (h : OnWire hist s f)
    (hlisted : ∀ seg, Listed (entries hist) s seg → Listed (entries hist') t seg) :
    OnWire hist' t f := by
  rcases h with hrst | ⟨seg0, hseg0, hcopy⟩
  · exact Or.inl hrst
  · exact Or.inr ⟨seg0, hlisted seg0 hseg0, hcopy⟩

/-- An acknowledgment on the wire stays one, whatever the sender does. -/
theorem Acknowledges.of_sender {s t : TCPSender} {r : TCPReceiver} {f : Flight}
    (h : Acknowledges s r f) (hisn : t.isn = s.isn)
    (hfin : s.state = .finSent → t.state = .finSent) : Acknowledges t r f where
  synced := h.synced
  ackno := by rw [hisn]; exact h.ackno
  not_ahead := h.not_ahead
  inside := h.inside.imp_right hfin

/-- The invariant of a flow from the sender `s`, whose stream has accepted `W`, to the
    receiver `r`. -/
structure Flow (W : List UInt8) (hist : List Sent) (s : TCPSender) (data : List Flight)
    (r : TCPReceiver) (taken : List UInt8) (acks : List Flight) : Prop where
  sender : SenderInv W (entries hist) s
  queued : QueueListed (entries hist) s
  onWire : ∀ f ∈ data, OnWire hist s f
  holds : ∃ seen, (seen = true → s.state = .finSent) ∧ r.reassembler.Holds W seen
    (fun _ => False) (fun p => p < s.streamIn.bytesRead ∧ p < 2 ^ 64 - 2) taken
  synced : r.inListen = false → r.isn = s.isn ∧ s.state ≠ .closed
  established : s.state = .synAcked ∨ s.state = .finSent → r.inListen = false
  edge : s.lowEdge ≤ r.absAck
  reach : s.nextSeqnoAbsolute ≤ r.absAck + 65535
  acked : ∀ f ∈ acks, f.segment.header.rst = false → f.segment.header.ack = true →
    Acknowledges s r f
  credit : s.state = .synAcked → s.lowEdge + s.windowSize ≤ r.edge
  window_le : s.windowSize ≤ 65535
  sizes : ∀ h ∈ hist, h.window = 0 → h.segment.lengthInSequenceSpace = 1
  fits : ∀ h ∈ hist, h.window ≠ 0 →
    h.segment.header.syn = true ∨ h.seqno + h.segment.lengthInSequenceSpace ≤ r.edge

namespace Flow

variable {W W' taken : List UInt8} {hist : List Sent} {s t : TCPSender} {data acks : List Flight}
  {r r' : TCPReceiver} {new : List (Nat × TCPSegment)}

/-- Before anything has happened. -/
theorem start (sendCapacity recvCapacity : Nat) (retxTimeout : UInt16)
    (isn recvIsn : WrappingInt32) :
    Flow [] [] (TCPSender.new sendCapacity retxTimeout isn) []
      (TCPReceiver.new recvCapacity recvIsn) [] [] where
  sender := new_inv sendCapacity retxTimeout isn
  queued := fun _ hseg => absurd hseg (by simp [TCPSender.new])
  onWire := fun _ hf => absurd hf (by simp)
  holds := ⟨false, fun hs => absurd hs (by simp),
    (StreamReassembler.new_holds [] recvCapacity).weaken (fun _ => id) (fun _ hp => hp.elim)⟩
  synced := fun hl => absurd hl (by simp [TCPReceiver.new])
  established := fun hs => absurd hs (by simp [TCPSender.new])
  edge := Nat.zero_le _
  reach := Nat.zero_le _
  acked := fun _ hf => absurd hf (by simp)
  credit := fun hs => absurd hs (by simp [TCPSender.new])
  window_le := by simp [TCPSender.new]
  sizes := fun _ hx => absurd hx (by simp)
  fits := fun _ hx => absurd hx (by simp)

/-! ### The sender's side -/

/-- The sender settles a valid acknowledgment. -/
theorem settle (h : Flow W hist s data r taken acks) {A : Nat} {window : UInt16}
    (ht : Settled W (entries hist) A window s t) (hsynced : r.inListen = false)
    (hA : A ≤ r.absAck) (hwindow : A + window.toNat ≤ r.edge ∨ s.state = .finSent) :
    Flow W hist t data r taken acks := by
  have hlisted : ∀ seg, Listed (entries hist) s seg → Listed (entries hist) t seg := by
    intro seg hseg
    have hmono : Listed (entries hist ++ []) t seg := hseg.mono (le_of_eq ht.next.symm) ht.isn
    rwa [List.append_nil] at hmono
  have hfin : s.state = .finSent → t.state = .finSent := by
    intro hs
    rcases ht.state with hsame | ⟨hsent, -⟩
    · rw [hsame, hs]
    · rw [hs] at hsent
      exact absurd hsent (by simp)
  constructor
  case sender => exact ht.inv
  case queued =>
    intro seg hseg
    rw [ht.queue] at hseg
    exact hlisted seg (h.queued seg hseg)
  case onWire => exact fun f hf => (h.onWire f hf).mono hlisted
  case holds =>
    obtain ⟨seen, hseen, hholds⟩ := h.holds
    rw [ht.stream]
    exact ⟨seen, fun hs => hfin (hseen hs), hholds⟩
  case synced =>
    intro hl
    obtain ⟨hisn, hopen⟩ := h.synced hl
    refine ⟨by rw [ht.isn, hisn], ?_⟩
    rcases ht.state with hsame | ⟨-, hsyn⟩
    · rw [hsame]
      exact hopen
    · simp [hsyn]
  case established => exact fun _ => hsynced
  case edge => exact le_trans ht.edge_le hA
  case reach => rw [ht.next]; exact h.reach
  case acked =>
    intro f hf hrst hack
    exact (h.acked f hf hrst hack).of_sender ht.isn hfin
  case credit =>
    -- the new window starts at the acknowledgment, where the left edge is at most
    intro hstate
    have hedge := ht.edge_le
    rw [ht.window_eq]
    rcases hwindow with hle | hs
    · omega
    · rw [hfin hs] at hstate
      exact absurd hstate (by simp)
  case window_le =>
    have hlt := window.toNat_lt
    rw [ht.window_eq]
    omega
  case sizes => exact h.sizes
  case fits => exact h.fits

/-- What the sender newly sends: one number under a window of size zero, and otherwise the SYN
    or what lies inside the receiver's right edge. -/
theorem new_fits (h : Flow W hist s data r taken acks)
    (hp : Proceeds W (entries hist) s W' new t) {e : Nat × TCPSegment} (he : e ∈ new) :
    (t.windowSize = 0 → e.2.lengthInSequenceSpace = 1) ∧
      (t.windowSize ≠ 0 →
        e.2.header.syn = true ∨ e.1 + e.2.lengthInSequenceSpace ≤ r.edge) := by
  have hbounds : s.nextSeqnoAbsolute ≤ e.1 ∧
      e.1 + e.2.lengthInSequenceSpace ≤ t.nextSeqnoAbsolute :=
    (h.sender.ledger.new_tiles hp.inv.ledger).mem_bounds he
  have hmem : e ∈ entries hist ++ new := List.mem_append_right _ he
  have hpos : 0 < e.2.lengthInSequenceSpace := hp.inv.ledger.positive e hmem
  have hle := h.sender.ledger.outstanding_tiles.2
  -- something was sent, so the window bounds the next number
  have hbound : t.nextSeqnoAbsolute ≤ s.lowEdge + max 1 s.windowSize := by
    rcases hp.bound with hnil | hbound
    · rw [hnil] at he
      exact absurd he (by simp)
    · rwa [fillSize_eq] at hbound
  rw [hp.window]
  unfold lowEdge at hbound
  refine ⟨fun hzero => by rw [hzero] at hbound; omega, fun hwindow => ?_⟩
  by_cases hacked : s.state = .synAcked
  · have hcredit := h.credit hacked
    unfold lowEdge at hcredit
    exact Or.inr (by omega)
  · refine Or.inl ((hp.inv.sent e hmem).carries.syn_iff.mpr ?_)
    by_cases hfin : s.state = .finSent
    · -- after the FIN no number is left to be sent
      exfalso
      obtain ⟨hended, -, hsnext⟩ := h.sender.finSent_all hfin
      obtain ⟨-, -, htnext⟩ := hp.inv.finSent_all (hp.finished hfin)
      obtain ⟨more, hmore, hnone⟩ := hp.grows
      rw [hmore, hnone hended, List.append_nil] at htnext
      omega
    · -- before the SYN is acknowledged only the SYN has been sent
      have hphase := hp.inv.phase
      have hone : t.nextSeqnoAbsolute ≤ 1 := by
        rw [Phase] at hphase
        cases hstate : t.state <;> rw [hstate] at hphase <;> simp only at hphase
        case closed => omega
        case synSent => omega
        case synAcked => exact absurd (hp.acked hstate) hacked
        case finSent =>
          rcases hp.closing hstate with hs | hs
          · exact absurd hs hacked
          · exact absurd hs hfin
      omega

/-- The sender proceeds: it may send new segments, and the connection puts segments on the
    wire. -/
theorem proceed (h : Flow W hist s data r taken acks)
    (hp : Proceeds W (entries hist) s W' new t) {out : List Flight}
    (hout : ∀ f ∈ out, OnWire (hist ++ tagged t.windowSize new) t f) :
    Flow W' (hist ++ tagged t.windowSize new) t (data ++ out) r taken acks := by
  have hentries := entries_tagged hist t.windowSize new
  have hnext := hp.next_le h.sender.ledger
  constructor
  case sender => rw [hentries]; exact hp.inv
  case queued => rw [hentries]; exact hp.queue h.queued
  case onWire =>
    intro f hf
    rcases List.mem_append.mp hf with hf | hf
    · refine (h.onWire f hf).mono (fun seg hseg => ?_)
      rw [hentries]
      exact hseg.mono hnext hp.isn
    · exact hout f hf
  case holds =>
    obtain ⟨seen, hseen, hholds⟩ := h.holds
    obtain ⟨more, hmore, hnone⟩ := hp.grows
    have hread := hp.read_le
    refine ⟨seen, fun hs => hp.finished (hseen hs), ?_⟩
    have hgrown : r.reassembler.Holds W' seen (fun _ => False)
        (fun p => p < s.streamIn.bytesRead ∧ p < 2 ^ 64 - 2) taken := by
      cases seen with
      | true =>
        -- the end of the stream has been seen, so nothing was added to it
        have hended := (h.sender.finSent_all (hseen rfl)).1
        rw [hmore, hnone hended, List.append_nil]
        exact hholds
      | false =>
        rw [hmore]
        exact hholds.grow (List.prefix_append W more)
    exact hgrown.weaken (fun _ => id) (fun p hlt => ⟨by omega, hlt.2⟩)
  case synced =>
    intro hl
    obtain ⟨hisn, hopen⟩ := h.synced hl
    exact ⟨by rw [hp.isn, hisn], hp.opened hopen⟩
  case established =>
    rintro (hs | hs)
    · exact h.established (Or.inl (hp.acked hs))
    · exact h.established (hp.closing hs)
  case edge => rw [hp.edge]; exact h.edge
  case reach =>
    rcases hp.bound with hnil | hbound
    · -- nothing was sent, and the next number stays
      have hsame := h.sender.ledger.new_tiles hp.inv.ledger
      rw [hnil, tiles_nil] at hsame
      rw [← hsame]
      exact h.reach
    · rw [fillSize_eq] at hbound
      have hedge := h.edge
      have hwindow := h.window_le
      omega
  case acked =>
    intro f hf hrst hack
    exact (h.acked f hf hrst hack).of_sender hp.isn hp.finished
  case credit =>
    intro hstate
    rw [hp.edge, hp.window]
    exact h.credit (hp.acked hstate)
  case window_le => rw [hp.window]; exact h.window_le
  case sizes =>
    intro x hx
    rcases List.mem_append.mp hx with hx | hx
    · exact h.sizes x hx
    · obtain ⟨e, he, rfl⟩ := List.mem_map.mp hx
      exact (h.new_fits hp he).1
  case fits =>
    intro x hx
    rcases List.mem_append.mp hx with hx | hx
    · exact h.fits x hx
    · obtain ⟨e, he, rfl⟩ := List.mem_map.mp hx
      exact (h.new_fits hp he).2

/-- The sender proceeds without sending or putting anything on the wire. -/
theorem quiet (h : Flow W hist s data r taken acks) (hp : Proceeds W (entries hist) s W' [] t) :
    Flow W' hist t data r taken acks := by
  have hflow := h.proceed hp (fun f (hf : f ∈ ([] : List Flight)) => absurd hf (by simp))
  simpa [tagged] using hflow

/-! ### The receiver's side -/

/-- The receiver moves on: neither its acknowledgment number nor its right edge goes back. -/
theorem advance (h : Flow W hist s data r taken acks) {taken' : List UInt8}
    (hholds : ∃ seen, (seen = true → s.state = .finSent) ∧ r'.reassembler.Holds W seen
      (fun _ => False) (fun p => p < s.streamIn.bytesRead ∧ p < 2 ^ 64 - 2) taken')
    (hsynced : r'.inListen = false → r'.isn = s.isn ∧ s.state ≠ .closed)
    (hlisten : r.inListen = false → r'.inListen = false) (hack : r.absAck ≤ r'.absAck)
    (hedge : r.edge ≤ r'.edge) : Flow W hist s data r' taken' acks where
  sender := h.sender
  queued := h.queued
  onWire := h.onWire
  holds := hholds
  synced := hsynced
  established := fun hs => hlisten (h.established hs)
  edge := le_trans h.edge hack
  reach := by
    have hreach := h.reach
    omega
  acked := fun f hf hrst hflag => by
    have hf := h.acked f hf hrst hflag
    refine ⟨hlisten hf.synced, hf.ackno, le_trans hf.not_ahead hack, ?_⟩
    rcases hf.inside with hin | hs
    · exact Or.inl (le_trans hin hedge)
    · exact Or.inr hs
  credit := fun hs => le_trans (h.credit hs) hedge
  window_le := h.window_le
  sizes := h.sizes
  fits := fun x hx hwindow => by
    rcases h.fits x hx hwindow with hsyn | hle
    · exact Or.inl hsyn
    · exact Or.inr (le_trans hle hedge)

/-- The reader takes bytes out of the inbound stream. -/
theorem takeOut_read (h : Flow W hist s data r taken acks) (len : Nat) :
    Flow W hist s data (r.read len).2 (taken ++ (r.read len).1) acks := by
  obtain ⟨seen, hseen, hholds⟩ := h.holds
  refine h.advance ⟨seen, hseen, StreamReassembler.read_holds hholds len⟩ h.synced id ?_ ?_
  · show r.absAck ≤ (r.reassembler.output.read len).2.bytesWritten + 1
      + if (r.reassembler.output.read len).2.inputEnded then 1 else 0
    rw [ByteStream.read_bytesWritten, ByteStream.read_inputEnded]
    exact le_refl _
  · show 1 + r.reassembler.output.bytesRead + r.reassembler.output.capacity
      ≤ 1 + (r.reassembler.output.read len).2.bytesRead
        + (r.reassembler.output.read len).2.capacity
    rw [ByteStream.read_bytesRead, ByteStream.read_capacity]
    omega

/-- Popping is reading bytes that nobody looks at. -/
theorem takeOut_pop (h : Flow W hist s data r taken acks) (len : Nat) :
    Flow W hist s data (r.popOutput len) (taken ++ r.streamOut.peekOutput len) acks := by
  obtain ⟨seen, hseen, hholds⟩ := h.holds
  refine h.advance ⟨seen, hseen, StreamReassembler.popOutput_holds hholds len⟩ h.synced id
    (le_refl _) ?_
  show 1 + r.reassembler.output.bytesRead + r.reassembler.output.capacity
    ≤ 1 + (r.reassembler.output.bytesRead + min len r.reassembler.output.bufferList.length)
      + r.reassembler.output.capacity
  omega

/-- The error flag of the inbound stream says nothing about the flow. -/
theorem setError (h : Flow W hist s data r taken acks) :
    Flow W hist s data r.setError taken acks := by
  obtain ⟨seen, hseen, hholds⟩ := h.holds
  have hsame : r.setError.reassembler.Holds W seen (fun _ => False)
      (fun p => p < s.streamIn.bytesRead ∧ p < 2 ^ 64 - 2) taken :=
    ⟨⟨hholds.chained, hholds.bounded, hholds.expected_eq, hholds.expected_le, hholds.assembled,
      hholds.stands, hholds.full, hholds.kept, hholds.within, hholds.origin⟩, hholds.ahead,
      hholds.eof_index, hholds.ended_iff⟩
  exact h.advance ⟨seen, hseen, hsame⟩ h.synced id (le_refl _) (le_refl _)

/-- The segment has the absolute sequence number `v`: it is a copy of a segment sent with that
    number, or an empty one. -/
def Numbered (hist : List Sent) (s : TCPSender) (v : Nat) (seg : TCPSegment) : Prop :=
  (∃ x ∈ hist, x.seqno = v ∧ Copies seg x.segment) ∨
    (1 ≤ v ∧ v ≤ s.nextSeqnoAbsolute ∧ Copies seg { header := { seqno := wrap (.ofNat v) s.isn } })

/-- What a sender has sent of its stream it has read from it. -/
theorem sent_end_le (h : SenderInv W (entries hist) s) {e : Nat × TCPSegment}
    (he : e ∈ entries hist) (hpayload : 0 < e.2.payload.length) :
    e.1 - 1 + e.2.payload.length ≤ s.streamIn.bytesRead := by
  have hsent := h.sent e he
  have hend := (h.ledger.tiles.mem_bounds he).2
  have hstands := hsent.carries.payload.le_length hpayload
  have hnext := h.next_eq
  have hlen : e.2.payload.length ≤ seqLength e := by
    unfold seqLength TCPSegment.lengthInSequenceSpace
    omega
  have hne : e.1 ≠ 0 := by
    rcases hsent.syn_or_later with ⟨-, -, hnone, -⟩ | ⟨hne, -⟩
    · -- the SYN has no payload
      rw [hnone] at hpayload
      exact absurd hpayload (by simp)
    · exact hne
  by_cases hfin : s.state = .finSent
  · -- all of `W` has been read
    have hread := (h.finSent_all hfin).2.1
    omega
  · -- what is sent without a FIN ends before the next number
    rw [if_neg hfin] at hnext
    split at hnext <;> omega

/-- What a numbered segment carries. -/
theorem numbered_carries (h : Flow W hist s data r taken acks) {v : Nat} {seg : TCPSegment}
    (hv : Numbered hist s v seg) :
    Carries W s.isn v seg ∧
      (∀ p, StreamReassembler.Span (v - 1) seg.payload p → p < s.streamIn.bytesRead) ∧
      (seg.header.fin = true → s.state = .finSent) ∧ s.state ≠ .closed := by
  have hopen : 1 ≤ s.nextSeqnoAbsolute → s.state ≠ .closed := by
    intro hpos hclosed
    have hphase := h.sender.phase
    rw [Phase, hclosed] at hphase
    omega
  rcases hv with ⟨x, hx, rfl, hcopy⟩ | ⟨h1, h2, hcopy⟩
  · have he := entry_mem hx
    refine ⟨hcopy.carries (h.sender.sent _ he).carries, ?_, fun hfin => ?_, hopen ?_⟩
    · rintro p ⟨hlo, hhi⟩
      rw [hcopy.payload] at hhi
      have hend := sent_end_le h.sender he (show 0 < x.segment.payload.length by omega)
      change x.seqno - 1 + x.segment.payload.length ≤ _ at hend
      omega
    · rw [hcopy.fin] at hfin
      exact h.sender.fin_iff.mp ⟨_, he, hfin⟩
    · have hpos := h.sender.ledger.positive _ he
      have hend := (h.sender.ledger.tiles.mem_bounds he).2
      omega
  · -- an empty segment carries nothing, at whatever number
    have hempty : Carries W s.isn v { header := { seqno := wrap (.ofNat v) s.isn } } :=
      ⟨rfl, ⟨fun hsyn => absurd hsyn (by simp), fun hzero => by omega⟩, standsAt_nil _ _,
        fun hfin => absurd hfin (by simp)⟩
    refine ⟨hcopy.carries hempty, ?_, fun hfin => ?_, hopen (by omega)⟩
    · rintro p ⟨hlo, hhi⟩
      rw [hcopy.payload] at hhi
      simp only [List.length_nil] at hhi
      omega
    · rw [hcopy.fin] at hfin
      exact absurd hfin (by simp)

/-- **A segment arrives** at the receiver, its absolute number near what is written. -/
theorem receive (h : Flow W hist s data r taken acks) {v : Nat} {seg : TCPSegment}
    (hv : Numbered hist s v seg) (hnear : Near v r.streamOut.bytesWritten)
    (hfit : v + seg.lengthInSequenceSpace < 2 ^ 64) :
    Flow W hist s data (r.segmentReceived seg) taken acks := by
  obtain ⟨hcarries, hspan, hfin, hopen⟩ := h.numbered_carries hv
  obtain ⟨seen, hseen, hholds⟩ := h.holds
  -- the new positions are those of bytes the sender has read
  have hend : v - 1 + seg.payload.length < 2 ^ 64 - 1 := hcarries.end_lt hfit
  have hpositions : ∀ p, (p < s.streamIn.bytesRead ∧ p < 2 ^ 64 - 2) ∨
      StreamReassembler.Span (v - 1) seg.payload p →
        p < s.streamIn.bytesRead ∧ p < 2 ^ 64 - 2 := by
    rintro p (hp | hp)
    · exact hp
    · exact ⟨hspan p hp, by have hhi := hp.2; omega⟩
  have hadvances := r.segmentReceived_advances seg
  have hedge : r.edge ≤ (r.segmentReceived seg).edge := by
    rw [TCPReceiver.edge, TCPReceiver.edge, hadvances.1, hadvances.2.1]
  rcases TCPReceiver.segmentReceived_holds hholds hcarries (fun hl => (h.synced hl).1) hnear
    (by omega) (fun p hp => (hpositions p hp).2) with
    ⟨-, -, hsame⟩ | ⟨-, hlisten, hisn, seen', hseen', hnew⟩
  · rw [hsame]
    exact h
  · refine h.advance ⟨seen', fun hs => ?_, hnew.weaken (fun _ hp => hp.elim) hpositions⟩
      (fun _ => ⟨hisn, hopen⟩) (fun _ => hlisten) hadvances.absAck_le hedge
    rcases hseen' hs with hs | hs
    · exact hseen hs
    · exact hfin hs

/-- The receiver's connection sends segments, each with its acknowledgment number and window. -/
theorem acknowledge (h : Flow W hist s data r taken acks) {out : List Flight}
    (hout : ∀ f ∈ out, f.segment.header.rst = false → f.segment.header.ack = true →
      f.ackno = r.absAck ∧ r.ackno = some f.segment.header.ackno ∧
        f.segment.header.win = TCPConnection.clampedWindow r) :
    Flow W hist s data r taken (acks ++ out) := by
  refine { h with acked := fun f hf hrst hack => ?_ }
  rcases List.mem_append.mp hf with hf | hf
  · exact h.acked f hf hrst hack
  · obtain ⟨hnumber, hackno, hwin⟩ := hout f hf hrst hack
    have hlisten : r.inListen = false := by
      by_contra hl
      rw [TCPReceiver.ackno, if_pos (by simpa using hl)] at hackno
      exact absurd hackno (by simp)
    refine ⟨hlisten, ?_, le_of_eq hnumber, ?_⟩
    · rw [TCPReceiver.ackno, hlisten] at hackno
      rw [hnumber, ← (h.synced hlisten).1]
      exact (Option.some.inj hackno).symm
    · have hedge := r.absAck_add_windowSize
      have hle : f.segment.header.win.toNat ≤ r.windowSize := by
        rw [hwin, TCPConnection.clampedWindow_toNat]
        exact Nat.min_le_right _ _
      by_cases hended : r.streamOut.inputEnded = true
      · -- the window ends one further, but there is nothing left to be sent
        obtain ⟨seen, hseen, hholds⟩ := h.holds
        exact Or.inr (hseen (hholds.ended_iff.mp hended).1)
      · rw [if_neg hended] at hedge
        exact Or.inl (by omega)

end Flow

end Sponge
