import Sponge.EndpointProgress
import Sponge.ConnectionStates
import Sponge.Lib.Endless

namespace Sponge

open TCPSender TCPConnection Tiling Filter

/-!
# What is written arrives in the end

The safety results about two connections say that nothing false is delivered.  This module says
that everything is delivered, in every endless run that is fair to one direction
(`System.Fair`):

* the links may lose as much as they like, but a segment that is sent again and again, and an
  acknowledgment number that is sent back again and again, arrive again and again;
* the clock of the sending side goes on, in ticks of less than `2^16` milliseconds;
* the user of the receiving side goes on taking bytes out of the inbound stream.

Nothing is assumed about the order of the moves.  A side may still give up, after too many
retransmissions in a row or on a RST, and then both of its streams are in the error state.  Without
that, `System.eventually_delivered`: from some point on the receiving side has got all that the
sending side has accepted, and the end of the stream with it.

The proof is by what cannot go on for ever.  The numbers of both sides only grow and are bounded,
so they stand still in the end.  If something is outstanding then (`Stalled`), the timer of the
sender expires again and again, copies of its oldest segment arrive, the receiver answers them, and
the answers arrive too: the left edge moves, which it does not.  So nothing is outstanding, and a
connection that has nothing outstanding and no work left has sent and got acknowledged everything.
-/

/-! ### One step -/

/-- What a receiver acknowledges has been sent. -/
theorem Flow.absAck_le_next {W taken : List UInt8} {hist : List Sent} {s : TCPSender}
    {data acks : List Flight} {r : TCPReceiver} (h : Flow W hist s data r taken acks)
    (hheard : r.inListen = false) : r.absAck ≤ s.nextSeqnoAbsolute := by
  have hnext := h.sender.next_eq
  have hwritten := h.bytesWritten_le
  obtain ⟨seen, hseen, hholds⟩ := h.holds
  rw [if_pos (h.synced hheard).2] at hnext
  unfold TCPReceiver.absAck
  by_cases hended : r.streamOut.inputEnded = true
  · rw [if_pos (hseen (hholds.ended_iff.mp hended).1)] at hnext
    rw [if_pos hended]
    omega
  · rw [if_neg hended]
    omega

/-- Standing still takes nothing back. -/
theorem TCPConnection.Advances.refl (c : TCPConnection) : c.Advances c :=
  ⟨le_refl _, le_refl _, le_refl _, id, .refl _⟩

namespace System

variable {sys : System} {moves : ℕ → Move} {x y : Side} {n : ℕ} {f : Flight}

/-- An operation of the user of a side. -/
theorem step_act (sys : System) (y : Side) (op : EndpointOp) :
    Endpoint.Does (sys.endpoint y) op.call ((sys.step (.act y op)).endpoint y)
        ((sys.endpoint y).act op).2 ∧
      (sys.step (.act y op)).wire y = sys.wire y ++ ((sys.endpoint y).act op).2 := by
  have hstep : (sys.step (.act y op)).endpoint y = ((sys.endpoint y).act op).1 := by
    simp [step, put]
  rw [hstep]
  exact ⟨(sys.endpoint y).act_does op, by simp [step, put]⟩

/-- A delivery to a side. -/
theorem step_deliver {i : ℕ} (hf : (sys.wire y.peer)[i]? = some f) :
    Endpoint.Does (sys.endpoint y) (.segmentReceived f.segment)
        ((sys.step (.deliver y i)).endpoint y) ((sys.endpoint y).receive f.segment).2 ∧
      (sys.step (.deliver y i)).wire y
        = sys.wire y ++ ((sys.endpoint y).receive f.segment).2 := by
  have hstep : sys.step (.deliver y i) = sys.put y ((sys.endpoint y).receive f.segment) := by
    rw [step, hf]
  have hself : (sys.step (.deliver y i)).endpoint y = ((sys.endpoint y).receive f.segment).1 := by
    rw [hstep]
    simp [put]
  rw [hself, hstep]
  exact ⟨(sys.endpoint y).receive_does f.segment, by simp [put]⟩

/-- **What a move does to a side**: nothing, or one call on its connection, by its user or by a
    delivery. -/
theorem step_cases (sys : System) (move : Move) (y : Side) :
    (sys.step move).endpoint y = sys.endpoint y ∨
      ∃ op out, Endpoint.Does (sys.endpoint y) op ((sys.step move).endpoint y) out ∧
        ((∃ o : EndpointOp, move = .act y o ∧ op = o.call) ∨ ∃ seg, op = .segmentReceived seg) := by
  -- a move changes the endpoint it acts on, or the one it delivers to, and no other
  cases move with
  | act z o =>
    by_cases hz : z = y
    · subst hz
      exact Or.inr ⟨_, _, (sys.step_act z o).1, Or.inl ⟨o, rfl, rfl⟩⟩
    · refine Or.inl ?_
      simp [step, put, Ne.symm hz]
  | deliver z i =>
    cases hf : (sys.wire z.peer)[i]? with
    | none =>
      refine Or.inl ?_
      rw [step, hf]
    | some f =>
      by_cases hz : z = y
      · subst hz
        exact Or.inr ⟨_, _, (step_deliver hf).1, Or.inr ⟨_, rfl⟩⟩
      · refine Or.inl ?_
        rw [step, hf]
        simp [put, Ne.symm hz]

/-! ### Endless runs -/

/-- The system after the first `n` moves of an endless run. -/
def after (sys : System) (moves : ℕ → Move) (n : ℕ) : System := Endless.after step sys moves n

/-- What a side puts on the wire in the move after the first `n`. -/
def sentAt (sys : System) (moves : ℕ → Move) (n : ℕ) (y : Side) : List Flight :=
  ((sys.after moves (n + 1)).wire y).drop ((sys.after moves n).wire y).length

/-- The move after the first `n` delivers `f` to a side. -/
def ArrivesAt (sys : System) (moves : ℕ → Move) (n : ℕ) (y : Side) (f : Flight) : Prop :=
  ∃ i, moves n = .deliver y i ∧ ((sys.after moves n).wire y.peer)[i]? = some f

/-- The run is fair to the direction from `x` to its peer. -/
structure Fair (sys : System) (moves : ℕ → Move) (x : Side) : Prop where
  data : ∀ seg, (∃ᶠ n in atTop, ∃ f ∈ sys.sentAt moves n x, Copies f.segment seg) →
    ∃ᶠ n in atTop, ∃ f, Copies f.segment seg ∧ sys.ArrivesAt moves n x.peer f
  acks : ∀ ack, (∃ᶠ n in atTop, ∃ f ∈ sys.sentAt moves n x.peer,
      f.segment.header.ack = true ∧ f.ackno = ack) →
    ∃ᶠ n in atTop, ∃ f, (f.segment.header.ack = true ∧ f.ackno = ack) ∧ sys.ArrivesAt moves n x f
  clock : ∃ᶠ n in atTop, ∃ ms, 0 < ms ∧ moves n = .act x (.tick ms)
  ordinary : ∀ n ms, moves n = .act x (.tick ms) → ms < 2 ^ 16
  reader : ∃ᶠ n in atTop, ∃ op : EndpointOp, op.Takes ∧ moves n = .act x.peer op

/-- A run with short streams in which no side gives up. -/
structure Steady (sys : System) (moves : ℕ → Move) : Prop where
  linked : ∀ n, (sys.after moves n).Linked
  ready : ∀ n y, ((sys.after moves n).endpoint y).Ready
  short : ∀ n y, ((sys.after moves n).endpoint y).accepted.length < 2 ^ 31
  sound : ∀ n y, ((sys.after moves n).endpoint y).conn.sender.streamIn.error = false

/-- The two sides stay linked: short streams keep every segment within reach of its sequence number.
    -/
theorem after_linked (h : sys.Linked)
    (hshort : ∀ n y, ((sys.after moves n).endpoint y).accepted.length < 2 ^ 31) (n : ℕ) :
    (sys.after moves n).Linked := by
  induction n with
  | zero => exact h
  | succ n ih =>
    refine step_linked ih ?_
    cases hmove : moves n with
    | act y op => trivial
    | deliver y i =>
      intro f hf
      exact Endpoint.within_of_short (ih y) (List.mem_of_getElem? hf) (hshort n y)
        (hshort n y.peer)

/-- Both endpoints are always ready for the next call. -/
theorem after_ready (h : ∀ y, (sys.endpoint y).Ready) (n : ℕ) (y : Side) :
    ((sys.after moves n).endpoint y).Ready := by
  induction n with
  | zero => exact h y
  | succ n ih =>
    show (((sys.after moves n).step (moves n)).endpoint y).Ready
    rcases (sys.after moves n).step_cases (moves n) y with hsame | ⟨op, out, hdoes, -⟩
    · rw [hsame]
      exact ih
    · exact hdoes.ready ih

/-- **Every move only adds** to what each side has reached. -/
theorem after_advances (h : ∀ y, (sys.endpoint y).Ready) (n : ℕ) (y : Side) :
    ((sys.after moves n).endpoint y).conn.Advances ((sys.after moves (n + 1)).endpoint y).conn := by
  show ((sys.after moves n).endpoint y).conn.Advances
    (((sys.after moves n).step (moves n)).endpoint y).conn
  rcases (sys.after moves n).step_cases (moves n) y with hsame | ⟨op, out, hdoes, -⟩
  · rw [hsame]
    exact .refl _
  · exact hdoes.advances (after_ready h n y)

/-- A side that has given up stays so. -/
theorem after_error (h : ∀ y, (sys.endpoint y).Ready) (n : ℕ) (y : Side)
    (herror : ((sys.after moves n).endpoint y).conn.sender.streamIn.error = true) :
    ((sys.after moves (n + 1)).endpoint y).conn.sender.streamIn.error = true := by
  show (((sys.after moves n).step (moves n)).endpoint y).conn.sender.streamIn.error = true
  rcases (sys.after moves n).step_cases (moves n) y with hsame | ⟨op, out, hdoes, -⟩
  · rw [hsame]
    exact herror
  · rw [hdoes.conn]
    exact apply_error (after_ready h n y).inv herror op

/-- And to what it has sent. -/
theorem after_history (n : ℕ) (y : Side) : ∃ more,
    ((sys.after moves (n + 1)).endpoint y).history
      = ((sys.after moves n).endpoint y).history ++ more := by
  show ∃ more, (((sys.after moves n).step (moves n)).endpoint y).history = _
  rcases (sys.after moves n).step_cases (moves n) y with hsame | ⟨op, out, hdoes, -⟩
  · rw [hsame]
    exact ⟨[], (List.append_nil _).symm⟩
  · exact hdoes.history

/-- What an operation of a user does. -/
theorem after_act {op : EndpointOp} (hmove : moves n = .act y op) :
    Endpoint.Does ((sys.after moves n).endpoint y) op.call
      ((sys.after moves (n + 1)).endpoint y) (sys.sentAt moves n y) := by
  obtain ⟨hdoes, hwire⟩ := (sys.after moves n).step_act y op
  have hnext : sys.after moves (n + 1) = (sys.after moves n).step (.act y op) := by
    rw [← hmove]
    rfl
  have hsent : sys.sentAt moves n y = (((sys.after moves n).endpoint y).act op).2 := by
    rw [sentAt, hnext, hwire, List.drop_left]
  rw [hsent, hnext]
  exact hdoes

/-- A segment that arrives at an active side is no RST, since no side gives up. -/
theorem Steady.arrival (h : Steady sys moves)
    (hactive : ((sys.after moves n).endpoint y).conn.active = true)
    (harrives : sys.ArrivesAt moves n y f) :
    Endpoint.Does ((sys.after moves n).endpoint y) (.segmentReceived f.segment)
        ((sys.after moves (n + 1)).endpoint y) (sys.sentAt moves n y) ∧
      f.segment.header.rst = false ∧ f ∈ (sys.after moves n).wire y.peer := by
  obtain ⟨i, hmove, hf⟩ := harrives
  obtain ⟨hdoes, hwire⟩ := step_deliver hf
  have hnext : sys.after moves (n + 1) = (sys.after moves n).step (.deliver y i) := by
    rw [← hmove]
    rfl
  have hsent : sys.sentAt moves n y
      = (((sys.after moves n).endpoint y).receive f.segment).2 := by
    rw [sentAt, hnext, hwire, List.drop_left]
  rw [hsent, hnext]
  refine ⟨hdoes, ?_, List.mem_of_getElem? hf⟩
  -- a RST would end the steadiness of the run
  by_contra hrst
  have herror := hdoes.reset hactive (by simpa using hrst)
  have hsound := h.sound (n + 1) y
  rw [hnext, herror] at hsound
  cases hsound

/-- A connection that is over has been closed cleanly. -/
theorem Steady.clean (h : Steady sys moves)
    (hinactive : ¬ ((sys.after moves n).endpoint y).conn.active = true) :
    ((sys.after moves n).endpoint y).conn.sender.Finished ∧
      ((sys.after moves n).endpoint y).conn.inboundStream.inputEnded = true := by
  have hinv := (h.ready n y).inv
  rcases hinv.inactive (by simpa [TCPConnection.active] using hinactive) with herror | hclean
  · rw [h.sound n y] at herror
    cases herror
  · exact hclean

/-! ### A run that stands still -/

/-- A run that from `start` on stands still, with `front` the oldest segment that `x` has
    outstanding. -/
structure Stalled (sys : System) (moves : ℕ → Move) (x : Side) (front : Nat × TCPSegment)
    (ack written read start : ℕ) : Prop extends Steady sys moves where
  peer_active : ∀ n, ((sys.after moves n).endpoint x.peer).conn.active = true
  room : ∀ n, 0 < ((sys.after moves n).endpoint x.peer).conn.inboundStream.capacity ∧
    ((sys.after moves n).endpoint x.peer).conn.inboundStream.capacity < 2 ^ 63
  edge : ∀ n, start ≤ n → ((sys.after moves n).endpoint x).conn.sender.lowEdge = front.1
  head : ∀ n, start ≤ n →
    ((sys.after moves n).endpoint x).conn.sender.segmentsOutstanding.head? = some front
  ack : ∀ n, start ≤ n → ((sys.after moves n).endpoint x.peer).conn.receiver.absAck = ack
  written : ∀ n, start ≤ n →
    ((sys.after moves n).endpoint x.peer).conn.inboundStream.bytesWritten = written
  read : ∀ n, start ≤ n →
    ((sys.after moves n).endpoint x.peer).conn.inboundStream.bytesRead = read

namespace Stalled

variable {front : Nat × TCPSegment} {ack written read start : ℕ}

/-- The flow from `x` to its peer. -/
theorem flow (h : Stalled sys moves x front ack written read start) (n : ℕ) :
    Flow ((sys.after moves n).endpoint x).accepted ((sys.after moves n).endpoint x).history
      ((sys.after moves n).endpoint x).conn.sender ((sys.after moves n).wire x)
      ((sys.after moves n).endpoint x.peer).conn.receiver
      ((sys.after moves n).endpoint x.peer).taken ((sys.after moves n).wire x.peer) :=
  (h.linked n x).outgoing

/-- The oldest segment was sent, and lies between the left edge and the next number. -/
theorem sent (h : Stalled sys moves x front ack written read start) (hn : start ≤ n) :
    (∃ e ∈ ((sys.after moves n).endpoint x).history, e.entry = front) ∧ 0 < seqLength front ∧
      front.1 + seqLength front
        ≤ ((sys.after moves n).endpoint x).conn.sender.nextSeqnoAbsolute := by
  have hledger := (h.flow n).sender.ledger
  have hmem := List.mem_of_mem_head? (h.head n hn)
  have hsent := hledger.last.subset hmem
  exact ⟨List.mem_map.mp hsent, hledger.positive front hsent,
    (hledger.outstanding_tiles.1.mem_bounds hmem).2⟩

/-- A side with something outstanding is active. -/
theorem active (h : Stalled sys moves x front ack written read start) (hn : start ≤ n) :
    ((sys.after moves n).endpoint x).conn.active = true := by
  by_contra hinactive
  obtain ⟨hfin, -⟩ := h.clean hinactive
  obtain ⟨-, hpos, hend⟩ := h.sent hn
  have hedge := h.edge n hn
  rw [lowEdge, hfin.2] at hedge
  omega

/-- Its sender has sent the SYN. -/
theorem opened (h : Stalled sys moves x front ack written read start) (hn : start ≤ n) :
    ((sys.after moves n).endpoint x).conn.sender.state ≠ .closed := by
  intro hclosed
  obtain ⟨-, hpos, hend⟩ := h.sent hn
  have hphase := (h.flow n).sender.phase
  rw [Phase, hclosed] at hphase
  omega

/-- A tick that does not make the timer expire is counted. -/
theorem counts (h : Stalled sys moves x front ack written read start) (hfair : sys.Fair moves x)
    (hn : start ≤ n) {ms : ℕ} (hmove : moves n = .act x (.tick ms))
    (hnot : ¬ ((sys.after moves n).endpoint x).conn.sender.Expires ms) :
    ((sys.after moves (n + 1)).endpoint x).conn.sender.remainingTime
      = ((sys.after moves n).endpoint x).conn.sender.remainingTime + ms := by
  have hout : ((sys.after moves n).endpoint x).conn.sender.segmentsOutstanding ≠ [] := by
    intro hnil
    have hhead := h.head n hn
    rw [hnil] at hhead
    cases hhead
  exact (after_act hmove).counts (h.ready n x) (h.active hn) (h.opened hn) hout
    (hfair.ordinary n ms hmove) hnot

/-- A move makes the timer expire or does not turn it back: the left edge stands still. -/
theorem expires_or_keeps (h : Stalled sys moves x front ack written read start)
    (hfair : sys.Fair moves x) (hn : start ≤ n) :
    (∃ ms, moves n = .act x (.tick ms) ∧
        ((sys.after moves n).endpoint x).conn.sender.Expires ms) ∨
      ((sys.after moves n).endpoint x).conn.sender.remainingTime
        ≤ ((sys.after moves (n + 1)).endpoint x).conn.sender.remainingTime := by
  rcases (sys.after moves n).step_cases (moves n) x with hsame | ⟨op, out, hdoes, hop⟩
  · exact Or.inr (le_of_eq (by rw [← hsame]; rfl))
  -- a call that is no tick sets the timer back only when the left edge moves
  have hquiet : (∀ ms, op ≠ .tick ms) →
      ((sys.after moves n).endpoint x).conn.sender.remainingTime
        ≤ ((sys.after moves (n + 1)).endpoint x).conn.sender.remainingTime := by
    intro hnot
    rcases hdoes.time (h.ready n x) hnot with hsame | hlt
    · exact le_of_eq hsame.symm
    · have hbefore := h.edge n hn
      have hafter : (((sys.after moves n).step (moves n)).endpoint x).conn.sender.lowEdge
          = front.1 := h.edge (n + 1) (by omega)
      omega
  rcases hop with ⟨o, hmove, rfl⟩ | ⟨seg, rfl⟩
  · cases o with
    | tick ms =>
      by_cases hexp : ((sys.after moves n).endpoint x).conn.sender.Expires ms
      · exact Or.inl ⟨ms, hmove, hexp⟩
      · have hcount := h.counts hfair hn hmove hexp
        exact Or.inr (by omega)
    | connect => exact Or.inr (hquiet (by simp [EndpointOp.call]))
    | write data => exact Or.inr (hquiet (by simp [EndpointOp.call]))
    | endInputStream => exact Or.inr (hquiet (by simp [EndpointOp.call]))
    | read len => exact Or.inr (hquiet (by simp [EndpointOp.call]))
    | pop len => exact Or.inr (hquiet (by simp [EndpointOp.call]))
  · exact Or.inr (hquiet (by simp))

/-- **The timer expires again and again.** -/
theorem expires (h : Stalled sys moves x front ack written read start)
    (hfair : sys.Fair moves x) :
    ∃ᶠ n in atTop, ∃ ms, moves n = .act x (.tick ms) ∧
      ((sys.after moves n).endpoint x).conn.sender.Expires ms := by
  have hbound : ∀ n, ((sys.after moves n).endpoint x).conn.sender.remainingTime ≤ 2 ^ 32 := by
    intro n
    have hlt := (h.ready n x).diligent.time_lt
    omega
  refine Endless.frequently_of_counter hbound
    (eventually_atTop.mpr ⟨start, fun n hn => h.expires_or_keeps hfair hn⟩)
    ((hfair.clock.and_eventually (eventually_ge_atTop start)).mono ?_)
  rintro n ⟨⟨ms, hpos, hmove⟩, hn⟩
  by_cases hexp : ((sys.after moves n).endpoint x).conn.sender.Expires ms
  · exact Or.inl ⟨ms, hmove, hexp⟩
  · have hcount := h.counts hfair hn hmove hexp
    exact Or.inr (by omega)

/-- So copies of the oldest segment arrive at the peer again and again. -/
theorem arrives (h : Stalled sys moves x front ack written read start)
    (hfair : sys.Fair moves x) :
    ∃ᶠ n in atTop, ∃ f, Copies f.segment front.2 ∧ sys.ArrivesAt moves n x.peer f := by
  refine hfair.data front.2 (((h.expires hfair).and_eventually (eventually_ge_atTop start)).mono ?_)
  rintro n ⟨⟨ms, hmove, hexp⟩, hn⟩
  exact (after_act hmove).fires (h.active hn) hexp (h.head n hn) (h.sound (n + 1) x)

/-- The reader has emptied the peer's inbound stream. -/
theorem empty (h : Stalled sys moves x front ack written read start) (hfair : sys.Fair moves x)
    (hn : start ≤ n) :
    ((sys.after moves n).endpoint x.peer).conn.inboundStream.bufferList = [] := by
  obtain ⟨m, hm, op, htakes, hmove⟩ := frequently_atTop.mp hfair.reader start
  have hnone : ((sys.after moves m).endpoint x.peer).conn.inboundStream.bufferList = [] := by
    by_contra hsome
    have hlt := (after_act hmove).takes (h.ready m x.peer) htakes hsome
    have hbefore := h.read m hm
    have hafter := h.read (m + 1) (by omega)
    omega
  -- what was written and read is the same at all times
  have hthen := ((sys.after moves m).endpoint x.peer).conn.inboundStream.accounted
  have hnow := ((sys.after moves n).endpoint x.peer).conn.inboundStream.accounted
  rw [hnone, List.length_nil, h.written m hm, h.read m hm] at hthen
  rw [h.written n hn, h.read n hn] at hnow
  exact List.eq_nil_of_length_eq_zero (by omega)

/-- **The receiver has the oldest segment**: a copy of it would have moved the acknowledgment
    number otherwise. -/
theorem covered (h : Stalled sys moves x front ack written read start)
    (hfair : sys.Fair moves x) : front.1 + seqLength front ≤ ack := by
  by_contra hmissing
  -- a copy of the front arrives again and again, and its last byte is still missing
  obtain ⟨n, hn, f, hcopy, harrives⟩ := frequently_atTop.mp (h.arrives hfair) start
  obtain ⟨hdoes, hrst, -⟩ := h.arrival (h.peer_active n) harrives
  obtain ⟨⟨e, he, rfl⟩, -, -⟩ := h.sent hn
  have hflow := h.flow n
  have hack := h.ack n hn
  have hlo := hflow.edge
  rw [h.edge n hn] at hlo
  obtain ⟨hnear, hfit⟩ := hflow.onWire_near (h.short n x)
    (Or.inl ⟨e, he, rfl, hcopy⟩ : Flow.Numbered _ _ e.seqno f.segment)
  -- the window is the whole capacity
  have hbuffer := h.empty hfair hn
  obtain ⟨hpos, hlt⟩ := h.room n
  have hwindow : ((sys.after moves n).endpoint x.peer).conn.receiver.windowSize
      = ((sys.after moves n).endpoint x.peer).conn.inboundStream.capacity := by
    show _ - ((sys.after moves n).endpoint x.peer).conn.inboundStream.bufferList.length = _
    rw [hbuffer]
    rfl
  have hwritten := hflow.received_eq_take.2
  have hshort := h.short n x
  have htwo := ((sys.after moves n).endpoint x.peer).conn.receiver.absAck_le_add_two
  have hmoves := hflow.pushes_on he hcopy hnear hfit (by omega) (by omega) hlo (by
    rw [hcopy.length_eq, hack]
    exact Nat.lt_of_not_le hmissing)
  rw [← hdoes.received (h.ready n x.peer) (h.peer_active n) hrst, hack,
    h.ack (n + 1) (by omega)] at hmoves
  exact absurd hmoves (lt_irrefl _)

/-- The peer answers each copy. -/
theorem answered (h : Stalled sys moves x front ack written read start)
    (hfair : sys.Fair moves x) :
    ∃ᶠ n in atTop, ∃ f ∈ sys.sentAt moves n x.peer,
      f.segment.header.ack = true ∧ f.ackno = ack := by
  refine ((h.arrives hfair).and_eventually (eventually_ge_atTop start)).mono ?_
  rintro n ⟨⟨f, hcopy, harrives⟩, hn⟩
  obtain ⟨hdoes, hrst, -⟩ := h.arrival (h.peer_active n) harrives
  obtain ⟨⟨e, he, rfl⟩, hpos, -⟩ := h.sent hn
  have hreceived := hdoes.received (h.ready n x.peer) (h.peer_active n) hrst
  have hheard : ((sys.after moves (n + 1)).endpoint x.peer).conn.receiver.inListen = false := by
    rw [hreceived]
    by_contra hlisten
    -- the peer still listens: the segment is not the SYN, and what is not has been sent after it
    obtain ⟨hlis, hsyn⟩ := (segmentReceived_inListen _ _).1.mp (by simpa using hlisten)
    rw [hcopy.syn] at hsyn
    rcases Flow.syn_or_later (h.flow n).sender he with ⟨-, hflag, -⟩ | ⟨hne, -⟩
    · rw [show e.entry.2.header.syn = e.segment.header.syn from rfl, hflag] at hsyn
      cases hsyn
    · rw [(h.flow n).synced_of_sent he hne] at hlis
      cases hlis
  obtain ⟨g, hg, hack, hnumber⟩ := hdoes.answers (h.ready n x.peer) (h.linked n x.peer).self.queue
    (h.peer_active n) hrst (by rw [hcopy.length_eq]; exact hpos) hheard
  exact ⟨g, hg, hack, hnumber.trans (h.ack (n + 1) (by omega))⟩

/-- **No fair run stands still with something outstanding.** -/
theorem absurd (h : Stalled sys moves x front ack written read start)
    (hfair : sys.Fair moves x) : False := by
  have hacks := hfair.acks ack (h.answered hfair)
  obtain ⟨n, hn, f, ⟨hack, hnumber⟩, harrives⟩ := frequently_atTop.mp hacks start
  obtain ⟨hdoes, hrst, hwire⟩ := h.arrival (h.active hn) harrives
  have hflow := h.flow n
  have hgiven := hflow.acked f hwire hrst hack
  have hreceived : ((sys.after moves n).endpoint x).conn.sender.receivedAckno
      f.segment.header.ackno = ack := by
    rw [receivedAckno, hgiven.ackno,
      (hflow.ack_near (h.short n x) hwire hrst hack).unwrap_wrap _, hnumber]
  have hle := hflow.absAck_le_next hgiven.synced
  have hlo := hflow.edge
  rw [h.ack n hn] at hle hlo
  have hacc := (accepts_iff _ f.segment.header.ackno).mpr
    (by rw [hreceived]; exact ⟨hlo, hle⟩)
  -- it acknowledges the whole of `front`, so the left edge has to move
  have hremoves := (removes_iff hacc).mpr
    ⟨front, h.head n hn, by rw [hreceived]; exact h.covered hfair⟩
  have hmoved := hdoes.acknowledges (h.ready n x) (h.active hn) hrst hack hremoves
  rw [h.edge n hn, h.edge (n + 1) (by omega)] at hmoved
  exact lt_irrefl _ hmoved

end Stalled

/-! ### Everything is delivered -/

/-- Everything that `x` has accepted has arrived at its peer, and the end of its stream if it has
    come to its end. -/
def Delivered (sys : System) (x : Side) : Prop :=
  (sys.endpoint x.peer).received = (sys.endpoint x).accepted ∧
    ((sys.endpoint x).conn.sender.streamIn.inputEnded = true ↔
      (sys.endpoint x.peer).conn.inboundStream.inputEnded = true)

/-- An inbound stream that has ended has everything, by the safety of the flow. -/
theorem delivered_of_ended (h : sys.Linked)
    (hended : (sys.endpoint x.peer).conn.inboundStream.inputEnded = true) : sys.Delivered x := by
  obtain ⟨hall, -, hsender⟩ := (h x).outgoing.received_all hended
  exact ⟨hall, fun _ => hended, fun _ => hsender⟩

/-- **Nothing outstanding and no work left** means that all is delivered. -/
theorem delivered_of_idle (h : sys.Linked) (hready : (sys.endpoint x).Ready)
    (hidle : (sys.endpoint x).conn.sender.lowEdge
      = (sys.endpoint x).conn.sender.nextSeqnoAbsolute) : sys.Delivered x := by
  have hflow := (h x).outgoing
  by_cases hended : (sys.endpoint x.peer).conn.inboundStream.inputEnded = true
  · exact delivered_of_ended h hended
  -- the peer's stream goes on, so it is to be shown that ours does, and that all has arrived
  suffices hall : (sys.endpoint x).conn.sender.streamIn.inputEnded = false ∧
      (sys.endpoint x).accepted.length
        ≤ (sys.endpoint x.peer).conn.inboundStream.bytesWritten by
    obtain ⟨hopen, hle⟩ := hall
    refine ⟨?_, by simp [hopen, hended]⟩
    show (sys.endpoint x.peer).taken ++ _ = _
    exact hflow.received_eq_take.1.trans (List.take_of_length_le hle)
  have hbytes : (sys.endpoint x).conn.sender.bytesInFlight = 0 := by
    have hle := hflow.sender.ledger.outstanding_tiles.2
    unfold lowEdge at hidle
    omega
  have hwritten := hflow.sender.written
  have hphase := hflow.sender.phase
  have hedge : (sys.endpoint x).conn.sender.nextSeqnoAbsolute
      ≤ (sys.endpoint x.peer).conn.inboundStream.bytesWritten + 1 := by
    have hopen : ¬(sys.endpoint x.peer).conn.receiver.streamOut.inputEnded = true := hended
    have hle := hflow.edge
    rwa [hidle, TCPReceiver.absAck, if_neg hopen] at hle
  rw [Phase] at hphase
  cases hstate : (sys.endpoint x).conn.sender.state <;> rw [hstate] at hphase <;>
    simp only at hphase
  case closed =>
    -- nothing has been written yet
    obtain ⟨hnone, hopen⟩ := hready.diligent.untouched hstate
    exact ⟨hopen, by omega⟩
  case synSent => omega
  case synAcked =>
    -- the window has room, so the buffer is empty and the end is not due
    have hsize := fillSize_eq (sys.endpoint x).conn.sender
    rcases idle_of_not_hasWork hstate hready.diligent.work with hfull | ⟨hempty, hopen⟩
    · omega
    · have hacc := (sys.endpoint x).conn.sender.streamIn.accounted
      rw [hempty, List.length_nil] at hacc
      exact ⟨hopen, by omega⟩
  case finSent => exact absurd (hflow.finished_arrived ⟨hstate, hbytes⟩).2 hended

/-- What is in the history stays there. -/
theorem after_sent {m : ℕ} (hmn : m ≤ n) {e : Nat × TCPSegment}
    (he : e ∈ entries ((sys.after moves m).endpoint y).history) :
    e ∈ entries ((sys.after moves n).endpoint y).history := by
  induction n, hmn using Nat.le_induction with
  | base => exact he
  | succ n _ ih =>
    obtain ⟨more, hmore⟩ : ∃ more, ((sys.after moves (n + 1)).endpoint y).history
        = ((sys.after moves n).endpoint y).history ++ more := after_history n y
    rw [hmore, entries, List.map_append]
    exact List.mem_append_left _ ih

namespace Steady

/-- The oldest outstanding segment starts at the left edge. -/
theorem front (h : Steady sys moves) (n : ℕ)
    (hlt : ((sys.after moves n).endpoint x).conn.sender.lowEdge
      ≠ ((sys.after moves n).endpoint x).conn.sender.nextSeqnoAbsolute) :
    ∃ e ∈ entries ((sys.after moves n).endpoint x).history,
      ((sys.after moves n).endpoint x).conn.sender.segmentsOutstanding.head? = some e ∧
        e.1 = ((sys.after moves n).endpoint x).conn.sender.lowEdge := by
  have hledger := (h.linked n x).outgoing.sender.ledger
  have htiles := hledger.outstanding_tiles.1
  cases hout : ((sys.after moves n).endpoint x).conn.sender.segmentsOutstanding with
  | nil =>
    rw [hout, tiles_nil] at htiles
    exact absurd htiles hlt
  | cons e rest =>
    rw [hout, tiles_cons] at htiles
    exact ⟨e, hledger.last.subset (by rw [hout]; simp), rfl, htiles.1⟩

/-- While the left edge stands still, the oldest outstanding segment is always the same one. -/
theorem front_const (h : Steady sys moves) {edge next start : ℕ} (hne : edge ≠ next)
    (hedge : ∀ n, start ≤ n → ((sys.after moves n).endpoint x).conn.sender.lowEdge = edge)
    (hnext : ∀ n, start ≤ n →
      ((sys.after moves n).endpoint x).conn.sender.nextSeqnoAbsolute = next) :
    ∃ front, front.1 = edge ∧ ∀ n, start ≤ n →
      ((sys.after moves n).endpoint x).conn.sender.segmentsOutstanding.head? = some front := by
  have hfront : ∀ n, start ≤ n → ∃ e ∈ entries ((sys.after moves n).endpoint x).history,
      ((sys.after moves n).endpoint x).conn.sender.segmentsOutstanding.head? = some e ∧
        e.1 = edge := by
    intro n hn
    have hsome := h.front (x := x) n (by rw [hedge n hn, hnext n hn]; exact hne)
    rwa [hedge n hn] at hsome
  obtain ⟨front, hsent, -, hat⟩ := hfront start (le_refl _)
  refine ⟨front, hat, fun n hn => ?_⟩
  -- two segments of the history at one position are the same
  obtain ⟨e, he, hhead, hate⟩ := hfront n hn
  have hledger := (h.linked n x).outgoing.sender.ledger
  rw [hhead, hledger.tiles.eq_of_pos_eq hledger.positive he (after_sent hn hsent)
    (hate.trans hat.symm)]

/-- **The numbers of both sides stand still in the end.** -/
theorem settles (h : Steady sys moves) (x : Side) :
    ∃ edge next ack written read, ∀ᶠ n in atTop,
      ((sys.after moves n).endpoint x).conn.sender.lowEdge = edge ∧
      ((sys.after moves n).endpoint x).conn.sender.nextSeqnoAbsolute = next ∧
      ((sys.after moves n).endpoint x.peer).conn.receiver.absAck = ack ∧
      ((sys.after moves n).endpoint x.peer).conn.inboundStream.bytesWritten = written ∧
      ((sys.after moves n).endpoint x.peer).conn.inboundStream.bytesRead = read := by
  have hadvances : ∀ n y, ((sys.after moves n).endpoint y).conn.Advances
      ((sys.after moves (n + 1)).endpoint y).conn := after_advances (h.ready 0)
  have hself := fun n => hadvances n x
  have hpeer := fun n => hadvances n x.peer
  have hnext : ∀ n, ((sys.after moves n).endpoint x).conn.sender.nextSeqnoAbsolute
      ≤ 2 ^ 31 + 2 := by
    intro n
    have hinv := (h.linked n x).outgoing.sender
    have heq := hinv.next_eq
    have hread := hinv.bytesRead_le
    have hshort := h.short n x
    split at heq <;> split at heq <;> omega
  have hedge : ∀ n, ((sys.after moves n).endpoint x).conn.sender.lowEdge ≤ 2 ^ 31 + 2 :=
    fun n => (Nat.sub_le _ _).trans (hnext n)
  have hwritten : ∀ n, ((sys.after moves n).endpoint x.peer).conn.inboundStream.bytesWritten
      ≤ 2 ^ 31 :=
    fun n => (h.linked n x).outgoing.received_eq_take.2.trans (h.short n x).le
  have hack : ∀ n, ((sys.after moves n).endpoint x.peer).conn.receiver.absAck ≤ 2 ^ 31 + 2 :=
    fun n => (TCPReceiver.absAck_le_add_two _).trans (Nat.add_le_add_right (hwritten n) 2)
  have hread : ∀ n, ((sys.after moves n).endpoint x.peer).conn.inboundStream.bytesRead
      ≤ 2 ^ 31 := by
    intro n
    have hacc := ((sys.after moves n).endpoint x.peer).conn.inboundStream.accounted
    have hle := hwritten n
    omega
  obtain ⟨edge, h1⟩ := Endless.eventually_const (fun n => (hself n).edge_le) hedge
  obtain ⟨next, h2⟩ := Endless.eventually_const (fun n => (hself n).next_le) hnext
  obtain ⟨ack, h3⟩ := Endless.eventually_const
    (fun n => TCPReceiver.absAck_mono (hpeer n).receiver.written_le (hpeer n).receiver.ended) hack
  obtain ⟨written, h4⟩ := Endless.eventually_const (fun n => (hpeer n).receiver.written_le) hwritten
  obtain ⟨read, h5⟩ := Endless.eventually_const (fun n => (hpeer n).receiver.read_le) hread
  exact ⟨edge, next, ack, written, read, h1.and (h2.and (h3.and (h4.and h5)))⟩

/-- **A fair run in which no side gives up delivers everything.** -/
theorem delivers (h : Steady sys moves) (hfair : sys.Fair moves x)
    (hroom : ∀ n, 0 < ((sys.after moves n).endpoint x.peer).conn.inboundStream.capacity ∧
      ((sys.after moves n).endpoint x.peer).conn.inboundStream.capacity < 2 ^ 63) :
    ∀ᶠ n in atTop, (sys.after moves n).Delivered x := by
  by_cases hend : ∃ n, ((sys.after moves n).endpoint x.peer).conn.inboundStream.inputEnded = true
  · -- once the end has arrived, all has arrived
    obtain ⟨n, hn⟩ := hend
    have hkept := Endless.eventually_of_kept (P := fun n =>
      ((sys.after moves n).endpoint x.peer).conn.inboundStream.inputEnded = true)
      (fun n => (after_advances (h.ready 0) n x.peer).receiver.ended) hn
    exact hkept.mono fun n hended => delivered_of_ended (h.linked n) hended
  · -- the peer is active, since it has not seen the end
    have hactive : ∀ n, ((sys.after moves n).endpoint x.peer).conn.active = true := by
      intro n
      by_contra hinactive
      exact hend ⟨n, (h.clean hinactive).2⟩
    obtain ⟨edge, next, ack, written, read, hconst⟩ := h.settles x
    obtain ⟨start, hstart⟩ := eventually_atTop.mp hconst
    by_cases hidle : edge = next
    · refine eventually_atTop.mpr ⟨start, fun n hn => ?_⟩
      obtain ⟨hedge, hnext, -⟩ := hstart n hn
      exact delivered_of_idle (h.linked n) (h.ready n x) (by rw [hedge, hnext, hidle])
    · exfalso
      obtain ⟨front, hat, hhead⟩ := h.front_const hidle (fun n hn => (hstart n hn).1)
        (fun n hn => (hstart n hn).2.1)
      have hstalled : Stalled sys moves x front ack written read start :=
        { h with
          peer_active := hactive
          room := hroom
          edge := fun n hn => (hstart n hn).1.trans hat.symm
          head := hhead
          ack := fun n hn => (hstart n hn).2.2.1
          written := fun n hn => (hstart n hn).2.2.2.1
          read := fun n hn => (hstart n hn).2.2.2.2 }
      exact hstalled.absurd hfair

end Steady

variable {cfg : Side → TCPConfig} {randSender randReceiver : Side → WrappingInt32}

/-- Fresh endpoints are ready. -/
theorem start_ready (cfg : Side → TCPConfig) (randSender randReceiver : Side → WrappingInt32)
    (y : Side) : ((start cfg randSender randReceiver).endpoint y).Ready :=
  Endpoint.new_ready (cfg y) (randSender y) (randReceiver y)

/-- The capacity of the inbound stream is the configured one throughout. -/
theorem after_capacity (n : ℕ) (y : Side) :
    (((start cfg randSender randReceiver).after moves n).endpoint y).conn.inboundStream.capacity
      = (cfg y).recvCapacity := by
  induction n with
  | zero => rfl
  | succ n ih =>
    exact (after_advances (start_ready cfg randSender randReceiver) n y).receiver.capacity.trans ih

/-- **What is written arrives in the end.**  In every endless run of two connections that is fair to
    one direction, and with fewer than `2^31` bytes accepted on each side: from some point on a side
    has given up, or all that the sending side has accepted has been received, in order, and the
    receiving side has seen the end of the stream if it has come to its end. -/
theorem eventually_delivered (cfg : Side → TCPConfig)
    (randSender randReceiver : Side → WrappingInt32) (moves : ℕ → Move) (x : Side)
    (hcapacity : 0 < (cfg x.peer).recvCapacity) (hsize : (cfg x.peer).recvCapacity < 2 ^ 63)
    (hfair : (start cfg randSender randReceiver).Fair moves x)
    (hshort : ∀ n y, (((start cfg randSender randReceiver).after moves n).endpoint
      y).accepted.length < 2 ^ 31) :
    ∀ᶠ n in atTop,
      (∃ y, (((start cfg randSender randReceiver).after moves n).endpoint
        y).conn.inboundStream.error = true) ∨
      ((start cfg randSender randReceiver).after moves n).Delivered x := by
  have hready := start_ready cfg randSender randReceiver
  have herror : ∀ n y, (((start cfg randSender randReceiver).after moves n).endpoint
      y).conn.inboundStream.error = (((start cfg randSender randReceiver).after moves n).endpoint
        y).conn.sender.streamIn.error :=
    fun n y => (after_ready hready n y).inv.error_eq.symm
  by_cases hbad : ∃ n y, (((start cfg randSender randReceiver).after moves n).endpoint
      y).conn.sender.streamIn.error = true
  · obtain ⟨n, y, hy⟩ := hbad
    have hkept := Endless.eventually_of_kept (P := fun n =>
      (((start cfg randSender randReceiver).after moves n).endpoint
        y).conn.sender.streamIn.error = true) (fun n => after_error hready n y) hy
    exact hkept.mono fun n hn => Or.inl ⟨y, (herror n y).trans hn⟩
  · have hsteady : Steady (start cfg randSender randReceiver) moves :=
      ⟨after_linked (start_linked _ _ _) hshort, after_ready hready, hshort, fun n y => by
        by_contra hne
        exact hbad ⟨n, y, by simpa using hne⟩⟩
    have hroom : ∀ n, 0 < (((start cfg randSender randReceiver).after moves n).endpoint
          x.peer).conn.inboundStream.capacity ∧
        (((start cfg randSender randReceiver).after moves n).endpoint
          x.peer).conn.inboundStream.capacity < 2 ^ 63 := by
      intro n
      rw [after_capacity]
      exact ⟨hcapacity, hsize⟩
    exact (hsteady.delivers hfair hroom).mono fun n hn => Or.inr hn

/-! ### A whole run

Both connections are opened and closed, and then the clock of one side and the reader of the other
go on for ever. -/

/-- The moves up to the end of both connections. -/
def whole : List Move :=
  [.act .a .connect, .deliver .b 0, .deliver .a 0, .deliver .b 1, .act .a (.write [104, 105]),
    .act .a .endInputStream, .deliver .b 2, .deliver .b 3, .act .b .endInputStream, .deliver .a 1,
    .deliver .a 2, .deliver .a 3, .deliver .b 4, .act .a (.tick 10000)]

/-- The moves of the endless run. -/
def wholeMoves (n : ℕ) : Move :=
  (whole[n]?).getD (if n % 2 = 0 then .act .a (.tick 1) else .act .b (.read 1))

/-- The system that the run starts from. -/
abbrev wholeStart : System := start (fun _ => {}) (fun _ => ⟨7⟩) (fun _ => ⟨0⟩)

/-- From move 14 on there are only ticks and reads. -/
theorem wholeMoves_of_le (hn : 14 ≤ n) :
    wholeMoves n = if n % 2 = 0 then .act .a (.tick 1) else .act .b (.read 1) := by
  rw [wholeMoves, List.getElem?_eq_none (show whole.length ≤ n from hn), Option.getD_none]

/-- Both connections are over, with at most two bytes accepted. -/
def AtRest (sys : System) : Prop :=
  ∀ y, (sys.endpoint y).conn.active = false ∧ (sys.endpoint y).conn.segmentsOut = [] ∧
    (sys.endpoint y).accepted.length ≤ 2

/-- The clock and the reader of a connection that is over send nothing. -/
theorem AtRest.step (h : sys.AtRest) (y : Side) {op : EndpointOp}
    (hop : op = .tick 1 ∨ op = .read 1) :
    (sys.step (.act y op)).AtRest ∧ ∀ z, (sys.step (.act y op)).wire z = sys.wire z := by
  obtain ⟨hinactive, hqueue, hlen⟩ := h y
  obtain ⟨hdoes, hwire⟩ := sys.step_act y op
  have hout : ((sys.endpoint y).conn.apply op.call).segmentsOut = [] := by
    rcases hop with rfl | rfl
    · show ((sys.endpoint y).conn.tick 1).segmentsOut = []
      rw [tick_of_inactive hinactive, hqueue]
    · exact hqueue
  have haccepted : ((sys.endpoint y).act op).1.accepted = (sys.endpoint y).accepted := by
    rcases hop with rfl | rfl <;> rfl
  refine ⟨fun z => ?_, fun z => ?_⟩
  · by_cases hz : z = y
    · subst hz
      refine ⟨?_, ?_, ?_⟩
      · rw [hdoes.conn]
        exact apply_active_eq_false hinactive op.call
      · rw [hdoes.conn]
      · simpa [System.step, put, haccepted] using hlen
    · simpa [System.step, put, hz] using h z
  · by_cases hz : z = y
    · subst hz
      rw [hwire, hdoes.out_eq, hout, List.map_nil, List.append_nil]
    · simp [System.step, put, hz]

/-- One of these moves changes nothing. -/
theorem whole_step (hn : 14 ≤ n) (h : (wholeStart.after wholeMoves n).AtRest) :
    (wholeStart.after wholeMoves (n + 1)).AtRest ∧ ∀ y,
      (wholeStart.after wholeMoves (n + 1)).wire y = (wholeStart.after wholeMoves n).wire y := by
  show ((wholeStart.after wholeMoves n).step (wholeMoves n)).AtRest ∧ ∀ y,
    ((wholeStart.after wholeMoves n).step (wholeMoves n)).wire y = _
  rw [wholeMoves_of_le hn]
  split
  · exact h.step .a (Or.inl rfl)
  · exact h.step .b (Or.inr rfl)

/-- So the connections stay over. -/
theorem whole_atRest (hn : 14 ≤ n) : (wholeStart.after wholeMoves n).AtRest := by
  induction n, hn using Nat.le_induction with
  | base =>
    intro y
    cases y <;> decide +kernel
  | succ n hn ih => exact (whole_step hn ih).1

/-- Two bytes are accepted altogether. -/
theorem whole_short (n : ℕ) (y : Side) :
    ((wholeStart.after wholeMoves n).endpoint y).accepted.length < 2 ^ 31 := by
  -- what is accepted only grows, and it is two bytes at the end
  have hmono : Monotone fun n => ((wholeStart.after wholeMoves n).endpoint y).accepted.length :=
    monotone_nat_of_le_succ fun n => accepted_le_step _ (wholeMoves n) y
  have hle := hmono (le_max_left n 14)
  have hrest := (whole_atRest (le_max_right n 14) y).2.2
  simp only at hle
  omega

/-- Nothing is sent any more from move 14 on. -/
theorem whole_silent (y : Side) (P : Flight → Prop) :
    ¬ ∃ᶠ n in atTop, ∃ f ∈ wholeStart.sentAt wholeMoves n y, P f := by
  intro hsent
  obtain ⟨n, hn, f, hf, -⟩ := frequently_atTop.mp hsent 14
  rw [sentAt, (whole_step hn (whole_atRest hn)).2, List.drop_length] at hf
  cases hf

/-- The run is fair for a simple reason: nothing is sent any more, and the clock and the reader go
    on. -/
theorem whole_fair : wholeStart.Fair wholeMoves .a where
  data seg hsent := absurd hsent (whole_silent .a _)
  acks ack hsent := absurd hsent (whole_silent .b _)
  clock := frequently_atTop.mpr fun N => ⟨2 * (N + 7), by omega, 1, one_pos, by
    rw [wholeMoves_of_le (by omega), if_pos (by omega)]⟩
  ordinary n ms hmove := by
    by_cases hn : 14 ≤ n
    · rw [wholeMoves_of_le hn] at hmove
      split at hmove <;> simp at hmove
      omega
    · have hmem : .act .a (.tick ms) ∈ whole := by
        rw [← hmove, wholeMoves,
          List.getElem?_eq_getElem (show n < whole.length from Nat.lt_of_not_le hn)]
        exact List.getElem_mem _
      simp [whole] at hmem
      omega
  reader := frequently_atTop.mpr fun N => ⟨2 * (N + 7) + 1, by omega, .read 1,
    ⟨1, one_pos, Or.inl rfl⟩, by rw [wholeMoves_of_le (by omega), if_neg (by omega)]; rfl⟩

theorem eventually_delivered_whole :
    ((wholeStart.after wholeMoves 14).endpoint .a).accepted = [104, 105] ∧
      ∀ᶠ n in atTop,
        (∃ y, ((wholeStart.after wholeMoves n).endpoint y).conn.inboundStream.error = true) ∨
          (wholeStart.after wholeMoves n).Delivered .a :=
  ⟨by decide +kernel, eventually_delivered (fun _ => {}) (fun _ => ⟨7⟩) (fun _ => ⟨0⟩) wholeMoves .a
    (by decide) (by decide) whole_fair whole_short⟩

end System

end Sponge
