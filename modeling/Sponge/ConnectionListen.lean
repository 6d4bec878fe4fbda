import Sponge.ConnectionInvariant

namespace Sponge

/-!
# A connection that listens

Before a SYN arrives, time and segments leave no trace on a connection but the window in an
acknowledgment of the initial sequence number and the time of the last segment, `waiting`.  Neither
is looked at when the SYN is answered: the connection then does what a fresh one would.

A RST ends the connection all the same.  `listening_iff` says that nothing else disturbs it.
-/

namespace TCPConnection

/-- A connection that has not been used, but for a window and a clock. -/
def waiting (cfg : TCPConfig) (randSender randReceiver : WrappingInt32) (window : Nat)
    (time : Int) : TCPConnection :=
  { new cfg randSender randReceiver with
    sender := { (new cfg randSender randReceiver).sender with windowSize := window }
    timeSinceLastSegmentReceived := time }

/-- The connection listens, and answers a SYN as a fresh one does. -/
structure Listening (cfg : TCPConfig) (randSender randReceiver : WrappingInt32)
    (c : TCPConnection) : Prop where
  active : c.active = true
  state : c.state = .ofState .listen
  silent : c.segmentsOut = []
  unassembled : c.receiver.unassembledBytes = 0
  buffered : c.inboundStream.bufferSize = 0
  accepts : ∀ seg : TCPSegment, seg.header.syn = true →
    (c.segmentReceived seg).state
        = ((new cfg randSender randReceiver).segmentReceived seg).state ∧
      (c.segmentReceived seg).segmentsOut
        = ((new cfg randSender randReceiver).segmentReceived seg).segmentsOut

/-- Time passes, or a segment without SYN arrives. -/
def BeforeSyn : ConnectionOp → Prop
  | .tick _ => True
  | .segmentReceived seg => seg.header.syn = false
  | _ => False

variable (cfg : TCPConfig) (randSender randReceiver : WrappingInt32) (window : Nat) (time : Int)

/-! ### Time and segments without SYN -/

/-- A fresh connection waits. -/
theorem new_eq_waiting :
    new cfg randSender randReceiver = waiting cfg randSender randReceiver 1 0 :=
  rfl

/-- Time passes for a connection that waits, and only its clock shows it. -/
theorem tick_waiting (ms : Nat) :
    (waiting cfg randSender randReceiver window time).tick ms
      = waiting cfg randSender randReceiver window ((time + ms).bmod (2 ^ 32)) :=
  rfl

/-- An acknowledgment may bring a window. -/
theorem receiveAck_waiting (seg : TCPSegment) :
    ∃ window', (waiting cfg randSender randReceiver window time).receiveAck seg
      = waiting cfg randSender randReceiver window' time := by
  unfold receiveAck
  split
  · unfold TCPSender.ackReceived
    split
    · exact ⟨seg.header.win.toNat, rfl⟩
    · exact ⟨window, rfl⟩
  · exact ⟨window, rfl⟩

/-- A segment without RST up to the answer. -/
theorem segmentReceived_waiting_eq {seg : TCPSegment} (hrst : seg.header.rst = false) :
    ∃ window', (waiting cfg randSender randReceiver window time).segmentReceived seg
      = respond { waiting cfg randSender randReceiver window' 0 with
          receiver := (new cfg randSender randReceiver).receiver.segmentReceived seg } seg := by
  obtain ⟨window', hack⟩ := receiveAck_waiting cfg randSender randReceiver window 0 seg
  refine ⟨window', ?_⟩
  rw [segmentReceived, if_neg (by simp [waiting, new, active]), if_neg (by simp [hrst])]
  have hclock : { waiting cfg randSender randReceiver window time with
      timeSinceLastSegmentReceived := 0 } = waiting cfg randSender randReceiver window 0 := rfl
  rw [hclock]
  dsimp only
  rw [hack]
  rfl

/-- A segment without SYN and RST is ignored; an acknowledgment in it changes the window of the
    sender, which has sent nothing. -/
theorem segmentReceived_waiting {seg : TCPSegment} (hsyn : seg.header.syn = false)
    (hrst : seg.header.rst = false) :
    ∃ window', (waiting cfg randSender randReceiver window time).segmentReceived seg
      = waiting cfg randSender randReceiver window' 0 := by
  obtain ⟨window', heq⟩ := segmentReceived_waiting_eq cfg randSender randReceiver window time hrst
  have hlisten := segmentReceived_inListen (new cfg randSender randReceiver).receiver seg
  have hreceiver := hlisten.2 (hlisten.1.mpr ⟨rfl, hsyn⟩)
  refine ⟨window', ?_⟩
  rw [heq, hreceiver]
  exact if_pos rfl

/-! ### The SYN -/

/-- A sender that is neither past its SYN nor done does not end the connection. -/
theorem tryCleanShutdown_eq_self {c : TCPConnection} (hacked : c.sender.stateSummary ≠ .synAcked)
    (hfin : c.sender.stateSummary ≠ .finAcked) : c.tryCleanShutdown = c := by
  obtain ⟨-, hst, -⟩ | ⟨-, hst, -⟩ | ⟨hc, -⟩ := c.tryCleanShutdown_cases
  · exact absurd hst hacked
  · exact absurd hst hfin
  · exact hc

/-- The answer to a segment that occupies sequence space when the sender has yet to start. -/
theorem respond_of_closed {c : TCPConnection} {seg : TCPSegment} {sender : TCPSender}
    (hreceiver : c.receiver.stateSummary ≠ .listen) (hlength : seg.lengthInSequenceSpace ≠ 0)
    (hclosed : c.sender.stateSummary = .closed) (hfill : c.sender.fillWindow = sender)
    (hsent : sender.stateSummary = .synSent) (hqueue : sender.segmentsOut.isEmpty = false) :
    c.respond seg = fetchSegment { c with sender := sender } := by
  have hanswer : ({ c with sender := sender } : TCPConnection).answer seg
      = { c with sender := sender } := by
    rw [answer, if_pos hlength, if_neg (by simp [hqueue])]
  have hfetched : (fetchSegment { c with sender := sender }).sender.stateSummary = .synSent := hsent
  have hshut : c.tryCleanShutdown = c :=
    tryCleanShutdown_eq_self (by simp [hclosed]) (by simp [hclosed])
  rw [respond, if_neg hreceiver]
  dsimp only
  rw [hshut, hfill, hanswer, tryCleanShutdown_eq_self (by simp [hfetched]) (by simp [hfetched])]

/-- The connection after a SYN: its own has been sent. -/
def synReceived (seg : TCPSegment) : TCPConnection :=
  fetchSegment { waiting cfg randSender randReceiver window 0 with
    receiver := (new cfg randSender randReceiver).receiver.segmentReceived seg
    sender := (waiting cfg randSender randReceiver window 0).sender.sendSynSegment }

/-- The SYN is answered with a SYN that acknowledges it. -/
theorem segmentReceived_waiting_syn {seg : TCPSegment} (hsyn : seg.header.syn = true)
    (hrst : seg.header.rst = false) :
    ∃ window', (waiting cfg randSender randReceiver window time).segmentReceived seg
      = synReceived cfg randSender randReceiver window' seg := by
  obtain ⟨window', heq⟩ := segmentReceived_waiting_eq cfg randSender randReceiver window time hrst
  refine ⟨window', heq.trans (respond_of_closed ?_ ?_ rfl rfl rfl rfl)⟩
  · -- the SYN takes the receiver out of LISTEN
    have hlisten :
        ((new cfg randSender randReceiver).receiver.segmentReceived seg).inListen = false := by
      rw [Bool.eq_false_iff]
      intro h
      have hno := ((segmentReceived_inListen _ seg).1.mp h).2
      rw [hsyn] at hno
      exact absurd hno (by simp)
    simp only [TCPReceiver.stateSummary, TCPReceiver.ackno, hlisten, Bool.false_eq_true, if_false,
      reduceCtorEq]
    split
    · simp
    · split <;> simp
  · simp [TCPSegment.lengthInSequenceSpace, hsyn]

/-- What a connection does on a SYN depends neither on the window nor on the clock. -/
theorem segmentReceived_waiting_accepts {seg : TCPSegment} (hsyn : seg.header.syn = true) :
    ((waiting cfg randSender randReceiver window time).segmentReceived seg).state
        = ((new cfg randSender randReceiver).segmentReceived seg).state ∧
      ((waiting cfg randSender randReceiver window time).segmentReceived seg).segmentsOut
        = ((new cfg randSender randReceiver).segmentReceived seg).segmentsOut := by
  cases hrst : seg.header.rst with
  | true =>
    rw [segmentReceived_of_rst rfl hrst, segmentReceived_of_rst rfl hrst]
    exact ⟨rfl, rfl⟩
  | false =>
    obtain ⟨_, heq⟩ := segmentReceived_waiting_syn cfg randSender randReceiver window time hsyn hrst
    obtain ⟨_, hnew⟩ := segmentReceived_waiting_syn cfg randSender randReceiver 1 0 hsyn hrst
    rw [heq, new_eq_waiting, hnew]
    exact ⟨rfl, rfl⟩

/-! ### Whole runs -/

/-- A connection that waits is in LISTEN, has sent nothing, and answers a SYN as a fresh one does.
    -/
theorem waiting_listening :
    Listening cfg randSender randReceiver (waiting cfg randSender randReceiver window time) where
  active := rfl
  state := rfl
  silent := rfl
  unassembled := rfl
  buffered := rfl
  accepts _ hsyn := segmentReceived_waiting_accepts cfg randSender randReceiver window time hsyn

/-- Before the SYN only a RST is noticed. -/
theorem apply_waiting {op : ConnectionOp} (hop : BeforeSyn op) :
    (∃ window' time', apply (waiting cfg randSender randReceiver window time) op
        = waiting cfg randSender randReceiver window' time') ∧
        (∀ seg, op = .segmentReceived seg → seg.header.rst = false) ∨
      (apply (waiting cfg randSender randReceiver window time) op).active = false ∧
        ∃ seg, op = .segmentReceived seg ∧ seg.header.rst = true := by
  cases op with
  | tick ms =>
    exact .inl ⟨⟨window, _, tick_waiting cfg randSender randReceiver window time ms⟩, by simp⟩
  | segmentReceived seg =>
    cases hrst : seg.header.rst with
    | true =>
      refine .inr ⟨?_, seg, rfl, hrst⟩
      rw [apply, segmentReceived_of_rst rfl hrst]
      rfl
    | false =>
      obtain ⟨window', heq⟩ :=
        segmentReceived_waiting cfg randSender randReceiver window time hop hrst
      exact .inl ⟨⟨window', 0, heq⟩, by simpa using hrst⟩
  | connect | write | endInputStream | read | pop | popSegment => exact hop.elim

/-- A call that comes before a SYN does not bring a dead connection back. -/
theorem apply_inactive {c : TCPConnection} {op : ConnectionOp} (hop : BeforeSyn op)
    (hinactive : c.active = false) : (c.apply op).active = false := by
  cases op with
  | tick ms => rw [apply, tick_of_inactive hinactive, hinactive]
  | segmentReceived seg => rw [apply, segmentReceived_of_inactive hinactive, hinactive]
  | connect | write | endInputStream | read | pop | popSegment => exact hop.elim

/-- Nor does any number of such calls. -/
theorem foldl_inactive {c : TCPConnection} {ops : List ConnectionOp}
    (hops : ∀ op ∈ ops, BeforeSyn op) (hinactive : c.active = false) :
    (ops.foldl apply c).active = false := by
  induction ops generalizing c with
  | nil => exact hinactive
  | cons op ops ih =>
    exact ih (fun op' hop' => hops op' (List.mem_cons_of_mem _ hop'))
      (apply_inactive (hops op List.mem_cons_self) hinactive)

/-- **A connection goes on listening** through time and segments without SYN, exactly if none of the
    segments is a RST. -/
theorem foldl_waiting_iff {ops : List ConnectionOp} (hops : ∀ op ∈ ops, BeforeSyn op) :
    Listening cfg randSender randReceiver
        (ops.foldl apply (waiting cfg randSender randReceiver window time)) ↔
      ∀ seg, .segmentReceived seg ∈ ops → seg.header.rst = false := by
  -- along the calls; the first RST decides
  induction ops generalizing window time with
  | nil => simpa using waiting_listening cfg randSender randReceiver window time
  | cons op ops ih =>
    have hrest : ∀ op ∈ ops, BeforeSyn op := fun op' hop' => hops op' (List.mem_cons_of_mem _ hop')
    rw [List.foldl_cons]
    obtain ⟨⟨window', time', heq⟩, hno⟩ | ⟨hinactive, seg, hseg, hrst⟩ :=
      apply_waiting cfg randSender randReceiver window time (hops op List.mem_cons_self)
    · rw [heq, ih window' time' hrest]
      constructor
      · intro h seg hmem
        obtain hhead | htail := List.mem_cons.mp hmem
        · exact hno seg hhead.symm
        · exact h seg htail
      · exact fun h seg hmem => h seg (List.mem_cons_of_mem _ hmem)
    · -- the RST has ended the connection for good
      constructor
      · intro h
        have hactive := h.active
        rw [foldl_inactive hrest hinactive] at hactive
        exact absurd hactive (by simp)
      · intro h
        have hno := h seg (hseg ▸ List.mem_cons_self)
        rw [hrst] at hno
        exact absurd hno (by simp)

/-- **Listening is robust but for RSTs.** Until a SYN arrives, any sequence of ticks and segments
    leaves a fresh connection listening, silent, empty and ready for the SYN if and only if no
    segment carries RST. -/
theorem listening_iff {ops : List ConnectionOp} (hops : ∀ op ∈ ops, BeforeSyn op) :
    Listening cfg randSender randReceiver (run cfg randSender randReceiver ops) ↔
      ∀ seg, .segmentReceived seg ∈ ops → seg.header.rst = false :=
  foldl_waiting_iff cfg randSender randReceiver 1 0 hops

/-- A tick and an acknowledgment. -/
theorem listening_after_ack :
    Listening {} ⟨0⟩ ⟨0⟩
      (run {} ⟨0⟩ ⟨0⟩ [.tick 5, .segmentReceived { header := { ack := true } }]) :=
  (listening_iff {} ⟨0⟩ ⟨0⟩ (by simp [BeforeSyn])).mpr (by simp)

/-- A RST for a connection that listens ends it. -/
theorem rst_ends_listening :
    BeforeSyn (.segmentReceived { header := { rst := true } }) ∧
      (run {} ⟨0⟩ ⟨0⟩ [.segmentReceived { header := { rst := true } }]).active = false :=
  ⟨rfl, rfl⟩

end TCPConnection

end Sponge
