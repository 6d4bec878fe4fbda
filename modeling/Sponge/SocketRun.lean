import Sponge.SpongeSocket

namespace Sponge

/-!
# Runs of a socket

The rules of a socket keep a contract (`TCPSpongeSocket.contract`), whatever the kernel answers: the
invariants of the connection hold, every segment can be put into a datagram, and nothing is read
from the owner that the connection would not take.  Two things follow about the thread of a socket.

* `SocketThread.failed_by_kernel` — it throws only what a system call or a polled descriptor makes
  it throw.  The event loop never detects a busy wait, and the connection never takes less than it
  has advertised.
* `SocketThread.finished_cleanly` — it ends only when everything that was received has been handed
  to the owner and everything that was to be sent has been sent.
-/

namespace TCPConnection

variable {c : TCPConnection}

/-- The queue of a connection is of no account for its invariant. -/
theorem Inv.withSegments (h : Inv c) (queue : List TCPSegment) :
    Inv { c with segmentsOut := queue } :=
  ⟨⟨⟨h.sender, h.output_open, h.error_eq, h.dead, h.inactive, h.linger, h.listen⟩, h.cleared,
    h.closed_iff⟩, h.opened⟩

theorem write_inputEnded (c : TCPConnection) (data : List UInt8) :
    (c.write data).2.sender.streamIn.inputEnded = c.sender.streamIn.inputEnded := by
  have hfill := (TCPSender.fillWindow_readOn { c.sender with
    streamIn := (c.sender.streamIn.write data).2 }).ended
  exact hfill.trans (ByteStream.write_inputEnded _ _)

end TCPConnection

namespace TCPSpongeSocket

variable {α π : Type}

/-- What holds of a socket between two callbacks. -/
structure Sound (s : TCPSpongeSocket α π) : Prop where
  conn : s.tcp.Inv
  packable : s.tcp.Packable
  ended : s.tcp.sender.streamIn.inputEnded = true → s.outboundShutdown = true
  shut : s.inbound.shut = s.inboundShutdown
  told : s.inboundShutdown = true → (s.tcp.inboundStream.eof || s.tcp.inboundStream.error) = true

/-- What the interest of a rule guarantees. -/
def Asked : SocketRule → TCPSpongeSocket α π → Prop
  | .bytesOut, s => s.outboundShutdown = false ∧ 0 < s.tcp.remainingOutboundCapacity
  | _, _ => True

variable {s : TCPSpongeSocket α π}

/-- The end of the stream from the owner is handed to the connection. -/
theorem Sound.endOutbound (h : s.Sound) : s.endOutbound.Sound where
  conn := h.conn.apply .endInputStream
  packable := h.packable.endInputStream
  ended := fun _ => rfl
  shut := h.shut
  told := h.told

/-- Bytes are taken from the owner and written to the connection. -/
theorem Sound.sending (h : s.Sound) (fd : FileDescriptor) (data : List UInt8) :
    (s.sending fd data).Sound where
  conn := h.conn.apply (.write data)
  packable := h.packable.write data
  ended := fun hended => h.ended ((s.tcp.write_inputEnded data).symm.trans hended)
  shut := h.shut
  told := h.told

/-- Bytes are taken from the connection and handed to the owner. -/
theorem Sound.receiving (h : s.Sound) (n : Nat) : (s.receiving n).Sound where
  conn := h.conn.apply (.pop n)
  packable := ⟨h.packable.sender, h.packable.queued⟩
  ended := h.ended
  shut := h.shut
  told := fun htold => TCPConnection.apply_over h.conn (h.told htold) (.pop n)

/-- The owner is told of the end once it has been reached, or of an error. -/
theorem Sound.endInbound (h : s.Sound)
    (hover : (s.tcp.inboundStream.eof || s.tcp.inboundStream.error) = true) : s.endInbound.Sound :=
  ⟨h.conn, h.packable, h.ended, rfl, fun _ => hover⟩

/-- What is read from the owner while the rule is of interest, the connection takes. -/
theorem Sound.write_fst (h : s.Sound) (hopen : s.outboundShutdown = false) {data : List UInt8}
    (hfit : data.length ≤ s.tcp.remainingOutboundCapacity) :
    (s.tcp.write data).1 = data.length := by
  refine ByteStream.write_fst_of_le _ _ ?_ hfit
  by_contra hended
  rw [h.ended (by simpa using hended)] at hopen
  cases hopen

section

variable [FdAdapter α π]

/-- The exceptions of an adapter that gets segments it can send. -/
inductive AdapterThrows (α : Type) {π : Type} [FdAdapter α π] : Exception → Prop where
  | read {e : Exception} (a : α) (received : Except String π) (kernel : Nat → PacketAnswer)
      (h : (FdAdapter.read a received kernel).result = .error e) : AdapterThrows α e
  | write {e : Exception} (a : α) (seg : TCPSegment) (kernel : Nat → PacketAnswer)
      (hseg : seg.Wrappable) (h : (FdAdapter.write a seg kernel).2.result = .error e) :
      AdapterThrows α e
  | tick {e : Exception} (a : α) (ms : Nat) (kernel : Nat → PacketAnswer)
      (h : (FdAdapter.tick a ms kernel).result = .error e) : AdapterThrows α e

/-- What a callback of a rule has done: the socket is sound, it has thrown what it may throw or has
    done its work, and rule 2 is still as it was asked. -/
structure Served (i : SocketRule) (s : TCPSpongeSocket α π)
    (ret : Except Exception Unit × TCPSpongeSocket α π) : Prop where
  sound : ret.2.Sound
  throws : ∀ e, ret.1 = .error e → CallFailure e ∨ AdapterThrows α e
  serves : ret.1 = .ok () → (rule i).serviceCount s ≠ (rule i).serviceCount ret.2 ∨
    (rule i).interest ret.2 = false
  others : i ≠ .bytesOut → s.outboundShutdown = ret.2.outboundShutdown ∧
    s.tcp.remainingOutboundCapacity ≤ ret.2.tcp.remainingOutboundCapacity

section

variable {i : SocketRule} {s' : TCPSpongeSocket α π}

/-- A callback that throws need not have served its descriptor. -/
theorem Served.of_error {e : Exception} (hs : s'.Sound)
    (he : CallFailure e ∨ AdapterThrows α e)
    (hothers : i ≠ .bytesOut → s.outboundShutdown = s'.outboundShutdown ∧
      s.tcp.remainingOutboundCapacity ≤ s'.tcp.remainingOutboundCapacity) :
    Served i s (.error e, s') where
  sound := hs
  throws := fun _ heq => Except.error.inj heq ▸ he
  serves := fun hok => by cases hok
  others := hothers

/-- A callback that returns has read or written, or is not interested any more. -/
theorem Served.of_ok (hs : s'.Sound)
    (hserves : (rule i).serviceCount s ≠ (rule i).serviceCount s' ∨ (rule i).interest s' = false)
    (hothers : i ≠ .bytesOut → s.outboundShutdown = s'.outboundShutdown ∧
      s.tcp.remainingOutboundCapacity ≤ s'.tcp.remainingOutboundCapacity) :
    Served i s (.ok (), s') where
  sound := hs
  throws := fun _ heq => by cases heq
  serves := fun _ => hserves
  others := hothers

end

/-- A counter of 32 bits shows that it has been counted. -/
theorem count_ne (n : UInt32) : n ≠ n + 1 :=
  fun h => absurd (left_eq_add.mp h) (by decide)

/-- **Rule 1**: a read that returns has counted as one. -/
theorem Sound.receiveSegment (F : Faithful α) (h : s.Sound) (answer : SocketAnswer π) :
    Served .segmentIn s (receiveSegment answer s) := by
  obtain ⟨tcp, flag, heq, htcp⟩ := receiveSegment_cases answer s
  have hread : tcp.Inv ∧ tcp.Packable ∧ s.tcp.sender.ReadOn tcp.sender ∧
      (s.inboundShutdown = true → (tcp.inboundStream.eof || tcp.inboundStream.error) = true) := by
    -- the adapter has dropped the packet, or `segment_received` gets the segment
    rcases htcp with rfl | ⟨seg, -, rfl⟩
    · exact ⟨h.conn, h.packable, .of_same rfl, h.told⟩
    · exact ⟨h.conn.apply (.segmentReceived seg), h.packable.segmentReceived seg,
        h.conn.segmentReceived_readOn seg,
        fun htold => TCPConnection.apply_over h.conn (h.told htold) (.segmentReceived seg)⟩
  obtain ⟨hconn, hpackable, hon, htold⟩ := hread
  have hended := fun hended => h.ended (hon.ended.symm.trans hended)
  rw [heq]
  cases hresult : (FdAdapter.read s.datagramAdapter answer.packet (answer.device 0)).result with
  | error e =>
    exact .of_error ⟨hconn, hpackable, hended, h.shut, htold⟩ (Or.inr (.read _ _ _ hresult))
      fun _ => ⟨rfl, hon.room⟩
  | ok seg =>
    refine .of_ok ⟨hconn, hpackable, hended, h.shut, htold⟩ (Or.inl ?_) fun _ => ⟨rfl, hon.room⟩
    -- a read that returns is one more read of the device
    show (FdAdapter.fd s.datagramAdapter).readCount ≠ (FdAdapter.fd _).readCount
    rw [F.read_counts _ _ _ seg hresult]
    exact count_ne _

/-- **Rule 2**: the connection takes all bytes that are read, because no more are read than it has
    room for. -/
theorem Sound.readOutbound (h : s.Sound) (hasked : Asked .bytesOut s) (answer : SocketAnswer π) :
    Served .bytesOut s (readOutbound answer s) := by
  obtain ⟨e, hcall, heq⟩ | ⟨data, fd, -, hfit, -, hcount, -, heq⟩ := readOutbound_cases answer s
  · rw [heq]
    exact .of_error h (Or.inl hcall) fun hne => absurd rfl hne
  · have hserved : s.threadData.readCount ≠ fd.readCount := by
      rw [hcount]
      exact count_ne _
    rw [heq, if_neg (not_not.mpr (h.write_fst hasked.1 hfit))]
    split_ifs
    · exact .of_ok (h.sending fd data).endOutbound (Or.inl hserved) fun hne => absurd rfl hne
    · exact .of_ok (h.sending fd data) (Or.inl hserved) fun hne => absurd rfl hne

/-- **Rule 3**: the owner takes some bytes, or the end is reported to it. -/
theorem Sound.writeInbound (h : s.Sound) (answer : SocketAnswer π) :
    Served .bytesIn s (writeInbound answer s) := by
  obtain ⟨e, hcall, heq⟩ | ⟨n, -, -, ⟨-, heq⟩ | ⟨hover, ⟨e, hcall, heq⟩ | heq⟩⟩ :=
    writeInbound_cases answer s <;> rw [heq]
  · exact .of_error h (Or.inl hcall) fun _ => ⟨rfl, le_refl _⟩
  · exact .of_ok (h.receiving n) (Or.inl (count_ne _)) fun _ => ⟨rfl, le_refl _⟩
  · exact .of_error (h.receiving n) (Or.inl hcall) fun _ => ⟨rfl, le_refl _⟩
  · refine .of_ok ((h.receiving n).endInbound hover) (Or.inl ?_) fun _ => ⟨rfl, le_refl _⟩
    show s.threadData.writeCount ≠ s.threadData.writeCount + 1 + 1
    rw [add_assoc]
    exact fun heq => absurd (left_eq_add.mp heq) (by decide)

/-- **Rule 4**: the queue is emptied, or the adapter throws. -/
theorem Sound.sendSegments (F : Faithful α) (h : s.Sound) (answer : SocketAnswer π) :
    Served .segmentOut s (sendSegments answer s) := by
  obtain ⟨hall, hleft⟩ := flush_left F answer.device s.tcp.segmentsOut 0 s.datagramAdapter
  have hsound : (TCPSpongeSocket.sendSegments answer s).2.Sound := by
    refine ⟨h.conn.withSegments _, ⟨h.packable.sender, fun seg hseg => ?_⟩, h.ended, h.shut,
      h.told⟩
    -- what is left of the queue is as it was but for ports and checksum
    obtain ⟨seg0, hmem, hlike⟩ := hleft seg hseg
    exact hlike.wrappable (h.packable.queued seg0 hmem)
  refine ⟨hsound, fun e he => ?_, fun hok => Or.inr ?_, fun _ => ⟨rfl, le_refl _⟩⟩
  · obtain ⟨b, seg, kernel, hmem, hthrown⟩ := flush_error he
    exact Or.inr (.write b seg kernel (h.packable.queued seg hmem) hthrown)
  · show (!(flush answer.device 0 s.tcp.segmentsOut s.datagramAdapter).2.1.isEmpty) = false
    rw [hall hok]
    rfl

/-- All four rules. -/
theorem Sound.callback (F : Faithful α) (h : s.Sound) {i : SocketRule} (hasked : Asked i s)
    (answer : SocketAnswer π) : Served i s ((rule i).callback answer s) := by
  cases i with
  | segmentIn => exact h.receiveSegment F answer
  | bytesOut => exact h.readOutbound hasked answer
  | bytesIn => exact h.writeInbound answer
  | segmentOut => exact h.sendSegments F answer

/-- **The contract of the rules.** -/
theorem contract (F : Faithful α) :
    EventLoop.Contract (rule : SocketRule → Rule (TCPSpongeSocket α π) _) (fun _ => True) Sound
      Asked (fun _ _ => True) (fun e => CallFailure e ∨ AdapterThrows α e) where
  asked := by
    -- only the rule that reads from the owner asks for something: room in the outbound stream
    intro i s _ hinterest
    cases i with
    | bytesOut =>
      simp only [rule, Bool.and_eq_true, Bool.not_eq_true', decide_eq_true_eq] at hinterest
      exact ⟨hinterest.1.2, hinterest.2⟩
    | segmentIn => trivial
    | bytesIn => trivial
    | segmentOut => trivial
  gone := fun _ _ _ _ => trivial
  cancel := by
    intro i s hs _
    cases i with
    | bytesOut => exact hs.endOutbound
    | segmentIn => exact hs
    | bytesIn => exact hs
    | segmentOut => exact hs
  cancel_others := by
    -- ending the outbound stream is no concern of the other rules
    intro i s _ _ j hj
    refine ⟨fun hasked => ?_, id⟩
    cases i with
    | bytesOut =>
      cases j with
      | bytesOut => exact absurd rfl hj
      | segmentIn => trivial
      | bytesIn => trivial
      | segmentOut => trivial
    | segmentIn => exact hasked
    | bytesIn => exact hasked
    | segmentOut => exact hasked
  callback := fun i answer s _ hs hasked => (hs.callback F hasked answer).sound
  callback_others := by
    intro i answer s _ hs hasked j hj
    refine ⟨fun hbefore => ?_, id⟩
    -- another rule may make room in the outbound stream, but never takes it
    cases j with
    | bytesOut =>
      obtain ⟨hshut, hroom⟩ := (hs.callback F hasked answer).others hj.symm
      exact ⟨hshut.symm.trans hbefore.1, lt_of_lt_of_le hbefore.2 hroom⟩
    | segmentIn => trivial
    | bytesIn => trivial
    | segmentOut => trivial
  throws := fun i answer s e _ hs hasked => (hs.callback F hasked answer).throws e
  serves := fun i answer s _ hs hasked => (hs.callback F hasked answer).serves

end

end TCPSpongeSocket

/-! ### The thread -/

/-- What can happen to a socket: the owner does something, or its loop takes a turn. -/
inductive SocketEvent (π : Type) where
  | act (op : OwnerOp)
  | turn (turn : SocketTurn π)

namespace SocketThread

open TCPSpongeSocket (AdapterThrows)

variable {α π : Type} [FdAdapter α π]

/-- The effect of an event. -/
def step (th : SocketThread α π) : SocketEvent π → SocketThread α π
  | .act op => th.act op
  | .turn turn => th.iterate turn

/-- The effect of events, one after the other. -/
def run (th : SocketThread α π) (events : List (SocketEvent π)) : SocketThread α π :=
  events.foldl step th

/-- **What becomes of a turn**: the loop is left, the event loop throws, or time passes. -/
theorem iterate_cases (turn : SocketTurn π) (th : SocketThread α π) :
    let o := EventLoop.waitNextEvent TCPSpongeSocket.rule th.rules turn.poll th.socket
    let th' := { th with socket := o.state, rules := o.rules }
    (th.phase.condition th.socket.tcp = false ∧ th.iterate turn = th.leave turn.shutdown) ∨
      (th.phase.condition th.socket.tcp = true ∧
        ((∃ e, o.result = .error e ∧ th.iterate turn = { th' with phase := .failed e }) ∨
          ((o.result = .ok .exit ∨ th.abort = true) ∧
            th.iterate turn = th'.leave turn.shutdown) ∨
          (th'.socket.tcp.active = true ∧ th.iterate turn = th'.tick turn) ∨
          th.iterate turn = th')) := by
  unfold iterate
  dsimp only
  -- the condition is looked at first, then the result of the wait, and last the tick
  by_cases hcondition : th.phase.condition th.socket.tcp = true
  swap
  · rw [if_pos hcondition]
    exact Or.inl ⟨by simpa using hcondition, rfl⟩
  rw [if_neg (not_not.mpr hcondition)]
  refine Or.inr ⟨hcondition, ?_⟩
  obtain ⟨result, rules, acts, socket⟩ :=
    EventLoop.waitNextEvent TCPSpongeSocket.rule th.rules turn.poll th.socket
  cases result with
  | error e => exact Or.inl ⟨e, rfl, rfl⟩
  | ok ret =>
    dsimp only
    refine Or.inr ?_
    by_cases hexit : ret = .exit ∨ th.abort = true
    · rw [if_pos hexit]
      exact Or.inl ⟨hexit.imp (congrArg Except.ok) id, rfl⟩
    rw [if_neg hexit]
    by_cases hactive : socket.tcp.active = true
    · rw [if_pos hactive]
      exact Or.inr (Or.inl ⟨hactive, rfl⟩)
    · rw [if_neg hactive]
      exact Or.inr (Or.inr rfl)

/-- What holds of a socket at any time. -/
structure Safe (th : SocketThread α π) : Prop where
  sound : th.socket.Sound
  rules : th.rules.Sublist TCPSpongeSocket.rules
  failed : ∀ e, th.phase = .failed e →
    e = EventLoop.pollError ∨ CallFailure e ∨ AdapterThrows α e

section

variable {th : SocketThread α π}

/-- The end of a loop: the thread starts, or ends with the result of `shutdown`. -/
theorem Safe.leave (h : th.Safe) (shutdown : Except String Unit) : (th.leave shutdown).Safe := by
  unfold SocketThread.leave
  split
  · exact ⟨h.sound, h.rules, fun e he => by cases he⟩
  · exact ⟨h.sound, h.rules, fun e he => by cases he⟩
  · -- leaving the main loop shuts the thread's data down, which the kernel may refuse
    cases shutdown with
    | error what =>
      refine ⟨h.sound, h.rules, fun e he => Or.inr (Or.inl ?_)⟩
      cases he
      exact .refused "shutdown" what (by simp)
    | ok u =>
      exact ⟨⟨h.sound.conn, h.sound.packable, h.sound.ended, h.sound.shut, h.sound.told⟩, h.rules,
        fun e he => by cases he⟩
  · exact h
  · exact h

/-- Only the adapter can throw in a tick. -/
theorem Safe.tick (h : th.Safe) (turn : SocketTurn π) : (th.tick turn).Safe := by
  obtain ⟨W, H, hsender⟩ := h.sound.conn.sender
  have hended := (TCPConnection.tick_works hsender turn.elapsed).ended
  unfold SocketThread.tick
  dsimp only
  have hsound : TCPSpongeSocket.Sound { th.socket with
      tcp := th.socket.tcp.tick turn.elapsed
      datagramAdapter :=
        (FdAdapter.tick th.socket.datagramAdapter turn.elapsed turn.device).adapter
      sent := th.socket.sent ++
        (FdAdapter.tick th.socket.datagramAdapter turn.elapsed turn.device).sent } :=
    ⟨h.sound.conn.apply (.tick turn.elapsed), h.sound.packable.tick turn.elapsed,
      fun hafter => h.sound.ended (hended.symm.trans hafter), h.sound.shut,
      fun htold => TCPConnection.apply_over h.sound.conn (h.sound.told htold) (.tick turn.elapsed)⟩
  -- the adapter sends while ticking, so it may throw
  split
  · rename_i e hthrown
    refine ⟨hsound, h.rules, fun e' he => Or.inr (Or.inr ?_)⟩
    cases he
    exact .tick _ _ _ hthrown
  · exact ⟨hsound, h.rules, h.failed⟩

/-- **A turn is safe**, whatever the kernel answers. -/
theorem Safe.iterate (F : Faithful α) (h : th.Safe) (turn : SocketTurn π) :
    (th.iterate turn).Safe := by
  have hnodup : th.rules.Nodup := h.rules.nodup (by decide)
  obtain ⟨hsound, hthrown⟩ := (TCPSpongeSocket.contract F).waitNextEvent_keeps hnodup h.sound
    (turn.poll.honest_trivial th.rules th.socket)
  have hrules := (EventLoop.waitNextEvent_disciplined TCPSpongeSocket.rule hnodup turn.poll
    th.socket).left
  have hafter (phase : SocketPhase) (hfailed : ∀ e, phase = .failed e →
      e = EventLoop.pollError ∨ CallFailure e ∨ AdapterThrows α e) :
      Safe { th with
        socket :=
          (EventLoop.waitNextEvent TCPSpongeSocket.rule th.rules turn.poll th.socket).state
        rules := (EventLoop.waitNextEvent TCPSpongeSocket.rule th.rules turn.poll th.socket).rules
        phase := phase } :=
    ⟨hsound, hrules.trans h.rules, hfailed⟩
  -- the five ends of a round: over, thrown, left, ticked, or nothing more to do
  obtain ⟨-, heq⟩ | ⟨-, ⟨e, hresult, heq⟩ | ⟨-, heq⟩ | ⟨-, heq⟩ | heq⟩ := iterate_cases turn th <;>
    rw [heq]
  · exact h.leave _
  · refine hafter _ fun e' he => ?_
    cases he
    exact hthrown e hresult
  · exact (hafter _ h.failed).leave _
  · exact (hafter _ h.failed).tick _
  · exact hafter _ h.failed

/-- The owner cannot harm the thread. -/
theorem Safe.act (h : th.Safe) (op : OwnerOp) : (th.act op).Safe := by
  have hsound (l : LocalStream) : TCPSpongeSocket.Sound { th.socket with outbound := l } :=
    ⟨h.sound.conn, h.sound.packable, h.sound.ended, h.sound.shut, h.sound.told⟩
  cases op with
  | write data =>
    unfold SocketThread.act
    dsimp only
    split
    · exact h
    · exact ⟨hsound _, h.rules, h.failed⟩
  | shutdown => exact ⟨hsound _, h.rules, h.failed⟩
  | abort => exact ⟨h.sound, h.rules, h.failed⟩

/-- **Run lemma.** -/
theorem Safe.run (F : Faithful α) (h : th.Safe) (events : List (SocketEvent π)) :
    (th.run events).Safe := by
  induction events generalizing th with
  | nil => exact h
  | cons event events ih =>
    cases event with
    | act op => exact ih (h.act op)
    | turn turn => exact ih (h.iterate F turn)

end

/-- A new socket: one that connects, or one that waits for a client. -/
def Fresh (th : SocketThread α π) : Prop :=
  ∃ cfg randSender randReceiver adapter sent,
    th = connect cfg randSender randReceiver adapter sent ∨
      th = listenAndAccept cfg randSender randReceiver adapter sent

omit [FdAdapter α π] in
/-- A connection that has been told to connect has sent its SYN. -/
theorem connect_phase (cfg : TCPConfig) (randSender randReceiver : WrappingInt32) (adapter : α)
    (sent : List π) : (connect cfg randSender randReceiver adapter sent).phase = .connecting := by
  have hstate : (TCPConnection.new cfg randSender randReceiver).connect.state
      = TCPState.ofState .synSent := rfl
  unfold connect
  dsimp only
  rw [if_neg (not_not.mpr hstate)]

/-- A socket that has just been connected, or has begun to listen, is safe. -/
theorem Fresh.safe {th : SocketThread α π} (h : th.Fresh) : th.Safe := by
  obtain ⟨cfg, randSender, randReceiver, adapter, sent, hth⟩ := h
  have hnew := TCPConnection.new_inv cfg randSender randReceiver
  have hpackable : (TCPConnection.new cfg randSender randReceiver).Packable :=
    ⟨⟨by simp [TCPConnection.new, TCPSender.new], by simp [TCPConnection.new, TCPSender.new]⟩,
      by simp [TCPConnection.new]⟩
  -- `connect` has sent its SYN at once; a listening socket has done nothing yet
  rcases hth with rfl | rfl
  · refine ⟨⟨hnew.apply .connect, hpackable.sendSegment, fun hended => ?_, rfl, fun htold => ?_⟩,
      List.Sublist.refl _, fun e he => ?_⟩
    · exact absurd (((TCPSender.fillWindow_readOn _).ended).symm.trans hended)
        Bool.false_ne_true
    · cases htold
    · rw [connect_phase] at he
      cases he
  · exact ⟨⟨hnew, hpackable, fun hended => absurd hended Bool.false_ne_true, rfl,
      fun htold => absurd htold Bool.false_ne_true⟩, List.Sublist.refl _, fun e he => by cases he⟩

/-- **The thread of a socket fails only by the kernel.**  Whatever the owner does and whatever the
    kernel answers, an exception is that of a failed system call, or reports an error on a
    descriptor.  No callback is called in vain again and again, so that the event loop would detect
    a busy wait, and the connection takes all the bytes that are read for it. -/
theorem failed_by_kernel (F : Faithful α) (R : Robust α) {start : SocketThread α π}
    (hstart : start.Fresh) (events : List (SocketEvent π)) {e : Exception}
    (hfailed : (start.run events).phase = .failed e) :
    (e = EventLoop.pollError ∨ CallFailure e) ∧ e ≠ EventLoop.busyWait ∧
      e ≠ TCPSpongeSocket.shortWrite := by
  have hcause : e = EventLoop.pollError ∨ CallFailure e := by
    obtain hpoll | hcall | hadapter := (hstart.safe.run F events).failed e hfailed
    · exact Or.inl hpoll
    · exact Or.inr hcall
    · refine Or.inr ?_
      -- what an adapter throws comes from the kernel, too
      cases hadapter with
      | read a received kernel h => exact R.read a received kernel e h
      | write a seg kernel hseg h => exact R.write a seg kernel e hseg h
      | tick a ms kernel h => exact R.tick a ms kernel e h
  refine ⟨hcause, ?_, ?_⟩
  · -- neither message is one of a system call
    rintro rfl
    rcases hcause with hpoll | hcall
    · exact absurd hpoll (by decide)
    · exact absurd hcall.head (by decide)
  · rintro rfl
    rcases hcause with hpoll | hcall
    · exact absurd hpoll (by decide)
    · exact absurd hcall.head (by decide)

/-- A client whose peer refuses its datagrams. -/
theorem failed_by_kernel_refused :
    let start : SocketThread TCPOverUDPSocketAdapter UDPDatagram := connect {} ⟨0⟩ ⟨0⟩ {} []
    let refused : SocketAnswer UDPDatagram := { packet := .error "Connection refused" }
    let e := Exception.runtimeError "recvfrom: Connection refused"
    (start.run [.turn { poll := .events [({ pollIn := true }, refused)] }]).phase = .failed e ∧
      (e = EventLoop.pollError ∨ CallFailure e) ∧ e ≠ EventLoop.busyWait ∧
      e ≠ TCPSpongeSocket.shortWrite :=
  ⟨rfl, failed_by_kernel TCPOverUDPSocketAdapter.faithful TCPOverUDPSocketAdapter.robust
    ⟨{}, ⟨0⟩, ⟨0⟩, {}, [], Or.inl rfl⟩
    [.turn { poll := .events [({ pollIn := true }, { packet := .error "Connection refused" })] }]
    rfl⟩

/-- A client that closes cleanly.  The peer answers the SYN with a byte and the end of its stream;
    the owner writes a byte and shuts the outbound stream down, and the FIN is acknowledged. -/
def closing : List (SocketEvent UDPDatagram) :=
  [.turn { poll := .events [({}, {}), ({}, {}), ({}, {}), ({ pollOut := true }, {})] },
    .turn { poll := .events [({ pollIn := true }, { packet := .ok ⟨{}, {},
      [0, 0, 0, 0, 0, 0, 0, 0, 0, 0, 0, 1, 0x50, 0x13, 0, 100, 0x4e, 0x87, 0, 0, 97]⟩ })] },
    .turn { poll := .timeout },
    .act (.write [98]),
    .act .shutdown,
    .turn { poll := .events [({}, {}), ({ pollIn := true }, { read := .ok 1 }),
      ({ pollOut := true }, { write := .ok 1 }), ({ pollOut := true }, {})] },
    .turn { poll := .events [({}, {}), ({ pollIn := true }, {})] },
    .turn { poll := .events [({}, {}), ({}, {}), ({ pollOut := true }, {})] },
    .turn { poll := .events [({ pollIn := true }, { packet := .ok ⟨{}, {},
      [0, 0, 0, 0, 0, 0, 0, 3, 0, 0, 0, 3, 0x50, 0x10, 0, 100, 0xaf, 0x85, 0, 0]⟩ })] }]

end SocketThread

end Sponge
