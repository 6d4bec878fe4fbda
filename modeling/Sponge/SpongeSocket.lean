import Sponge.EventLoop
import Sponge.ConnectionSegments

namespace Sponge

/-!
# The socket

`TCPSpongeSocket` runs a connection in a thread of its own.  The owner of the socket reads and
writes one end of a pair of stream sockets; the thread has the other end, and an adapter for the
segments.  Its event loop has four rules: segments that arrive go to the connection, bytes of the
owner are written into the outbound stream, bytes of the inbound stream are handed to the owner, and
segments of the connection are sent.

The pair of stream sockets belongs to the kernel and is modelled as such: two streams of bytes, each
of which ends when its writer has shut it down.  How many bytes a system call moves, and whether it
fails, is up to the kernel.
-/

/-- One direction of a pair of stream sockets: the bytes written so far, how many of them have been
    read, and whether the writer has shut it down. -/
structure LocalStream where
  written : List UInt8 := []
  taken : Nat := 0
  shut : Bool := false
  deriving DecidableEq, Repr

namespace LocalStream

/-- The bytes that have not been read. -/
def waiting (l : LocalStream) : List UInt8 := l.written.drop l.taken

/-- What the kernel answers to a read of at most `limit` bytes.  A stream with nothing to read is at
    its end, or the call would have to wait. -/
def answer (l : LocalStream) (limit : Nat) : Except String Nat → Except String (List UInt8)
  | .error what => .error what
  | .ok n =>
    if limit = 0 then .ok []
    else if l.waiting = [] then
      if l.shut then .ok [] else .error "Resource temporarily unavailable"
    else .ok (l.waiting.take (min limit (max 1 n)))

/-- What is read are the first of the bytes that wait, and nothing only at the end. -/
theorem answer_ok {l : LocalStream} {limit : Nat} {choice : Except String Nat} {data : List UInt8}
    (h : l.answer limit choice = .ok data) :
    data = l.waiting.take data.length ∧
      (0 < limit → data = [] → l.waiting = [] ∧ l.shut = true) := by
  cases choice with
  | error what => cases h
  | ok n =>
    unfold answer at h
    -- nothing was asked for, or the owner has shut down, or some bytes are there
    split_ifs at h with hlimit hwaiting hshut
    · cases h
      exact ⟨rfl, fun hpos => absurd hpos (by omega)⟩
    · cases h
      exact ⟨rfl, fun _ _ => ⟨hwaiting, hshut⟩⟩
    · cases h
      refine ⟨by simp, fun hpos hnil => absurd hnil ?_⟩
      rw [List.take_eq_nil_iff, not_or]
      exact ⟨by omega, hwaiting⟩

/-- Bytes have been read. -/
def take (l : LocalStream) (n : Nat) : LocalStream := { l with taken := l.taken + n }

/-- Bytes have been written. -/
def append (l : LocalStream) (bytes : List UInt8) : LocalStream :=
  { l with written := l.written ++ bytes }

end LocalStream

/-- The state that the thread of a socket works on.  `outbound` and `inbound` are the streams from
    and to the owner, and `sent` are the packets that have gone to the device. -/
structure TCPSpongeSocket (α π : Type) where
  tcp : TCPConnection
  datagramAdapter : α
  threadData : FileDescriptor := {}
  inboundShutdown : Bool := false
  outboundShutdown : Bool := false
  fullyAcked : Bool := false
  outbound : LocalStream := {}
  inbound : LocalStream := {}
  sent : List π := []

/-- What the kernel answers to the system calls of a callback: the packet that is read, the answers
    to the writes to the device for each segment, the number of bytes moved from and to the owner,
    and the result of `shutdown`. -/
structure SocketAnswer (π : Type) where
  packet : Except String π := .error "Resource temporarily unavailable"
  device : Nat → Nat → PacketAnswer := fun _ _ => .ok
  read : Except String Nat := .ok 0
  write : Except String Nat := .ok 0
  shutdown : Except String Unit := .ok ()

/-- The four rules. -/
inductive SocketRule where
  | segmentIn
  | bytesOut
  | bytesIn
  | segmentOut
  deriving DecidableEq, Repr

def TCPConnection.remainingOutboundCapacity (c : TCPConnection) : Nat :=
  c.sender.streamIn.remainingCapacity

def TCPConnection.bytesInFlight (c : TCPConnection) : Nat := c.sender.bytesInFlight

namespace TCPSpongeSocket

variable {α π : Type} [FdAdapter α π]

/-! ### The callbacks -/

/-- Rule 1: read from the filtered packet stream and dump into the connection. -/
def receiveSegment (answer : SocketAnswer π) (s : TCPSpongeSocket α π) :
    Except Exception Unit × TCPSpongeSocket α π :=
  let ret := FdAdapter.read s.datagramAdapter answer.packet (answer.device 0)
  let s := { s with datagramAdapter := ret.adapter, sent := s.sent ++ ret.sent }
  match ret.result with
  | .error e => (.error e, s)
  | .ok seg =>
    let s :=
      match seg with
      | some seg => { s with tcp := s.tcp.segmentReceived seg }
      | none => s
    if s.threadData.eof ∧ s.tcp.bytesInFlight = 0 ∧ ¬ s.fullyAcked then
      (.ok (), { s with fullyAcked := true })
    else (.ok (), s)

/-- The exception for bytes that the connection does not take. -/
def shortWrite : Exception :=
  .runtimeError "TCPConnection::write() accepted less than advertised length"

/-- The outbound stream ends. -/
def endOutbound (s : TCPSpongeSocket α π) : TCPSpongeSocket α π :=
  { s with tcp := s.tcp.endInputStream, outboundShutdown := true }

/-- Rule 2: read from the pipe into the outbound buffer. -/
def readOutbound (answer : SocketAnswer π) (s : TCPSpongeSocket α π) :
    Except Exception Unit × TCPSpongeSocket α π :=
  let limit := s.tcp.remainingOutboundCapacity
  match s.threadData.read limit (s.outbound.answer (min (1024 * 1024) limit) answer.read) with
  | (.error e, fd) => (.error e, { s with threadData := fd })
  | (.ok data, fd) =>
    let s := { s with threadData := fd, outbound := s.outbound.take data.length }
    let (amountWritten, tcp) := s.tcp.write data
    let s := { s with tcp := tcp }
    if amountWritten ≠ data.length then (.error shortWrite, s)
    else if s.threadData.eof then (.ok (), s.endOutbound)
    else (.ok (), s)

/-- What the kernel answers to a write to the owner, which fails after `shutdown`. -/
def writeAnswer (answer : SocketAnswer π) (s : TCPSpongeSocket α π) : Except String Nat :=
  if s.inbound.shut then .error "Broken pipe" else answer.write

/-- Rule 3: read from the inbound buffer into the pipe.  Only what was actually written is
    popped. -/
def writeInbound (answer : SocketAnswer π) (s : TCPSpongeSocket α π) :
    Except Exception Unit × TCPSpongeSocket α π :=
  let amountToWrite := min 65536 s.tcp.inboundStream.bufferSize
  let buffer := s.tcp.inboundStream.peekOutput amountToWrite
  let w := s.threadData.write ⟨[buffer]⟩ false fun _ => s.writeAnswer answer
  let s := { s with threadData := w.fd, inbound := s.inbound.append w.taken }
  match w.result with
  | .error e => (.error e, s)
  | .ok bytesWritten =>
    let s := { s with tcp := s.tcp.popOutput bytesWritten }
    if s.tcp.inboundStream.eof || s.tcp.inboundStream.error then
      match systemCall "shutdown" answer.shutdown with
      | .error e => (.error e, s)
      | .ok _ =>
        (.ok (),
          { s with
            threadData := s.threadData.registerWrite
            inbound := { s.inbound with shut := true }
            inboundShutdown := true })
    else (.ok (), s)

/-- The loop of rule 4 over the queue, of which `k` segments have been written.  A segment leaves
    the queue after it has been written; its ports have been set. -/
def flush (device : Nat → Nat → PacketAnswer) : Nat → List TCPSegment → α →
    Except Exception Unit × List TCPSegment × α × List π
  | _, [], a => (.ok (), [], a, [])
  | k, seg :: queue, a =>
    let (seg, ret) := FdAdapter.write a seg (device k)
    match ret.result with
    | .error e => (.error e, seg :: queue, ret.adapter, ret.sent)
    | .ok _ =>
      let (result, left, a, later) := flush device (k + 1) queue ret.adapter
      (result, left, a, ret.sent ++ later)

/-- Rule 4: read outbound segments from the connection and send as datagrams. -/
def sendSegments (answer : SocketAnswer π) (s : TCPSpongeSocket α π) :
    Except Exception Unit × TCPSpongeSocket α π :=
  let (result, left, a, sent) := flush answer.device 0 s.tcp.segmentsOut s.datagramAdapter
  (result,
    { s with
      tcp := { s.tcp with segmentsOut := left }
      datagramAdapter := a
      sent := s.sent ++ sent })

/-- The rules of `_initialize_TCP`. -/
def rule : SocketRule → Rule (TCPSpongeSocket α π) (SocketAnswer π)
  | .segmentIn =>
    { fd := fun s => FdAdapter.fd s.datagramAdapter
      direction := .input
      callback := receiveSegment
      interest := fun s => s.tcp.active }
  | .bytesOut =>
    { fd := threadData
      direction := .input
      callback := readOutbound
      interest := fun s =>
        s.tcp.active && !s.outboundShutdown && decide (s.tcp.remainingOutboundCapacity > 0)
      cancel := endOutbound }
  | .bytesIn =>
    { fd := threadData
      direction := .output
      callback := writeInbound
      interest := fun s => !s.tcp.inboundStream.bufferEmpty ||
        ((s.tcp.inboundStream.eof || s.tcp.inboundStream.error) && !s.inboundShutdown) }
  | .segmentOut =>
    { fd := fun s => FdAdapter.fd s.datagramAdapter
      direction := .output
      callback := sendSegments
      interest := fun s => !s.tcp.segmentsOut.isEmpty }

/-- The rules in their order. -/
def rules : List SocketRule := [.segmentIn, .bytesOut, .bytesIn, .segmentOut]

end TCPSpongeSocket

/-! ### The thread -/

/-- Where a socket is: in the loop of `connect` or of `listen_and_accept`, in that of the thread, or
    past it. -/
inductive SocketPhase where
  | connecting
  | accepting
  | running
  | finished
  | failed (e : Exception)
  deriving DecidableEq, Repr

/-- The condition of the loop. -/
def SocketPhase.condition (tcp : TCPConnection) : SocketPhase → Bool
  | .connecting => tcp.state = .ofState .synSent
  | .accepting =>
    tcp.state = .ofState .listen || tcp.state = .ofState .synRcvd || tcp.state = .ofState .synSent
  | .running => true
  | .finished => false
  | .failed _ => false

/-- A socket with the rules that are left in its event loop. -/
structure SocketThread (α π : Type) where
  socket : TCPSpongeSocket α π
  rules : List SocketRule := TCPSpongeSocket.rules
  phase : SocketPhase
  abort : Bool := false

/-- What the kernel has to say in one turn of the loop: the answer of `poll`, the time since the
    last tick, the answers to the writes in it, and the result of `shutdown` after the last one. -/
structure SocketTurn (π : Type) where
  poll : EventLoop.PollAnswer (SocketAnswer π)
  elapsed : Nat := 0
  device : Nat → PacketAnswer := fun _ => .ok
  shutdown : Except String Unit := .ok ()

/-- What the owner can do: write, shut the outbound stream down, or drop the socket. -/
inductive OwnerOp where
  | write (data : List UInt8)
  | shutdown
  | abort
  deriving DecidableEq, Repr

namespace SocketThread

variable {α π : Type} [FdAdapter α π]

/-- Connect as a client. -/
def connect (tcp : TCPConfig) (randSender randReceiver : WrappingInt32) (adapter : α)
    (sent : List π) : SocketThread α π :=
  let tcp := (TCPConnection.new tcp randSender randReceiver).connect
  let expected := TCPState.ofState .synSent
  { socket := { tcp := tcp, datagramAdapter := adapter, sent := sent }
    phase :=
      if tcp.state ≠ expected then
        .failed (.runtimeError ("After TCPConnection::connect(), state was " ++ tcp.state.name ++
          " but expected " ++ expected.name))
      else .connecting }

/-- Wait for a client. -/
def listenAndAccept (tcp : TCPConfig) (randSender randReceiver : WrappingInt32) (adapter : α)
    (sent : List π) : SocketThread α π :=
  { socket :=
      { tcp := .new tcp randSender randReceiver, datagramAdapter := adapter, sent := sent }
    phase := .accepting }

/-- The outbound stream is shut down from the owner's end. -/
def shutOutbound (th : SocketThread α π) : SocketThread α π :=
  { th with socket := { th.socket with outbound := { th.socket.outbound with shut := true } } }

/-- What comes after a loop: the thread is started, or is over. -/
def leave (th : SocketThread α π) (shutdown : Except String Unit) : SocketThread α π :=
  match th.phase with
  | .connecting => { th with phase := .running }
  | .accepting => { th with phase := .running }
  | .running =>
    match systemCall "shutdown" shutdown with
    | .error e => { th with phase := .failed e }
    | .ok _ => { th.shutOutbound with phase := .finished }
  | .finished => th
  | .failed _ => th

/-- Time passes for the connection and for the adapter. -/
def tick (turn : SocketTurn π) (th : SocketThread α π) : SocketThread α π :=
  let ret := FdAdapter.tick th.socket.datagramAdapter turn.elapsed turn.device
  let th :=
    { th with
      socket :=
        { th.socket with
          tcp := th.socket.tcp.tick turn.elapsed
          datagramAdapter := ret.adapter
          sent := th.socket.sent ++ ret.sent } }
  match ret.result with
  | .error e => { th with phase := .failed e }
  | .ok _ => th

/-- One turn of `_tcp_loop`. -/
def iterate (turn : SocketTurn π) (th : SocketThread α π) : SocketThread α π :=
  if ¬ th.phase.condition th.socket.tcp then th.leave turn.shutdown
  else
    let o := EventLoop.waitNextEvent TCPSpongeSocket.rule th.rules turn.poll th.socket
    let th := { th with socket := o.state, rules := o.rules }
    match o.result with
    | .error e => { th with phase := .failed e }
    | .ok ret =>
      if ret = .exit ∨ th.abort then th.leave turn.shutdown
      else if th.socket.tcp.active then th.tick turn
      else th

/-- What the owner does.  Nothing can be written after `shutdown`. -/
def act (th : SocketThread α π) : OwnerOp → SocketThread α π
  | .write data =>
    if th.socket.outbound.shut then th
    else { th with socket := { th.socket with outbound := th.socket.outbound.append data } }
  | .shutdown => th.shutOutbound
  | .abort => { th with abort := true }

end SocketThread

namespace TCPSpongeSocket

/-! ### What the callbacks do -/

section

variable {α π : Type}

/-- The state after `data` has been read from the owner and written to the connection. -/
def sending (s : TCPSpongeSocket α π) (fd : FileDescriptor) (data : List UInt8) :
    TCPSpongeSocket α π :=
  { s with
    threadData := fd
    outbound := s.outbound.take data.length
    tcp := (s.tcp.write data).2 }

/-- Rule 2 throws what the read throws, or writes what it has read. -/
theorem readOutbound_cases (answer : SocketAnswer π) (s : TCPSpongeSocket α π) :
    (∃ e, CallFailure e ∧ readOutbound answer s = (.error e, s)) ∨
      ∃ data fd, data = s.outbound.waiting.take data.length ∧
        data.length ≤ s.tcp.remainingOutboundCapacity ∧
        (fd.eof = true → s.threadData.eof = false →
          s.outbound.waiting = [] ∧ s.outbound.shut = true) ∧
        fd.readCount = s.threadData.readCount + 1 ∧ fd.closed = s.threadData.closed ∧
        readOutbound answer s =
          if (s.tcp.write data).1 ≠ data.length then (.error shortWrite, s.sending fd data)
          else if fd.eof then (.ok (), (s.sending fd data).endOutbound)
          else (.ok (), s.sending fd data) := by
  unfold readOutbound
  dsimp only
  generalize hread : s.threadData.read s.tcp.remainingOutboundCapacity
    (s.outbound.answer (min (1024 * 1024) s.tcp.remainingOutboundCapacity) answer.read) = ret
  obtain ⟨result, fd⟩ := ret
  cases result with
  | error e =>
    obtain ⟨hcall, rfl⟩ := FileDescriptor.read_error hread
    exact Or.inl ⟨e, hcall, rfl⟩
  | ok data =>
    obtain ⟨hkernel, hlength, hcount, heof, hclosed⟩ := FileDescriptor.read_ok hread
    obtain ⟨htake, hend⟩ := LocalStream.answer_ok hkernel
    refine Or.inr ⟨data, fd, htake, hlength, fun hfd hbefore => ?_, hcount, hclosed, rfl⟩
    -- the descriptor is at its end by this very read
    rw [heof, hbefore, Bool.false_or, decide_eq_true_eq] at hfd
    exact hend (by omega) hfd.2

/-- The state after `n` bytes have been written to the owner. -/
def receiving (s : TCPSpongeSocket α π) (n : Nat) : TCPSpongeSocket α π :=
  { s with
    threadData := s.threadData.registerWrite
    inbound := s.inbound.append (s.tcp.inboundStream.bufferList.take n)
    tcp := s.tcp.popOutput n }

/-- The state after the inbound stream has been shut down. -/
def endInbound (s : TCPSpongeSocket α π) : TCPSpongeSocket α π :=
  { s with
    threadData := s.threadData.registerWrite
    inbound := { s.inbound with shut := true }
    inboundShutdown := true }

/-- Rule 3 throws what the write throws, or hands the next bytes to the owner; at the end of the
    stream it shuts the pipe down. -/
theorem writeInbound_cases (answer : SocketAnswer π) (s : TCPSpongeSocket α π) :
    (∃ e, CallFailure e ∧ writeInbound answer s = (.error e, s)) ∨
      ∃ n ≤ s.tcp.inboundStream.bufferSize, s.inbound.shut = false ∧
        let inbound := (s.receiving n).tcp.inboundStream
        ((inbound.eof || inbound.error) = false ∧
            writeInbound answer s = (.ok (), s.receiving n)) ∨
          ((inbound.eof || inbound.error) = true ∧
            ((∃ e, CallFailure e ∧ writeInbound answer s = (.error e, s.receiving n)) ∨
              writeInbound answer s = (.ok (), (s.receiving n).endInbound))) := by
  unfold writeInbound
  dsimp only
  have honce := s.threadData.write_once
    ⟨[s.tcp.inboundStream.peekOutput (min 65536 s.tcp.inboundStream.bufferSize)]⟩
    fun _ => s.writeAnswer answer
  generalize s.threadData.write
    ⟨[s.tcp.inboundStream.peekOutput (min 65536 s.tcp.inboundStream.bufferSize)]⟩ false
    (fun _ => s.writeAnswer answer) = w at honce
  -- one call to the kernel: it fails, or takes some of what was peeked
  obtain ⟨e, hcall, hresult, hfd, htaken⟩ | ⟨n, hn, hkernel, hresult, hfd, htaken⟩ := honce
  · rw [hresult, hfd, htaken]
    exact Or.inl ⟨e, hcall, by simp [LocalStream.append]⟩
  · -- a shut-down descriptor takes no byte
    have hopen : s.inbound.shut = false := by
      by_contra hshut
      rw [writeAnswer, if_pos (by simpa using hshut)] at hkernel
      cases hkernel
    rw [BufferViewList.size_eq_length] at hn
    simp only [BufferViewList.concatenate, List.flatten_cons, List.flatten_nil, List.append_nil,
      ByteStream.peekOutput_eq_take, List.length_take] at hn htaken
    rw [List.take_take, min_eq_left (by omega)] at htaken
    refine Or.inr ⟨n, le_trans hn (min_le_right _ _), hopen, ?_⟩
    rw [hresult, hfd, htaken]
    dsimp only
    -- `shutdown` is called once the stream is over, and may fail on its own
    by_cases hend : ((s.tcp.popOutput n).inboundStream.eof
        || (s.tcp.popOutput n).inboundStream.error) = true
    · refine Or.inr ⟨hend, ?_⟩
      rw [if_pos hend]
      cases answer.shutdown with
      | error what => exact Or.inl ⟨_, .refused "shutdown" what (by simp), rfl⟩
      | ok u => exact Or.inr rfl
    · refine Or.inl ⟨Bool.eq_false_of_not_eq_true hend, ?_⟩
      rw [if_neg hend]
      rfl


end

section

variable {α π : Type} [FdAdapter α π]

/-- Rule 1 hands a segment to the connection if the adapter has one. -/
theorem receiveSegment_cases (answer : SocketAnswer π) (s : TCPSpongeSocket α π) :
    let ret := FdAdapter.read s.datagramAdapter answer.packet (answer.device 0)
    ∃ tcp flag, receiveSegment answer s = (ret.result.map fun _ => (),
        { s with
          tcp := tcp, datagramAdapter := ret.adapter, sent := s.sent ++ ret.sent
          fullyAcked := flag }) ∧
      (tcp = s.tcp ∨
        ∃ seg, ret.result = .ok (some seg) ∧ tcp = s.tcp.segmentReceived seg) := by
  unfold receiveSegment
  obtain ⟨result, adapter, sent⟩ :=
    FdAdapter.read s.datagramAdapter answer.packet (answer.device 0)
  cases result with
  | error e => exact ⟨s.tcp, s.fullyAcked, rfl, Or.inl rfl⟩
  | ok seg =>
    cases seg with
    | none =>
      dsimp only
      -- the message that all has been acknowledged is printed once
      split
      · exact ⟨s.tcp, true, rfl, Or.inl rfl⟩
      · exact ⟨s.tcp, s.fullyAcked, rfl, Or.inl rfl⟩
    | some seg =>
      dsimp only
      split
      · exact ⟨s.tcp.segmentReceived seg, true, rfl, Or.inr ⟨seg, rfl, rfl⟩⟩
      · exact ⟨s.tcp.segmentReceived seg, s.fullyAcked, rfl, Or.inr ⟨seg, rfl, rfl⟩⟩

/-- Rule 4 empties the queue, unless it throws; a segment that could not be written is still
    there. -/
theorem flush_left (F : Faithful α) (device : Nat → Nat → PacketAnswer) (queue : List TCPSegment)
    (k : Nat) (a : α) :
    ((flush device k queue a).1 = .ok () → (flush device k queue a).2.1 = []) ∧
      ∀ seg ∈ (flush device k queue a).2.1, ∃ seg0 ∈ queue, seg.Like seg0 := by
  induction queue generalizing k a with
  | nil => exact ⟨fun _ => rfl, by simp [flush]⟩
  | cons seg queue ih =>
    have hlike := F.write_like a seg (device k)
    rw [flush]
    -- a segment that the adapter throws at stays in the queue, with its ports set
    rcases hwrite : FdAdapter.write a seg (device k) with ⟨seg', result | u, adapter, sent⟩
    · rw [hwrite] at hlike
      refine ⟨(fun hok => by cases hok), List.forall_mem_cons.mpr ⟨⟨seg, by simp, hlike⟩, ?_⟩⟩
      exact fun seg0 hseg0 => ⟨seg0, by simp [hseg0], .refl seg0⟩
    · obtain ⟨hall, hleft⟩ := ih (k + 1) adapter
      refine ⟨hall, fun seg0 hseg0 => ?_⟩
      obtain ⟨seg1, hmem, hlike⟩ := hleft seg0 hseg0
      exact ⟨seg1, by simp [hmem], hlike⟩

/-- Rule 4 throws only what the adapter throws for one of the segments. -/
theorem flush_error {device : Nat → Nat → PacketAnswer} {queue : List TCPSegment} {k : Nat}
    {a : α} {e : Exception} (h : (flush device k queue a).1 = .error e) :
    ∃ (b : α) (seg : TCPSegment) (kernel : Nat → PacketAnswer),
      seg ∈ queue ∧ (FdAdapter.write b seg kernel).2.result = .error e := by
  induction queue generalizing k a with
  | nil => cases h
  | cons seg queue ih =>
    rw [flush] at h
    rcases hwrite : FdAdapter.write a seg (device k) with ⟨seg', result | u, adapter, sent⟩
    · rw [hwrite] at h
      exact ⟨a, seg, device k, by simp, by rw [hwrite]; exact h⟩
    · rw [hwrite] at h
      obtain ⟨b, seg1, kernel, hmem, hthrown⟩ := ih h
      exact ⟨b, seg1, kernel, by simp [hmem], hthrown⟩

/-- What rule 4 writes are segments of the queue. -/
theorem flush_sends (F : Faithful α) (device : Nat → Nat → PacketAnswer) {queue : List TCPSegment}
    (hqueue : ∀ seg ∈ queue, seg.Wrappable) (k : Nat) {written : List TCPSegment}
    {packets : List π} {a : α} (h : F.Sends written packets a) :
    ∃ more, more ⊆ queue ∧ F.Sends (written ++ more)
      (packets ++ (flush device k queue a).2.2.2) (flush device k queue a).2.2.1 := by
  induction queue generalizing k written packets a with
  | nil => exact ⟨[], List.Subset.refl _, by simpa [flush] using h⟩
  | cons seg queue ih =>
    rw [List.forall_mem_cons] at hqueue
    have hkeeps := F.write_keeps h hqueue.1 (device k)
    rw [flush]
    rcases hwrite : FdAdapter.write a seg (device k) with ⟨seg', result | u, adapter, sent⟩
    · rw [hwrite] at hkeeps
      exact ⟨[seg], by simp, hkeeps⟩
    · rw [hwrite] at hkeeps
      obtain ⟨more, hmore, hsends⟩ := ih hqueue.2 (k + 1) hkeeps
      refine ⟨seg :: more, List.cons_subset_cons seg hmore, ?_⟩
      simpa using hsends

end

end TCPSpongeSocket

end Sponge
