import Sponge.SocketRun
import Sponge.EndToEnd

namespace Sponge

open TCPConnection

/-!
# Two sockets over a network

Two sockets with adapters of one kind, whose packets a network may lose, delay, reorder and
duplicate.  Every callback of a socket is some moves of the system of two endpoints
(`Sponge.Network`): an arriving segment is a delivery, what is read from the owner is a write, and
what is handed to the owner is taken out of the inbound stream.  The packets in between are a matter
of the adapter, which is only assumed to be faithful.

* `Mirrors` — the relation between a socket and an endpoint;
* `Mirrors.commit` — the lemma about one move;
* `SocketSystem.simulated` — the run lemma;
* `SocketSystem.owners_agree` — what the owners of the sockets can rely on.
-/

/-! ### The relation -/

namespace TCPSpongeSocket

variable {α π : Type}

/-- The stream from the owner has come to its end. -/
def Drained (s : TCPSpongeSocket α π) : Prop := s.outbound.waiting = [] ∧ s.outbound.shut = true

/-- What is known of a rule when it is cancelled. -/
def Gone : SocketRule → TCPSpongeSocket α π → Prop
  | .bytesOut, s => s.Drained
  | _, _ => True

/-- The endpoint has accepted what has been read from the owner, and what has been taken out of its
    inbound stream has been handed to the owner. -/
structure Streams (e : Endpoint) (s : TCPSpongeSocket α π) : Prop where
  bound : s.outbound.taken ≤ s.outbound.written.length
  accepted : e.accepted = s.outbound.written.take s.outbound.taken
  closed : e.closed = true → s.Drained
  taken : e.taken = s.inbound.written
  ended : s.threadData.eof = true → s.Drained
  opened : s.threadData.closed = false

variable [FdAdapter α π]

/-- **The socket does what the endpoint does.**  The segments that the adapter has been given, and
    those that are still in the queue, are on the wire of the endpoint. -/
structure Mirrors (F : Faithful α) (e : Endpoint) (wire : List Flight)
    (s : TCPSpongeSocket α π) : Prop where
  conn : { s.tcp with segmentsOut := [] } = e.conn
  streams : Streams e s
  sends : ∃ written, F.Sends written s.sent s.datagramAdapter ∧
    ∀ seg ∈ written ++ s.tcp.segmentsOut, ∃ f ∈ wire, seg.Like f.segment

variable {F : Faithful α} {e e' : Endpoint} {wire : List Flight} {s s' : TCPSpongeSocket α π}

/-- The connection of the socket is that of the endpoint, but for the segments that wait to be sent.
    -/
theorem Mirrors.tcp_eq (h : Mirrors F e wire s) : s.tcp = e.conn.prepend s.tcp.segmentsOut := by
  rw [← h.conn]
  simp [prepend]

/-- **One move.**  The connection of the endpoint has become `conn`, and that of the socket is the
    same with the segments in front that were in the queue before. -/
theorem Mirrors.commit (h : Mirrors F e wire s) {conn : TCPConnection}
    (htcp : s'.tcp = conn.prepend s.tcp.segmentsOut) (hstreams : Streams e' s')
    (hadapter : s'.datagramAdapter = s.datagramAdapter) (hsent : s'.sent = s.sent) :
    Mirrors F (e'.commit conn).1 (wire ++ (e'.commit conn).2) s' := by
  obtain ⟨written, hsends, hwire⟩ := h.sends
  refine ⟨by rw [htcp]; rfl, ⟨hstreams.bound, hstreams.accepted, hstreams.closed, hstreams.taken,
    hstreams.ended, hstreams.opened⟩, written, by rw [hadapter, hsent]; exact hsends, ?_⟩
  rw [htcp, prepend, ← List.append_assoc]
  refine List.forall_mem_append.mpr ⟨fun seg hseg => ?_, fun seg hseg => ?_⟩
  · obtain ⟨f, hf, hlike⟩ := hwire seg hseg
    exact ⟨f, List.mem_append_left _ hf, hlike⟩
  · exact ⟨_, List.mem_append_right _ (List.mem_map_of_mem hseg), .refl seg⟩

/-- What has been accepted was written by the owner. -/
theorem Mirrors.accepted_lt (h : Mirrors F e wire s) {n : Nat}
    (hshort : s.outbound.written.length < n) : e.accepted.length < n := by
  rw [h.streams.accepted, List.length_take]
  omega

/-- What the owner will be handed. -/
theorem Mirrors.inbound_eq (h : Mirrors F e wire s) :
    s.tcp.inboundStream = e.conn.inboundStream := by
  rw [← h.conn]
  rfl

/-- What has been sent and acknowledged. -/
theorem Mirrors.sender_eq (h : Mirrors F e wire s) : s.tcp.sender = e.conn.sender := by
  rw [← h.conn]

/-- **Between linked endpoints**, what has been handed to an owner was written by the other. -/
theorem Mirrors.received_isPrefix {peer : TCPSpongeSocket α π} {peerWire : List Flight}
    (h : Mirrors F e wire s) (hpeer : Mirrors F e' peerWire peer)
    (hlinked : Endpoint.Linked e wire e' peerWire) :
    peer.inbound.written <+: s.outbound.written := by
  have hreceived := hlinked.outgoing.received_eq_take.1
  rw [hpeer.streams.taken, h.streams.accepted] at hreceived
  calc peer.inbound.written
      <+: peer.inbound.written ++ e'.conn.receiver.streamOut.bufferList := List.prefix_append _ _
    _ <+: s.outbound.written.take s.outbound.taken := hreceived ▸ List.take_prefix _ _
    _ <+: s.outbound.written := List.take_prefix _ _

/-- Once the stream has ended, everything has arrived. -/
theorem Mirrors.received_all {peer : TCPSpongeSocket α π} {peerWire : List Flight}
    (h : Mirrors F e wire s) (hpeer : Mirrors F e' peerWire peer)
    (hlinked : Endpoint.Linked e wire e' peerWire)
    (hended : peer.tcp.inboundStream.inputEnded = true) :
    s.outbound.shut = true ∧
      peer.inbound.written ++ peer.tcp.inboundStream.bufferList = s.outbound.written := by
  rw [hpeer.inbound_eq] at hended ⊢
  obtain ⟨hall, -, hclosed⟩ := hlinked.outgoing.received_all hended
  obtain ⟨hnone, hshut⟩ := h.streams.closed (hlinked.self.closed hclosed)
  rw [hpeer.streams.taken, h.streams.accepted,
    List.take_of_length_le (List.drop_eq_nil_iff.mp hnone)] at hall
  exact ⟨hshut, hall⟩

/-- The adapter has been at work, and nothing else that matters has changed. -/
theorem Mirrors.adapt (h : Mirrors F e wire s) {a : α} {sent : List π} (flag : Bool)
    (hsends : ∀ written, F.Sends written s.sent s.datagramAdapter → F.Sends written sent a) :
    Mirrors F e wire { s with datagramAdapter := a, sent := sent, fullyAcked := flag } := by
  obtain ⟨written, hbefore, hwire⟩ := h.sends
  exact ⟨h.conn, ⟨h.streams.bound, h.streams.accepted, h.streams.closed, h.streams.taken,
    h.streams.ended, h.streams.opened⟩, written, hsends written hbefore, hwire⟩

/-! ### Callbacks are moves -/

/-- A segment that is like one on the wire of the peer arrives. -/
theorem Mirrors.receive (h : Mirrors F e wire s) {seg : TCPSegment} {f : Flight}
    (hlike : seg.Like f.segment) :
    Mirrors F (e.receive f.segment).1 (wire ++ (e.receive f.segment).2)
      { s with tcp := s.tcp.segmentReceived seg } := by
  have htcp : s.tcp.segmentReceived seg
      = (e.conn.segmentReceived f.segment).prepend s.tcp.segmentsOut := by
    rw [segmentReceived_like _ hlike, ← prepend_segmentReceived, ← h.tcp_eq]
  exact h.commit htcp ⟨h.streams.bound, h.streams.accepted, h.streams.closed, h.streams.taken,
    h.streams.ended, h.streams.opened⟩ rfl rfl

/-- Time passes on both levels. -/
theorem Mirrors.tick (h : Mirrors F e wire s) (ms : Nat) :
    Mirrors F (e.act (.tick ms)).1 (wire ++ (e.act (.tick ms)).2)
      { s with tcp := s.tcp.tick ms } := by
  have htcp : s.tcp.tick ms = (e.conn.tick ms).prepend s.tcp.segmentsOut := by
    rw [← prepend_tick, ← h.tcp_eq]
  exact h.commit htcp ⟨h.streams.bound, h.streams.accepted, h.streams.closed, h.streams.taken,
    h.streams.ended, h.streams.opened⟩ rfl rfl

/-- Both connect. -/
theorem Mirrors.connect (h : Mirrors F e wire s) :
    Mirrors F (e.act .connect).1 (wire ++ (e.act .connect).2)
      { s with tcp := s.tcp.connect } := by
  have htcp : s.tcp.connect = e.conn.connect.prepend s.tcp.segmentsOut := by
    rw [← prepend_connect, ← h.tcp_eq]
  exact h.commit htcp ⟨h.streams.bound, h.streams.accepted, h.streams.closed, h.streams.taken,
    h.streams.ended, h.streams.opened⟩ rfl rfl

omit [FdAdapter α π] in
/-- A stream that has come to its end stays there. -/
theorem Drained.take (h : s.Drained) (n : Nat) :
    (s.outbound.take n).waiting = [] ∧ (s.outbound.take n).shut = true := by
  refine ⟨?_, h.2⟩
  have hnone : s.outbound.written.drop s.outbound.taken = [] := h.1
  rw [LocalStream.waiting, LocalStream.take, ← List.drop_drop, hnone, List.drop_nil]

/-- Bytes are read from the owner. -/
theorem Mirrors.sending (h : Mirrors F e wire s) {fd : FileDescriptor} {data : List UInt8}
    (hdata : data = s.outbound.waiting.take data.length)
    (hall : (s.tcp.write data).1 = data.length)
    (heof : fd.eof = true → s.threadData.eof = false → s.Drained)
    (hclosed : fd.closed = s.threadData.closed) :
    Mirrors F (e.act (.write data)).1 (wire ++ (e.act (.write data)).2) (s.sending fd data) := by
  -- the segments that wait in the socket's queue do not matter to the write
  have htcp : (s.tcp.write data).2 = (e.conn.write data).2.prepend s.tcp.segmentsOut := by
    have hwrite := prepend_write s.tcp.segmentsOut e.conn data
    rw [← h.tcp_eq] at hwrite
    rw [hwrite]
  have hamount : (e.conn.write data).1 = data.length := by
    rw [← hall, ← h.conn]
    rfl
  have hlength := congrArg List.length hdata
  rw [List.length_take, LocalStream.waiting, List.length_drop] at hlength
  have hbound := h.streams.bound
  refine h.commit htcp ⟨?_, ?_, fun hend => (h.streams.closed hend).take _, h.streams.taken,
    fun hend => ?_, hclosed.trans h.streams.opened⟩ rfl rfl
  · show s.outbound.taken + data.length ≤ s.outbound.written.length
    omega
  · show e.accepted ++ data.take (e.conn.write data).1
      = s.outbound.written.take (s.outbound.taken + data.length)
    rw [hamount, List.take_length, h.streams.accepted, List.take_add]
    exact congrArg _ hdata
  · -- the end of the owner's data has been seen now, or before
    cases hbefore : s.threadData.eof with
    | true => exact (h.streams.ended hbefore).take _
    | false => exact (heof hend hbefore).take _

/-- The owner has nothing more to send. -/
theorem Mirrors.endOutbound (h : Mirrors F e wire s) (hdrained : s.Drained) :
    Mirrors F (e.act .endInputStream).1 (wire ++ (e.act .endInputStream).2) s.endOutbound := by
  have htcp : s.tcp.endInputStream = e.conn.endInputStream.prepend s.tcp.segmentsOut := by
    rw [← prepend_endInputStream, ← h.tcp_eq]
  exact h.commit htcp ⟨h.streams.bound, h.streams.accepted, fun _ => hdrained, h.streams.taken,
    h.streams.ended, h.streams.opened⟩ rfl rfl

/-- Bytes are handed to the owner. -/
theorem Mirrors.receiving (h : Mirrors F e wire s) (n : Nat) :
    Mirrors F (e.act (.pop n)).1 (wire ++ (e.act (.pop n)).2) (s.receiving n) := by
  have htcp : s.tcp.popOutput n = (e.conn.popOutput n).prepend s.tcp.segmentsOut :=
    congrArg (popOutput · n) h.tcp_eq
  refine h.commit htcp ⟨h.streams.bound, h.streams.accepted, h.streams.closed, ?_,
    h.streams.ended, h.streams.opened⟩ rfl rfl
  show e.taken ++ e.conn.inboundStream.peekOutput n
    = s.inbound.written ++ s.tcp.inboundStream.bufferList.take n
  rw [h.streams.taken, ByteStream.peekOutput_eq_take, ← h.conn]
  rfl

/-- The endpoint does not see that the owner is told of the end. -/
theorem Mirrors.endInbound (h : Mirrors F e wire s) : Mirrors F e wire s.endInbound :=
  ⟨h.conn, ⟨h.streams.bound, h.streams.accepted, h.streams.closed, h.streams.taken,
    h.streams.ended, h.streams.opened⟩, h.sends⟩

/-- Segments are handed to the adapter, which changes no more than their ports. -/
theorem Mirrors.sendSegments (h : Mirrors F e wire s) (hpackable : s.tcp.Packable)
    (answer : SocketAnswer π) : Mirrors F e wire (sendSegments answer s).2 := by
  obtain ⟨written, hsends, hwire⟩ := h.sends
  obtain ⟨more, hmore, hafter⟩ := flush_sends F answer.device hpackable.queued 0 hsends
  obtain ⟨-, hleft⟩ := flush_left F answer.device s.tcp.segmentsOut 0 s.datagramAdapter
  refine ⟨h.conn, ⟨h.streams.bound, h.streams.accepted, h.streams.closed, h.streams.taken,
    h.streams.ended, h.streams.opened⟩, written ++ more, hafter, ?_⟩
  rw [List.forall_mem_append] at hwire
  refine List.forall_mem_append.mpr ⟨List.forall_mem_append.mpr ⟨hwire.1, fun seg hseg =>
    hwire.2 seg (hmore hseg)⟩, fun seg hseg => ?_⟩
  obtain ⟨seg0, hmem, hlike⟩ := hleft seg hseg
  obtain ⟨f, hf, hlike0⟩ := hwire.2 seg0 hmem
  exact ⟨f, hf, hlike.trans hlike0⟩

/-- The owner writes, which is no move: the connection does not know of it yet. -/
theorem Mirrors.ownerWrite (h : Mirrors F e wire s) (hopen : s.outbound.shut = false)
    (data : List UInt8) : Mirrors F e wire { s with outbound := s.outbound.append data } := by
  have hnot (P : Prop) (hdrained : s.Drained) : P := by
    rw [hdrained.2] at hopen
    cases hopen
  refine ⟨h.conn, ⟨?_, ?_, fun hclosed => hnot _ (h.streams.closed hclosed), h.streams.taken,
    fun hended => hnot _ (h.streams.ended hended), h.streams.opened⟩, h.sends⟩
  · show s.outbound.taken ≤ (s.outbound.written ++ data).length
    rw [List.length_append]
    exact le_add_right h.streams.bound
  · show e.accepted = (s.outbound.written ++ data).take s.outbound.taken
    rw [List.take_append_of_le_length h.streams.bound]
    exact h.streams.accepted

/-- The owner ends its stream; the endpoint will see it when the end is read. -/
theorem Mirrors.ownerShutdown (h : Mirrors F e wire s) :
    Mirrors F e wire { s with outbound := { s.outbound with shut := true } } :=
  ⟨h.conn, ⟨h.streams.bound, h.streams.accepted, fun hclosed => ⟨(h.streams.closed hclosed).1, rfl⟩,
    h.streams.taken, fun hended => ⟨(h.streams.ended hended).1, rfl⟩, h.streams.opened⟩, h.sends⟩

/-- The packet comes from the peer, or there is no segment in it. -/
def Authentic (α : Type) {π : Type} [FdAdapter α π] (packets : List π) (answer : SocketAnswer π) :
    Prop :=
  ∀ packet, answer.packet = .ok packet → packet ∈ packets ∨
    ∀ (b : α) kernel seg, (FdAdapter.read b (.ok packet) kernel).result ≠ .ok (some seg)

/-- A segment that is read is like one on the wire of the peer. -/
theorem Mirrors.authentic {peer : TCPSpongeSocket α π} (h : Mirrors F e wire peer)
    {answer : SocketAnswer π} (hanswer : Authentic α peer.sent answer) {b : α}
    {kernel : Nat → PacketAnswer} {seg : TCPSegment}
    (hread : (FdAdapter.read b answer.packet kernel).result = .ok (some seg)) :
    ∃ f ∈ wire, seg.Like f.segment := by
  cases hpacket : answer.packet with
  | error what =>
    rw [hpacket] at hread
    exact absurd hread (F.read_failed b what kernel seg)
  | ok packet =>
    rw [hpacket] at hread
    -- a packet of the peer carries one of its segments; any other gives no segment
    rcases hanswer packet hpacket with hmem | hforeign
    · obtain ⟨written, hsends, hwire⟩ := h.sends
      obtain ⟨seg0, hseg0, hlike⟩ := F.received hsends hmem b kernel seg hread
      obtain ⟨f, hf, hlike0⟩ := hwire seg0 (List.mem_append_left _ hseg0)
      exact ⟨f, hf, hlike.trans hlike0⟩
    · exact absurd hread (hforeign b kernel seg)

section

variable (F) (start : System) (x : Side) (peer : TCPSpongeSocket α π)

/-- The socket on the side `x` and its peer do what the endpoints do in some run. -/
def Simulated (s : TCPSpongeSocket α π) : Prop :=
  ∃ moves, Mirrors F ((start.run moves).endpoint x) ((start.run moves).wire x) s ∧
    Mirrors F ((start.run moves).endpoint x.peer) ((start.run moves).wire x.peer) peer

end

section

variable {start : System} {x : Side} {peer : TCPSpongeSocket α π}

/-- A step that the endpoints do not see. -/
theorem Simulated.stay (h : Simulated F start x peer s)
    (hstay : ∀ e wire, Mirrors F e wire s → Mirrors F e wire s') :
    Simulated F start x peer s' := by
  obtain ⟨moves, hself, hpeer⟩ := h
  exact ⟨moves, hstay _ _ hself, hpeer⟩

/-- An endpoint has changed, and its peer has not. -/
theorem Simulated.put {moves : List Move} (move : Move) {res : Endpoint × List Flight}
    (hstep : (start.run moves).step move = (start.run moves).put x res)
    (hself : Mirrors F res.1 ((start.run moves).wire x ++ res.2) s')
    (hpeer : Mirrors F ((start.run moves).endpoint x.peer) ((start.run moves).wire x.peer) peer) :
    Simulated F start x peer s' := by
  have hrun : start.run (moves ++ [move]) = (start.run moves).put x res := by
    rw [← hstep, System.run, List.foldl_append]
    rfl
  refine ⟨moves ++ [move], ?_, ?_⟩
  · rw [hrun]
    simpa [System.put] using hself
  · rw [hrun]
    simpa [System.put, x.peer_ne] using hpeer

/-- A step that is one operation of an endpoint. -/
theorem Simulated.act (op : EndpointOp) (h : Simulated F start x peer s)
    (hact : ∀ e wire, Mirrors F e wire s → Mirrors F (e.act op).1 (wire ++ (e.act op).2) s') :
    Simulated F start x peer s' := by
  obtain ⟨moves, hself, hpeer⟩ := h
  exact .put (.act x op) rfl (hact _ _ hself) hpeer

/-- A step that is the delivery of a segment from the wire of the peer. -/
theorem Simulated.receive {seg : TCPSegment} (h : Simulated F start x peer s)
    (hwire : ∀ e wire, Mirrors F e wire peer → ∃ f ∈ wire, seg.Like f.segment) :
    Simulated F start x peer { s with tcp := s.tcp.segmentReceived seg } := by
  obtain ⟨moves, hself, hpeer⟩ := h
  obtain ⟨f, hf, hlike⟩ := hwire _ _ hpeer
  obtain ⟨i, hi⟩ := List.mem_iff_getElem?.mp hf
  refine .put (.deliver x i) ?_ (hself.receive hlike) hpeer
  rw [System.step, hi]

/-- **Every callback is some moves.** -/
theorem Simulated.callback (h : Simulated F start x peer s) (hsound : s.Sound) {i : SocketRule}
    (hasked : Asked i s) {answer : SocketAnswer π} (hanswer : Authentic α peer.sent answer) :
    Simulated F start x peer ((rule i).callback answer s).2 := by
  cases i with
  | segmentIn =>
    show Simulated F start x peer (receiveSegment answer s).2
    obtain ⟨tcp, flag, heq, htcp⟩ := receiveSegment_cases answer s
    -- reading from the adapter may send, too, but moves no byte of a stream
    have hadapted : Simulated F start x peer { s with
        datagramAdapter :=
          (FdAdapter.read s.datagramAdapter answer.packet (answer.device 0)).adapter
        sent :=
          s.sent ++ (FdAdapter.read s.datagramAdapter answer.packet (answer.device 0)).sent
        fullyAcked := flag } :=
      h.stay fun e wire hmirrors => hmirrors.adapt flag fun written hsends =>
        F.read_keeps hsends answer.packet (answer.device 0)
    rw [heq]
    rcases htcp with rfl | ⟨seg, hread, rfl⟩
    · exact hadapted
    · exact hadapted.receive fun e wire hmirrors => hmirrors.authentic hanswer hread
  | bytesOut =>
    show Simulated F start x peer (readOutbound answer s).2
    -- the call has failed, or what it read is written to the stream in full
    obtain ⟨e, -, heq⟩ | ⟨data, fd, hdata, hfit, heof, -, hclosed, heq⟩ :=
      readOutbound_cases answer s
    · rw [heq]
      exact h
    · have hall := hsound.write_fst hasked.1 hfit
      have hsent : Simulated F start x peer (s.sending fd data) :=
        h.act (.write data) fun e wire hmirrors => hmirrors.sending hdata hall heof hclosed
      rw [heq, if_neg (not_not.mpr hall)]
      split_ifs with hend
      · exact hsent.act .endInputStream fun e wire hmirrors =>
          hmirrors.endOutbound (hmirrors.streams.ended hend)
      · exact hsent
  | bytesIn =>
    show Simulated F start x peer (writeInbound answer s).2
    have hhanded (n : Nat) : Simulated F start x peer (s.receiving n) :=
      h.act (.pop n) fun e wire hmirrors => hmirrors.receiving n
    -- after a shutdown the endpoint stays where it is, since it knows nothing of the owner
    obtain ⟨e, -, heq⟩ | ⟨n, -, -, ⟨-, heq⟩ | ⟨-, ⟨e, -, heq⟩ | heq⟩⟩ :=
      writeInbound_cases answer s <;> rw [heq]
    · exact h
    · exact hhanded n
    · exact hhanded n
    · exact (hhanded n).stay fun e wire hmirrors => hmirrors.endInbound
  | segmentOut =>
    exact h.stay fun e wire hmirrors => hmirrors.sendSegments hsound.packable answer

/-- Leaving a loop is not seen by the endpoints. -/
theorem Simulated.leave {th : SocketThread α π} (h : Simulated F start x peer th.socket)
    (shutdown : Except String Unit) : Simulated F start x peer (th.leave shutdown).socket := by
  unfold SocketThread.leave
  split
  · exact h
  · exact h
  · cases shutdown with
    | error what => exact h
    | ok u => exact h.stay fun e wire hmirrors => hmirrors.ownerShutdown
  · exact h
  · exact h

/-- A tick of the thread is one of the endpoint; the adapter's own packets carry no new segments. -/
theorem Simulated.tick {th : SocketThread α π} (h : Simulated F start x peer th.socket)
    (turn : SocketTurn π) : Simulated F start x peer (th.tick turn).socket := by
  have hticked := h.act (.tick turn.elapsed) fun e wire hmirrors => hmirrors.tick turn.elapsed
  have hadapted := hticked.stay fun e wire hmirrors =>
    hmirrors.adapt th.socket.fullyAcked fun written hsends =>
      F.tick_keeps hsends turn.elapsed turn.device
  unfold SocketThread.tick
  dsimp only
  split <;> exact hadapted

/-- A rule that has ended by itself has read the end of its stream. -/
theorem Simulated.gone (h : Simulated F start x peer s) {i : SocketRule}
    (hended : (rule i).ended s = true) : Gone i s := by
  obtain ⟨moves, hself, -⟩ := h
  cases i with
  | bytesOut =>
    have hclosed := hself.streams.opened
    refine hself.streams.ended ?_
    simpa [Rule.ended, rule, hclosed] using hended
  | segmentIn => trivial
  | bytesIn => trivial
  | segmentOut => trivial

/-- No rule changes what the owner has written. -/
theorem gone_callback {i j : SocketRule} (hj : j ≠ i) (answer : SocketAnswer π) (h : Gone j s) :
    Gone j ((rule i).callback answer s).2 := by
  cases j with
  | bytesOut =>
    -- only the rule that reads from the owner changes what the owner still has to give
    have houtbound : ((rule i).callback answer s).2.outbound = s.outbound := by
      cases i with
      | bytesOut => exact absurd rfl hj
      | segmentIn =>
        obtain ⟨tcp, flag, heq, -⟩ := receiveSegment_cases answer s
        exact congrArg (fun ret => ret.2.outbound) heq
      | bytesIn =>
        obtain ⟨e, -, heq⟩ | ⟨n, -, -, ⟨-, heq⟩ | ⟨-, ⟨e, -, heq⟩ | heq⟩⟩ :=
          writeInbound_cases answer s
        all_goals exact congrArg (fun ret => ret.2.outbound) heq
      | segmentOut => rfl
    show ((rule i).callback answer s).2.Drained
    rw [Drained, houtbound]
    exact h
  | segmentIn => trivial
  | bytesIn => trivial
  | segmentOut => trivial

/-- **The contract of the rules**, with the run of the endpoints in its invariant. -/
theorem contract_simulated (F : Faithful α) (start : System) (x : Side)
    (peer : TCPSpongeSocket α π) :
    EventLoop.Contract rule (Authentic α peer.sent)
      (fun s => s.Sound ∧ Simulated F start x peer s) Asked Gone
      (fun e => CallFailure e ∨ AdapterThrows α e) :=
  (contract F).strengthen (fun _ _ => trivial) (fun _ _ _ => trivial)
    (fun _ _ h hended => h.gone hended)
    (by
      -- a rule whose descriptor has ended ends the outbound stream, once all of it has been read
      intro i s _ h hgone
      cases i with
      | bytesOut =>
        exact h.act .endInputStream fun e wire hmirrors => hmirrors.endOutbound hgone
      | segmentIn => exact h
      | bytesIn => exact h
      | segmentOut => exact h)
    (by
      intro i s j hj hgone
      cases i with
      | bytesOut =>
        cases j with
        | bytesOut => exact absurd rfl hj
        | segmentIn => trivial
        | bytesIn => trivial
        | segmentOut => trivial
      | segmentIn => exact hgone
      | bytesIn => exact hgone
      | segmentOut => exact hgone)
    (fun i answer s hanswer hsound h hasked => h.callback hsound hasked hanswer)
    (fun i answer s j hj hgone => gone_callback hj answer hgone)

end

end TCPSpongeSocket

/-! ### Runs -/

/-- Two sockets. -/
@[ext]
structure SocketSystem (α π : Type) where
  thread : Side → SocketThread α π

/-- What can happen to two sockets. -/
inductive SocketMove (π : Type) where
  | act (x : Side) (op : OwnerOp)
  | turn (x : Side) (turn : SocketTurn π)

namespace SocketSystem

open TCPSpongeSocket

variable {α π : Type} [FdAdapter α π]

/-- Two new sockets, of which some listen and some connect. -/
def start (cfg : Side → TCPConfig) (randSender randReceiver : Side → WrappingInt32)
    (listens : Side → Bool) (adapter : Side → α) (sent : Side → List π) : SocketSystem α π where
  thread := fun x =>
    if listens x then
      .listenAndAccept (cfg x) (randSender x) (randReceiver x) (adapter x) (sent x)
    else .connect (cfg x) (randSender x) (randReceiver x) (adapter x) (sent x)

/-- A socket has changed. -/
def put (sys : SocketSystem α π) (x : Side) (th : SocketThread α π) : SocketSystem α π :=
  ⟨Function.update sys.thread x th⟩

/-- One move. -/
def step (sys : SocketSystem α π) : SocketMove π → SocketSystem α π
  | .act x op => sys.put x ((sys.thread x).act op)
  | .turn x turn => sys.put x ((sys.thread x).iterate turn)

/-- A run of moves. -/
def run (sys : SocketSystem α π) (moves : List (SocketMove π)) : SocketSystem α π :=
  moves.foldl step sys

/-- The kernel tells the truth: the packets that are read are those of the peer, and a stream from
    the owner is reported to have ended only if it has. -/
def Honest (sys : SocketSystem α π) : SocketMove π → Prop
  | .act _ _ => True
  | .turn x turn => turn.poll.Honest rule (Authentic α (sys.thread x.peer).socket.sent) Gone
      (sys.thread x).rules (sys.thread x).socket

/-- The kernel always tells the truth. -/
def HonestRun : SocketSystem α π → List (SocketMove π) → Prop
  | _, [] => True
  | sys, move :: moves => sys.Honest move ∧ HonestRun (sys.step move) moves

/-- A kernel that reports no hangup, and hands over what the peer has sent, tells the truth. -/
theorem honest_of_sent (sys : SocketSystem α π) (x : Side)
    {answers : List (Revents × SocketAnswer π)}
    (h : ∀ a ∈ answers, (∀ p ∈ a.2.packet.toOption, p ∈ (sys.thread x.peer).socket.sent) ∧
      a.1.pollHup = false) : sys.Honest (.turn x { poll := .events answers }) := by
  refine EventLoop.Honest.of_forall _ fun a ha => ⟨fun packet hpacket => Or.inl ?_, (h a ha).2⟩
  exact (h a ha).1 packet (by rw [hpacket]; rfl)

/-- Both sockets are safe, and do what the endpoints do in some run from `start`. -/
structure Refines (F : Faithful α) (start : System) (sys : SocketSystem α π) : Prop where
  safe : ∀ x, (sys.thread x).Safe
  simulated : ∀ x, Simulated F start x (sys.thread x.peer).socket (sys.thread x).socket

variable {F : Faithful α} {abstract : System} {sys : SocketSystem α π}

omit [FdAdapter α π] in
@[simp] theorem put_self (sys : SocketSystem α π) (x : Side) (th : SocketThread α π) :
    (sys.put x th).thread x = th := Function.update_self ..

omit [FdAdapter α π] in
@[simp] theorem put_peer (sys : SocketSystem α π) (x : Side) (th : SocketThread α π) :
    (sys.put x th).thread x.peer = sys.thread x.peer := Function.update_of_ne x.peer_ne ..

/-- A change of one socket that is some moves on its side. -/
theorem Refines.put (h : Refines F abstract sys) (x : Side) {th : SocketThread α π}
    (hsafe : th.Safe)
    (hsimulated : Simulated F abstract x (sys.thread x.peer).socket th.socket) :
    Refines F abstract (sys.put x th) := by
  refine ⟨fun y => ?_, fun y => ?_⟩
  · -- the side that moved, and the other one as it was
    rcases x.eq_or_eq_peer y with rfl | rfl
    · rw [put_self]
      exact hsafe
    · rw [put_peer]
      exact h.safe x.peer
  · rcases x.eq_or_eq_peer y with rfl | rfl
    · rw [put_self, put_peer]
      exact hsimulated
    · rw [x.peer_peer, put_self, put_peer]
      obtain ⟨moves, hmirrors, hother⟩ := hsimulated
      exact ⟨moves, hother, by rw [x.peer_peer]; exact hmirrors⟩

/-- **The owner does something.** -/
theorem Refines.act (h : Refines F abstract sys) (x : Side) (op : OwnerOp) :
    Refines F abstract (sys.put x ((sys.thread x).act op)) := by
  refine h.put x ((h.safe x).act op) ((h.simulated x).stay fun e wire hmirrors => ?_)
  cases op with
  | write data =>
    unfold SocketThread.act
    dsimp only
    split
    · exact hmirrors
    · rename_i hopen
      exact hmirrors.ownerWrite (by simpa using hopen) data
  | shutdown => exact hmirrors.ownerShutdown
  | abort => exact hmirrors

/-- After a turn, also one that throws, the sockets are as the endpoints are in some run. -/
theorem Refines.turn (h : Refines F abstract sys) {x : Side} {turn : SocketTurn π}
    (hhonest : sys.Honest (.turn x turn)) :
    Refines F abstract (sys.put x ((sys.thread x).iterate turn)) := by
  refine h.put x ((h.safe x).iterate F turn) ?_
  have hnodup : (sys.thread x).rules.Nodup := (h.safe x).rules.nodup (by decide)
  obtain ⟨⟨-, hafter⟩, -⟩ := (contract_simulated F abstract x
    (sys.thread x.peer).socket).waitNextEvent_keeps hnodup ⟨(h.safe x).sound, h.simulated x⟩ hhonest
  obtain ⟨-, heq⟩ | ⟨-, ⟨e, -, heq⟩ | ⟨-, heq⟩ | ⟨-, heq⟩ | heq⟩ :=
    SocketThread.iterate_cases turn (sys.thread x) <;> rw [heq]
  · exact (h.simulated x).leave _
  · exact hafter
  · exact Simulated.leave hafter _
  · exact Simulated.tick hafter _
  · exact hafter

/-- **The run lemma.** -/
theorem Refines.run (h : Refines F abstract sys) {moves : List (SocketMove π)}
    (hrun : sys.HonestRun moves) : Refines F abstract (sys.run moves) := by
  induction moves generalizing sys with
  | nil => exact h
  | cons move moves ih =>
    refine ih ?_ hrun.2
    cases move with
    | act x op => exact h.act x op
    | turn x turn => exact h.turn hrun.1

/-! ### The start -/

section

variable (F) (cfg : Side → TCPConfig) (randSender randReceiver : Side → WrappingInt32)
  (listens : Side → Bool) (adapter : Side → α) (sent : Side → List π)
  (hsent : ∀ x, F.Sends [] (sent x) (adapter x))
include hsent

/-- Two sockets that listen are two endpoints that wait. -/
theorem start_refines_listening :
    Refines F (System.start cfg randSender randReceiver)
      (start cfg randSender randReceiver (fun _ => true) adapter sent) := by
  have hmirrors (x : Side) : Mirrors F (Endpoint.new (cfg x) (randSender x) (randReceiver x)) []
      { tcp := .new (cfg x) (randSender x) (randReceiver x)
        datagramAdapter := adapter x
        sent := sent x } :=
    ⟨rfl, ⟨le_refl _, rfl, nofun, rfl, nofun, rfl⟩, [], hsent x, by simp [TCPConnection.new]⟩
  refine ⟨fun x => ?_, fun x => ⟨[], hmirrors x, hmirrors x.peer⟩⟩
  exact SocketThread.Fresh.safe ⟨cfg x, randSender x, randReceiver x, adapter x, sent x, Or.inr rfl⟩

/-- To connect is a move of the endpoint. -/
theorem start_refines :
    Refines F (System.start cfg randSender randReceiver)
      (start cfg randSender randReceiver listens adapter sent) := by
  have hconnect (sys : SocketSystem α π) (x : Side)
      (h : Refines F (System.start cfg randSender randReceiver) sys)
      (hx : (sys.thread x).socket =
        (SocketThread.listenAndAccept (cfg x) (randSender x) (randReceiver x) (adapter x)
          (sent x)).socket) :
      Refines F (System.start cfg randSender randReceiver) (if listens x then sys else sys.put x
        (.connect (cfg x) (randSender x) (randReceiver x) (adapter x) (sent x))) := by
    split
    · exact h
    · refine h.put x (SocketThread.Fresh.safe
        ⟨cfg x, randSender x, randReceiver x, adapter x, sent x, Or.inl rfl⟩) ?_
      have hsimulated := h.simulated x
      rw [hx] at hsimulated
      exact hsimulated.act .connect fun e wire hmirrors => hmirrors.connect
  have hlisten :=
    start_refines_listening F cfg randSender randReceiver adapter sent hsent
  -- the two sides start one after the other
  have ha := hconnect _ .a hlisten rfl
  have hb := hconnect _ .b ha (by split <;> rfl)
  convert hb using 1
  refine SocketSystem.ext (funext fun x => ?_)
  cases hlistensA : listens .a <;> cases hlistensB : listens .b <;> cases x <;>
    simp [start, put, Function.update, hlistensA, hlistensB]

end

/-! ### What the owners can rely on -/

/-- **The owners of two sockets agree on what was said.**  Whatever the network does to the packets,
    and whatever the two owners and their kernels do, as long as a kernel makes up no packets and no
    end of an owner's stream (`HonestRun`), and fewer than `2^31` bytes are written on each side:
    the bytes that have been handed to one owner are the first bytes that the other has written.
    When the end of the stream has been reported without an error, they are all of them, and the
    writer has shut the stream down.  When the sender has had everything acknowledged, all of it is
    there, handed over or still in the inbound stream. -/
theorem owners_agree (F : Faithful α) (cfg : Side → TCPConfig)
    (randSender randReceiver : Side → WrappingInt32) (listens : Side → Bool) (adapter : Side → α)
    (sent : Side → List π) (hsent : ∀ x, F.Sends [] (sent x) (adapter x))
    (moves : List (SocketMove π))
    (hrun : (start cfg randSender randReceiver listens adapter sent).HonestRun moves)
    (hshort : ∀ x, (((start cfg randSender randReceiver listens adapter sent).run moves).thread
      x).socket.outbound.written.length < 2 ^ 31) (x : Side) :
    let sys := (start cfg randSender randReceiver listens adapter sent).run moves
    let s := (sys.thread x).socket
    let peer := (sys.thread x.peer).socket
    peer.inbound.written <+: s.outbound.written ∧
      (peer.inbound.shut = true → peer.tcp.inboundStream.error = false →
        s.outbound.shut = true ∧ peer.inbound.written = s.outbound.written) ∧
      (s.tcp.sender.Finished → s.outbound.shut = true ∧
        peer.inbound.written ++ peer.tcp.inboundStream.bufferList = s.outbound.written) := by
  intro sys s peer
  have hrefines : Refines F (System.start cfg randSender randReceiver) sys :=
    (start_refines F cfg randSender randReceiver listens adapter sent hsent).run hrun
  obtain ⟨steps, hself, hpeer⟩ := hrefines.simulated x
  -- what the endpoints have accepted has been read from the owners, so it is short too
  have hwithin : (System.start cfg randSender randReceiver).WithinRun steps := by
    refine System.withinRun_of_short (System.start_linked _ _ _) fun y => ?_
    rcases x.eq_or_eq_peer y with rfl | rfl
    · exact hself.accepted_lt (hshort _)
    · exact hpeer.accepted_lt (hshort _)
  have hlinked := System.linked_of_withinRun hwithin x
  refine ⟨hself.received_isPrefix hpeer hlinked, fun hshut herror => ?_, fun hfinished => ?_⟩
  · -- the socket shuts the owner's side down only at the end of the stream, or in error
    have hsound : peer.Sound := (hrefines.safe x.peer).sound
    have hover := hsound.told (hsound.shut.symm.trans hshut)
    rw [herror, Bool.or_false] at hover
    obtain ⟨hended, hempty⟩ := (ByteStream.eof_iff _).mp hover
    obtain ⟨hdown, hall⟩ := hself.received_all hpeer hlinked hended
    rw [hempty, List.append_nil] at hall
    exact ⟨hdown, hall⟩
  · refine hself.received_all hpeer hlinked ?_
    rw [hself.sender_eq] at hfinished
    rw [hpeer.inbound_eq]
    exact (hlinked.outgoing.finished_arrived hfinished).2

/-- Adapters of two UDP sockets, of which the second listens. -/
def sampleAdapter : Side → TCPOverUDPSocketAdapter
  | .a => { cfg := { source := ⟨1, 5000⟩, destination := ⟨2, 80⟩ }, localAddress := ⟨1, 5000⟩ }
  | .b => { cfg := { source := ⟨2, 80⟩ }, listen := true, localAddress := ⟨2, 80⟩ }

/-- A turn in which descriptors are ready. -/
def ready (x : Side) (answers : List (Revents × SocketAnswer UDPDatagram)) :
    SocketMove UDPDatagram :=
  .turn x { poll := .events answers }

/-- A turn in which a datagram arrives. -/
def arrives (x : Side) (payload : List UInt8) : SocketMove UDPDatagram :=
  let (source, destination) : Address × Address :=
    if x = .a then (⟨2, 80⟩, ⟨1, 5000⟩) else (⟨1, 5000⟩, ⟨2, 80⟩)
  ready x [({ pollIn := true }, { packet := .ok ⟨source, destination, payload⟩ })]

/-- The owner of `a` writes two bytes and shuts the stream down.  The sockets connect; `a` sends the
    bytes and the FIN, which arrives first; `b` hands over two bytes, and the end. -/
def sampleMoves : List (SocketMove UDPDatagram) :=
  [.act .a (.write [104, 105]), .act .a .shutdown,
    ready .a [({}, {}), ({}, {}), ({}, {}), ({ pollOut := true }, {})],
    arrives .b [19, 136, 0, 80, 0, 0, 0, 7, 0, 0, 0, 0, 80, 2, 0, 0, 156, 30, 0, 0],
    ready .b [({}, {}), ({}, {}), ({}, {}), ({ pollOut := true }, {})],
    arrives .a [0, 80, 19, 136, 0, 0, 0, 7, 0, 0, 0, 8, 80, 18, 250, 0, 162, 5, 0, 0],
    .turn .a { poll := .timeout },
    ready .a
      [({}, {}), ({ pollIn := true }, { read := .ok 2 }), ({}, {}), ({ pollOut := true }, {})],
    ready .a
      [({}, {}), ({ pollIn := true }, { read := .ok 2 }), ({}, {}), ({ pollOut := true }, {})],
    ready .a [({}, {}), ({}, {}), ({ pollOut := true }, {})],
    arrives .b [19, 136, 0, 80, 0, 0, 0, 10, 0, 0, 0, 8, 80, 17, 250, 0, 162, 3, 0, 0],
    .turn .b { poll := .timeout },
    arrives .b [19, 136, 0, 80, 0, 0, 0, 8, 0, 0, 0, 8, 80, 16, 250, 0, 57, 157, 0, 0, 104, 105],
    ready .b [({}, {}), ({}, {}), ({ pollOut := true }, { write := .ok 2 }), ({}, {})]]

theorem owners_agree_sample :
    let sys := (start (fun _ => {}) (fun _ => ⟨7⟩) (fun _ => ⟨0⟩) (· = .b) sampleAdapter
      (fun _ => [])).run sampleMoves
    (sys.thread .b).socket.inbound.shut = true ∧ (sys.thread .a).socket.outbound.shut = true ∧
      (sys.thread .b).socket.inbound.written = (sys.thread .a).socket.outbound.written := by
  have hrun : (start (fun _ => {}) (fun _ => ⟨7⟩) (fun _ => ⟨0⟩) (· = .b) sampleAdapter
      (fun _ => [])).HonestRun sampleMoves := by
    refine ⟨trivial, trivial, honest_of_sent _ _ (by decide +kernel),
      honest_of_sent _ _ (by decide +kernel), honest_of_sent _ _ (by decide +kernel),
      honest_of_sent _ _ (by decide +kernel), trivial, honest_of_sent _ _ (by decide +kernel),
      honest_of_sent _ _ (by decide +kernel), honest_of_sent _ _ (by decide +kernel),
      honest_of_sent _ _ (by decide +kernel), trivial, honest_of_sent _ _ (by decide +kernel),
      honest_of_sent _ _ (by decide +kernel), trivial⟩
  have hshut : (((start (fun _ => {}) (fun _ => ⟨7⟩) (fun _ => ⟨0⟩) (· = .b) sampleAdapter
      (fun _ => [])).run sampleMoves).thread .b).socket.inbound.shut = true := by decide +kernel
  have hagree := owners_agree TCPOverUDPSocketAdapter.faithful (fun _ => {}) (fun _ => ⟨7⟩)
    (fun _ => ⟨0⟩) (· = .b) sampleAdapter (fun _ => []) (fun _ => nofun) sampleMoves hrun
    (fun x => by cases x <;> decide +kernel) .a
  exact ⟨hshut, hagree.2.1 hshut (by decide +kernel)⟩

end SocketSystem

end Sponge
