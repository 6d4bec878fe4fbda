import Sponge.Delivery

namespace Sponge

open TCPSender TCPConnection

/-!
# An endpoint with its history

An endpoint is a connection together with what its user and an observer of its sender have
seen: the bytes `write` accepted, whether the input was ended, the bytes read from the inbound
stream, and every segment sent for the first time.

After each operation the segments the connection has queued go on the wire (`commit`).  A
queue that is emptied later makes no difference, since the wire may delay a segment as long as
it likes.  `commit_flows` is the lemma about one operation: it keeps the flow in which the
endpoint sends and the flow in which it receives.
-/

/-- A connection with the history of its run. -/
structure Endpoint where
  conn : TCPConnection
  accepted : List UInt8
  closed : Bool
  taken : List UInt8
  history : List Sent

/-- What the user of a connection, or time, can do to it. -/
inductive EndpointOp where
  | connect
  | write (data : List UInt8)
  | endInputStream
  | tick (msSinceLastTick : Nat)
  /-- `inbound_stream().read(len)` -/
  | read (len : Nat)
  /-- `inbound_stream().pop_output(len)` -/
  | pop (len : Nat)
  deriving DecidableEq, Repr

namespace Endpoint

/-- A fresh endpoint. -/
def new (cfg : TCPConfig) (randSender randReceiver : WrappingInt32) : Endpoint :=
  ⟨TCPConnection.new cfg randSender randReceiver, [], false, [], []⟩

/-- The bytes ever written into the inbound stream: those taken out and those still in it. -/
def received (e : Endpoint) : List UInt8 := e.taken ++ e.conn.inboundStream.bufferList

/-- The connection has become `conn`: record what its sender has sent for the first time, and
    put its queue on the wire. -/
def commit (e : Endpoint) (conn : TCPConnection) : Endpoint × List Flight :=
  ({ e with
      conn := { conn with segmentsOut := [] }
      history := e.history ++ tagged conn.sender.windowSize (fresh e.conn.sender conn.sender) },
    conn.segmentsOut.map (fun seg => ⟨seg, conn.receiver.absAck⟩))

/-- An operation: the endpoint afterwards, and what it puts on the wire. -/
def act (e : Endpoint) : EndpointOp → Endpoint × List Flight
  | .connect => e.commit e.conn.connect
  | .write data =>
    commit { e with accepted := e.accepted ++ data.take (e.conn.write data).1 }
      (e.conn.write data).2
  | .endInputStream => commit { e with closed := true } e.conn.endInputStream
  | .tick ms => e.commit (e.conn.tick ms)
  | .read len => commit { e with taken := e.taken ++ (e.conn.read len).1 } (e.conn.read len).2
  | .pop len =>
    commit { e with taken := e.taken ++ e.conn.inboundStream.peekOutput len }
      (e.conn.popOutput len)

/-- A segment arrives. -/
def receive (e : Endpoint) (seg : TCPSegment) : Endpoint × List Flight :=
  e.commit (e.conn.segmentReceived seg)

/-! ### One operation -/

variable {e : Endpoint} {base conn : TCPConnection} {W : List UInt8}
  {new : List (Nat × TCPSegment)} {peerStream peerTaken : List UInt8} {peerHistory : List Sent}
  {peerSender : TCPSender} {peerReceiver : TCPReceiver} {wire peerWire : List Flight}

/-- A stamped segment differs from the sender's only in the acknowledgment. -/
theorem copies_stamp (r : TCPReceiver) (win : UInt16) (seg : TCPSegment) :
    Copies (stamp r win seg) seg := by
  unfold stamp
  split <;> exact ⟨rfl, rfl, rfl, rfl⟩

/-- A stamped segment has an acknowledgment only from the receiver. -/
theorem stamp_ack {r : TCPReceiver} {win : UInt16} {seg : TCPSegment}
    (hplain : seg.header.ack = false) (hack : (stamp r win seg).header.ack = true) :
    r.ackno = some (stamp r win seg).header.ackno ∧ (stamp r win seg).header.win = win := by
  unfold stamp at hack ⊢
  cases hackno : r.ackno with
  | none =>
    simp only [hackno] at hack
    rw [hplain] at hack
    exact absurd hack (by simp)
  | some ackno => exact ⟨rfl, rfl⟩

/-- **One operation of an endpoint**, whose sender and receiver work on from those of `base`:
    both of its flows are kept. -/
theorem commit_flows (hout : Flow W e.history base.sender wire peerReceiver peerTaken peerWire)
    (hin : Flow peerStream peerHistory peerSender peerWire base.receiver e.taken wire)
    (hworks : Works W (entries e.history) base e.accepted new conn)
    (hnext : base.sender.nextSeqnoAbsolute = e.conn.sender.nextSeqnoAbsolute)
    (hempty : base.segmentsOut = []) :
    Flow e.accepted (e.commit conn).1.history conn.sender (wire ++ (e.commit conn).2)
        peerReceiver peerTaken peerWire ∧
      Flow peerStream peerHistory peerSender peerWire conn.receiver e.taken
        (wire ++ (e.commit conn).2) := by
  have hfresh : fresh e.conn.sender conn.sender = new := by
    rw [fresh, ← hnext]
    exact hout.sender.ledger.fresh_eq hworks.sender.inv.ledger hworks.sender.outstanding
  -- the queue was empty before, so all that is in it now was put there by this operation
  obtain ⟨sent, hsent, hstamped⟩ := hworks.sent
  rw [hempty, List.nil_append] at hsent
  have hstamped := hstamped hout.queued
  have hhistory : (e.commit conn).1.history = e.history ++ tagged conn.sender.windowSize new := by
    rw [commit, hfresh]
  -- every flight is one of the stamped segments, with the receiver's number
  have hflight : ∀ f ∈ (e.commit conn).2, f.segment ∈ sent ∧ f.ackno = conn.receiver.absAck := by
    intro f hf
    obtain ⟨seg, hseg, rfl⟩ := List.mem_map.mp hf
    rw [hsent] at hseg
    exact ⟨hseg, rfl⟩
  constructor
  · rw [hhistory]
    refine hout.proceed hworks.sender (fun f hf => ?_)
    rcases hstamped _ (hflight f hf).1 with hrst | ⟨seg0, hseg0, hseg⟩
    · exact Or.inl hrst
    · -- a stamp changes none of the fields the peer's receiver looks at
      refine Or.inr ⟨seg0, ?_, by rw [hseg]; exact copies_stamp _ _ _⟩
      rw [entries_tagged]
      exact hseg0
  · have hreceiver :
        Flow peerStream peerHistory peerSender peerWire conn.receiver e.taken wire := by
      rcases hworks.receiver with hsame | herror
      · rw [hsame]; exact hin
      · rw [herror]; exact hin.setError
    refine hreceiver.acknowledge (fun f hf hrst hack => ?_)
    obtain ⟨hmem, hnumber⟩ := hflight f hf
    rcases hstamped _ hmem with hreset | ⟨seg0, hseg0, hseg⟩
    · rw [hrst] at hreset
      exact absurd hreset (by simp)
    · rw [hseg] at hack ⊢
      obtain ⟨hackno, hwin⟩ := stamp_ack (hseg0.plain hworks.sender.inv).1 hack
      exact ⟨hnumber, hackno, hwin⟩

/-- What holds of an endpoint by itself between two operations. -/
structure Local (e : Endpoint) : Prop where
  queue : e.conn.segmentsOut = []
  capacity : e.conn.receiver.streamOut.capacity = e.conn.cfg.recvCapacity
  closed : e.conn.sender.streamIn.inputEnded = true → e.closed = true
  shut : Shut e.conn

/-- A fresh endpoint has written, sent and read nothing. -/
theorem new_local (cfg : TCPConfig) (randSender randReceiver : WrappingInt32) :
    Local (Endpoint.new cfg randSender randReceiver) :=
  ⟨rfl, rfl, fun hended => absurd hended (by
    simp [Endpoint.new, TCPConnection.new, TCPSender.new, ByteStream.new]),
    ⟨rfl, fun hinactive => absurd hinactive (by simp [Endpoint.new, TCPConnection.new])⟩⟩

/-- The two flows of an endpoint, and what holds of it by itself. -/
structure Linked (e : Endpoint) (wire : List Flight) (peer : Endpoint)
    (peerWire : List Flight) : Prop where
  outgoing : Flow e.accepted e.history e.conn.sender wire peer.conn.receiver peer.taken peerWire
  incoming : Flow peer.accepted peer.history peer.conn.sender peerWire e.conn.receiver e.taken wire
  self : Local e

variable {peer : Endpoint}

/-- An operation after which the connection is `conn`. -/
theorem commit_linked (base : TCPConnection)
    (hout : Flow W e.history base.sender wire peer.conn.receiver peer.taken peerWire)
    (hin : Flow peer.accepted peer.history peer.conn.sender peerWire base.receiver e.taken wire)
    (hworks : Works W (entries e.history) base e.accepted new conn)
    (hnext : base.sender.nextSeqnoAbsolute = e.conn.sender.nextSeqnoAbsolute)
    (hempty : base.segmentsOut = [])
    (hcapacity : base.receiver.streamOut.capacity = base.cfg.recvCapacity)
    (hclosed : base.sender.streamIn.inputEnded = true → e.closed = true) (hshut : Shut conn) :
    Linked (e.commit conn).1 (wire ++ (e.commit conn).2) peer peerWire := by
  obtain ⟨hout', hin'⟩ := commit_flows hout hin hworks hnext hempty
  refine ⟨hout', hin', rfl, ?_, fun hended => hclosed ?_, hshut.of_same rfl rfl rfl id⟩
  · show conn.receiver.streamOut.capacity = conn.cfg.recvCapacity
    rw [hworks.cfg, ← hcapacity]
    rcases hworks.receiver with hsame | herror
    · rw [hsame]
    · rw [herror]; rfl
  · rw [← hworks.ended]
    exact hended

/-- An operation only adds to the bytes accepted. -/
theorem accepted_le_act (e : Endpoint) (op : EndpointOp) :
    e.accepted.length ≤ (e.act op).1.accepted.length := by
  cases op with
  | write data =>
    show e.accepted.length ≤ (e.accepted ++ data.take (e.conn.write data).1).length
    rw [List.length_append]
    omega
  | _ => exact le_refl _

/-- **Every operation of the user** keeps both flows. -/
theorem act_linked (h : Linked e wire peer peerWire) (op : EndpointOp) :
    Linked (e.act op).1 (wire ++ (e.act op).2) peer peerWire := by
  have hinv := h.outgoing.sender
  have hshut := h.self.shut
  cases op with
  | connect =>
    obtain ⟨new, hworks⟩ := connect_works hinv
    exact commit_linked e.conn h.outgoing h.incoming hworks rfl h.self.queue h.self.capacity
      h.self.closed (sendSegment_shut hinv hshut)
  | write data =>
    obtain ⟨new, hworks⟩ := write_works hinv data
    exact commit_linked (e := { e with accepted := e.accepted ++ data.take (e.conn.write data).1 })
      e.conn h.outgoing h.incoming hworks rfl h.self.queue h.self.capacity h.self.closed
      (write_shut hinv hshut data)
  | endInputStream =>
    obtain ⟨new, hworks⟩ := endInputStream_works hinv
    exact commit_linked (e := { e with closed := true })
      { e.conn with sender := { e.conn.sender with streamIn := e.conn.sender.streamIn.endInput } }
      (h.outgoing.quiet (endInput_proceeds hinv)) h.incoming hworks rfl h.self.queue
      h.self.capacity (fun _ => rfl) (endInputStream_shut hinv hshut)
  | tick ms =>
    exact commit_linked e.conn h.outgoing h.incoming (tick_works hinv ms) rfl h.self.queue
      h.self.capacity h.self.closed (tick_shut hinv hshut ms)
  | read len =>
    have hsame : Works e.accepted (entries e.history) (e.conn.read len).2 e.accepted []
        (e.conn.read len).2 := works_of_same hinv rfl rfl rfl rfl
    refine commit_linked (e := { e with taken := e.taken ++ (e.conn.read len).1 })
      (e.conn.read len).2 h.outgoing (h.incoming.takeOut_read len) hsame rfl h.self.queue ?_
      h.self.closed ?_
    · exact (ByteStream.read_capacity _ _).trans h.self.capacity
    · exact hshut.of_same rfl (ByteStream.read_error _ _) rfl id
  | pop len =>
    have hsame : Works e.accepted (entries e.history) (e.conn.popOutput len) e.accepted []
        (e.conn.popOutput len) := works_of_same hinv rfl rfl rfl rfl
    refine commit_linked (e := { e with taken := e.taken ++ e.conn.inboundStream.peekOutput len })
      (e.conn.popOutput len) h.outgoing (h.incoming.takeOut_pop len) hsame rfl h.self.queue
      h.self.capacity h.self.closed ?_
    exact hshut.of_same rfl rfl rfl id

/-- The segment can be delivered to `e`: it is a RST, or its absolute sequence number is near
    the receiver's checkpoint and, if it has an acknowledgment, the absolute number of that is
    near the sender's. -/
def Within (e : Endpoint) (peer : Endpoint) (f : Flight) : Prop :=
  f.segment.header.rst = true ∨
    ((∃ v, Flow.Numbered peer.history peer.conn.sender v f.segment ∧
        Near v e.conn.inboundStream.bytesWritten ∧
        v + f.segment.lengthInSequenceSpace < 2 ^ 64) ∧
      (f.segment.header.ack = true → Near f.ackno e.conn.sender.streamIn.bytesRead))

/-- **Between short streams every segment can be delivered.** -/
theorem within_of_short (h : Linked e wire peer peerWire) {f : Flight} (hf : f ∈ peerWire)
    (hshort : e.accepted.length < 2 ^ 31) (hpeer : peer.accepted.length < 2 ^ 31) :
    Within e peer f := by
  by_cases hrst : f.segment.header.rst = true
  · exact Or.inl hrst
  · have hplain : f.segment.header.rst = false := by simpa using hrst
    obtain ⟨v, hv⟩ := h.incoming.onWire_numbered hf hplain
    obtain ⟨hnear, hfit⟩ := h.incoming.onWire_near hpeer hv
    exact Or.inr ⟨⟨v, hv, hnear, hfit⟩, h.outgoing.ack_near hshort hf hplain⟩

/-- **Every delivery** of a segment of the peer keeps both flows. -/
theorem receive_linked (h : Linked e wire peer peerWire) {f : Flight} (hf : f ∈ peerWire)
    (hwithin : Within e peer f) :
    Linked (e.receive f.segment).1 (wire ++ (e.receive f.segment).2) peer peerWire := by
  have hinv := h.outgoing.sender
  have hshut := segmentReceived_shut hinv h.self.shut f.segment
  by_cases hactive : e.conn.active = true
  · by_cases hrst : f.segment.header.rst = true
    · -- a RST ends the connection, whatever else is in it
      have hcode : e.conn.segmentReceived f.segment = e.conn.killConnection := by
        rw [segmentReceived, hactive, hrst]
        rfl
      have hworks : Works e.accepted (entries e.history) e.conn e.accepted []
          (e.conn.segmentReceived f.segment) := by
        rw [hcode]
        exact killConnection_works hinv
      exact commit_linked e.conn h.outgoing h.incoming hworks rfl h.self.queue h.self.capacity
        h.self.closed hshut
    · have hplain : f.segment.header.rst = false := by simpa using hrst
      rcases hwithin with hreset | ⟨⟨v, hv, hnear, hfit⟩, hacknear⟩
      · exact absurd hreset hrst
      have hin := h.incoming.receive hv hnear hfit
      have hcapacity := (e.conn.receiver.segmentReceived_advances f.segment).2.1.trans
        h.self.capacity
      obtain ⟨s, new, hs, hworks⟩ := segmentReceived_works hinv f.segment hactive hplain
      rcases hs with rfl | ⟨hack, hsettled⟩
      · -- no acknowledgment, or one that is not accepted
        exact commit_linked
          { e.conn with receiver := e.conn.receiver.segmentReceived f.segment }
          h.outgoing hin hworks rfl h.self.queue hcapacity h.self.closed hshut
      · -- the acknowledgment was given by the peer's receiver
        have hpeer := h.outgoing.acked f hf hplain hack
        have hnumber : e.conn.sender.receivedAckno f.segment.header.ackno = f.ackno := by
          rw [receivedAckno, hpeer.ackno]
          exact (hacknear hack).unwrap_wrap _
        rw [hnumber] at hsettled
        refine commit_linked
          { e.conn with sender := s, receiver := e.conn.receiver.segmentReceived f.segment }
          (h.outgoing.settle hsettled hpeer.synced hpeer.not_ahead hpeer.inside)
          hin hworks hsettled.next h.self.queue hcapacity ?_ hshut
        show s.streamIn.inputEnded = true → _
        rw [hsettled.stream]
        exact h.self.closed
  · -- an inactive connection ignores the segment
    have hcode : e.conn.segmentReceived f.segment = e.conn := by
      rw [segmentReceived, if_pos (by simpa using hactive)]
    have hworks : Works e.accepted (entries e.history) e.conn e.accepted []
        (e.conn.segmentReceived f.segment) := by
      rw [hcode]
      exact works_of_same hinv rfl rfl rfl rfl
    exact commit_linked e.conn h.outgoing h.incoming hworks rfl h.self.queue h.self.capacity
      h.self.closed hshut

/-- What a delivery does to the receiver of an active connection. -/
theorem receive_receiver (h : SenderInv W (entries e.history) e.conn.sender) {seg : TCPSegment}
    (hactive : e.conn.active = true) (hrst : seg.header.rst = false) :
    (e.receive seg).1.conn.receiver = e.conn.receiver.segmentReceived seg ∨
      (e.receive seg).1.conn.receiver = (e.conn.receiver.segmentReceived seg).setError := by
  obtain ⟨s, new, -, hworks⟩ := segmentReceived_works h seg hactive hrst
  exact hworks.receiver

end Endpoint

end Sponge
