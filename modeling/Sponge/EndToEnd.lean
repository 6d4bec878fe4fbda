import Sponge.Network

namespace Sponge

open TCPSender TCPConnection Slice

/-!
# End-to-end guarantees

What two connections guarantee to their users, in every run over a network that may lose,
delay, reorder and duplicate segments:

* `stream_integrity` — each side has received a prefix of what the other has accepted, all of
  it once the inbound stream has ended;
* `acknowledged_received` — what has left the retransmission queue has arrived, and a side that
  is done has had its whole stream delivered;
* `flow_control` — what was sent under a window is neither rejected nor clipped, as long as the
  sum in the window check fits into its 64 bits.

Each is the corresponding fact about a flow (`Sponge.Delivery`) at the state a run has reached.
-/

namespace System

variable {moves : List Move} {cfg : Side → TCPConfig}
  {randSender randReceiver : Side → WrappingInt32}

/-- After every run from the start, the endpoints are linked. -/
theorem linked_of_withinRun (hrun : (start cfg randSender randReceiver).WithinRun moves)
    (x : Side) :
    let sys := (start cfg randSender randReceiver).run moves
    Endpoint.Linked (sys.endpoint x) (sys.wire x) (sys.endpoint x.peer) (sys.wire x.peer) :=
  run_linked (start_linked cfg randSender randReceiver) hrun x

/-! ### The stream -/

/-- **Stream integrity.**  In every run whose deliveries are near their checkpoints, the bytes
    ever written into the inbound stream of a side are a prefix of the bytes its peer has
    accepted; once that stream has ended, the peer has closed its own and the two are equal.
    As long as both sides have accepted fewer than `2^31` bytes, every run is such a run. -/
theorem stream_integrity (cfg : Side → TCPConfig)
    (randSender randReceiver : Side → WrappingInt32) :
    (∀ moves, (start cfg randSender randReceiver).WithinRun moves → ∀ x : Side,
      let sys := (start cfg randSender randReceiver).run moves
      (sys.endpoint x.peer).received <+: (sys.endpoint x).accepted ∧
        ((sys.endpoint x.peer).conn.inboundStream.inputEnded = true →
          (sys.endpoint x).closed = true ∧
            (sys.endpoint x.peer).received = (sys.endpoint x).accepted)) ∧
      ∀ moves,
        (∀ x, (((start cfg randSender randReceiver).run moves).endpoint x).accepted.length
          < 2 ^ 31) →
        (start cfg randSender randReceiver).WithinRun moves := by
  constructor
  · intro moves hrun x sys
    have hlinked := linked_of_withinRun hrun x
    refine ⟨?_, fun hended => ?_⟩
    · show (sys.endpoint x.peer).taken ++ (sys.endpoint x.peer).conn.receiver.streamOut.bufferList
        <+: (sys.endpoint x).accepted
      rw [hlinked.outgoing.received_eq_take.1]
      exact List.take_prefix _ _
    · obtain ⟨hall, -, hclosed⟩ := hlinked.outgoing.received_all hended
      exact ⟨hlinked.self.closed hclosed, hall⟩
  · intro moves hshort
    exact withinRun_of_short (start_linked cfg randSender randReceiver) hshort

/-- A handshake, two bytes and the FIN from `a` to `b`, which reads them; the FIN arrives before
    the bytes do. -/
def sample : List Move :=
  [.act .a .connect, .deliver .b 0, .deliver .a 0, .act .a (.write [97, 98]),
    .act .a .endInputStream, .deliver .b 3, .deliver .b 2, .deliver .b 2, .act .b (.read 5),
    .deliver .a 1, .deliver .a 2]

/-- Both sides write little. -/
theorem sample_short (x : Side) :
    (((start (fun _ => {}) (fun _ => ⟨7⟩) (fun _ => ⟨0⟩)).run sample).endpoint x).accepted.length
      < 2 ^ 31 := by
  cases x <;> decide +kernel

theorem stream_integrity_sample :
    let sys := (start (fun _ => {}) (fun _ => ⟨7⟩) (fun _ => ⟨0⟩)).run sample
    (sys.endpoint .b).conn.inboundStream.inputEnded = true ∧
      (sys.endpoint .a).closed = true ∧
        (sys.endpoint .b).received = (sys.endpoint .a).accepted := by
  have hstream := stream_integrity (fun _ => {}) (fun _ => ⟨7⟩) (fun _ => ⟨0⟩)
  have hended : (((start (fun _ => {}) (fun _ => ⟨7⟩) (fun _ => ⟨0⟩)).run sample).endpoint
      .b).conn.inboundStream.inputEnded = true := by decide +kernel
  exact ⟨hended, (hstream.1 sample (hstream.2 sample sample_short) .a).2 hended⟩

/-! ### Acknowledgments -/

/-- **Acknowledgment soundness and close agreement.**  In every run whose deliveries are near
    their checkpoints, a segment that has left the retransmission queue has all of its bytes in
    the peer's inbound stream, and with its FIN that stream has ended.  When the sender's
    summary is `FIN_ACKED`, or the connection is inactive without an error, the peer has
    received the complete stream. -/
theorem acknowledged_received (hrun : (start cfg randSender randReceiver).WithinRun moves)
    (x : Side) :
    let sys := (start cfg randSender randReceiver).run moves
    let e := sys.endpoint x
    let peer := sys.endpoint x.peer
    (∀ h ∈ e.history, h.entry ∉ e.conn.sender.segmentsOutstanding →
      h.seqno - 1 + h.segment.payload.length ≤ peer.conn.inboundStream.bytesWritten ∧
        StandsAt peer.received (h.seqno - 1) h.segment.payload ∧
        (h.segment.header.fin = true → peer.conn.inboundStream.inputEnded = true)) ∧
      (e.conn.sender.stateSummary = .finAcked →
        peer.received = e.accepted ∧ peer.conn.inboundStream.inputEnded = true) ∧
      (e.conn.active = false →
        e.conn.sender.streamIn.error = false ∨ e.conn.inboundStream.error = false →
        peer.received = e.accepted ∧ peer.conn.inboundStream.inputEnded = true) := by
  intro sys e peer
  obtain ⟨hflow, -, hself⟩ := linked_of_withinRun hrun x
  have hshut := hself.shut
  refine ⟨fun h hh hgone => hflow.acked_arrived hh hgone, fun hsummary => ?_,
    fun hinactive hok => ?_⟩
  · exact hflow.finished_arrived (finished_of_finAcked hflow.sender hsummary).1
  · -- the two streams share their error flag, so neither has it
    have hclean : e.conn.sender.streamIn.error = false := by
      rcases hok with hout | hin
      · exact hout
      · rw [hshut.error_eq]
        exact hin
    rcases hshut.inactive hinactive with herror | hfinished
    · rw [hclean] at herror
      exact absurd herror (by simp)
    · exact hflow.finished_arrived hfinished

theorem acknowledged_received_sample :
    let sys := (start (fun _ => {}) (fun _ => ⟨7⟩) (fun _ => ⟨0⟩)).run sample
    (sys.endpoint .a).conn.sender.stateSummary = .finAcked ∧
      (sys.endpoint .b).received = (sys.endpoint .a).accepted ∧
        (sys.endpoint .b).conn.inboundStream.inputEnded = true := by
  have hsummary : (((start (fun _ => {}) (fun _ => ⟨7⟩) (fun _ => ⟨0⟩)).run sample).endpoint
      .a).conn.sender.stateSummary = .finAcked := by decide +kernel
  exact ⟨hsummary, (acknowledged_received
    (withinRun_of_short (start_linked _ _ _) sample_short) .a).2.1 hsummary⟩

/-! ### Flow control -/

/-- **Flow control.**  In every run whose deliveries are near their checkpoints, whatever
    occupies sequence space on the wire is a copy of a segment in the sender's history.  One
    first sent under a window of size zero has one number.  Of any other, every byte and the
    FIN lie below the receiving side's right edge; and whenever a copy of it is delivered while
    the sum in the window check fits into 64 bits, its payload is handed to the reassembler, no
    byte of it is lost and its FIN is recorded. -/
theorem flow_control (hrun : (start cfg randSender randReceiver).WithinRun moves) (x : Side) :
    let sys := (start cfg randSender randReceiver).run moves
    let e := sys.endpoint x
    let peer := sys.endpoint x.peer
    (∀ f ∈ sys.wire x.peer, f.segment.header.rst = false →
      0 < f.segment.lengthInSequenceSpace → ∃ h ∈ peer.history, Copies f.segment h.segment) ∧
    ∀ h ∈ peer.history,
      (h.window = 0 → h.segment.lengthInSequenceSpace = 1) ∧
      (h.window ≠ 0 →
        (∀ n, h.seqno + (if h.segment.header.syn then 1 else 0) ≤ n →
          n < h.seqno + h.segment.lengthInSequenceSpace →
          n < 1 + e.conn.inboundStream.bytesRead + e.conn.cfg.recvCapacity) ∧
        ∀ i f, (sys.wire x.peer)[i]? = some f → f.segment.header.rst = false →
          Copies f.segment h.segment → Near h.seqno e.conn.inboundStream.bytesWritten →
          1 + (if e.conn.inboundStream.inputEnded then 1 else 0) + e.conn.inboundStream.bytesRead
            + e.conn.cfg.recvCapacity < 2 ^ 64 →
          (e.conn.receiver.segmentReceived f.segment).reassembler
              = e.conn.receiver.reassembler.pushSubstring f.segment.payload (h.seqno - 1)
                f.segment.header.fin ∧
            (e.conn.active = true →
              let after := ((sys.step (.deliver x i)).endpoint x).conn.receiver
              (∀ p, StreamReassembler.Span (h.seqno - 1) f.segment.payload p → after.Has p) ∧
              (f.segment.header.fin = true →
                after.reassembler.eofIndex = peer.accepted.length))) := by
  intro sys e peer
  obtain ⟨hout, hflow, hself⟩ := linked_of_withinRun hrun x
  have hedge : e.conn.receiver.edge
      = 1 + e.conn.inboundStream.bytesRead + e.conn.cfg.recvCapacity := by
    rw [TCPReceiver.edge, hself.capacity]
    rfl
  refine ⟨fun f hf hrst hpos => hflow.onWire_sent hf hrst hpos, fun h hh => ⟨hflow.sizes h hh,
    fun hwindow => ⟨fun n hlo hhi => ?_, fun i f hf hrst hcopy hnear hsum => ?_⟩⟩⟩
  · rw [← hedge]
    exact hflow.number_lt_edge hh hwindow hlo hhi
  · have hfits : e.conn.receiver.absAck + e.conn.receiver.windowSize < 2 ^ 64 := by
      rw [TCPReceiver.absAck_add_windowSize, hedge]
      change _ + (if e.conn.inboundStream.inputEnded then 1 else 0) < _
      omega
    refine ⟨hflow.passes hh hwindow hcopy hnear hfits, fun hactive => ?_⟩
    have hafter : (sys.step (.deliver x i)).endpoint x = (e.receive f.segment).1 := by
      simp only [step, hf, put, Function.update_self]
      rfl
    have hretains := hflow.retains hh hwindow hcopy hnear hfits
    rw [hafter]
    rcases Endpoint.receive_receiver hout.sender hactive hrst with hsame | herror
    · rw [hsame]
      exact hretains
    · rw [herror]
      exact hretains

/-- A handshake, and a byte on its way from `a` to `b`. -/
def byteSent : List Move :=
  [.act .a .connect, .deliver .b 0, .deliver .a 0, .act .a (.write [97])]

/-- The byte as it was first sent, under the window `b` has advertised. -/
def byteHistory (window : Nat) : Sent :=
  ⟨1, { header := { seqno := ⟨8⟩ }, payload := [97] }, window⟩

/-- The byte as it is on the wire. -/
def byteFlight : Flight :=
  ⟨{ header := { seqno := ⟨8⟩, ack := true, ackno := ⟨8⟩, win := 64000 }, payload := [97] }, 1⟩

theorem flow_control_byteSent :
    ((((start (fun _ => {}) (fun _ => ⟨7⟩) (fun _ => ⟨0⟩)).run byteSent).step
      (.deliver .b 2)).endpoint .b).conn.receiver.Has 0 := by
  have hrun : (start (fun _ => {}) (fun _ => ⟨7⟩) (fun _ => ⟨0⟩)).WithinRun byteSent :=
    withinRun_of_short (start_linked _ _ _) (fun x => by cases x <;> decide +kernel)
  have hsent := (flow_control hrun .b).2 (byteHistory 64000) (by decide +kernel)
  have hheld := (hsent.2 (by decide)).2 2 byteFlight (by decide +kernel) rfl ⟨rfl, rfl, rfl, rfl⟩
    (by decide +kernel) (by decide +kernel)
  exact (hheld.2 (by decide +kernel)).1 0 ⟨by decide, by decide⟩

/-- **Where flow control fails.**  With a receive capacity of `2^64 - 1` bytes the sum in the
    window check of `segment_received` wraps around to zero: a byte sent under the advertised
    window, far below the right edge, is rejected when it is delivered. -/
theorem flow_control_overflow :
    let cfg : Side → TCPConfig := fun x => if x = .a then {} else { recvCapacity := 2 ^ 64 - 1 }
    let sys := (start cfg (fun _ => ⟨7⟩) (fun _ => ⟨0⟩)).run byteSent
    (start cfg (fun _ => ⟨7⟩) (fun _ => ⟨0⟩)).WithinRun (byteSent ++ [.deliver .b 2]) ∧
      byteHistory 65535 ∈ (sys.endpoint .a).history ∧ (sys.wire .a)[2]? = some byteFlight ∧
      Copies byteFlight.segment (byteHistory 65535).segment ∧
      (byteHistory 65535).seqno + (byteHistory 65535).segment.lengthInSequenceSpace
        ≤ 1 + (sys.endpoint .b).conn.inboundStream.bytesRead
          + (sys.endpoint .b).conn.cfg.recvCapacity ∧
      (sys.endpoint .b).conn.active = true ∧
      StreamReassembler.Span ((byteHistory 65535).seqno - 1) byteFlight.segment.payload 0 ∧
      ¬ ((sys.step (.deliver .b 2)).endpoint .b).conn.receiver.Has 0 := by
  refine ⟨withinRun_of_short (start_linked _ _ _) (fun x => by cases x <;> decide +kernel),
    by decide +kernel, by decide +kernel, ⟨rfl, rfl, rfl, rfl⟩, by decide +kernel,
    by decide +kernel, ⟨by decide, by decide⟩, by decide +kernel⟩

end System

end Sponge
