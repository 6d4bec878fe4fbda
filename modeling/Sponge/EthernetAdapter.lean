import Sponge.FdAdapter
import Sponge.InterfaceCargo
import Sponge.Router

namespace Sponge

/-!
# The Ethernet adapter

`TCPOverIPv4OverEthernetAdapter` has a network interface of its own and sends IPv4 datagrams as
Ethernet frames to a tap device.  A segment that is written may leave the adapter much later: its
datagram waits in the interface until the address of the next hop is known, and goes out when a
frame is read or not at all.  Frames also go out that carry no segment.  The adapter carries
segments faithfully nevertheless (`faithful`).
-/

/-- An adapter that writes Ethernet frames to a tap device. -/
structure TCPOverIPv4OverEthernetAdapter extends TCPOverIPv4Adapter where
  tap : FileDescriptor := {}
  interface : NetworkInterface
  nextHop : UInt32

namespace TCPOverIPv4OverEthernetAdapter

/-- A new adapter.  Its first frame is an empty one, for the device to ignore. -/
def new (tap : FileDescriptor) (ethernetAddress : EthernetAddress) (ipAddress nextHop : UInt32)
    (kernel : Nat → PacketAnswer) :
    Sending TCPOverIPv4OverEthernetAdapter (List UInt8) Unit :=
  let (result, tap, sent) := tap.writePacket (EthernetFrame.serialize {}) (kernel 0)
  { result := result
    adapter :=
      { tap := tap
        interface := { ethernetAddress := ethernetAddress, ipAddress := ipAddress }
        nextHop := nextHop }
    sent := sent }

/-- The loop of `send_pending` over the frames in the outbound queue, of which `k` have been sent.
    A frame leaves the queue after it has been written. -/
def sendFrames (kernel : Nat → PacketAnswer) : Nat → FileDescriptor → List EthernetFrame →
    Except Exception Unit × FileDescriptor × List EthernetFrame × List (List UInt8)
  | _, tap, [] => (.ok (), tap, [], [])
  | k, tap, frame :: frames =>
    match tap.writePacket frame.serialize (kernel k) with
    | (.error e, tap, sent) => (.error e, tap, frame :: frames, sent)
    | (.ok _, tap, sent) =>
      let (result, tap, left, later) := sendFrames kernel (k + 1) tap frames
      (result, tap, left, sent ++ later)

/-- Send any pending Ethernet frames. -/
def sendPending (a : TCPOverIPv4OverEthernetAdapter) (kernel : Nat → PacketAnswer) :
    Sending TCPOverIPv4OverEthernetAdapter (List UInt8) Unit :=
  let (result, tap, left, sent) := sendFrames kernel 0 a.tap a.interface.framesOut
  { result := result
    adapter := { a with tap := tap, interface := { a.interface with framesOut := left } }
    sent := sent }

/-- Read a frame and hand it to the interface, send what the interface has to say, and take the
    segment out of the datagram if there is one. -/
def read (a : TCPOverIPv4OverEthernetAdapter) (received : Except String (List UInt8))
    (kernel : Nat → PacketAnswer) :
    Sending TCPOverIPv4OverEthernetAdapter (List UInt8) (Option TCPSegment) :=
  match a.tap.read (2 ^ 64 - 1) received with
  | (.error e, tap) => { result := .error e, adapter := { a with tap := tap } }
  | (.ok bytes, tap) =>
    let a := { a with tap := tap }
    match EthernetFrame.parse {} (.ofString bytes) with
    | (.noError, frame) =>
      match a.interface.recvFrame frame with
      | (.error e, interface) =>
        { result := .error e, adapter := { a with interface := interface } }
      | (.ok ipDgram, interface) =>
        let pending := sendPending { a with interface := interface } kernel
        match pending.result, ipDgram with
        | .error e, _ => { result := .error e, adapter := pending.adapter, sent := pending.sent }
        | .ok _, none => { result := .ok none, adapter := pending.adapter, sent := pending.sent }
        | .ok _, some ipDgram =>
          let (result, base) := pending.adapter.unwrapTcpInIp ipDgram
          { result := result
            adapter := { pending.adapter with toTCPOverIPv4Adapter := base }
            sent := pending.sent }
    | _ => { result := .ok none, adapter := a }

/-- Time passes for the interface. -/
def tick (a : TCPOverIPv4OverEthernetAdapter) (msSinceLastTick : Nat)
    (kernel : Nat → PacketAnswer) : Sending TCPOverIPv4OverEthernetAdapter (List UInt8) Unit :=
  match a.interface.tick msSinceLastTick with
  | (.error e, interface) => { result := .error e, adapter := { a with interface := interface } }
  | (.ok _, interface) => sendPending { a with interface := interface } kernel

/-- Send a segment, in a datagram, in a frame. -/
def write (a : TCPOverIPv4OverEthernetAdapter) (seg : TCPSegment) (kernel : Nat → PacketAnswer) :
    TCPSegment × Sending TCPOverIPv4OverEthernetAdapter (List UInt8) Unit :=
  match a.wrapTcpInIp seg with
  | (.error e, seg) => (seg, { result := .error e, adapter := a })
  | (.ok ipDgram, seg) =>
    match a.interface.sendDatagram ipDgram a.nextHop with
    | (.error e, interface) =>
      (seg, { result := .error e, adapter := { a with interface := interface } })
    | (.ok _, interface) => (seg, sendPending { a with interface := interface } kernel)

instance : FdAdapter TCPOverIPv4OverEthernetAdapter (List UInt8) where
  fd := tap
  read := read
  write := write
  tick := tick

/-! ### The frames that are sent -/

/-- What is sent is a part of the queue, from its front, and all of it if nothing is thrown. -/
theorem sendFrames_spec (kernel : Nat → PacketAnswer) (frames : List EthernetFrame) :
    ∀ (k : Nat) (tap : FileDescriptor),
      ((sendFrames kernel k tap frames).2.2.1 ⊆ frames) ∧
      ((sendFrames kernel k tap frames).1 = .ok () →
        (sendFrames kernel k tap frames).2.2.1 = []) ∧
      (∀ bytes ∈ (sendFrames kernel k tap frames).2.2.2,
        ∃ frame ∈ frames, bytes = frame.serialize.concatenate) ∧
      (sendFrames kernel k tap frames).2.1.readCount = tap.readCount := by
  -- along the queue: a frame that cannot be sent leaves itself and the later ones in the queue
  induction frames with
  | nil => exact fun _ _ => ⟨List.Subset.refl _, fun _ => rfl, by simp [sendFrames], rfl⟩
  | cons frame frames ih =>
    intro k tap
    have hbytes := @FileDescriptor.mem_writePacket tap frame.serialize (kernel k)
    have hcount := tap.writePacket_readCount frame.serialize (kernel k)
    unfold sendFrames
    rcases hpacket : tap.writePacket frame.serialize (kernel k) with ⟨result, tap', sent⟩
    rw [hpacket] at hbytes hcount
    cases result with
    | error e =>
      exact ⟨List.Subset.refl _, nofun, fun bytes hmem => ⟨frame, by simp, hbytes hmem⟩, hcount⟩
    | ok _ =>
      obtain ⟨hleft, hall, hlater, hread⟩ := ih (k + 1) tap'
      refine ⟨List.subset_cons_of_subset _ hleft, hall, fun bytes hmem => ?_, hread.trans hcount⟩
      rcases List.mem_append.mp hmem with hnow | hthen
      · exact ⟨frame, by simp, hbytes hnow⟩
      · obtain ⟨frame', hframe', heq⟩ := hlater bytes hthen
        exact ⟨frame', List.mem_cons_of_mem _ hframe', heq⟩

/-- Frames of the interface `n` have been sent, and `m` has those that are left. -/
def Drains (n m : NetworkInterface) (sent : List (List UInt8)) : Prop :=
  ∃ left, left ⊆ n.framesOut ∧ m = { n with framesOut := left } ∧
    ∀ bytes ∈ sent, ∃ frame ∈ n.framesOut, bytes = frame.serialize.concatenate

/-- Sending no frame is a way of draining the interface. -/
theorem Drains.nothing (n : NetworkInterface) : Drains n n [] :=
  ⟨n.framesOut, List.Subset.refl _, rfl, by simp⟩

/-- The loop over the pending frames sends them in their order, up to the first one that is refused.
    -/
theorem sendPending_drains (a : TCPOverIPv4OverEthernetAdapter) (kernel : Nat → PacketAnswer) :
    Drains a.interface (a.sendPending kernel).adapter.interface (a.sendPending kernel).sent := by
  obtain ⟨hleft, -, hsent, -⟩ := sendFrames_spec kernel a.interface.framesOut 0 a.tap
  exact ⟨_, hleft, rfl, hsent⟩

/-- Writing does not count as reading. -/
theorem sendPending_readCount (a : TCPOverIPv4OverEthernetAdapter) (kernel : Nat → PacketAnswer) :
    (a.sendPending kernel).adapter.tap.readCount = a.tap.readCount :=
  (sendFrames_spec kernel a.interface.framesOut 0 a.tap).2.2.2

/-- A read hands at most one frame to the interface. -/
theorem read_drains (a : TCPOverIPv4OverEthernetAdapter) (received : Except String (List UInt8))
    (kernel : Nat → PacketAnswer) :
    ∃ n, (n = a.interface ∨ ∃ frame, n = (a.interface.recvFrame frame).2) ∧
      Drains n (a.read received kernel).adapter.interface (a.read received kernel).sent := by
  have hidle : ∃ n, (n = a.interface ∨ ∃ frame, n = (a.interface.recvFrame frame).2) ∧
      Drains n a.interface [] := ⟨_, Or.inl rfl, .nothing _⟩
  unfold read
  -- the read fails, or the bytes are no frame, or the interface gets the frame
  split
  · exact hidle
  rename_i bytes tap _
  dsimp only
  split
  swap
  · exact hidle
  rename_i frame _
  refine ⟨_, Or.inr ⟨frame, rfl⟩, ?_⟩
  split
  · -- an exception of the interface is thrown before anything is sent
    rename_i e interface heq
    rw [heq]
    exact .nothing _
  · rename_i ipDgram interface heq
    rw [heq]
    have hdrains := sendPending_drains { a with tap := tap, interface := interface } kernel
    split <;> exact hdrains

/-- A tick sends the frames that the interface has queued in it. -/
theorem tick_drains (a : TCPOverIPv4OverEthernetAdapter) (ms : Nat)
    (kernel : Nat → PacketAnswer) :
    Drains (a.interface.tick ms).2 (a.tick ms kernel).adapter.interface
      (a.tick ms kernel).sent := by
  unfold tick
  split
  · rename_i e interface heq
    rw [heq]
    exact .nothing _
  · rename_i interface heq
    rw [heq]
    exact sendPending_drains { a with interface := interface } kernel

/-- A write hands the datagram to the interface. -/
theorem write_drains (a : TCPOverIPv4OverEthernetAdapter) {seg : TCPSegment} (h : seg.Wrappable)
    (kernel : Nat → PacketAnswer) :
    Drains (a.interface.sendDatagram (a.wrapped seg) a.nextHop).2
      (a.write seg kernel).2.adapter.interface (a.write seg kernel).2.sent := by
  have hwrap := a.wrapTcpInIp_eq h.five_le
  unfold write
  -- a segment with `doff` at least five is serialized without an exception
  rcases hresult : a.wrapTcpInIp seg with ⟨result, seg'⟩
  rw [hresult] at hwrap
  dsimp only at hwrap
  subst hwrap
  dsimp only
  split
  · rename_i e interface heq
    rw [heq]
    exact .nothing _
  · rename_i interface heq
    rw [heq]
    exact sendPending_drains { a with interface := interface } kernel

/-! ### Faithfulness -/

/-- The datagram carries a segment that was written. -/
def WrapsWritten (written : List TCPSegment) (dgram : IPv4Datagram) (_ : UInt32) : Prop :=
  ∃ seg ∈ written, seg.Wrappable ∧ ∃ a : TCPOverIPv4Adapter, dgram = a.wrapped seg

/-- What is on the wire: frames with the segments that were written, and frames without
    datagrams. -/
def OnTap (written : List TCPSegment) (bytes : List UInt8) : Prop :=
  ∃ frame : EthernetFrame, bytes = frame.serialize.concatenate ∧
    (frame.header.type = EthernetHeader.typeIPv4 →
      ∃ dgram hop, WrapsWritten written dgram hop ∧ dgram.serialize = .ok frame.payload)

/-- The interface holds datagrams with the segments that were written. -/
abbrev Holds (written : List TCPSegment) (n : NetworkInterface) : Prop :=
  n.Cargo (WrapsWritten written) fun _ _ => True

section

variable {written : List TCPSegment} {n m : NetworkInterface} {packets sent : List (List UInt8)}

/-- What carries a segment that was written still does when more has been written. -/
theorem WrapsWritten.append {dgram : IPv4Datagram} {hop : UInt32} (seg : TCPSegment)
    (h : WrapsWritten written dgram hop) : WrapsWritten (written ++ [seg]) dgram hop := by
  obtain ⟨seg', hmem, hrest⟩ := h
  exact ⟨seg', List.mem_append_left _ hmem, hrest⟩

/-- The same for what is on the wire. -/
theorem OnTap.append {bytes : List UInt8} (seg : TCPSegment) (h : OnTap written bytes) :
    OnTap (written ++ [seg]) bytes := by
  obtain ⟨frame, hbytes, hframe⟩ := h
  refine ⟨frame, hbytes, fun htype => ?_⟩
  obtain ⟨dgram, hop, hwraps, hok⟩ := hframe htype
  exact ⟨dgram, hop, hwraps.append seg, hok⟩

/-- **Sending frames** keeps what is held, and puts nothing else on the wire. -/
theorem Holds.drains (h : Holds written n) (hdrains : Drains n m sent)
    (hpackets : ∀ p ∈ packets, OnTap written p) :
    Holds written m ∧ ∀ p ∈ packets ++ sent, OnTap written p := by
  obtain ⟨left, hleft, rfl, hsent⟩ := hdrains
  refine ⟨⟨fun frame hframe => h.frames frame (hleft hframe), h.mappings, h.waiting⟩, ?_⟩
  refine List.forall_mem_append.mpr ⟨hpackets, fun bytes hmem => ?_⟩
  obtain ⟨frame, hframe, hbytes⟩ := hsent bytes hmem
  refine ⟨frame, hbytes, fun htype => ?_⟩
  rcases h.frames frame hframe with
    ⟨dst, message, -, -, -, rfl⟩ | ⟨dgram, hop, mac, hwraps, -, -, hok⟩
  · -- a message is not a datagram
    exact absurd (show EthernetHeader.typeARP = EthernetHeader.typeIPv4 from htype) (by decide)
  · exact ⟨dgram, hop, hwraps, hok⟩

end

/-- What was read from the device, if a segment is returned. -/
theorem read_some {b : TCPOverIPv4OverEthernetAdapter} {bytes : List UInt8}
    {kernel : Nat → PacketAnswer} {seg : TCPSegment}
    (h : (b.read (.ok bytes) kernel).result = .ok (some seg)) :
    ∃ (n : NetworkInterface) (base : TCPOverIPv4Adapter) (dgram : IPv4Datagram),
      (n.recvFrame (EthernetFrame.parse {} (.ofString bytes)).2).1 = .ok (some dgram) ∧
        (base.unwrapTcpInIp dgram).1 = .ok (some seg) := by
  unfold read at h
  rcases hread : b.tap.read (2 ^ 64 - 1) (.ok bytes) with ⟨result, tap⟩
  rw [hread] at h
  -- a segment comes out only when each of these steps succeeds
  cases result with
  | error e => cases h
  | ok str =>
    obtain rfl : bytes = str := Except.ok.inj (FileDescriptor.read_ok hread).1
    dsimp only at h
    split at h
    swap
    · cases h
    rename_i frame hparse
    rw [hparse]
    split at h
    · cases h
    rename_i ipDgram interface hrecv
    split at h
    · cases h
    · cases h
    · rename_i dgram _
      exact ⟨b.interface, _, dgram, by rw [hrecv], h⟩

/-- A read that returns has counted as one, whether or not the frame was for us. -/
theorem read_counts (a : TCPOverIPv4OverEthernetAdapter) (received : Except String (List UInt8))
    (kernel : Nat → PacketAnswer) {seg : Option TCPSegment}
    (h : (a.read received kernel).result = .ok seg) :
    (a.read received kernel).adapter.tap.readCount = a.tap.readCount + 1 := by
  unfold read at h ⊢
  rcases hread : a.tap.read (2 ^ 64 - 1) received with ⟨result, tap⟩
  rw [hread] at h
  cases result with
  | error e => cases h
  | ok str =>
    -- the bytes have been read, whatever is done with them later
    rw [← (FileDescriptor.read_ok hread).2.2.1]
    dsimp only at h ⊢
    split
    swap
    · rfl
    split
    · rfl
    · rename_i ipDgram interface _
      have hcount := sendPending_readCount { a with tap := tap, interface := interface } kernel
      split <;> exact hcount

/-- The datagram in a frame on the wire is one with a segment that was written. -/
theorem OnTap.like {written : List TCPSegment} {bytes : List UInt8} (h : OnTap written bytes)
    {n : NetworkInterface} {base : TCPOverIPv4Adapter} {dgram : IPv4Datagram} {seg : TCPSegment}
    (hrecv : (n.recvFrame (EthernetFrame.parse {} (.ofString bytes)).2).1 = .ok (some dgram))
    (hunwrap : (base.unwrapTcpInIp dgram).1 = .ok (some seg)) :
    ∃ seg0 ∈ written, seg.Like seg0 := by
  obtain ⟨frame, rfl, hframe⟩ := h
  have hbytes : (Buffer.ofString frame.serialize.concatenate).str = frame.serialize.concatenate :=
    Buffer.str_ofString _
  obtain ⟨-, hheader, hpayload⟩ := EthernetFrame.parse_serialize hbytes {}
  obtain ⟨htype, buffer, hbuffer, hparse⟩ := NetworkInterface.recvFrame_some hrecv
  -- the frame is of the type it was sent with, so it holds a datagram of one of the segments
  rw [hheader] at htype
  obtain ⟨dgram0, -, ⟨seg0, hmem, hseg0, a, rfl⟩, hok⟩ := hframe htype
  rw [TCPOverIPv4Adapter.serialize_wrapped hseg0 a] at hok
  have hstr : buffer.str = a.datagramBytes seg0 := by
    rw [← BufferList.concatenate_of_toBuffer hbuffer, hpayload, ← Except.ok.inj hok,
      BufferList.concatenate_append, BufferList.concatenate_ofString]
    rfl
  have hunwrap' : (base.unwrapTcpInIp (IPv4Datagram.parse {} buffer).2).1 = .ok (some seg) := by
    rw [hparse]
    exact hunwrap
  exact ⟨seg0, hmem, TCPOverIPv4Adapter.like_of_unwrap hseg0 hstr hunwrap'⟩

/-- **IPv4 over Ethernet carries segments faithfully**, whatever other frames the device has, and
    however long the datagrams wait for an address. -/
def faithful : Faithful TCPOverIPv4OverEthernetAdapter where
  Sends := fun written packets a =>
    Holds written a.interface ∧ ∀ p ∈ packets, OnTap written p
  read_keeps := by
    rintro written packets a ⟨hholds, hpackets⟩ received kernel
    obtain ⟨n, rfl | ⟨frame, rfl⟩, hdrains⟩ := a.read_drains received kernel
    · exact Holds.drains hholds hdrains hpackets
    · exact Holds.drains (hholds.recvFrame fun _ _ => trivial) hdrains hpackets
  write_keeps := by
    rintro written packets a seg ⟨hholds, hpackets⟩ hseg kernel
    have hmore : Holds (written ++ [seg]) a.interface :=
      hholds.mono (fun _ _ hwraps => hwraps.append seg) fun _ _ => id
    have hwraps : WrapsWritten (written ++ [seg]) (a.wrapped seg) a.nextHop :=
      ⟨seg, by simp, hseg, a.toTCPOverIPv4Adapter, rfl⟩
    exact Holds.drains (hmore.sendDatagram hwraps) (a.write_drains hseg kernel)
      fun p hp => (hpackets p hp).append seg
  tick_keeps := by
    rintro written packets a ⟨hholds, hpackets⟩ ms kernel
    exact Holds.drains (hholds.tick ms) (a.tick_drains ms kernel) hpackets
  received := by
    rintro written packets a packet ⟨-, hpackets⟩ hpacket b kernel seg hread
    obtain ⟨n, base, dgram, hrecv, hunwrap⟩ := read_some hread
    exact (hpackets packet hpacket).like hrecv hunwrap
  read_failed := fun _ _ _ _ h => by cases h
  read_counts := fun a received kernel _ h => a.read_counts received kernel h
  write_like := by
    intro a seg kernel
    show (a.write seg kernel).1.Like seg
    have hlike := TCPOverIPv4Adapter.wrapTcpInIp_like a.toTCPOverIPv4Adapter seg
    unfold write
    split
    · rename_i hwrap
      rw [hwrap] at hlike
      exact hlike
    · rename_i hwrap
      rw [hwrap] at hlike
      split <;> exact hlike

end TCPOverIPv4OverEthernetAdapter

end Sponge
