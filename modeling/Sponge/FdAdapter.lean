import Sponge.TCPOverIP
import Sponge.FileDescriptor

namespace Sponge

/-!
# Adapters

An adapter carries the segments of one connection over a device of the kernel: a UDP socket, a tun
device that takes IPv4 datagrams, or a tap device that takes Ethernet frames.  `FdAdapter` is what a
socket needs of it.  A packet of the device is read or written whole; what the kernel answers is an
argument, as for any system call.

What a connection relies on is `Faithful`: whatever happens on both sides and however packets are
lost, repeated and delayed, a segment that comes out of a packet of the peer is one that the peer
has put in, but for the ports and the checksum.  `TCPOverUDPSocketAdapter` and
`TCPOverIPv4OverTunFdAdapter` are faithful, and so is every faithful adapter that is made lossy by
`LossyFdAdapter`.
-/

/-! ### Segments in packets -/

namespace TCPSegment

/-- The segment is `seg0` but for the fields an adapter fills in. -/
def Like (seg seg0 : TCPSegment) : Prop :=
  ∃ sport dport cksum, seg =
    { seg0 with header := { seg0.header with sport := sport, dport := dport, cksum := cksum } }

/-- The segment has a header without options and fits into an IPv4 datagram. -/
structure Wrappable (seg : TCPSegment) : Prop where
  doff : seg.header.doff = 5
  size : seg.payload.length ≤ 65535 - 20 - 20

theorem Wrappable.five_le {seg : TCPSegment} (h : seg.Wrappable) : 5 ≤ seg.header.doff := by
  rw [h.doff]
  decide

theorem Wrappable.doff_toNat {seg : TCPSegment} (h : seg.Wrappable) :
    seg.header.doff.toNat = 5 := by
  rw [h.doff]
  rfl

/-- The segment with other ports. -/
def withPorts (sport dport : UInt16) (seg : TCPSegment) : TCPSegment :=
  { seg with header := { seg.header with sport := sport, dport := dport } }

theorem Like.refl (seg : TCPSegment) : seg.Like seg := ⟨_, _, _, rfl⟩

/-- Two adapters on the way change no more than one does. -/
theorem Like.trans {seg seg' seg'' : TCPSegment} (h : seg.Like seg') (h' : seg'.Like seg'') :
    seg.Like seg'' := by
  obtain ⟨sport, dport, cksum, rfl⟩ := h
  obtain ⟨_, _, _, rfl⟩ := h'
  exact ⟨sport, dport, cksum, rfl⟩

/-- The fields an adapter fills in do not change the size. -/
theorem Like.wrappable {seg seg' : TCPSegment} (h : seg.Like seg') (h' : seg'.Wrappable) :
    seg.Wrappable := by
  obtain ⟨_, _, _, rfl⟩ := h
  exact ⟨h'.doff, h'.size⟩

/-- A segment without options can be serialized, whatever its ports are. -/
theorem serialize_withPorts {seg : TCPSegment} (h : seg.Wrappable) (sport dport : UInt16)
    (sum : UInt32) : (seg.withPorts sport dport).serialize sum =
      .ok ⟨[Buffer.ofString ((seg.withPorts sport dport).headerBytes sum),
        Buffer.ofString seg.payload]⟩ :=
  @serialize_eq (seg.withPorts sport dport) h.five_le sum

/-- What is parsed from the bytes of a segment is like it. -/
theorem like_of_parse {seg seg' seg₀ : TCPSegment} (h : seg.Wrappable) {sport dport : UInt16}
    {sum : UInt32} (hsum : sum.toNat ≤ 2 ^ 20) {buffer : Buffer}
    (hbuffer : buffer.str = (seg.withPorts sport dport).headerBytes sum ++ seg.payload)
    (hparse : seg₀.parse buffer sum = (.noError, seg')) : seg'.Like seg := by
  have hsize := h.size
  have hdoff := h.doff_toNat
  have hback := @parse_serialized (seg.withPorts sport dport) sum
    (show seg.header.doff.toNat ≤ 15 by omega) h.five_le
    (show 4 * seg.header.doff.toNat + seg.payload.length ≤ 65535 by omega) hsum seg₀ buffer hbuffer
  rw [hparse] at hback
  rw [(Prod.mk.inj hback).2]
  exact ⟨sport, dport, _, rfl⟩

end TCPSegment

/-- What the call of an adapter leaves behind: its result, the adapter, and the packets it has
    sent. -/
structure Sending (α π ρ : Type) where
  result : Except Exception ρ
  adapter : α
  sent : List π := []

/-- An adapter for the packets `π`.  The kernel answers a read with a packet, and the `k`-th write
    of a call with the number of bytes it has taken.  `write` also returns the segment, whose ports
    it sets. -/
class FdAdapter (α : Type) (π : outParam Type) where
  fd : α → FileDescriptor
  read : α → Except String π → (Nat → PacketAnswer) → Sending α π (Option TCPSegment)
  write : α → TCPSegment → (Nat → PacketAnswer) → TCPSegment × Sending α π Unit
  tick : α → Nat → (Nat → PacketAnswer) → Sending α π Unit

/-- **Faithfulness.**  `Sends written packets a` relates the segments that were written to an
    adapter to the packets it has sent; it is kept by every call.  A segment that is read from one
    of the packets, by whatever adapter, is like one that was written, and without a packet there is
    none.  A read that returns has counted as one, and a segment that was written is given back with
    nothing but its ports changed. -/
structure Faithful (α : Type) {π : Type} [FdAdapter α π] where
  Sends : List TCPSegment → List π → α → Prop
  read_keeps : ∀ {written packets a}, Sends written packets a → ∀ received kernel,
    Sends written (packets ++ (FdAdapter.read a received kernel).sent)
      (FdAdapter.read a received kernel).adapter
  write_keeps : ∀ {written packets a seg}, Sends written packets a → seg.Wrappable → ∀ kernel,
    Sends (written ++ [seg]) (packets ++ (FdAdapter.write a seg kernel).2.sent)
      (FdAdapter.write a seg kernel).2.adapter
  tick_keeps : ∀ {written packets a}, Sends written packets a → ∀ ms kernel,
    Sends written (packets ++ (FdAdapter.tick a ms kernel).sent)
      (FdAdapter.tick a ms kernel).adapter
  received : ∀ {written packets a packet}, Sends written packets a → packet ∈ packets →
    ∀ (b : α) kernel seg, (FdAdapter.read b (.ok packet) kernel).result = .ok (some seg) →
      ∃ seg0 ∈ written, seg.Like seg0
  read_failed : ∀ (a : α) what kernel seg,
    (FdAdapter.read a (.error what) kernel).result ≠ .ok (some seg)
  read_counts : ∀ (a : α) received kernel seg,
    (FdAdapter.read a received kernel).result = .ok seg →
      (FdAdapter.fd (FdAdapter.read a received kernel).adapter).readCount
        = (FdAdapter.fd a).readCount + 1
  write_like : ∀ (a : α) seg kernel, (FdAdapter.write a seg kernel).1.Like seg

/-- Every packet carries a segment that was written. -/
def CarriesWritten {π : Type} (Carries : TCPSegment → π → Prop) (written : List TCPSegment)
    (packets : List π) : Prop :=
  ∀ p ∈ packets, ∃ seg ∈ written, seg.Wrappable ∧ Carries seg p

/-- One more segment is written, and the packets sent with it carry it. -/
theorem CarriesWritten.append {π : Type} {Carries : TCPSegment → π → Prop}
    {written : List TCPSegment} {packets sent : List π} {seg : TCPSegment}
    (h : CarriesWritten Carries written packets) (hseg : seg.Wrappable)
    (hsent : ∀ p ∈ sent, Carries seg p) :
    CarriesWritten Carries (written ++ [seg]) (packets ++ sent) := by
  intro p hp
  rcases List.mem_append.mp hp with hbefore | hnow
  · obtain ⟨seg', hmem, hrest⟩ := h p hbefore
    exact ⟨seg', List.mem_append_left _ hmem, hrest⟩
  · exact ⟨seg, by simp, hseg, hsent p hnow⟩

/-- An adapter that sends nothing but the segments it is to write, each in packets of its own. -/
def Faithful.ofCarries {α π : Type} [FdAdapter α π] (Carries : TCPSegment → π → Prop)
    (read_silent : ∀ (a : α) received kernel, (FdAdapter.read a received kernel).sent = [])
    (tick_silent : ∀ (a : α) ms kernel, (FdAdapter.tick a ms kernel).sent = [])
    (write_sent : ∀ (a : α) {seg : TCPSegment} kernel, seg.Wrappable →
      ∀ p ∈ (FdAdapter.write a seg kernel).2.sent, Carries seg p)
    (received : ∀ (b : α) {packet seg seg'} kernel, TCPSegment.Wrappable seg → Carries seg packet →
      (FdAdapter.read b (.ok packet) kernel).result = .ok (some seg') → seg'.Like seg)
    (read_failed : ∀ (a : α) what kernel seg,
      (FdAdapter.read a (.error what) kernel).result ≠ .ok (some seg))
    (read_counts : ∀ (a : α) received kernel seg,
      (FdAdapter.read a received kernel).result = .ok seg →
        (FdAdapter.fd (FdAdapter.read a received kernel).adapter).readCount
          = (FdAdapter.fd a).readCount + 1)
    (write_like : ∀ (a : α) seg kernel, (FdAdapter.write a seg kernel).1.Like seg) :
    Faithful α where
  Sends := fun written packets _ => CarriesWritten Carries written packets
  read_keeps := by
    intro written packets a h answer kernel
    rwa [read_silent, List.append_nil]
  write_keeps := fun h hseg kernel => h.append hseg (write_sent _ kernel hseg)
  tick_keeps := by
    intro written packets a h ms kernel
    rwa [tick_silent, List.append_nil]
  received := by
    intro written packets a packet h hpacket b kernel seg' hread
    obtain ⟨seg, hmem, hseg, hcarries⟩ := h packet hpacket
    exact ⟨seg, hmem, received b kernel hseg hcarries hread⟩
  read_failed := read_failed
  read_counts := read_counts
  write_like := write_like

/-- **Robustness.**  An adapter that gets segments it can send throws nothing but what a system call
    makes it throw. -/
structure Robust (α : Type) {π : Type} [FdAdapter α π] : Prop where
  read : ∀ (a : α) received kernel e, (FdAdapter.read a received kernel).result = .error e →
    CallFailure e
  write : ∀ (a : α) seg kernel e, TCPSegment.Wrappable seg →
    (FdAdapter.write a seg kernel).2.result = .error e → CallFailure e
  tick : ∀ (a : α) ms kernel e, (FdAdapter.tick a ms kernel).result = .error e → CallFailure e

/-! ### Over UDP -/

/-- A UDP datagram on its way. -/
structure UDPDatagram where
  sourceAddress : Address
  destination : Address
  payload : List UInt8
  deriving DecidableEq, Repr

/-- An adapter that puts segments into UDP datagrams.  `localAddress` is the address of the
    socket. -/
structure TCPOverUDPSocketAdapter where
  cfg : FdAdapterConfig := {}
  listen : Bool := false
  sock : FileDescriptor := {}
  localAddress : Address := {}
  deriving DecidableEq, Repr

namespace TCPOverUDPSocketAdapter

/-- Receive a datagram, which may not be larger than `mtu`. -/
def recv (a : TCPOverUDPSocketAdapter) (received : Except String UDPDatagram) :
    Except Exception UDPDatagram × TCPOverUDPSocketAdapter :=
  let mtu := 65536
  match systemCall "recvfrom" received with
  | .error e => (.error e, a)
  | .ok datagram =>
    if datagram.payload.length > mtu then
      (.error (.runtimeError "recvfrom (oversized datagram)"), a)
    else (.ok datagram, { a with sock := a.sock.registerRead })

/-- Read a segment: from the peer, or from whoever opens a connection. -/
def read (a : TCPOverUDPSocketAdapter) (received : Except String UDPDatagram) :
    Sending TCPOverUDPSocketAdapter UDPDatagram (Option TCPSegment) :=
  match a.recv received with
  | (.error e, a) => { result := .error e, adapter := a }
  | (.ok datagram, a) =>
    if ¬ a.listen ∧ datagram.sourceAddress ≠ a.cfg.destination then
      { result := .ok none, adapter := a }
    else
      let (result, seg) := TCPSegment.parse {} (.ofString datagram.payload) 0
      if result ≠ .noError then { result := .ok none, adapter := a }
      else if a.listen then
        if seg.header.syn ∧ ¬ seg.header.rst then
          { result := .ok (some seg)
            adapter :=
              { a with
                cfg := { a.cfg with destination := datagram.sourceAddress }
                listen := false } }
        else { result := .ok none, adapter := a }
      else { result := .ok (some seg), adapter := a }

/-- Set the port numbers of a segment. -/
def setPorts (a : TCPOverUDPSocketAdapter) (seg : TCPSegment) : TCPSegment :=
  { seg with
    header := { seg.header with sport := a.cfg.source.port, dport := a.cfg.destination.port } }

/-- Hand the payload of a datagram to the kernel, and what is sent.  A datagram is sent whole or not
    at all; a kernel that reports another number of bytes has broken its word. -/
def sendmsgHelper (payload : BufferList) (answer : PacketAnswer) :
    Except Exception (List UInt8) :=
  match systemCall "sendmsg" (answer payload.size) with
  | .error e => .error e
  | .ok bytesSent =>
    if bytesSent ≠ payload.size then
      .error (.runtimeError "datagram payload too big for sendmsg()")
    else .ok payload.concatenate

/-- Write a segment as the payload of a datagram. -/
def write (a : TCPOverUDPSocketAdapter) (seg : TCPSegment) (kernel : Nat → PacketAnswer) :
    TCPSegment × Sending TCPOverUDPSocketAdapter UDPDatagram Unit :=
  let seg := a.setPorts seg
  match seg.serialize 0 with
  | .error e => (seg, { result := .error e, adapter := a })
  | .ok payload =>
    match sendmsgHelper payload (kernel 0) with
    | .error e => (seg, { result := .error e, adapter := a })
    | .ok sent =>
      (seg,
        { result := .ok ()
          adapter := { a with sock := a.sock.registerWrite }
          sent := [⟨a.localAddress, a.cfg.destination, sent⟩] })

instance : FdAdapter TCPOverUDPSocketAdapter UDPDatagram where
  fd := sock
  read := fun a received _ => a.read received
  write := write
  tick := fun a _ _ => { result := .ok (), adapter := a }

/-- The call is refused, or the datagram is too large; otherwise the read is counted. -/
theorem recv_cases (a : TCPOverUDPSocketAdapter) (received : Except String UDPDatagram) :
    (∃ e, CallFailure e ∧ a.recv received = (.error e, a)) ∨
      ∃ datagram, received = .ok datagram ∧
        a.recv received = (.ok datagram, { a with sock := a.sock.registerRead }) := by
  unfold recv
  cases received with
  | error what => exact Or.inl ⟨_, .refused "recvfrom" what (by simp), rfl⟩
  | ok datagram =>
    dsimp only [systemCall]
    by_cases hsize : datagram.payload.length > 65536
    · rw [if_pos hsize]
      exact Or.inl ⟨_, .oversized, rfl⟩
    · rw [if_neg hsize]
      exact Or.inr ⟨datagram, rfl, rfl⟩

/-- What was read from the socket, if a segment is returned. -/
theorem read_some {a : TCPOverUDPSocketAdapter} {datagram : UDPDatagram} {seg : TCPSegment}
    (h : (a.read (.ok datagram)).result = .ok (some seg)) :
    TCPSegment.parse {} (.ofString datagram.payload) 0 = (.noError, seg) := by
  unfold read at h
  obtain ⟨e, -, hrecv⟩ | ⟨datagram', heq, hrecv⟩ := a.recv_cases (.ok datagram)
  · rw [hrecv] at h
    cases h
  cases heq
  rw [hrecv] at h
  dsimp only at h
  cases hparse : TCPSegment.parse {} (.ofString datagram.payload) 0 with
  | mk result parsed =>
    rw [hparse] at h
    dsimp only at h
    -- each check that fails returns nothing
    split_ifs at h with hsource hresult hlisten hsyn
    · cases h
    · cases h
    · rw [not_not.mp hresult, Option.some.inj (Except.ok.inj h)]
    · cases h
    · rw [not_not.mp hresult, Option.some.inj (Except.ok.inj h)]

/-- A datagram that is received counts, whether or not there is a segment in it. -/
theorem read_counts (a : TCPOverUDPSocketAdapter) (received : Except String UDPDatagram)
    {seg : Option TCPSegment} (h : (a.read received).result = .ok seg) :
    (a.read received).adapter.sock.readCount = a.sock.readCount + 1 := by
  unfold read at h ⊢
  obtain ⟨e, -, hrecv⟩ | ⟨datagram, -, hrecv⟩ := a.recv_cases received
  · rw [hrecv] at h
    cases h
  · rw [hrecv]
    dsimp only
    split_ifs <;> rfl

/-- Reading sends nothing. -/
theorem read_silent (a : TCPOverUDPSocketAdapter) (received : Except String UDPDatagram) :
    (a.read received).sent = [] := by
  unfold read
  split
  · rfl
  · dsimp only
    split_ifs <;> rfl

/-- The payload of the datagram is the segment. -/
def Carries (seg : TCPSegment) (datagram : UDPDatagram) : Prop :=
  ∃ sport dport, datagram.payload = (seg.withPorts sport dport).headerBytes 0 ++ seg.payload

/-- What is sent is the whole payload. -/
theorem sendmsgHelper_ok {payload : BufferList} {answer : PacketAnswer} {sent : List UInt8}
    (h : sendmsgHelper payload answer = .ok sent) : sent = payload.concatenate := by
  unfold sendmsgHelper at h
  split at h
  · cases h
  · split_ifs at h
    exact (Except.ok.inj h).symm

/-- The two ways to fail: the call is refused, or its count is not the size of the payload. -/
theorem sendmsgHelper_error {payload : BufferList} {answer : PacketAnswer} {e : Exception}
    (h : sendmsgHelper payload answer = .error e) : CallFailure e := by
  unfold sendmsgHelper at h
  cases hanswer : answer payload.size with
  | error what =>
    rw [hanswer] at h
    cases h
    exact .refused "sendmsg" what (by simp)
  | ok bytesSent =>
    rw [hanswer] at h
    dsimp only [systemCall] at h
    split_ifs at h
    cases h
    exact .tooBig

/-- The kernel refuses the datagram of a segment, or sends it with the segment as its payload. -/
theorem write_cases (a : TCPOverUDPSocketAdapter) {seg : TCPSegment} (kernel : Nat → PacketAnswer)
    (h : seg.Wrappable) :
    (∃ e, CallFailure e ∧ (a.write seg kernel).2 = { result := .error e, adapter := a }) ∨
      ∃ datagram, Carries seg datagram ∧
        (a.write seg kernel).2 =
          { result := .ok ()
            adapter := { a with sock := a.sock.registerWrite }
            sent := [datagram] } := by
  have hserialize := TCPSegment.serialize_withPorts h a.cfg.source.port a.cfg.destination.port 0
  unfold write
  dsimp only
  rw [show a.setPorts seg = seg.withPorts a.cfg.source.port a.cfg.destination.port from rfl,
    hserialize]
  dsimp only
  -- a wrappable segment serializes, so only the kernel is left to fail
  split
  · rename_i e hfailed
    exact Or.inl ⟨e, sendmsgHelper_error hfailed, rfl⟩
  · rename_i sent hsent
    refine Or.inr ⟨_, ⟨a.cfg.source.port, a.cfg.destination.port, ?_⟩, rfl⟩
    show sent = _
    rw [sendmsgHelper_ok hsent]
    simp [BufferList.concatenate_eq]

/-- A datagram is sent only for the segment that was to be written, and has it as its payload. -/
theorem write_sent (a : TCPOverUDPSocketAdapter) {seg : TCPSegment} (kernel : Nat → PacketAnswer)
    (h : seg.Wrappable) : ∀ p ∈ (a.write seg kernel).2.sent, Carries seg p := by
  intro p hp
  obtain ⟨e, -, heq⟩ | ⟨datagram, hcarries, heq⟩ := a.write_cases kernel h
  · rw [heq] at hp
    cases hp
  · rw [heq] at hp
    rw [List.mem_singleton.mp hp]
    exact hcarries

/-- **UDP carries segments faithfully.** -/
def faithful : Faithful TCPOverUDPSocketAdapter :=
  .ofCarries Carries (fun a received _ => a.read_silent received) (fun _ _ _ => rfl)
    (fun a _ kernel h => a.write_sent kernel h)
    (by
      rintro b packet seg seg' kernel hseg ⟨sport, dport, hpayload⟩ hread
      have hbuffer : (Buffer.ofString packet.payload).str
          = (seg.withPorts sport dport).headerBytes 0 ++ seg.payload := by
        simpa using hpayload
      exact TCPSegment.like_of_parse hseg (by decide) hbuffer (read_some hread))
    (fun _ _ _ _ h => by cases h) (fun a received _ _ h => a.read_counts received h)
    (by
      intro a seg kernel
      show (a.write seg kernel).1.Like seg
      unfold write
      dsimp only
      split
      · exact ⟨_, _, _, rfl⟩
      · split <;> exact ⟨_, _, _, rfl⟩)

/-- Once a datagram has been received nothing throws. -/
theorem read_error {a : TCPOverUDPSocketAdapter} {received : Except String UDPDatagram}
    {e : Exception} (h : (a.read received).result = .error e) : CallFailure e := by
  unfold read at h
  obtain ⟨e', hcall, hrecv⟩ | ⟨datagram, -, hrecv⟩ := a.recv_cases received
  · rw [hrecv] at h
    rwa [← Except.error.inj h]
  · rw [hrecv] at h
    dsimp only at h
    split_ifs at h

/-- **Over UDP only the kernel can make an adapter throw.** -/
theorem robust : Robust TCPOverUDPSocketAdapter where
  read := fun _ _ _ _ h => read_error h
  write := by
    intro a seg kernel e hseg h
    replace h : (a.write seg kernel).2.result = .error e := h
    obtain ⟨e', hcall, heq⟩ | ⟨datagram, -, heq⟩ := a.write_cases kernel hseg
    · rw [heq] at h
      rwa [← Except.error.inj h]
    · rw [heq] at h
      cases h
  tick := fun _ _ _ _ h => by cases h

end TCPOverUDPSocketAdapter

/-! ### Segments in IPv4 datagrams -/

/-- Conversely, a payload that converts to one buffer was in one piece. -/
theorem IPv4Datagram.contiguous_of_toBuffer {d : IPv4Datagram} {buffer : Buffer}
    (h : d.payload.toBuffer = .ok buffer) : d.Contiguous := by
  unfold BufferList.toBuffer at h
  unfold Contiguous
  split at h
  · rename_i hbuffers
    simp [hbuffers]
  · rename_i hbuffers
    simp [hbuffers]
  · cases h

/-- What is parsed is in one piece. -/
theorem IPv4Datagram.parse_contiguous (d : IPv4Datagram) (buffer : Buffer) :
    (d.parse buffer).2.Contiguous := by
  unfold parse
  dsimp only
  split <;> exact le_refl 1

namespace TCPOverIPv4Adapter

/-- The bytes of the datagram that carries a segment. -/
def datagramBytes (a : TCPOverIPv4Adapter) (seg : TCPSegment) : List UInt8 :=
  IPv4Datagram.headerBytes (a.wrapped seg).header ++ (a.wrapped seg).payload.concatenate

section

variable {seg : TCPSegment} (h : seg.Wrappable) (a : TCPOverIPv4Adapter)
include h

/-- The datagram around a small segment says its true length. -/
theorem wrapped_fits_of_wrappable : (a.wrapped seg).Fits := by
  have hsize := h.size
  have hdoff := h.doff_toNat
  exact a.wrapped_fits h.five_le (by omega) (by omega)

/-- So it can be serialized. -/
theorem serialize_wrapped :
    (a.wrapped seg).serialize = .ok ((BufferList.ofString
      (IPv4Datagram.headerBytes (a.wrapped seg).header)).append (a.wrapped seg).payload) :=
  IPv4Datagram.serialize_eq (wrapped_fits_of_wrappable h a).wellFormed

/-- The segment is found again in the datagram that is parsed. -/
theorem segmentIn_parsed (d : IPv4Datagram) {buffer : Buffer}
    (hbuffer : buffer.str = a.datagramBytes seg) :
    (d.parse buffer).2.segmentIn = some (a.received seg) := by
  have hsize := h.size
  have hdoff := h.doff_toNat
  obtain ⟨-, hheader, rest, hpayload, hrest⟩ :=
    (wrapped_fits_of_wrappable h a).parse_serialized d hbuffer
  have hproto : (d.parse buffer).2.header.proto = protoTcp := by
    rw [hheader]
    rfl
  -- the checksum of the header is not in the pseudo-header
  have hparse : TCPSegment.parse {} rest (d.parse buffer).2.header.pseudoCksum
      = (.noError, a.received seg) := by
    rw [hheader]
    exact a.parse_wrapped h.five_le (by omega) (by omega) hrest
  rw [IPv4Datagram.segmentIn_eq _ hproto (congrArg BufferList.toBuffer hpayload) hparse,
    if_pos rfl]

end

/-- Only the segment in the datagram is let through. -/
theorem segmentIn_of_unwrap {a : TCPOverIPv4Adapter} {d : IPv4Datagram} {seg : TCPSegment}
    (h : (a.unwrapTcpInIp d).1 = .ok (some seg)) : d.segmentIn = some seg := by
  -- a payload in several buffers is an exception, never a segment
  cases hbuffer : d.payload.toBuffer with
  | error e =>
    unfold unwrapTcpInIp at h
    rw [hbuffer] at h
    split_ifs at h <;> cases h
  | ok buffer =>
    rw [unwrapTcpInIp_eq (IPv4Datagram.contiguous_of_toBuffer hbuffer)] at h
    cases hseg : d.segmentIn with
    | none =>
      rw [hseg] at h
      split_ifs at h <;> cases h
    | some seg' =>
      rw [hseg] at h
      dsimp only at h
      split_ifs at h <;> cases h <;> rfl

/-- A datagram that is in one piece does no harm. -/
theorem unwrapTcpInIp_ok (a : TCPOverIPv4Adapter) {d : IPv4Datagram} (hd : d.Contiguous) :
    ∃ seg, (a.unwrapTcpInIp d).1 = .ok seg := by
  rw [unwrapTcpInIp_eq hd]
  cases d.segmentIn with
  | none => split_ifs <;> exact ⟨none, rfl⟩
  | some seg =>
    dsimp only
    split_ifs
    all_goals first | exact ⟨none, rfl⟩ | exact ⟨some seg, rfl⟩

/-- Wrapping sets the ports of the segment that is given and changes nothing else. -/
theorem wrapTcpInIp_like (a : TCPOverIPv4Adapter) (seg : TCPSegment) :
    (a.wrapTcpInIp seg).2.Like seg := by
  unfold wrapTcpInIp
  dsimp only
  split <;> exact ⟨_, _, _, rfl⟩

/-- What is unwrapped from the bytes of a wrapped segment is like it. -/
theorem like_of_unwrap {seg seg' : TCPSegment} (hseg : seg.Wrappable) {a b : TCPOverIPv4Adapter}
    {d : IPv4Datagram} {buffer : Buffer} (hbuffer : buffer.str = a.datagramBytes seg)
    (h : (b.unwrapTcpInIp (d.parse buffer).2).1 = .ok (some seg')) : seg'.Like seg := by
  have hback := segmentIn_of_unwrap h
  rw [segmentIn_parsed hseg a d hbuffer] at hback
  rw [← Option.some.inj hback]
  exact ⟨_, _, _, rfl⟩

end TCPOverIPv4Adapter

/-! ### Over a tun device -/

/-- An adapter that writes IPv4 datagrams to a tun device. -/
structure TCPOverIPv4OverTunFdAdapter extends TCPOverIPv4Adapter where
  tun : FileDescriptor := {}
  deriving DecidableEq, Repr

namespace TCPOverIPv4OverTunFdAdapter

/-- Read a datagram, and take the segment out of it. -/
def read (a : TCPOverIPv4OverTunFdAdapter) (received : Except String (List UInt8)) :
    Sending TCPOverIPv4OverTunFdAdapter (List UInt8) (Option TCPSegment) :=
  match a.tun.read (2 ^ 64 - 1) received with
  | (.error e, tun) => { result := .error e, adapter := { a with tun := tun } }
  | (.ok bytes, tun) =>
    let a := { a with tun := tun }
    match IPv4Datagram.parse {} (.ofString bytes) with
    | (.noError, ipDgram) =>
      let (result, base) := a.unwrapTcpInIp ipDgram
      { result := result, adapter := { a with toTCPOverIPv4Adapter := base } }
    | _ => { result := .ok none, adapter := a }

/-- Write a segment as a datagram. -/
def write (a : TCPOverIPv4OverTunFdAdapter) (seg : TCPSegment) (kernel : Nat → PacketAnswer) :
    TCPSegment × Sending TCPOverIPv4OverTunFdAdapter (List UInt8) Unit :=
  match a.wrapTcpInIp seg with
  | (.error e, seg) => (seg, { result := .error e, adapter := a })
  | (.ok ipDgram, seg) =>
    match ipDgram.serialize with
    | .error e => (seg, { result := .error e, adapter := a })
    | .ok bytes =>
      let (result, tun, sent) := a.tun.writePacket bytes (kernel 0)
      (seg, { result := result, adapter := { a with tun := tun }, sent := sent })

instance : FdAdapter TCPOverIPv4OverTunFdAdapter (List UInt8) where
  fd := tun
  read := fun a received _ => a.read received
  write := write
  tick := fun a _ _ => { result := .ok (), adapter := a }

theorem read_silent (a : TCPOverIPv4OverTunFdAdapter) (received : Except String (List UInt8)) :
    (a.read received).sent = [] := by
  unfold read
  split
  · rfl
  · dsimp only
    split <;> rfl

/-- The packet is the datagram with the segment. -/
def Carries (seg : TCPSegment) (packet : List UInt8) : Prop :=
  ∃ a : TCPOverIPv4Adapter, packet = a.datagramBytes seg

/-- The datagram around a segment is built without an exception, and written as one packet. -/
theorem write_eq (a : TCPOverIPv4OverTunFdAdapter) {seg : TCPSegment}
    (kernel : Nat → PacketAnswer) (h : seg.Wrappable) :
    ∃ bytes : BufferList, bytes.concatenate = a.datagramBytes seg ∧
      (a.write seg kernel).2 =
        { result := (a.tun.writePacket bytes (kernel 0)).1
          adapter := { a with tun := (a.tun.writePacket bytes (kernel 0)).2.1 }
          sent := (a.tun.writePacket bytes (kernel 0)).2.2 } := by
  have hwrap := a.wrapTcpInIp_eq h.five_le
  unfold write
  cases hresult : a.wrapTcpInIp seg with
  | mk result seg' =>
    rw [hresult] at hwrap
    dsimp only at hwrap
    subst hwrap
    dsimp only
    rw [TCPOverIPv4Adapter.serialize_wrapped h]
    refine ⟨_, ?_, rfl⟩
    rw [BufferList.concatenate_append, BufferList.concatenate_ofString]
    rfl

/-- The packet that is written is the datagram around the segment. -/
theorem write_sent (a : TCPOverIPv4OverTunFdAdapter) {seg : TCPSegment}
    (kernel : Nat → PacketAnswer) (h : seg.Wrappable) :
    ∀ p ∈ (a.write seg kernel).2.sent, Carries seg p := by
  obtain ⟨bytes, hbytes, heq⟩ := a.write_eq kernel h
  rw [heq]
  intro p hp
  exact ⟨a.toTCPOverIPv4Adapter, (FileDescriptor.mem_writePacket hp).trans hbytes⟩

/-- What was read from the device, if a segment is returned. -/
theorem read_some {a : TCPOverIPv4OverTunFdAdapter} {bytes : List UInt8} {seg : TCPSegment}
    (h : (a.read (.ok bytes)).result = .ok (some seg)) :
    (a.unwrapTcpInIp (IPv4Datagram.parse {} (.ofString bytes)).2).1 = .ok (some seg) := by
  unfold read at h
  cases hread : a.tun.read (2 ^ 64 - 1) (.ok bytes) with
  | mk result tun =>
    rw [hread] at h
    cases result with
    | error e => cases h
    | ok str =>
      -- the kernel's answer is what is parsed
      obtain rfl : bytes = str := Except.ok.inj (FileDescriptor.read_ok hread).1
      dsimp only at h
      split at h
      · rename_i ipDgram hparse
        rw [hparse]
        exact h
      · cases h

/-- A packet that is read counts, whether or not there is a segment in it. -/
theorem read_counts (a : TCPOverIPv4OverTunFdAdapter) (received : Except String (List UInt8))
    {seg : Option TCPSegment} (h : (a.read received).result = .ok seg) :
    (a.read received).adapter.tun.readCount = a.tun.readCount + 1 := by
  unfold read at h ⊢
  cases hread : a.tun.read (2 ^ 64 - 1) received with
  | mk result tun =>
    rw [hread] at h
    cases result with
    | error e => cases h
    | ok str =>
      rw [← (FileDescriptor.read_ok hread).2.2.1]
      dsimp only
      split <;> rfl

/-- **IPv4 over a tun device carries segments faithfully.** -/
def faithful : Faithful TCPOverIPv4OverTunFdAdapter :=
  .ofCarries Carries (fun a received _ => a.read_silent received) (fun _ _ _ => rfl)
    (fun a _ kernel h => a.write_sent kernel h)
    (by
      rintro b packet seg seg' kernel hseg ⟨a, hpacket⟩ hread
      have hbuffer : (Buffer.ofString packet).str = a.datagramBytes seg := by
        simpa using hpacket
      exact TCPOverIPv4Adapter.like_of_unwrap hseg hbuffer (read_some hread))
    (fun _ _ _ _ h => by cases h) (fun a received _ _ h => a.read_counts received h)
    (by
      intro a seg kernel
      show (a.write seg kernel).1.Like seg
      unfold write
      have hlike := TCPOverIPv4Adapter.wrapTcpInIp_like a.toTCPOverIPv4Adapter seg
      split
      · rename_i hwrap
        rw [hwrap] at hlike
        exact hlike
      · rename_i hwrap
        rw [hwrap] at hlike
        dsimp only
        split <;> exact hlike)

/-- What is parsed is in one piece, so only the read itself can fail. -/
theorem read_error {a : TCPOverIPv4OverTunFdAdapter} {received : Except String (List UInt8)}
    {e : Exception} (h : (a.read received).result = .error e) : CallFailure e := by
  unfold read at h
  cases hread : a.tun.read (2 ^ 64 - 1) received with
  | mk result tun =>
    rw [hread] at h
    cases result with
    | error e' =>
      rw [← Except.error.inj h]
      exact (FileDescriptor.read_error hread).1
    | ok bytes =>
      dsimp only at h
      -- a parsed datagram has its payload in one buffer
      have hpiece := IPv4Datagram.parse_contiguous {} (.ofString bytes)
      split at h
      · rename_i ipDgram hparse
        rw [hparse] at hpiece
        obtain ⟨seg, hok⟩ := TCPOverIPv4Adapter.unwrapTcpInIp_ok a.toTCPOverIPv4Adapter hpiece
        cases hok.symm.trans h
      · cases h

/-- **Over a tun device only the kernel can make an adapter throw.** -/
theorem robust : Robust TCPOverIPv4OverTunFdAdapter where
  read := fun _ _ _ _ h => read_error h
  write := by
    intro a seg kernel e hseg h
    replace h : (a.write seg kernel).2.result = .error e := h
    obtain ⟨bytes, -, heq⟩ := a.write_eq kernel hseg
    rw [heq] at h
    exact FileDescriptor.writePacket_error h
  tick := fun _ _ _ _ h => by cases h

end TCPOverIPv4OverTunFdAdapter

/-! ### With losses -/

/-- A generator of random numbers. -/
class RandomEngine (ρ : Type) where
  next : ρ → UInt32 × ρ

/-- An adapter that drops segments at random.  The two rates are in the configuration of the adapter
    that it wraps. -/
structure LossyFdAdapter (α ρ : Type) where
  adapter : α
  rand : ρ
  lossRateDn : UInt16 := 0
  lossRateUp : UInt16 := 0

namespace LossyFdAdapter

variable {α π ρ : Type} [FdAdapter α π] [RandomEngine ρ]

/-- Whether the next segment is dropped.  A number is drawn only if there are losses at all. -/
def shouldDrop (a : LossyFdAdapter α ρ) (uplink : Bool) : Bool × LossyFdAdapter α ρ :=
  let loss := if uplink then a.lossRateUp else a.lossRateDn
  if loss ≠ 0 then
    let (number, rand) := RandomEngine.next a.rand
    (decide (number.toUInt16 < loss), { a with rand := rand })
  else (false, a)

/-- Read, and drop what was read or return it. -/
def read (a : LossyFdAdapter α ρ) (received : Except String π) (kernel : Nat → PacketAnswer) :
    Sending (LossyFdAdapter α ρ) π (Option TCPSegment) :=
  let ret := FdAdapter.read a.adapter received kernel
  let a := { a with adapter := ret.adapter }
  match ret.result with
  | .error e => { result := .error e, adapter := a, sent := ret.sent }
  | .ok seg =>
    match a.shouldDrop false with
    | (true, a) => { result := .ok none, adapter := a, sent := ret.sent }
    | (false, a) => { result := .ok seg, adapter := a, sent := ret.sent }

/-- Drop a segment or write it. -/
def write (a : LossyFdAdapter α ρ) (seg : TCPSegment) (kernel : Nat → PacketAnswer) :
    TCPSegment × Sending (LossyFdAdapter α ρ) π Unit :=
  match a.shouldDrop true with
  | (true, a) => (seg, { result := .ok (), adapter := a })
  | (false, a) =>
    let (seg, ret) := FdAdapter.write a.adapter seg kernel
    (seg, { result := ret.result, adapter := { a with adapter := ret.adapter }, sent := ret.sent })

def tick (a : LossyFdAdapter α ρ) (msSinceLastTick : Nat) (kernel : Nat → PacketAnswer) :
    Sending (LossyFdAdapter α ρ) π Unit :=
  let ret := FdAdapter.tick a.adapter msSinceLastTick kernel
  { result := ret.result, adapter := { a with adapter := ret.adapter }, sent := ret.sent }

instance : FdAdapter (LossyFdAdapter α ρ) π where
  fd := fun a => FdAdapter.fd a.adapter
  read := read
  write := write
  tick := tick

@[simp] theorem shouldDrop_adapter (a : LossyFdAdapter α ρ) (uplink : Bool) :
    (a.shouldDrop uplink).2.adapter = a.adapter := by
  unfold shouldDrop
  dsimp only
  split_ifs <;> rfl

/-- A read is one of the wrapped adapter, from which the segment may be missing. -/
theorem read_cases (a : LossyFdAdapter α ρ) (received : Except String π)
    (kernel : Nat → PacketAnswer) :
    let ret := FdAdapter.read a.adapter received kernel
    (a.read received kernel).adapter.adapter = ret.adapter ∧
      (a.read received kernel).sent = ret.sent ∧
      ((a.read received kernel).result = ret.result ∨
        (a.read received kernel).result = .ok none ∧ ∃ seg, ret.result = .ok seg) := by
  intro ret
  unfold read
  dsimp only
  cases hret : (FdAdapter.read a.adapter received kernel).result with
  | error e => exact ⟨rfl, rfl, Or.inl rfl⟩
  | ok seg =>
    dsimp only
    -- the decision to drop reads the random numbers and leaves the adapter alone
    have hsame := shouldDrop_adapter
      ({ a with adapter := (FdAdapter.read a.adapter received kernel).adapter }) false
    split
    · rename_i a' hdrop
      rw [hdrop] at hsame
      exact ⟨hsame, rfl, Or.inr ⟨rfl, seg, rfl⟩⟩
    · rename_i a' hdrop
      rw [hdrop] at hsame
      exact ⟨hsame, rfl, Or.inl rfl⟩

/-- A write is dropped, or is one of the wrapped adapter. -/
theorem write_cases (a : LossyFdAdapter α ρ) (seg : TCPSegment) (kernel : Nat → PacketAnswer) :
    ((a.write seg kernel).2.adapter.adapter = a.adapter ∧ (a.write seg kernel).2.sent = []) ∨
      ((a.write seg kernel).2.adapter.adapter
          = (FdAdapter.write a.adapter seg kernel).2.adapter ∧
        (a.write seg kernel).2.sent = (FdAdapter.write a.adapter seg kernel).2.sent) := by
  have hsame := a.shouldDrop_adapter true
  unfold write
  split
  · rename_i a' hdrop
    rw [hdrop] at hsame
    exact Or.inl ⟨hsame, rfl⟩
  · rename_i a' hdrop
    rw [hdrop] at hsame
    dsimp only at hsame ⊢
    rw [hsame]
    exact Or.inr ⟨rfl, rfl⟩

/-- **An adapter with losses is as faithful as the one it wraps.**  What it drops was never
    written to that one. -/
def faithful (F : Faithful α) : Faithful (LossyFdAdapter α ρ) where
  Sends := fun written packets a => ∃ kept, kept ⊆ written ∧ F.Sends kept packets a.adapter
  read_keeps := by
    rintro written packets a ⟨kept, hkept, hsends⟩ received kernel
    obtain ⟨hadapter, hsent, -⟩ := a.read_cases received kernel
    refine ⟨kept, hkept, ?_⟩
    show F.Sends kept (packets ++ (a.read received kernel).sent)
      (a.read received kernel).adapter.adapter
    rw [hadapter, hsent]
    exact F.read_keeps hsends received kernel
  write_keeps := by
    rintro written packets a seg ⟨kept, hkept, hsends⟩ hseg kernel
    show ∃ kept', kept' ⊆ written ++ [seg] ∧
      F.Sends kept' (packets ++ (a.write seg kernel).2.sent) (a.write seg kernel).2.adapter.adapter
    obtain ⟨hadapter, hsent⟩ | ⟨hadapter, hsent⟩ := a.write_cases seg kernel
    · refine ⟨kept, List.subset_append_of_subset_left _ hkept, ?_⟩
      rw [hadapter, hsent, List.append_nil]
      exact hsends
    · refine ⟨kept ++ [seg], List.append_subset.mpr
        ⟨List.subset_append_of_subset_left _ hkept, List.subset_append_right _ _⟩, ?_⟩
      rw [hadapter, hsent]
      exact F.write_keeps hsends hseg kernel
  tick_keeps := by
    rintro written packets a ⟨kept, hkept, hsends⟩ ms kernel
    exact ⟨kept, hkept, F.tick_keeps hsends ms kernel⟩
  received := by
    rintro written packets a packet ⟨kept, hkept, hsends⟩ hpacket b kernel seg hread
    obtain ⟨-, -, hresult | ⟨hnone, -⟩⟩ := b.read_cases (.ok packet) kernel
    · obtain ⟨seg0, hmem, hlike⟩ :=
        F.received hsends hpacket b.adapter kernel seg (hresult.symm.trans hread)
      exact ⟨seg0, hkept hmem, hlike⟩
    · cases hnone.symm.trans hread
  read_failed := by
    intro a what kernel seg hread
    obtain ⟨-, -, hresult | ⟨hnone, -⟩⟩ := a.read_cases (.error what) kernel
    · exact F.read_failed a.adapter what kernel seg (hresult.symm.trans hread)
    · cases hnone.symm.trans hread
  read_counts := by
    intro a received kernel seg hread
    obtain ⟨hadapter, -, hresult⟩ := a.read_cases received kernel
    have hok : ∃ seg, (FdAdapter.read a.adapter received kernel).result = .ok seg := by
      obtain hresult | ⟨-, hok⟩ := hresult
      · exact ⟨seg, hresult.symm.trans hread⟩
      · exact hok
    obtain ⟨seg', hseg'⟩ := hok
    show (FdAdapter.fd (a.read received kernel).adapter.adapter).readCount = _
    rw [hadapter]
    exact F.read_counts a.adapter received kernel seg' hseg'
  write_like := by
    intro a seg kernel
    show (a.write seg kernel).1.Like seg
    unfold write
    split
    · exact .refl seg
    · exact F.write_like _ seg kernel

/-- Dropping a segment throws nothing. -/
theorem robust (R : Robust α) : Robust (LossyFdAdapter α ρ) where
  read := by
    intro a received kernel e h
    -- a packet that is dropped is no exception
    obtain ⟨-, -, hresult | ⟨hnone, -⟩⟩ := a.read_cases received kernel
    · exact R.read a.adapter received kernel e (hresult.symm.trans h)
    · cases hnone.symm.trans h
  write := by
    intro a seg kernel e hseg h
    replace h : (a.write seg kernel).2.result = .error e := h
    unfold write at h
    split at h
    · cases h
    · exact R.write _ seg kernel e hseg h
  tick := fun a ms kernel e h => R.tick a.adapter ms kernel e h

end LossyFdAdapter

end Sponge
