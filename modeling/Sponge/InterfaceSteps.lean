import Sponge.NetworkInterface

namespace Sponge

/-!
# The calls on a network interface

What one call does to the tables and to the outbound queue, said once for every call:

* `sendDatagram_known`, `sendDatagram_waits`, `sendDatagram_asks`: a datagram is sent, or its hop
  has been asked for, or is asked for now;
* `recvFrame_cases`, `receiveARP_cases`: a frame without a message for the interface changes
  nothing, and a message is a mapping and one of three things;
* `tick_ticked`: time ages every entry of both tables by itself.

The frames of a call are observed from the outside: `ipv4Out` are the IPv4 frames among those it
puts into the queue, and `requests` the addresses that its ARP requests, parsed again, ask for.
-/

namespace NetworkInterface

/-- What can happen to an interface: its methods, and the owner taking a frame. -/
inductive InterfaceOp where
  | sendDatagram (dgram : IPv4Datagram) (nextHop : UInt32)
  | recvFrame (frame : EthernetFrame)
  | tick (ms : Nat)
  | popFrame

/-- The state after a call, whether or not it has thrown. -/
def apply (n : NetworkInterface) : InterfaceOp → NetworkInterface
  | .sendDatagram dgram nextHop => (n.sendDatagram dgram nextHop).2
  | .recvFrame frame => (n.recvFrame frame).2
  | .tick ms => (n.tick ms).2
  | .popFrame => { n with framesOut := n.framesOut.tail }

/-- The IPv4 frames a call puts into the outbound queue. -/
def ipv4Out (n : NetworkInterface) (op : InterfaceOp) : List EthernetFrame :=
  ((n.apply op).framesOut.drop n.framesOut.length).filter
    fun frame => frame.header.type = EthernetHeader.typeIPv4

/-- The address that a frame with an ARP request asks for. -/
def requested (frame : EthernetFrame) : Option UInt32 :=
  if frame.header.type ≠ EthernetHeader.typeARP then none
  else
    match frame.payload.toBuffer with
    | .error _ => none
    | .ok buffer =>
      match ARPMessage.parse {} buffer with
      | (.noError, message) =>
        if message.opcode = ARPMessage.opcodeRequest then some message.targetIpAddress else none
      | _ => none

/-- The addresses that are asked for by the frames a call puts into the outbound queue. -/
def requests (n : NetworkInterface) (op : InterfaceOp) : List UInt32 :=
  ((n.apply op).framesOut.drop n.framesOut.length).filterMap requested

/-- The ARP message for this interface that a frame carries. -/
def arpMessage (n : NetworkInterface) (frame : EthernetFrame) : Option ARPMessage :=
  if frame.header.dst ≠ n.ethernetAddress ∧ frame.header.dst ≠ boardMacAdress then none
  else if frame.header.type ≠ EthernetHeader.typeARP then none
  else
    match frame.payload.toBuffer with
    | .error _ => none
    | .ok buffer =>
      match ARPMessage.parse {} buffer with
      | (.noError, message) => if message.targetIpAddress = n.ipAddress then some message else none
      | _ => none

/-- The header of an IPv4 frame from this interface. -/
def ipv4Header (n : NetworkInterface) (dst : EthernetAddress) : EthernetHeader :=
  { dst := dst, src := n.ethernetAddress, type := EthernetHeader.typeIPv4 }

/-- The datagram the interface holds for a hop, if it is one that was handed in: the entry that
    `operator[]` makes holds a datagram that cannot be sent. -/
def pending (n : NetworkInterface) (ip : UInt32) : List IPv4Datagram :=
  match n.arpRequestCache.lookup ip with
  | none => []
  | some cached => if cached.2.WellFormed then [cached.2] else []

/-- The message is a reply to this interface, by its Ethernet address. -/
def Replies (n : NetworkInterface) (message : ARPMessage) : Prop :=
  message.opcode = ARPMessage.opcodeReply ∧ message.targetEthernetAddress = n.ethernetAddress

instance (n : NetworkInterface) (message : ARPMessage) : Decidable (n.Replies message) :=
  inferInstanceAs (Decidable (_ ∧ _))

variable {n : NetworkInterface}

/-! ### Frames -/

/-- The frame with an ARP message. -/
def arpFrame (n : NetworkInterface) (dst : EthernetAddress) (message : ARPMessage) :
    EthernetFrame where
  header := { dst := dst, src := n.ethernetAddress, type := EthernetHeader.typeARP }
  payload := .ofString (message.serialize.toOption.getD [])

/-- The frame with which an address is asked for. -/
def requestFrame (n : NetworkInterface) (ip : UInt32) : EthernetFrame :=
  n.arpFrame boardMacAdress (n.createARPMessage ARPMessage.opcodeRequest ip .zero)

/-- The messages an interface makes are supported, so that serializing them does not throw. -/
theorem createARPMessage_supported (n : NetworkInterface) {type : UInt16} (ip : UInt32)
    (mac : EthernetAddress)
    (htype : type = ARPMessage.opcodeRequest ∨ type = ARPMessage.opcodeReply) :
    (n.createARPMessage type ip mac).supported = true := by
  rcases htype with rfl | rfl <;> rfl

/-- A supported message can be serialized, so it is always queued. -/
theorem sendARP_eq {message : ARPMessage} (h : message.supported = true) (dst : EthernetAddress) :
    n.sendARP dst message
      = (.ok (), { n with framesOut := n.framesOut ++ [n.arpFrame dst message] }) := by
  rw [sendARP, arpFrame, ARPMessage.serialize_eq h]
  rfl

/-- The request can be read from the frame, and only a request can. -/
theorem requested_arpFrame {message : ARPMessage} (h : message.supported = true)
    (dst : EthernetAddress) :
    requested (n.arpFrame dst message) =
      if message.opcode = ARPMessage.opcodeRequest then some message.targetIpAddress else none := by
  have hbytes := ARPMessage.serialize_eq h
  have hparse := @ARPMessage.parse_serialize _ (.ofString _) h hbytes {}
  unfold requested arpFrame
  rw [hbytes]
  dsimp only [Except.toOption, Option.getD, BufferList.ofString, BufferList.toBuffer]
  rw [hparse]
  rfl

theorem requested_requestFrame (n : NetworkInterface) (ip : UInt32) :
    requested (n.requestFrame ip) = some ip :=
  requested_arpFrame (n.createARPMessage_supported ip .zero (Or.inl rfl)) boardMacAdress

/-- A datagram asks for nothing. -/
theorem requested_of_ipv4 {frame : EthernetFrame}
    (h : frame.header.type = EthernetHeader.typeIPv4) : requested frame = none := by
  rw [requested, h]
  exact if_pos (by decide)

/-- The datagrams of a call are among the frames that it adds to the queue. -/
theorem ipv4Out_of_frames {op : InterfaceOp} (new : List EthernetFrame)
    (h : (n.apply op).framesOut = n.framesOut ++ new) :
    n.ipv4Out op = new.filter fun frame => frame.header.type = EthernetHeader.typeIPv4 := by
  rw [ipv4Out, h, List.drop_left]

/-- And so are the requests. -/
theorem requests_of_frames {op : InterfaceOp} (new : List EthernetFrame)
    (h : (n.apply op).framesOut = n.framesOut ++ new) :
    n.requests op = new.filterMap requested := by
  rw [requests, h, List.drop_left]

/-! ### Sending a datagram -/

/-- A well-formed datagram is sent. -/
theorem sendIPv4_of_wellFormed {dgram : IPv4Datagram} (h : dgram.WellFormed)
    (dst : EthernetAddress) :
    ∃ payload, dgram.serialize = .ok payload ∧
      n.sendIPv4 dst dgram = (.ok (), n.push dst EthernetHeader.typeIPv4 payload) := by
  obtain ⟨payload, hok⟩ := dgram.serialize_isOk_iff.mpr h
  refine ⟨payload, hok, ?_⟩
  rw [sendIPv4, hok]

/-- Any other makes it throw. -/
theorem sendIPv4_of_not_wellFormed {dgram : IPv4Datagram} (h : ¬ dgram.WellFormed)
    (dst : EthernetAddress) : ∃ e, n.sendIPv4 dst dgram = (.error e, n) := by
  unfold sendIPv4
  cases hser : dgram.serialize with
  | error e => exact ⟨e, rfl⟩
  | ok payload => exact absurd (dgram.serialize_isOk_iff.mp ⟨payload, hser⟩) h

variable {dgram : IPv4Datagram} {nextHop : UInt32}

/-- The hop is known: the datagram goes out at once. -/
theorem sendDatagram_known {mapping : Int × EthernetAddress}
    (h : n.arpForwardTable.lookup nextHop = some mapping) :
    n.sendDatagram dgram nextHop = n.sendIPv4 mapping.2 dgram := by
  rw [sendDatagram, h]

/-- The hop has been asked for less than five seconds ago: the datagram is dropped. -/
theorem sendDatagram_waits (h : n.arpForwardTable.lookup nextHop = none)
    {cached : Int × IPv4Datagram} (hcached : n.arpRequestCache.lookup nextHop = some cached)
    (hfresh : cached.1 < 5000) : n.sendDatagram dgram nextHop = (.ok (), n) := by
  rw [sendDatagram, h, hcached]
  exact if_pos (by simpa using hfresh)

/-- Otherwise the hop is asked for, and the datagram takes the place of the one that waited. -/
theorem sendDatagram_asks (h : n.arpForwardTable.lookup nextHop = none)
    (hold : ∀ cached ∈ n.arpRequestCache.lookup nextHop, 5000 ≤ cached.1) :
    n.sendDatagram dgram nextHop =
      (.ok (), { n with
        arpRequestCache := n.arpRequestCache.insert nextHop (0, dgram)
        framesOut := n.framesOut ++ [n.requestFrame nextHop] }) := by
  have hasks : ¬ (n.arpRequestCache.lookup nextHop).any (fun c => c.1 < 5000) = true := by
    cases hcached : n.arpRequestCache.lookup nextHop with
    | none => simp
    | some cached => simpa using hold cached hcached
  rw [sendDatagram, h]
  dsimp only
  rw [if_neg hasks]
  exact sendARP_eq (createARPMessage_supported _ nextHop .zero (Or.inl rfl)) boardMacAdress

/-- **A datagram** leaves the tables alone, or its hop is asked for. -/
theorem sendDatagram_cases (n : NetworkInterface) (dgram : IPv4Datagram) (nextHop : UInt32) :
    (∃ new, n.apply (.sendDatagram dgram nextHop) = { n with framesOut := n.framesOut ++ new } ∧
      new.filterMap requested = []) ∨
    (n.arpForwardTable.lookup nextHop = none ∧
      (∀ cached ∈ n.arpRequestCache.lookup nextHop, 5000 ≤ cached.1) ∧
      n.apply (.sendDatagram dgram nextHop) =
        { n with
          arpRequestCache := n.arpRequestCache.insert nextHop (0, dgram)
          framesOut := n.framesOut ++ [n.requestFrame nextHop] }) := by
  have hsame : { n with framesOut := n.framesOut ++ [] } = n := by rw [List.append_nil]
  rw [NetworkInterface.apply]
  -- the mapping is known and the datagram leaves, or a request is sent unless one is fresh
  cases hmapping : n.arpForwardTable.lookup nextHop with
  | some mapping =>
    refine .inl ?_
    rw [sendDatagram_known hmapping]
    by_cases hwf : dgram.WellFormed
    · obtain ⟨payload, -, hsent⟩ := sendIPv4_of_wellFormed (n := n) hwf mapping.2
      rw [hsent]
      refine ⟨[_], rfl, ?_⟩
      simp [requested_of_ipv4]
    · obtain ⟨e, hsent⟩ := sendIPv4_of_not_wellFormed (n := n) hwf mapping.2
      rw [hsent]
      exact ⟨[], hsame.symm, rfl⟩
  | none =>
    by_cases hold : ∀ cached ∈ n.arpRequestCache.lookup nextHop, 5000 ≤ cached.1
    · rw [sendDatagram_asks hmapping hold]
      exact .inr ⟨rfl, hold, rfl⟩
    · push Not at hold
      obtain ⟨cached, hcached, hfresh⟩ := hold
      rw [sendDatagram_waits hmapping hcached hfresh]
      exact .inl ⟨[], hsame.symm, rfl⟩

/-- The frame with a datagram for a hop that is known. -/
theorem ipv4Out_sendDatagram_known (hwf : dgram.WellFormed) {mapping : Int × EthernetAddress}
    (h : n.arpForwardTable.lookup nextHop = some mapping) :
    ∃ payload, dgram.serialize = .ok payload ∧
      n.apply (.sendDatagram dgram nextHop) = n.push mapping.2 EthernetHeader.typeIPv4 payload ∧
      n.ipv4Out (.sendDatagram dgram nextHop)
        = [{ header := n.ipv4Header mapping.2, payload := payload }] := by
  obtain ⟨payload, hok, hsent⟩ := sendIPv4_of_wellFormed (n := n) hwf mapping.2
  have happly : n.apply (.sendDatagram dgram nextHop)
      = n.push mapping.2 EthernetHeader.typeIPv4 payload := by
    rw [NetworkInterface.apply, sendDatagram_known h, hsent]
  refine ⟨payload, hok, happly, ?_⟩
  rw [ipv4Out_of_frames [{ header := n.ipv4Header mapping.2, payload := payload }]
    (by rw [happly]; rfl)]
  rfl

/-- Nothing is sent to a hop that is not known. -/
theorem ipv4Out_sendDatagram_unknown (h : n.arpForwardTable.lookup nextHop = none) :
    n.ipv4Out (.sendDatagram dgram nextHop) = [] := by
  by_cases hold : ∀ cached ∈ n.arpRequestCache.lookup nextHop, 5000 ≤ cached.1
  · rw [ipv4Out_of_frames [n.requestFrame nextHop]
      (by rw [NetworkInterface.apply, sendDatagram_asks h hold])]
    rfl
  · push Not at hold
    obtain ⟨cached, hcached, hfresh⟩ := hold
    rw [ipv4Out_of_frames []
      (by rw [NetworkInterface.apply, sendDatagram_waits h hcached hfresh, List.append_nil])]
    rfl

/-! ### Receiving a frame -/

/-- What is returned for a frame without a message: the datagram in it, or nothing.  A payload in
    several pieces makes the call throw. -/
def Answers (frame : EthernetFrame) : Except Exception (Option IPv4Datagram) → Prop
  | .error e => frame.payload.toBuffer = .error e
  | .ok none => True
  | .ok (some dgram) =>
      frame.header.type = EthernetHeader.typeIPv4 ∧ ∃ buffer, frame.payload.toBuffer = .ok buffer ∧
        IPv4Datagram.parse {} buffer = (.noError, dgram)

/-- **A frame** carries a message for this interface, or changes nothing. -/
theorem recvFrame_cases (n : NetworkInterface) (frame : EthernetFrame) :
    (∃ message, n.arpMessage frame = some message ∧ n.recvFrame frame = n.receiveARP message) ∨
      n.arpMessage frame = none ∧
        ∃ result, n.recvFrame frame = (result, n) ∧ Answers frame result := by
  -- a frame for somebody else is ignored
  by_cases hdst : frame.header.dst ≠ n.ethernetAddress ∧ frame.header.dst ≠ boardMacAdress
  · exact .inr ⟨if_pos hdst, .ok none, if_pos hdst, trivial⟩
  unfold arpMessage recvFrame
  rw [if_neg hdst, if_neg hdst]
  by_cases hipv4 : frame.header.type = EthernetHeader.typeIPv4
  · have harp : frame.header.type ≠ EthernetHeader.typeARP := by
      rw [hipv4]
      decide
    rw [if_pos hipv4, if_pos harp]
    cases hbuffer : frame.payload.toBuffer with
    | error e => exact .inr ⟨rfl, .error e, rfl, hbuffer⟩
    | ok buffer =>
      -- IPv4: whatever parses is handed up
      obtain ⟨result, dgram, hparse⟩ :
          ∃ result dgram, IPv4Datagram.parse {} buffer = (result, dgram) := ⟨_, _, rfl⟩
      dsimp only
      rw [hparse]
      cases result with
      | noError => exact .inr ⟨rfl, .ok (some dgram), rfl, hipv4, buffer, hbuffer, hparse⟩
      | _ => exact .inr ⟨rfl, .ok none, rfl, trivial⟩
  by_cases harp : frame.header.type = EthernetHeader.typeARP
  · rw [if_neg hipv4, if_neg (not_not.mpr harp), if_pos harp]
    cases hbuffer : frame.payload.toBuffer with
    | error e => exact .inr ⟨rfl, .error e, rfl, hbuffer⟩
    | ok buffer =>
      -- ARP: only a message about our own address is acted on
      obtain ⟨result, message, hparse⟩ :
          ∃ result message, ARPMessage.parse {} buffer = (result, message) := ⟨_, _, rfl⟩
      dsimp only
      rw [hparse]
      cases result with
      | noError =>
        by_cases htarget : message.targetIpAddress = n.ipAddress
        · exact .inl ⟨message, if_pos htarget, if_neg (not_not.mpr htarget)⟩
        · exact .inr ⟨if_neg htarget, .ok none, if_pos htarget, trivial⟩
      | _ => exact .inr ⟨rfl, .ok none, rfl, trivial⟩
  · rw [if_neg hipv4, if_pos harp, if_neg harp]
    exact .inr ⟨rfl, .ok none, rfl, trivial⟩

/-- A frame without a message changes nothing. -/
theorem recvFrame_of_none {frame : EthernetFrame} (h : n.arpMessage frame = none) :
    (n.recvFrame frame).2 = n := by
  obtain ⟨message, hmessage, -⟩ | ⟨-, result, heq, -⟩ := n.recvFrame_cases frame
  · exact absurd (h.symm.trans hmessage) (by simp)
  · rw [heq]

/-- A frame with a message does what the message does. -/
theorem recvFrame_of_some {frame : EthernetFrame} {message : ARPMessage}
    (h : n.arpMessage frame = some message) : n.recvFrame frame = n.receiveARP message := by
  obtain ⟨message', hmessage, heq⟩ | ⟨hnone, -⟩ := n.recvFrame_cases frame
  · rw [heq, Option.some.inj (hmessage.symm.trans h)]
  · exact absurd (h.symm.trans hnone) (by simp)

/-- The entry that the source reads with `operator[]`, which is empty where there is none. -/
theorem pending_cached (n : NetworkInterface) (ip : UInt32) :
    n.pending ip = if (n.cached ip).2.WellFormed then [(n.cached ip).2] else [] := by
  unfold pending cached
  cases n.arpRequestCache.lookup ip with
  | none => exact (if_neg (by decide)).symm
  | some cached => rfl

/-- **A message** is a mapping, and one of three things: a reply that sends the waiting datagram, a
    reply for which there is none, or no reply to this interface.  The second throws, after
    `operator[]` has made an entry. -/
theorem receiveARP_cases (n : NetworkInterface) (message : ARPMessage) :
    (n.Replies message ∧ ∃ dgram payload, n.pending message.senderIpAddress = [dgram] ∧
      dgram.serialize = .ok payload ∧
      n.receiveARP message = (.ok none,
        { n with
          arpForwardTable := n.arpForwardTable.insert message.senderIpAddress
            (0, message.senderEthernetAddress)
          arpRequestCache := (n.arpRequestCache.insert message.senderIpAddress
            (n.cached message.senderIpAddress)).erase message.senderIpAddress
          framesOut := n.framesOut ++
            [{ header := n.ipv4Header message.senderEthernetAddress, payload := payload }] })) ∨
    (n.Replies message ∧ n.pending message.senderIpAddress = [] ∧
      ∃ e, n.receiveARP message = (.error e,
        { n with
          arpForwardTable := n.arpForwardTable.insert message.senderIpAddress
            (0, message.senderEthernetAddress)
          arpRequestCache := n.arpRequestCache.insert message.senderIpAddress
            (n.cached message.senderIpAddress) })) ∨
    (¬ n.Replies message ∧ ∃ new, (∀ frame ∈ new,
        frame.header.type = EthernetHeader.typeARP ∧ requested frame = none) ∧
      (message.opcode = ARPMessage.opcodeReply → new = []) ∧
      n.receiveARP message = (.ok none,
        { n with
          arpForwardTable := n.arpForwardTable.insert message.senderIpAddress
            (0, message.senderEthernetAddress)
          framesOut := n.framesOut ++ new })) := by
  have hpending := n.pending_cached message.senderIpAddress
  by_cases hreply : n.Replies message
  · have hif : message.opcode = ARPMessage.opcodeReply ∧ message.targetEthernetAddress =
        (n.learn message.senderIpAddress message.senderEthernetAddress).ethernetAddress := hreply
    have hcached : (n.learn message.senderIpAddress message.senderEthernetAddress).cached
        message.senderIpAddress = n.cached message.senderIpAddress := rfl
    unfold receiveARP
    dsimp only
    rw [if_pos hif, hcached]
    -- the datagram of the entry may be the default one that the access has made
    by_cases hwf : (n.cached message.senderIpAddress).2.WellFormed
    · obtain ⟨payload, hok, hsent⟩ := sendIPv4_of_wellFormed
        (n := (n.learn message.senderIpAddress message.senderEthernetAddress).access
          message.senderIpAddress) hwf message.senderEthernetAddress
      rw [if_pos hwf] at hpending
      rw [hsent]
      exact .inl ⟨hreply, _, payload, hpending, hok, rfl⟩
    · obtain ⟨e, hsent⟩ := sendIPv4_of_not_wellFormed
        (n := (n.learn message.senderIpAddress message.senderEthernetAddress).access
          message.senderIpAddress) hwf message.senderEthernetAddress
      rw [if_neg hwf] at hpending
      rw [hsent]
      exact .inr (.inl ⟨hreply, hpending, e, rfl⟩)
  · refine .inr (.inr ⟨hreply, ?_⟩)
    have hif : ¬ (message.opcode = ARPMessage.opcodeReply ∧ message.targetEthernetAddress =
        (n.learn message.senderIpAddress message.senderEthernetAddress).ethernetAddress) := hreply
    unfold receiveARP
    dsimp only
    rw [if_neg hif]
    split
    · -- a request is answered
      rename_i hrequest
      have hsupported := createARPMessage_supported
        (n.learn message.senderIpAddress message.senderEthernetAddress)
        message.senderIpAddress message.senderEthernetAddress (Or.inr rfl)
      rw [sendARP_eq hsupported]
      refine ⟨[_], fun frame hframe => ?_, fun hopcode => ?_, rfl⟩
      · rw [List.mem_singleton.mp hframe]
        exact ⟨rfl, requested_arpFrame hsupported _⟩
      · rw [hrequest.1] at hopcode
        exact absurd hopcode (by decide)
    · exact ⟨[], by simp, fun _ => rfl, by simp [learn]⟩

section

variable (n : NetworkInterface) (message : ARPMessage)

/-- **Every message teaches a mapping**, whomever it was for. -/
theorem receiveARP_forward :
    (n.receiveARP message).2.arpForwardTable = n.arpForwardTable.insert message.senderIpAddress
      (0, message.senderEthernetAddress) := by
  obtain ⟨-, _, _, -, -, heq⟩ | ⟨-, -, _, heq⟩ | ⟨-, _, -, -, heq⟩ := n.receiveARP_cases message <;>
    rw [heq]

/-- The pending request of the sender, after a message. -/
theorem receiveARP_cache_sender :
    (n.receiveARP message).2.arpRequestCache.lookup message.senderIpAddress =
      if n.Replies message then
        if n.pending message.senderIpAddress = [] then some (n.cached message.senderIpAddress)
        else none
      else n.arpRequestCache.lookup message.senderIpAddress := by
  obtain ⟨hreply, _, _, hpending, -, heq⟩ | ⟨hreply, hpending, _, heq⟩ | ⟨hother, _, -, -, heq⟩ :=
    n.receiveARP_cases message
  · rw [heq, if_pos hreply, if_neg (by simp [hpending])]
    exact AList.lookup_erase _ _
  · rw [heq, if_pos hreply, if_pos hpending]
    exact AList.lookup_insert _
  · rw [heq, if_neg hother]

/-- The requests for other addresses are not touched. -/
theorem receiveARP_cache_other {ip : UInt32} (hip : message.senderIpAddress ≠ ip) :
    (n.receiveARP message).2.arpRequestCache.lookup ip = n.arpRequestCache.lookup ip := by
  obtain ⟨-, _, _, -, -, heq⟩ | ⟨-, -, _, heq⟩ | ⟨-, _, -, -, heq⟩ := n.receiveARP_cases message
  · rw [heq]
    exact (AList.lookup_erase_ne (Ne.symm hip)).trans (AList.lookup_insert_ne (Ne.symm hip))
  · rw [heq]
    exact AList.lookup_insert_ne (Ne.symm hip)
  · rw [heq]

/-- No message is answered by a request. -/
theorem receiveARP_frames :
    ∃ new, (n.receiveARP message).2.framesOut = n.framesOut ++ new ∧
      new.filterMap requested = [] := by
  obtain ⟨-, _, _, -, -, heq⟩ | ⟨-, -, _, heq⟩ | ⟨-, new, harp, -, heq⟩ :=
    n.receiveARP_cases message
  · refine ⟨[_], by rw [heq], ?_⟩
    simp [requested_of_ipv4, ipv4Header]
  · exact ⟨[], by simp [heq], rfl⟩
  · refine ⟨new, by rw [heq], ?_⟩
    rw [List.filterMap_eq_nil_iff]
    exact fun frame hframe => (harp frame hframe).2

end

/-! ### Time -/

/-- A mapping after `ms` milliseconds. -/
def ageMapping (ms : Nat) (mapping : Int × EthernetAddress) : Option (Int × EthernetAddress) :=
  if elapse mapping.1 ms > 30000 then none else some (elapse mapping.1 ms, mapping.2)

/-- A pending request after `ms` milliseconds. -/
def ageRequest (ms : Nat) (cached : Int × IPv4Datagram) : Int × IPv4Datagram :=
  if elapse cached.1 ms > 5000 then (0, cached.2) else (elapse cached.1 ms, cached.2)

/-- The request of an address is due after `ms` milliseconds. -/
def isDue (n : NetworkInterface) (ms : Nat) (ip : UInt32) : Bool :=
  (n.arpRequestCache.lookup ip).any fun cached => elapse cached.1 ms > 5000

/-- What time does: every entry ages by itself, and the requests that are due are sent. -/
structure Ticked (n : NetworkInterface) (ms : Nat) (m : NetworkInterface) : Prop where
  ethernetAddress : m.ethernetAddress = n.ethernetAddress
  ipAddress : m.ipAddress = n.ipAddress
  mapping : ∀ ip, m.arpForwardTable.lookup ip = (n.arpForwardTable.lookup ip).bind (ageMapping ms)
  request : ∀ ip, m.arpRequestCache.lookup ip = (n.arpRequestCache.lookup ip).map (ageRequest ms)
  frames : ∃ ips : List UInt32, ips.Nodup ∧ (∀ ip, ip ∈ ips ↔ n.isDue ms ip = true) ∧
    m.framesOut = n.framesOut ++ ips.map n.requestFrame

/-- One iteration of the loop over the mappings ages one of them. -/
theorem tickMapping_lookup (ms : Nat) (table : AList (fun _ : UInt32 => Int × EthernetAddress))
    (ip j : UInt32) :
    (tickMapping ms table ip).lookup j =
      if ip = j then (table.lookup j).bind (ageMapping ms) else table.lookup j := by
  unfold tickMapping
  -- a round of the loop looks at one key
  by_cases hj : ip = j
  · subst hj
    rw [if_pos rfl]
    cases hip : table.lookup ip with
    | none => exact hip
    | some mapping =>
      show AList.lookup ip (if elapse mapping.1 ms > 30000 then table.erase ip
        else table.insert ip (elapse mapping.1 ms, mapping.2)) = ageMapping ms mapping
      unfold ageMapping
      split
      · exact AList.lookup_erase _ _
      · exact AList.lookup_insert _
  · rw [if_neg hj]
    split
    · rfl
    · split
      · exact AList.lookup_erase_ne (Ne.symm hj)
      · exact AList.lookup_insert_ne (Ne.symm hj)

/-- The loop over the mappings visits each of them once. -/
theorem tickMappings_lookup (ms : Nat) (table : AList (fun _ : UInt32 => Int × EthernetAddress))
    (j : UInt32) :
    (table.keys.foldl (tickMapping ms) table).lookup j
      = (table.lookup j).bind (ageMapping ms) := by
  -- the keys are all different, so each entry is aged once
  have hloop : ∀ (ips : List UInt32) (t : AList (fun _ : UInt32 => Int × EthernetAddress)),
      ips.Nodup → (ips.foldl (tickMapping ms) t).lookup j =
        if j ∈ ips then (t.lookup j).bind (ageMapping ms) else t.lookup j := by
    intro ips
    induction ips with
    | nil => simp
    | cons ip ips ih =>
      intro t hnodup
      obtain ⟨hip, hnodup⟩ := List.nodup_cons.mp hnodup
      rw [List.foldl_cons, ih _ hnodup, tickMapping_lookup]
      by_cases hj : ip = j
      · subst hj
        simp [hip]
      · simp [hj, Ne.symm hj]
  rw [hloop _ _ table.keys_nodup]
  split
  · rfl
  · rename_i hj
    rw [AList.lookup_eq_none.mpr hj]
    rfl

/-- One pending request: if it is due, it is sent and its timer starts anew. -/
theorem tickRequest_eq (n : NetworkInterface) (ms : Nat) (ip : UInt32) :
    ∃ cache, n.tickRequest ms ip =
        (.ok (), { n with
          arpRequestCache := cache
          framesOut := n.framesOut ++ if n.isDue ms ip then [n.requestFrame ip] else [] }) ∧
      ∀ j, cache.lookup j = if ip = j then (n.arpRequestCache.lookup j).map (ageRequest ms)
        else n.arpRequestCache.lookup j := by
  -- the entry of `ip` is replaced
  have hlookup : ∀ cached, n.arpRequestCache.lookup ip = some cached → ∀ j,
      (n.arpRequestCache.insert ip (ageRequest ms cached)).lookup j =
        if ip = j then (n.arpRequestCache.lookup j).map (ageRequest ms)
        else n.arpRequestCache.lookup j := by
    intro cached hcached j
    by_cases hj : ip = j
    · subst hj
      rw [if_pos rfl, AList.lookup_insert, hcached]
      rfl
    · rw [if_neg hj, AList.lookup_insert_ne (Ne.symm hj)]
  unfold tickRequest
  cases hcached : n.arpRequestCache.lookup ip with
  | none =>
    refine ⟨n.arpRequestCache, by simp [isDue, hcached], fun j => ?_⟩
    split
    · rename_i hj
      rw [← hj, hcached]
      rfl
    · rfl
  | some cached =>
    obtain ⟨timer, dgram⟩ := cached
    have hcache := hlookup _ hcached
    dsimp only
    -- an old request is sent again, and its timer starts from zero
    by_cases hdue : elapse timer ms > 5000
    · have hisDue : n.isDue ms ip = true := by simp [isDue, hcached, hdue]
      rw [ageRequest, if_pos hdue] at hcache
      rw [if_pos hdue, hisDue,
        sendARP_eq (createARPMessage_supported _ ip .zero (Or.inl rfl)) boardMacAdress]
      refine ⟨_, rfl, ?_⟩
      dsimp only
      rw [AList.insert_insert]
      exact hcache
    · have hisDue : n.isDue ms ip = false := by simp [isDue, hcached, hdue]
      rw [ageRequest, if_neg hdue] at hcache
      rw [if_neg hdue, hisDue]
      exact ⟨_, by simp, hcache⟩

/-- The loop over the pending requests. -/
theorem tickRequests_eq (ms : Nat) (ips : List UInt32) (hnodup : ips.Nodup)
    (n : NetworkInterface) :
    ∃ cache, n.tickRequests ms ips =
        (.ok (), { n with
          arpRequestCache := cache
          framesOut := n.framesOut ++ (ips.filter (n.isDue ms)).map n.requestFrame }) ∧
      ∀ j, cache.lookup j = if j ∈ ips then (n.arpRequestCache.lookup j).map (ageRequest ms)
        else n.arpRequestCache.lookup j := by
  induction ips generalizing n with
  | nil => exact ⟨n.arpRequestCache, by simp [tickRequests], by simp⟩
  | cons ip ips ih =>
    obtain ⟨hip, hnodup⟩ := List.nodup_cons.mp hnodup
    obtain ⟨cache1, hone, hcache1⟩ := n.tickRequest_eq ms ip
    rw [tickRequests, hone]
    obtain ⟨cache2, hrest, hcache2⟩ := ih hnodup { n with
      arpRequestCache := cache1
      framesOut := n.framesOut ++ if n.isDue ms ip then [n.requestFrame ip] else [] }
    refine ⟨cache2, ?_, fun j => ?_⟩
    · -- the others have not been touched
      have hdue : ∀ j ∈ ips, NetworkInterface.isDue { n with
          arpRequestCache := cache1
          framesOut := n.framesOut ++ if n.isDue ms ip then [n.requestFrame ip] else [] } ms j
            = n.isDue ms j := by
        intro j hj
        have hne : ip ≠ j := fun heq => hip (heq ▸ hj)
        unfold isDue
        dsimp only
        rw [hcache1, if_neg hne]
      rw [List.filter_congr hdue] at hrest
      rw [List.filter_cons]
      dsimp only
      rw [hrest]
      split <;> simp [requestFrame, createARPMessage, arpFrame]
    · rw [hcache2, hcache1]
      by_cases hj : ip = j
      · subst hj
        simp [hip]
      · simp [hj, Ne.symm hj]

/-- **Time.** -/
theorem tick_ticked (n : NetworkInterface) (ms : Nat) :
    (n.tick ms).1 = .ok () ∧ Ticked n ms (n.tick ms).2 := by
  -- the mappings are aged first, which no request looks at
  obtain ⟨cache, htick, hcache⟩ := tickRequests_eq ms n.arpRequestCache.keys
    n.arpRequestCache.keys_nodup
    { n with
      arpForwardTable := n.arpForwardTable.keys.foldl (tickMapping ms) n.arpForwardTable }
  have htick : n.tick ms = _ := htick
  rw [htick]
  refine ⟨rfl, rfl, rfl, tickMappings_lookup ms n.arpForwardTable, fun ip => ?_,
    n.arpRequestCache.keys.filter (n.isDue ms), n.arpRequestCache.keys_nodup.filter _,
    fun ip => ?_, rfl⟩
  · show cache.lookup ip = _
    rw [hcache]
    split
    · rfl
    · rename_i hip
      rw [AList.lookup_eq_none.mpr hip]
      rfl
  · rw [List.mem_filter, and_iff_right_iff_imp]
    intro hdue
    by_contra hip
    rw [isDue, AList.lookup_eq_none.mpr hip] at hdue
    exact absurd hdue (by simp)

/-- Time asks for the addresses whose request is due, once each. -/
theorem requests_tick (n : NetworkInterface) (ms : Nat) :
    (n.requests (.tick ms)).Nodup ∧ ∀ ip, ip ∈ n.requests (.tick ms) ↔ n.isDue ms ip = true := by
  obtain ⟨ips, hnodup, hdue, hframes⟩ := (n.tick_ticked ms).2.frames
  have hsome (ip : UInt32) : (requested ∘ n.requestFrame) ip = some ip := by
    rw [Function.comp_apply, requested_requestFrame]
  have hips : n.requests (.tick ms) = ips := by
    rw [@requests_of_frames n (.tick ms) (ips.map n.requestFrame) hframes, List.filterMap_map,
      List.filterMap_congr fun ip _ => hsome ip, List.filterMap_some]
  rw [hips]
  exact ⟨hnodup, hdue⟩

/-- A timer that does not overflow. -/
theorem elapse_eq {timer : Int} {ms : Nat} (hnonneg : 0 ≤ timer) (hfits : timer + ms < 2 ^ 31) :
    elapse timer ms = timer + ms := by
  unfold elapse
  exact Int.bmod_eq_of_le (by omega) (by omega)

end NetworkInterface

end Sponge
