import Sponge.InterfaceSteps

namespace Sponge

/-!
# What an interface carries

An interface sends nothing of its own but ARP messages, and everything it says in them is true of
itself.  Whatever else leaves it was handed in.

`Cargo P M n` says that for a property `P` of the datagrams that are handed in, with the hop they
are for, and a property `M` of the mappings that are learnt: the frames in the outbound queue
carry such datagrams to such addresses, or a message about the interface itself.  Every call keeps
it (`Cargo.sendDatagram`, `Cargo.recvFrame`, `Cargo.tick`, `Cargo.popFrame`).
-/

namespace NetworkInterface

/-- The frame carries a message that tells the addresses of the interface it is from. -/
def TellsOwn (n : NetworkInterface) (frame : EthernetFrame) : Prop :=
  ∃ dst message, message.supported = true ∧ message.senderIpAddress = n.ipAddress ∧
    message.senderEthernetAddress = n.ethernetAddress ∧ frame = n.arpFrame dst message

/-- The frame carries a datagram that satisfies `P` for its hop, to an address which is, by `M`, one
    of the hop. -/
def Hauls (P : IPv4Datagram → UInt32 → Prop) (M : UInt32 → EthernetAddress → Prop)
    (n : NetworkInterface) (frame : EthernetFrame) : Prop :=
  ∃ dgram hop mac, P dgram hop ∧ M hop mac ∧ frame.header = n.ipv4Header mac ∧
    dgram.serialize = .ok frame.payload

/-- The interface holds nothing else. -/
structure Cargo (P : IPv4Datagram → UInt32 → Prop) (M : UInt32 → EthernetAddress → Prop)
    (n : NetworkInterface) : Prop where
  frames : ∀ frame ∈ n.framesOut, n.TellsOwn frame ∨ n.Hauls P M frame
  mappings : ∀ ip mapping, n.arpForwardTable.lookup ip = some mapping → M ip mapping.2
  waiting : ∀ ip cached, n.arpRequestCache.lookup ip = some cached →
    P cached.2 ip ∨ ¬ cached.2.WellFormed

section

variable {P : IPv4Datagram → UInt32 → Prop} {M : UInt32 → EthernetAddress → Prop}
  {n m : NetworkInterface}

/-- A new interface holds nothing at all. -/
theorem Cargo.new (ethernetAddress : EthernetAddress) (ipAddress : UInt32) :
    Cargo P M { ethernetAddress := ethernetAddress, ipAddress := ipAddress } where
  frames := fun _ hframe => absurd hframe List.not_mem_nil
  mappings := fun _ _ hlookup => by simp at hlookup
  waiting := fun _ _ hlookup => by simp at hlookup

/-- What is held still is all right when more is allowed. -/
theorem Cargo.mono {P' : IPv4Datagram → UInt32 → Prop} {M' : UInt32 → EthernetAddress → Prop}
    (h : n.Cargo P M) (hP : ∀ dgram hop, P dgram hop → P' dgram hop)
    (hM : ∀ ip mac, M ip mac → M' ip mac) : n.Cargo P' M' where
  frames := by
    intro frame hframe
    rcases h.frames frame hframe with hown | ⟨dgram, hop, mac, hdgram, hmac, hrest⟩
    · exact Or.inl hown
    · exact Or.inr ⟨dgram, hop, mac, hP dgram hop hdgram, hM hop mac hmac, hrest⟩
  mappings := fun ip mapping hlookup => hM ip _ (h.mappings ip mapping hlookup)
  waiting := fun ip cached hlookup => (h.waiting ip cached hlookup).imp_left (hP _ ip)

/-- Whose frame it is depends on the addresses of the interface only. -/
theorem TellsOwn.congr {frame : EthernetFrame} (h : n.TellsOwn frame)
    (hmac : m.ethernetAddress = n.ethernetAddress) (hip : m.ipAddress = n.ipAddress) :
    m.TellsOwn frame := by
  obtain ⟨dst, message, hsupported, hsender, haddress, rfl⟩ := h
  refine ⟨dst, message, hsupported, hsender.trans hip.symm, haddress.trans hmac.symm, ?_⟩
  rw [arpFrame, arpFrame, hmac]

/-- The header of a frame depends on the interface by its Ethernet address only. -/
theorem Hauls.congr {frame : EthernetFrame} (h : n.Hauls P M frame)
    (hmac : m.ethernetAddress = n.ethernetAddress) : m.Hauls P M frame := by
  obtain ⟨dgram, hop, mac, hdgram, hmapping, hheader, hpayload⟩ := h
  refine ⟨dgram, hop, mac, hdgram, hmapping, ?_, hpayload⟩
  rw [hheader, ipv4Header, ipv4Header, hmac]

/-- A message from the interface. -/
theorem tellsOwn_arpFrame (n : NetworkInterface) (dst : EthernetAddress) {type : UInt16}
    (ip : UInt32) (mac : EthernetAddress)
    (htype : type = ARPMessage.opcodeRequest ∨ type = ARPMessage.opcodeReply) :
    n.TellsOwn (n.arpFrame dst (n.createARPMessage type ip mac)) :=
  ⟨dst, _, n.createARPMessage_supported ip mac htype, rfl, rfl, rfl⟩

/-- A request tells the address of the one who asks. -/
theorem tellsOwn_requestFrame (n : NetworkInterface) (ip : UInt32) :
    n.TellsOwn (n.requestFrame ip) :=
  n.tellsOwn_arpFrame boardMacAdress ip .zero (Or.inl rfl)

/-- New frames behind those that are there, from an interface with the same addresses. -/
theorem Cargo.framesOut_append {new : List EthernetFrame} (h : n.Cargo P M)
    (hmac : m.ethernetAddress = n.ethernetAddress) (hip : m.ipAddress = n.ipAddress)
    (hframes : m.framesOut = n.framesOut ++ new)
    (hnew : ∀ frame ∈ new, n.TellsOwn frame ∨ n.Hauls P M frame) :
    ∀ frame ∈ m.framesOut, m.TellsOwn frame ∨ m.Hauls P M frame := by
  intro frame hframe
  rw [hframes] at hframe
  have hn : n.TellsOwn frame ∨ n.Hauls P M frame :=
    (List.mem_append.mp hframe).elim (h.frames frame) (hnew frame)
  exact hn.imp (fun hown => hown.congr hmac hip) (fun hhauls => hhauls.congr hmac)

/-- A frame is taken off the queue. -/
theorem Cargo.popFrame (h : n.Cargo P M) : (n.apply .popFrame).Cargo P M where
  frames := fun frame hframe => h.frames frame (List.mem_of_mem_tail hframe)
  mappings := h.mappings
  waiting := h.waiting

/-! ### Sending -/

/-- A datagram that is handed in. -/
theorem Cargo.sendDatagram (h : n.Cargo P M) {dgram : IPv4Datagram} {nextHop : UInt32}
    (hdgram : P dgram nextHop) : (n.sendDatagram dgram nextHop).2.Cargo P M := by
  cases hmapping : n.arpForwardTable.lookup nextHop with
  | some mapping =>
    rw [sendDatagram_known hmapping]
    by_cases hwf : dgram.WellFormed
    · obtain ⟨payload, hok, hsent⟩ := sendIPv4_of_wellFormed (n := n) hwf mapping.2
      rw [hsent]
      -- the frame holds the datagram of this call, under a mapping that is known to be true
      refine ⟨h.framesOut_append rfl rfl rfl fun frame hframe => Or.inr ?_, h.mappings, h.waiting⟩
      rw [List.mem_singleton.mp hframe]
      exact ⟨dgram, nextHop, mapping.2, hdgram, h.mappings nextHop mapping hmapping, rfl, hok⟩
    · obtain ⟨e, hsent⟩ := sendIPv4_of_not_wellFormed (n := n) hwf mapping.2
      rw [hsent]
      exact h
  | none =>
    by_cases hold : ∀ cached ∈ n.arpRequestCache.lookup nextHop, 5000 ≤ cached.1
    · rw [sendDatagram_asks hmapping hold]
      refine ⟨h.framesOut_append rfl rfl rfl fun frame hframe => Or.inl ?_, h.mappings, ?_⟩
      · rw [List.mem_singleton.mp hframe]
        exact n.tellsOwn_requestFrame nextHop
      · intro ip cached hlookup
        by_cases hip : ip = nextHop
        · -- the datagram waits under the address it was sent to
          subst hip
          rw [AList.lookup_insert] at hlookup
          rw [← Option.some.inj hlookup]
          exact Or.inl hdgram
        · rw [AList.lookup_insert_ne hip] at hlookup
          exact h.waiting ip cached hlookup
    · push Not at hold
      obtain ⟨cached, hcached, hfresh⟩ := hold
      rw [sendDatagram_waits hmapping hcached hfresh]
      exact h

/-! ### Receiving -/

/-- The frames with which a message is answered: the datagram that has waited for its sender, and
    messages from the interface. -/
theorem receiveARP_answers (n : NetworkInterface) (message : ARPMessage) :
    ∃ new, (n.receiveARP message).2.framesOut = n.framesOut ++ new ∧
      ∀ frame ∈ new, n.TellsOwn frame ∨
        ∃ dgram, n.pending message.senderIpAddress = [dgram] ∧
          dgram.serialize = .ok frame.payload ∧
          frame.header = n.ipv4Header message.senderEthernetAddress := by
  by_cases hreply : n.Replies message
  · -- a reply sends what was waiting for it; anything else is answered with an ARP frame at most
    obtain ⟨-, dgram, payload, hpending, hok, heq⟩ | ⟨-, -, e, heq⟩ | ⟨hother, -⟩ :=
      n.receiveARP_cases message
    · rw [heq]
      refine ⟨[_], rfl, fun frame hframe => Or.inr ⟨dgram, hpending, ?_⟩⟩
      rw [List.mem_singleton.mp hframe]
      exact ⟨hok, rfl⟩
    · rw [heq]
      exact ⟨[], (List.append_nil _).symm, by simp⟩
    · exact absurd hreply hother
  · have hif : ¬ (message.opcode = ARPMessage.opcodeReply ∧ message.targetEthernetAddress =
        (n.learn message.senderIpAddress message.senderEthernetAddress).ethernetAddress) := hreply
    unfold receiveARP
    dsimp only
    rw [if_neg hif]
    split
    · rw [sendARP_eq (createARPMessage_supported _ _ _ (Or.inr rfl))]
      refine ⟨[_], rfl, fun frame hframe => Or.inl ?_⟩
      rw [List.mem_singleton.mp hframe]
      exact n.tellsOwn_arpFrame _ message.senderIpAddress message.senderEthernetAddress (Or.inr rfl)
    · exact ⟨[], (List.append_nil _).symm, by simp⟩

/-- A message does not change the interface's own addresses. -/
theorem receiveARP_addresses (n : NetworkInterface) (message : ARPMessage) :
    (n.receiveARP message).2.ethernetAddress = n.ethernetAddress ∧
      (n.receiveARP message).2.ipAddress = n.ipAddress := by
  obtain ⟨-, _, _, -, -, heq⟩ | ⟨-, -, _, heq⟩ | ⟨-, _, -, -, heq⟩ := n.receiveARP_cases message <;>
    rw [heq] <;> exact ⟨rfl, rfl⟩

/-- A datagram waits for an address after a message only if it has waited before, or is the empty
    one that `operator[]` makes. -/
theorem receiveARP_waiting (n : NetworkInterface) (message : ARPMessage) {ip : UInt32}
    {cached : Int × IPv4Datagram}
    (h : (n.receiveARP message).2.arpRequestCache.lookup ip = some cached) :
    n.arpRequestCache.lookup ip = some cached ∨ ¬ cached.2.WellFormed := by
  by_cases hip : message.senderIpAddress = ip
  swap
  · rw [n.receiveARP_cache_other message hip] at h
    exact Or.inl h
  subst hip
  rw [n.receiveARP_cache_sender message] at h
  -- the entry that a reply leaves behind is one that cannot be sent
  split_ifs at h with hreply hpending
  · right
    rw [← Option.some.inj h]
    intro hwf
    rw [n.pending_cached, if_pos hwf] at hpending
    cases hpending
  · exact Or.inl h

/-- A message with a true mapping. -/
theorem Cargo.receiveARP (h : n.Cargo P M) {message : ARPMessage}
    (hmessage : M message.senderIpAddress message.senderEthernetAddress) :
    (n.receiveARP message).2.Cargo P M := by
  obtain ⟨hmac, hip⟩ := n.receiveARP_addresses message
  obtain ⟨new, hframes, hnew⟩ := n.receiveARP_answers message
  refine ⟨h.framesOut_append hmac hip hframes fun frame hframe => ?_, ?_, ?_⟩
  · refine (hnew frame hframe).imp_right ?_
    rintro ⟨dgram, hpending, hok, hheader⟩
    refine ⟨dgram, message.senderIpAddress, _, ?_, hmessage, hheader, hok⟩
    unfold pending at hpending
    split at hpending
    · cases hpending
    · -- what was waiting under the sender's address was meant for it
      rename_i cached hlookup
      split_ifs at hpending with hwf
      obtain rfl : cached.2 = dgram := by simpa using hpending
      exact (h.waiting _ cached hlookup).resolve_right (not_not.mpr hwf)
  · intro ip mapping hlookup
    rw [n.receiveARP_forward message] at hlookup
    by_cases heq : ip = message.senderIpAddress
    · subst heq
      rw [AList.lookup_insert] at hlookup
      rw [← Option.some.inj hlookup]
      exact hmessage
    · rw [AList.lookup_insert_ne heq] at hlookup
      exact h.mappings ip mapping hlookup
  · intro ip cached hlookup
    exact (n.receiveARP_waiting message hlookup).elim (h.waiting ip cached) Or.inr

/-- A frame, if the message in it has a true mapping. -/
theorem Cargo.recvFrame (h : n.Cargo P M) {frame : EthernetFrame}
    (hframe : ∀ message, n.arpMessage frame = some message →
      M message.senderIpAddress message.senderEthernetAddress) :
    (n.recvFrame frame).2.Cargo P M := by
  obtain ⟨message, hmessage, heq⟩ | ⟨-, result, heq, -⟩ := n.recvFrame_cases frame
  · rw [heq]
    exact h.receiveARP (hframe message hmessage)
  · rw [heq]
    exact h

/-! ### Time -/

/-- Time lets mappings go and repeats requests; both keep the rest as it is. -/
theorem Cargo.tick (h : n.Cargo P M) (ms : Nat) : (n.tick ms).2.Cargo P M := by
  have hticked := (n.tick_ticked ms).2
  obtain ⟨ips, -, -, hframes⟩ := hticked.frames
  refine ⟨h.framesOut_append hticked.ethernetAddress hticked.ipAddress hframes ?_, ?_, ?_⟩
  · intro frame hframe
    obtain ⟨ip, -, rfl⟩ := List.mem_map.mp hframe
    exact Or.inl (n.tellsOwn_requestFrame ip)
  · intro ip mapping hlookup
    rw [hticked.mapping] at hlookup
    obtain ⟨old, hold, hage⟩ := Option.bind_eq_some_iff.mp hlookup
    unfold ageMapping at hage
    split_ifs at hage
    rw [← Option.some.inj hage]
    exact h.mappings ip old hold
  · intro ip cached hlookup
    rw [hticked.request] at hlookup
    obtain ⟨old, hold, rfl⟩ := Option.map_eq_some_iff.mp hlookup
    have hsame : (ageRequest ms old).2 = old.2 := by
      unfold ageRequest
      split_ifs <;> rfl
    rw [hsame]
    exact h.waiting ip old hold

end

end NetworkInterface

end Sponge
