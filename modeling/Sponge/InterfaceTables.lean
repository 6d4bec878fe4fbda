import Sponge.InterfaceSteps
import Sponge.Lib.Run

namespace Sponge

/-!
# The two tables of a network interface

An address should be in the table of the mappings or in the one of the pending requests, not in
both: then nothing is asked for that is known.  A message puts its sender into the first table, and
takes it out of the second only if it is a reply to this interface and a datagram is waiting.
`Settles` says that a call does not bring a message for which this goes wrong, and
`tables_disjoint_iff` that these are the only ones.

A reply for which nothing is waiting throws: `recvFrame_returns_iff`.
-/

namespace NetworkInterface

/-- No address is in both tables. -/
def Disjoint (n : NetworkInterface) : Prop :=
  ∀ ip, n.arpForwardTable.lookup ip = none ∨ n.arpRequestCache.lookup ip = none

/-- Time does not make the interface ask for an address that it knows. -/
def AsksUnknown (n : NetworkInterface) : Prop :=
  ∀ ms, ∀ ip ∈ n.requests (.tick ms), n.arpForwardTable.lookup ip = none

/-- A message of the call leaves no pending request of its sender: there was none, or the message is
    a reply, which sends the datagram. -/
def Settles (n : NetworkInterface) : InterfaceOp → Prop
  | .recvFrame frame =>
      ∀ message ∈ n.arpMessage frame,
        if n.Replies message then n.pending message.senderIpAddress ≠ []
        else n.arpRequestCache.lookup message.senderIpAddress = none
  | _ => True

variable {n : NetworkInterface}

/-- Only pending requests are repeated, and these are for unknown addresses. -/
theorem Disjoint.asksUnknown (h : n.Disjoint) : n.AsksUnknown := by
  intro ms ip hip
  refine (h ip).resolve_right fun hnone => ?_
  rw [(n.requests_tick ms).2, isDue, hnone] at hip
  exact absurd hip (by simp)

/-- A message, exactly. -/
theorem disjoint_receiveARP_iff (h : n.Disjoint) (message : ARPMessage) :
    (n.receiveARP message).2.Disjoint ↔
      if n.Replies message then n.pending message.senderIpAddress ≠ []
      else n.arpRequestCache.lookup message.senderIpAddress = none := by
  have hforward := n.receiveARP_forward message
  have hsender := n.receiveARP_cache_sender message
  -- only the sender matters
  have hiff : (n.receiveARP message).2.Disjoint ↔
      (n.receiveARP message).2.arpRequestCache.lookup message.senderIpAddress = none := by
    constructor
    · intro hdisjoint
      refine (hdisjoint message.senderIpAddress).resolve_left ?_
      rw [hforward, AList.lookup_insert]
      simp
    · intro hnone ip
      by_cases hip : message.senderIpAddress = ip
      · exact .inr (hip ▸ hnone)
      · rw [hforward, AList.lookup_insert_ne (Ne.symm hip), n.receiveARP_cache_other message hip]
        exact h ip
  rw [hiff, hsender]
  by_cases hreply : n.Replies message
  · by_cases hpending : n.pending message.senderIpAddress = []
    · simp [hreply, hpending]
    · simp [hreply, hpending]
  · simp [hreply]

/-- **One step**, exactly. -/
theorem disjoint_apply_iff (h : n.Disjoint) (op : InterfaceOp) :
    (n.apply op).Disjoint ↔ n.Settles op := by
  cases op with
  | sendDatagram dgram nextHop =>
    refine iff_of_true ?_ trivial
    obtain ⟨new, heq, -⟩ | ⟨hunknown, -, heq⟩ := n.sendDatagram_cases dgram nextHop
    · rw [heq]
      exact h
    · -- a pending request is made only for an address that is not known
      rw [heq]
      intro ip
      by_cases hip : ip = nextHop
      · exact .inl (hip ▸ hunknown)
      · exact (h ip).imp_right fun hnone => (AList.lookup_insert_ne hip).trans hnone
  | recvFrame frame =>
    rw [NetworkInterface.apply]
    cases hmessage : n.arpMessage frame with
    | none =>
      rw [recvFrame_of_none hmessage]
      refine iff_of_true h fun message hmem => ?_
      exact absurd (hmessage.symm.trans hmem) (by simp)
    | some message =>
      rw [recvFrame_of_some hmessage, disjoint_receiveARP_iff h]
      unfold Settles
      simp [hmessage]
  | tick ms =>
    refine iff_of_true (fun ip => ?_) trivial
    have hticked := (n.tick_ticked ms).2
    rw [NetworkInterface.apply, hticked.mapping, hticked.request]
    rcases h ip with hnone | hnone
    · exact .inl (by rw [hnone]; rfl)
    · exact .inr (by rw [hnone]; rfl)
  | popFrame => exact iff_of_true h trivial

/-- **No address is in both tables, and none that is known is asked for, exactly in the runs all of
    whose messages settle the pending request of their sender.** -/
theorem tables_disjoint_iff (ethernetAddress : EthernetAddress) (ipAddress : UInt32)
    (ops : List InterfaceOp) :
    Run.Always apply (fun n => n.Disjoint ∧ n.AsksUnknown)
        { ethernetAddress := ethernetAddress, ipAddress := ipAddress } ops ↔
      Run.Steps apply Settles
        { ethernetAddress := ethernetAddress, ipAddress := ipAddress } ops := by
  have hinit : Disjoint { ethernetAddress := ethernetAddress, ipAddress := ipAddress } :=
    fun _ => .inl rfl
  exact Run.always_iff_steps (I := fun _ => True) (A := fun _ => True) (fun _ _ _ _ => trivial)
    (fun n op _ _ h => ⟨fun h' => (disjoint_apply_iff h.1 op).mp h'.1,
      fun hsettles => ⟨(disjoint_apply_iff h.1 op).mpr hsettles,
        ((disjoint_apply_iff h.1 op).mpr hsettles).asksUnknown⟩⟩)
    (fun _ _ => trivial) trivial ⟨hinit, hinit.asksUnknown⟩

/-- A datagram waits for a hop, and a request from there comes: the hop is known, and is asked for
    again after five seconds. -/
theorem known_address_asked_for :
    let request : EthernetFrame :=
      { header := { dst := #v[2, 0, 0, 0, 0, 1], src := #v[2, 0, 0, 0, 0, 2], type := 0x806 }
        payload := .ofString [0, 1, 8, 0, 6, 4, 0, 1, 2, 0, 0, 0, 0, 2, 0, 0, 0, 20,
          0, 0, 0, 0, 0, 0, 0, 0, 0, 10] }
    let n := List.foldl apply { ethernetAddress := #v[2, 0, 0, 0, 0, 1], ipAddress := 10 }
      [.sendDatagram ⟨{ len := 21 }, .ofString [97]⟩ 20, .recvFrame request]
    n.arpForwardTable.lookup 20 = some (0, #v[2, 0, 0, 0, 0, 2]) ∧
      (n.arpRequestCache.lookup 20).isSome ∧ n.requests (.tick 5001) = [20] ∧
      (n.apply (.tick 5001)).arpForwardTable.lookup 20 = some (5001, #v[2, 0, 0, 0, 0, 2]) := by
  decide +kernel

/-! ### Replies for which nothing is waiting -/

/-- The frame carries a reply from an address for which no datagram is waiting. -/
def Unsolicited (n : NetworkInterface) (header : EthernetHeader) (buffer : Buffer)
    (message : ARPMessage) : Prop :=
  header.type = EthernetHeader.typeARP ∧ ARPMessage.parse {} buffer = (.noError, message) ∧
    message.opcode = ARPMessage.opcodeReply ∧ n.pending message.senderIpAddress = []

/-- The message for this interface in a contiguous payload. -/
theorem arpMessage_eq_some {header : EthernetHeader} {buffer : Buffer} {message : ARPMessage}
    (h : n.arpMessage ⟨header, .ofBuffer buffer⟩ = some message) :
    ARPMessage.parse {} buffer = (.noError, message) := by
  unfold arpMessage at h
  split at h
  · exact absurd h (by simp)
  split at h
  · exact absurd h (by simp)
  dsimp only [BufferList.ofBuffer, BufferList.toBuffer] at h
  split at h
  · rename_i parsed hparsed
    split at h
    · rw [hparsed, Option.some.inj h]
    · exact absurd h (by simp)
  · exact absurd h (by simp)

/-- Without a message, nothing throws: the payload is in one piece. -/
theorem recvFrame_returns_of_none {header : EthernetHeader} {buffer : Buffer}
    (h : n.arpMessage ⟨header, .ofBuffer buffer⟩ = none) :
    ∃ result, (n.recvFrame ⟨header, .ofBuffer buffer⟩).1 = .ok result := by
  obtain ⟨message, hmessage, -⟩ | ⟨-, result, heq, hanswer⟩ :=
    n.recvFrame_cases ⟨header, .ofBuffer buffer⟩
  · exact absurd (h.symm.trans hmessage) (by simp)
  · rw [heq]
    cases result with
    | ok answer => exact ⟨answer, rfl⟩
    | error e =>
      have hpieces : Except.ok buffer = .error e := hanswer
      exact absurd hpieces (by simp)

/-- **A frame is received without an exception, and a reply for which nothing is waiting has no
    effect on the queue and the pending requests, unless the frame carries such a reply to this
    interface.** -/
theorem recvFrame_returns_iff (n : NetworkInterface) (header : EthernetHeader) (buffer : Buffer) :
    ((∃ result, (n.recvFrame ⟨header, .ofBuffer buffer⟩).1 = .ok result) ∧
      ∀ message, n.Unsolicited header buffer message →
        (n.apply (.recvFrame ⟨header, .ofBuffer buffer⟩)).framesOut = n.framesOut ∧
        ∀ ip, n.arpRequestCache.lookup ip = none →
          (n.apply (.recvFrame ⟨header, .ofBuffer buffer⟩)).arpRequestCache.lookup ip = none) ↔
    ¬ ∃ message ∈ n.arpMessage ⟨header, .ofBuffer buffer⟩,
        n.Replies message ∧ n.pending message.senderIpAddress = [] := by
  rw [NetworkInterface.apply]
  cases hmessage : n.arpMessage ⟨header, .ofBuffer buffer⟩ with
  | none =>
    rw [recvFrame_of_none hmessage]
    exact iff_of_true ⟨recvFrame_returns_of_none hmessage, fun _ _ => ⟨rfl, fun _ => id⟩⟩ (by simp)
  | some message =>
    have hsame : ∀ other, n.Unsolicited header buffer other → other = message :=
      fun other hother => congrArg Prod.snd (hother.2.1.symm.trans (arpMessage_eq_some hmessage))
    rw [recvFrame_of_some hmessage]
    obtain ⟨hreply, dgram, payload, hpending, -, heq⟩ | ⟨hreply, hpending, e, heq⟩ |
      ⟨hother, new, -, hnew, heq⟩ := n.receiveARP_cases message
    · -- the waiting datagram is sent
      rw [heq]
      refine iff_of_true ⟨⟨none, rfl⟩, fun other hunasked => ?_⟩ ?_
      · obtain rfl := hsame other hunasked
        exact absurd (hpending.symm.trans hunasked.2.2.2) (by simp)
      · rintro ⟨_, ⟨⟩, -, hnone⟩
        exact absurd (hpending.symm.trans hnone) (by simp)
    · rw [heq]
      refine iff_of_false ?_ (not_not.mpr ⟨message, rfl, hreply, hpending⟩)
      rintro ⟨⟨result, hok⟩, -⟩
      exact absurd hok (by simp)
    · rw [heq]
      refine iff_of_true ⟨⟨none, rfl⟩, fun other hunasked => ⟨?_, fun ip hnone => hnone⟩⟩ ?_
      · -- only a request is answered
        obtain rfl := hsame other hunasked
        rw [hnew hunasked.2.2.1]
        exact List.append_nil _
      · rintro ⟨_, ⟨⟩, hreply, -⟩
        exact hother hreply

/-- A reply that nobody has asked for: the call throws, and leaves a pending request. -/
theorem unsolicited_reply_throws :
    let n : NetworkInterface := { ethernetAddress := #v[2, 0, 0, 0, 0, 1], ipAddress := 10 }
    let reply : EthernetFrame :=
      { header := { dst := #v[2, 0, 0, 0, 0, 1], src := #v[2, 0, 0, 0, 0, 2], type := 0x806 }
        payload := .ofString [0, 1, 8, 0, 6, 4, 0, 2, 2, 0, 0, 0, 0, 2, 0, 0, 0, 20,
          2, 0, 0, 0, 0, 1, 0, 0, 0, 10] }
    (n.recvFrame reply).1
        = .error (.runtimeError "IPv4Datagram::serialize: payload is wrong size") ∧
      n.arpRequestCache.lookup 20 = none ∧
      (n.recvFrame reply).2.arpRequestCache.lookup 20 = some (0, {}) := by
  decide +kernel

end NetworkInterface

end Sponge
