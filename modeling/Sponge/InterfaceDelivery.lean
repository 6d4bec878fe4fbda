import Sponge.InterfaceSteps
import Sponge.Lib.Mailbox
import Sponge.Lib.Run

namespace Sponge

/-!
# Datagrams through a network interface

What a network interface is for: a datagram for a next hop whose Ethernet address is known is
emitted at once; the others wait, and all that wait for a hop are emitted when its address is
learnt.  This is a mailbox (`Mailbox`) whose keys are the hops, and `event` says what a call on the
interface is to it.

The interface has room for one waiting datagram a hop, and looks at it only when a reply comes.
`Keeps` excludes the two calls at which that shows: a datagram for a hop that already has one
waiting, and an address learnt by anything but a reply while one is waiting.  In all other runs the
interface is the mailbox: `datagrams_delivered`.
-/

namespace NetworkInterface

/-- What a call is to the mailbox. -/
def event (n : NetworkInterface) : InterfaceOp → Mailbox.Event UInt32 IPv4Datagram
  | .sendDatagram dgram nextHop =>
      if n.arpForwardTable.lookup nextHop = none then .submit nextHop dgram
      else .pass nextHop dgram
  | .recvFrame frame =>
      match n.arpMessage frame with
      | some message => .resolve message.senderIpAddress
      | none => .idle
  | .tick _ => .idle
  | .popFrame => .idle

/-- The frame carries the datagram to the Ethernet address of the hop. -/
def Carries (n : NetworkInterface) (frame : EthernetFrame) (item : UInt32 × IPv4Datagram) : Prop :=
  item.2.serialize = .ok frame.payload ∧
    ∃ mapping ∈ n.arpForwardTable.lookup item.1, frame.header = n.ipv4Header mapping.2

/-- The call does not ask for more than one waiting datagram a hop, nor for one to be sent by
    anything but a reply. -/
def Keeps (n : NetworkInterface) : InterfaceOp → Prop
  | .sendDatagram _ nextHop =>
      n.arpForwardTable.lookup nextHop ≠ none ∨
        ∀ cached ∈ n.arpRequestCache.lookup nextHop, 5000 ≤ cached.1 ∧ ¬ cached.2.WellFormed
  | .recvFrame frame =>
      ∀ message ∈ n.arpMessage frame,
        n.Replies message ∨ n.pending message.senderIpAddress = []
  | .tick _ => True
  | .popFrame => True

instance (n : NetworkInterface) (op : InterfaceOp) : Decidable (n.Keeps op) := by
  cases op <;> unfold Keeps <;> infer_instance

variable {n : NetworkInterface}

/-! ### What the interface holds -/

/-- The entry of one hop is replaced. -/
theorem pending_insert {m : NetworkInterface} {ip : UInt32} {cached : Int × IPv4Datagram}
    (h : m.arpRequestCache = n.arpRequestCache.insert ip cached) (j : UInt32) :
    m.pending j =
      if ip = j then (if cached.2.WellFormed then [cached.2] else []) else n.pending j := by
  unfold pending
  rw [h]
  by_cases hj : ip = j
  · subst hj
    rw [AList.lookup_insert, if_pos rfl]
  · rw [AList.lookup_insert_ne (Ne.symm hj), if_neg hj]

/-- A request that is erased takes its datagram with it, and no other. -/
theorem pending_erase {m : NetworkInterface} {ip : UInt32}
    (h : m.arpRequestCache = n.arpRequestCache.erase ip) (j : UInt32) :
    m.pending j = if ip = j then [] else n.pending j := by
  unfold pending
  rw [h]
  by_cases hj : ip = j
  · subst hj
    rw [AList.lookup_erase, if_pos rfl]
  · rw [AList.lookup_erase_ne (Ne.symm hj), if_neg hj]

/-! ### What the calls do -/

/-- The later state has the same two addresses, and only ARP frames have been sent. -/
structure ArpOnly (n m : NetworkInterface) : Prop where
  ethernetAddress : m.ethernetAddress = n.ethernetAddress
  ipAddress : m.ipAddress = n.ipAddress
  frames : ∃ new, m.framesOut = n.framesOut ++ new ∧
    ∀ frame ∈ new, frame.header.type = EthernetHeader.typeARP

/-- **Time** sends only requests, keeps what is waiting and makes no mapping. -/
theorem Ticked.frame {m : NetworkInterface} {ms : Nat} (h : Ticked n ms m) :
    ArpOnly n m ∧ (∀ j, m.pending j = n.pending j) ∧
      ∀ j, m.arpForwardTable.lookup j ≠ none → n.arpForwardTable.lookup j ≠ none := by
  obtain ⟨ips, -, -, hframes⟩ := h.frames
  refine ⟨⟨h.ethernetAddress, h.ipAddress, _, hframes, fun frame hframe => ?_⟩, fun j => ?_,
    fun j hj hnone => ?_⟩
  · obtain ⟨ip, -, rfl⟩ := List.mem_map.mp hframe
    rfl
  · unfold pending
    rw [h.request]
    cases n.arpRequestCache.lookup j with
    | none => rfl
    | some cached =>
      -- an entry keeps its datagram
      have hdgram : (ageRequest ms cached).2 = cached.2 := by
        unfold ageRequest
        split <;> rfl
      simp only [Option.map_some, hdgram]
  · rw [h.mapping, hnone] at hj
    exact hj rfl

/-- What is common to all messages: the mapping is learnt, and afterwards nothing waits for it. -/
structure Learnt (n m : NetworkInterface) (message : ARPMessage) : Prop where
  ethernetAddress : m.ethernetAddress = n.ethernetAddress
  mapping : m.arpForwardTable =
    n.arpForwardTable.insert message.senderIpAddress (0, message.senderEthernetAddress)
  pending : ∀ j, m.pending j = if message.senderIpAddress = j then [] else n.pending j

/-- A reply: the datagram that waits is sent, if there is one; if there is none, the call throws. -/
theorem receiveARP_reply {message : ARPMessage} (hreply : n.Replies message) :
    Learnt n (n.receiveARP message).2 message ∧
      ∃ frames, (n.receiveARP message).2.framesOut = n.framesOut ++ frames ∧
        (∀ frame ∈ frames, frame.header = n.ipv4Header message.senderEthernetAddress) ∧
        List.Forall₂ (fun frame dgram => dgram.serialize = .ok frame.payload)
          frames (n.pending message.senderIpAddress) := by
  obtain ⟨-, dgram, payload, hpending, hok, heq⟩ | ⟨-, hpending, e, heq⟩ | ⟨hother, -⟩ :=
    n.receiveARP_cases message
  · rw [heq, hpending]
    refine ⟨⟨rfl, rfl, fun j => ?_⟩, [_], rfl, by simp, List.Forall₂.cons hok List.Forall₂.nil⟩
    -- the entry is made anew and erased
    refine (pending_erase (n := n.access message.senderIpAddress) rfl j).trans ?_
    split
    · rfl
    · rename_i hj
      rw [pending_insert (n := n) rfl, if_neg hj]
  · rw [heq, hpending]
    refine ⟨⟨rfl, rfl, fun j => ?_⟩, [], (List.append_nil _).symm, by simp, List.Forall₂.nil⟩
    refine (pending_insert (n := n) rfl j).trans ?_
    rw [← n.pending_cached, hpending]
  · exact absurd hreply hother

/-- Any other message: nothing but an answer is sent. -/
theorem receiveARP_other {message : ARPMessage} (hother : ¬ n.Replies message)
    (hnone : n.pending message.senderIpAddress = []) :
    Learnt n (n.receiveARP message).2 message ∧ ArpOnly n (n.receiveARP message).2 := by
  obtain ⟨hreply, -⟩ | ⟨hreply, -⟩ | ⟨-, new, harp, -, heq⟩ := n.receiveARP_cases message
  · exact absurd hreply hother
  · exact absurd hreply hother
  · rw [heq]
    refine ⟨⟨rfl, rfl, fun j => ?_⟩, rfl, rfl, new, rfl, fun frame hframe => (harp frame hframe).1⟩
    -- nothing waits for the sender, so that forgetting it changes nothing
    show n.pending j = _
    split
    · rename_i hj
      rw [← hj, hnone]
    · rfl

/-- A call that queues only messages sends no datagram. -/
theorem ipv4Out_of_arpOnly {op : InterfaceOp} (h : ArpOnly n (n.apply op)) : n.ipv4Out op = [] := by
  obtain ⟨new, hframes, harp⟩ := h.frames
  rw [ipv4Out_of_frames new hframes, List.filter_eq_nil_iff]
  intro frame hframe
  rw [harp frame hframe]
  decide

/-! ### The interface and the mailbox -/

/-- An interface, and the datagrams that wait for their hop, as they should. -/
structure DeliveryRun where
  interface : NetworkInterface
  waiting : List (UInt32 × IPv4Datagram) := []

namespace DeliveryRun

def start (ethernetAddress : EthernetAddress) (ipAddress : UInt32) : DeliveryRun :=
  { interface := { ethernetAddress := ethernetAddress, ipAddress := ipAddress } }

/-- A call. -/
def step (r : DeliveryRun) (op : InterfaceOp) : DeliveryRun where
  interface := r.interface.apply op
  waiting := Mailbox.rest r.waiting (r.interface.event op)

/-- **The call emits what is due**, and no other datagram. -/
def Emits (r : DeliveryRun) (op : InterfaceOp) : Prop :=
  List.Forall₂ (r.interface.apply op).Carries (r.interface.ipv4Out op)
    (Mailbox.due r.waiting (r.interface.event op))

/-- The datagrams that are due in a run, one after another. -/
def delivered : DeliveryRun → List InterfaceOp → List (UInt32 × IPv4Datagram)
  | _, [] => []
  | r, op :: ops => Mailbox.due r.waiting (r.interface.event op) ++ delivered (r.step op) ops

/-- The datagrams passed to `send_datagram` in a run, with their hops. -/
def passed : List InterfaceOp → List (UInt32 × IPv4Datagram)
  | [] => []
  | .sendDatagram dgram nextHop :: ops => (nextHop, dgram) :: passed ops
  | _ :: ops => passed ops

/-- The interface holds what should wait, and nothing should wait for a hop it knows. -/
structure InStep (r : DeliveryRun) : Prop where
  waits : ∀ ip, Mailbox.waitingFor r.waiting ip = r.interface.pending ip
  resolved : ∀ ip, r.interface.arpForwardTable.lookup ip ≠ none → r.interface.pending ip = []

variable {r : DeliveryRun}

/-- In the beginning nothing waits. -/
theorem start_inStep (ethernetAddress : EthernetAddress) (ipAddress : UInt32) :
    InStep (start ethernetAddress ipAddress) where
  waits := fun _ => rfl
  resolved := fun _ _ => rfl

/-- A call that sends no datagram, keeps what is waiting and learns nothing. -/
theorem InStep.idle (h : InStep r) {op : InterfaceOp} (hevent : r.interface.event op = .idle)
    (hout : r.interface.ipv4Out op = [])
    (hpending : ∀ ip, (r.interface.apply op).pending ip = r.interface.pending ip)
    (hforward : ∀ ip, (r.interface.apply op).arpForwardTable.lookup ip ≠ none →
      r.interface.arpForwardTable.lookup ip ≠ none) : r.Emits op ∧ InStep (r.step op) := by
  unfold Emits step
  rw [hevent, hout]
  exact ⟨List.Forall₂.nil, fun ip => (h.waits ip).trans (hpending ip).symm,
    fun ip hip => (hpending ip).trans (h.resolved ip (hforward ip hip))⟩

/-- A datagram for a hop whose address is known. -/
theorem InStep.sendResolved (h : InStep r) {dgram : IPv4Datagram} {nextHop : UInt32}
    (hwf : dgram.WellFormed) {mapping : Int × EthernetAddress}
    (hmapping : r.interface.arpForwardTable.lookup nextHop = some mapping) :
    r.Emits (.sendDatagram dgram nextHop) ∧ InStep (r.step (.sendDatagram dgram nextHop)) := by
  obtain ⟨payload, hok, happly, hout⟩ := ipv4Out_sendDatagram_known hwf hmapping
  have hevent : r.interface.event (.sendDatagram dgram nextHop) = .pass nextHop dgram := by
    rw [event, if_neg (by simp [hmapping])]
  unfold Emits step
  rw [hevent, hout, happly]
  exact ⟨List.Forall₂.cons ⟨hok, mapping, hmapping, rfl⟩ List.Forall₂.nil, h.waits, h.resolved⟩

/-- A datagram for a hop whose address is not known, and for which none is waiting. -/
theorem InStep.sendUnresolved (h : InStep r) {dgram : IPv4Datagram} {nextHop : UInt32}
    (hwf : dgram.WellFormed) (hmapping : r.interface.arpForwardTable.lookup nextHop = none)
    (hfree : ∀ cached ∈ r.interface.arpRequestCache.lookup nextHop,
      5000 ≤ cached.1 ∧ ¬ cached.2.WellFormed) :
    r.Emits (.sendDatagram dgram nextHop) ∧ InStep (r.step (.sendDatagram dgram nextHop)) := by
  have hevent : r.interface.event (.sendDatagram dgram nextHop) = .submit nextHop dgram := by
    rw [event, if_pos hmapping]
  have hnone : r.interface.pending nextHop = [] := by
    unfold pending
    split
    · rfl
    · rename_i cached hcached
      exact if_neg (hfree cached hcached).2
  have happly : r.interface.apply (.sendDatagram dgram nextHop) =
      { r.interface with
        arpRequestCache := r.interface.arpRequestCache.insert nextHop (0, dgram)
        framesOut := r.interface.framesOut ++ [r.interface.requestFrame nextHop] } :=
    congrArg Prod.snd (sendDatagram_asks hmapping fun cached hcached => (hfree cached hcached).1)
  have hout : r.interface.ipv4Out (.sendDatagram dgram nextHop) = [] :=
    ipv4Out_sendDatagram_unknown hmapping
  have hpending := pending_insert (n := r.interface)
    (m := r.interface.apply (.sendDatagram dgram nextHop)) (by rw [happly])
  unfold Emits step
  rw [hevent, hout]
  refine ⟨List.Forall₂.nil, fun ip => ?_, fun ip hip => ?_⟩
  · show Mailbox.waitingFor (r.waiting ++ [(nextHop, dgram)]) ip
      = (r.interface.apply (.sendDatagram dgram nextHop)).pending ip
    rw [Mailbox.waitingFor_append, Mailbox.waitingFor_singleton, h.waits, hpending]
    by_cases hip : nextHop = ip
    · rw [if_pos hip, if_pos hip, ← hip, hnone]
      exact (if_pos hwf).symm
    · rw [if_neg hip, if_neg hip]
      exact List.append_nil _
  · -- the hop of the datagram is not known
    have hforward : (r.interface.apply (.sendDatagram dgram nextHop)).arpForwardTable
        = r.interface.arpForwardTable := by
      rw [happly]
    have hip' : r.interface.arpForwardTable.lookup ip ≠ none := hforward ▸ hip
    have hne : nextHop ≠ ip := fun heq => hip' (heq ▸ hmapping)
    rw [hpending, if_neg hne]
    exact h.resolved ip hip'

/-- A message for the interface, with the frames it makes it send. -/
theorem InStep.learnt (h : InStep r) {frame : EthernetFrame} {message : ARPMessage}
    (hmessage : r.interface.arpMessage frame = some message)
    (hlearnt : Learnt r.interface (r.interface.apply (.recvFrame frame)) message)
    (hheader : ∀ out ∈ r.interface.ipv4Out (.recvFrame frame),
      out.header = r.interface.ipv4Header message.senderEthernetAddress)
    (hout : List.Forall₂ (fun out dgram => dgram.serialize = .ok out.payload)
      (r.interface.ipv4Out (.recvFrame frame)) (r.interface.pending message.senderIpAddress)) :
    r.Emits (.recvFrame frame) ∧ InStep (r.step (.recvFrame frame)) := by
  have hevent : r.interface.event (.recvFrame frame) = .resolve message.senderIpAddress := by
    rw [event, hmessage]
  have hmapping : (r.interface.apply (.recvFrame frame)).arpForwardTable.lookup
      message.senderIpAddress = some (0, message.senderEthernetAddress) := by
    rw [hlearnt.mapping]
    exact AList.lookup_insert _
  unfold Emits step
  rw [hevent, Mailbox.due_resolve, h.waits, List.forall₂_map_right_iff]
  refine ⟨((List.forall₂_and_left _ _).mpr ⟨hheader, hout⟩).imp ?_, fun ip => ?_, fun ip hip => ?_⟩
  · rintro out dgram ⟨hheader, hok⟩
    refine ⟨hok, (0, message.senderEthernetAddress), hmapping, ?_⟩
    rw [hheader, ipv4Header, ipv4Header, hlearnt.ethernetAddress]
  · rw [Mailbox.waitingFor_rest_resolve, hlearnt.pending, h.waits]
  · show (r.interface.apply (.recvFrame frame)).pending ip = []
    have hip : (r.interface.apply (.recvFrame frame)).arpForwardTable.lookup ip ≠ none := hip
    rw [hlearnt.pending]
    rw [hlearnt.mapping] at hip
    split
    · rfl
    · rename_i hne
      rw [AList.lookup_insert_ne (Ne.symm hne)] at hip
      exact h.resolved ip hip

/-- **One step.** -/
theorem InStep.step (h : InStep r) (op : InterfaceOp)
    (hwf : ∀ dgram nextHop, op = .sendDatagram dgram nextHop → dgram.WellFormed)
    (hkeeps : r.interface.Keeps op) : r.Emits op ∧ InStep (r.step op) := by
  cases op with
  | sendDatagram dgram nextHop =>
    have hwf := hwf dgram nextHop rfl
    cases hmapping : r.interface.arpForwardTable.lookup nextHop with
    | some mapping => exact h.sendResolved hwf hmapping
    | none => exact h.sendUnresolved hwf hmapping (hkeeps.resolve_left (by simp [hmapping]))
  | recvFrame frame =>
    cases hmessage : r.interface.arpMessage frame with
    | none =>
      have happly : r.interface.apply (.recvFrame frame) = r.interface := recvFrame_of_none hmessage
      refine h.idle (by rw [event, hmessage]) ?_ (fun ip => by rw [happly])
        (fun ip hip => by rwa [happly] at hip)
      exact ipv4Out_of_frames [] (by rw [happly, List.append_nil])
    | some message =>
      have happly : r.interface.apply (.recvFrame frame) = (r.interface.receiveARP message).2 := by
        rw [NetworkInterface.apply, recvFrame_of_some hmessage]
      by_cases hreply : r.interface.Replies message
      · obtain ⟨hlearnt, frames, hframes, hheader, hall⟩ := receiveARP_reply hreply
        rw [← happly] at hlearnt hframes
        -- all of these frames are IPv4 frames
        have hout : r.interface.ipv4Out (.recvFrame frame) = frames := by
          rw [ipv4Out_of_frames frames hframes, List.filter_eq_self]
          intro out hmem
          rw [hheader out hmem]
          rfl
        exact h.learnt hmessage hlearnt (by rwa [hout]) (by rwa [hout])
      · have hnone := (hkeeps message hmessage).resolve_left hreply
        obtain ⟨hlearnt, harp⟩ := receiveARP_other hreply hnone
        rw [← happly] at hlearnt harp
        have hout := ipv4Out_of_arpOnly harp
        refine h.learnt hmessage hlearnt (by simp [hout]) ?_
        rw [hout, hnone]
        exact List.Forall₂.nil
  | tick ms =>
    obtain ⟨harp, hpending, hforward⟩ := (r.interface.tick_ticked ms).2.frame
    exact h.idle rfl (ipv4Out_of_arpOnly harp) hpending hforward
  | popFrame =>
    refine h.idle rfl ?_ (fun _ => rfl) (fun _ hip => hip)
    unfold ipv4Out
    rw [List.drop_eq_nil_of_le (by simp [NetworkInterface.apply])]
    rfl

/-- Nothing waits for the hop of a datagram that is sent at once. -/
theorem InStep.inOrder (h : InStep r) (op : InterfaceOp) :
    Mailbox.InOrder r.waiting (r.interface.event op) := by
  cases op with
  | sendDatagram dgram nextHop =>
    rw [event]
    split
    · trivial
    · rename_i hmapping
      exact (h.waits nextHop).trans (h.resolved nextHop hmapping)
  | recvFrame frame =>
    rw [event]
    split <;> trivial
  | tick ms => trivial
  | popFrame => trivial

/-- What is passed to the interface is what is handed in to the mailbox, in the same order. -/
theorem handedIn_event (n : NetworkInterface) (op : InterfaceOp) (ops : List InterfaceOp) :
    passed (op :: ops) = Mailbox.handedIn (n.event op) ++ passed ops := by
  cases op with
  | sendDatagram dgram nextHop =>
    rw [event, passed]
    split <;> rfl
  | recvFrame frame =>
    rw [event, passed]
    · split <;> rfl
    · exact fun _ _ h => InterfaceOp.noConfusion h
  | tick ms => rfl
  | popFrame => rfl

/-- What waits at the start of a run and what is passed in it is delivered in it or waits at its
    end, hop by hop and in order. -/
theorem delivered_append_waiting {ops : List InterfaceOp}
    (h : Run.Steps step (fun r op => Mailbox.InOrder r.waiting (r.interface.event op)) r ops)
    (hop : UInt32) :
    Mailbox.waitingFor (delivered r ops) hop ++
        Mailbox.waitingFor (ops.foldl step r).waiting hop
      = Mailbox.waitingFor r.waiting hop ++ Mailbox.waitingFor (passed ops) hop := by
  induction ops generalizing r with
  | nil => simp [delivered, passed]
  | cons op ops ih =>
    have hone := Mailbox.waitingFor_due_append h.1 hop
    rw [delivered, List.foldl_cons, Mailbox.waitingFor_append, List.append_assoc, ih h.2,
      handedIn_event r.interface op ops, Mailbox.waitingFor_append, ← List.append_assoc,
      ← List.append_assoc, ← hone]
    rfl

/-- **No datagram is lost or doubled.**  In every run over well-formed datagrams whose calls meet
    `Keeps`, every call emits exactly the datagrams that are due; and hop by hop, those that have
    been due, followed by those that still wait, are those that were passed to `send_datagram`. -/
theorem datagrams_delivered (ethernetAddress : EthernetAddress) (ipAddress : UInt32)
    (ops : List InterfaceOp)
    (hwf : ∀ dgram nextHop, .sendDatagram dgram nextHop ∈ ops → dgram.WellFormed)
    (hkeeps : Run.Steps step (fun r op => r.interface.Keeps op)
      (start ethernetAddress ipAddress) ops) :
    Run.Steps step Emits (start ethernetAddress ipAddress) ops ∧
      ∀ hop, Mailbox.waitingFor (delivered (start ethernetAddress ipAddress) ops) hop ++
          Mailbox.waitingFor (ops.foldl step (start ethernetAddress ipAddress)).waiting hop
        = Mailbox.waitingFor (passed ops) hop := by
  have hall : ∀ op ∈ ops, ∀ dgram nextHop, op = .sendDatagram dgram nextHop →
      dgram.WellFormed := fun op hop dgram nextHop heq => hwf dgram nextHop (heq ▸ hop)
  have hinit := start_inStep ethernetAddress ipAddress
  refine ⟨hkeeps.imp (I := InStep) (fun r op hop h hk => h.step op hop hk) hall hinit, ?_⟩
  exact delivered_append_waiting
    (hkeeps.imp (I := InStep) (fun r op hop h hk => ⟨h.inOrder op, (h.step op hop hk).2⟩)
      hall hinit)

/-- A datagram waits for the reply, and a second one, sent after it, does not wait. -/
theorem datagrams_delivered_reply :
    let dgram (b : UInt8) : IPv4Datagram := { header := { len := 21 }, payload := .ofString [b] }
    let reply : EthernetFrame :=
      { header := { dst := #v[2, 0, 0, 0, 0, 1], src := #v[2, 0, 0, 0, 0, 2], type := 0x806 }
        payload := .ofString [0, 1, 8, 0, 6, 4, 0, 2, 2, 0, 0, 0, 0, 2, 0, 0, 0, 20,
          2, 0, 0, 0, 0, 1, 0, 0, 0, 10] }
    Run.Steps step Emits (start #v[2, 0, 0, 0, 0, 1] 10)
      [.sendDatagram (dgram 97) 20, .recvFrame reply, .sendDatagram (dgram 98) 20] := by
  intro dgram reply
  refine (datagrams_delivered #v[2, 0, 0, 0, 0, 1] 10 _ ?_ (by decide +kernel)).1
  intro d hop hmem
  simp only [List.mem_cons, InterfaceOp.sendDatagram.injEq, reduceCtorEq, List.not_mem_nil,
    or_false, false_or] at hmem
  rcases hmem with ⟨rfl, -⟩ | ⟨rfl, -⟩ <;> decide

/-- Two datagrams are sent while the address is unknown: the reply brings out the first, and the
    second is gone.  And one that waits is not sent when the address is learnt from a request. -/
theorem datagrams_lost :
    let dgram (b : UInt8) : IPv4Datagram := { header := { len := 21 }, payload := .ofString [b] }
    let message (opcode : UInt8) : EthernetFrame :=
      { header := { dst := #v[2, 0, 0, 0, 0, 1], src := #v[2, 0, 0, 0, 0, 2], type := 0x806 }
        payload := .ofString [0, 1, 8, 0, 6, 4, 0, opcode, 2, 0, 0, 0, 0, 2, 0, 0, 0, 20,
          2, 0, 0, 0, 0, 1, 0, 0, 0, 10] }
    let two := List.foldl step (start #v[2, 0, 0, 0, 0, 1] 10)
      [.sendDatagram (dgram 97) 20, .sendDatagram (dgram 98) 20]
    let one := List.foldl step (start #v[2, 0, 0, 0, 0, 1] 10) [.sendDatagram (dgram 97) 20]
    (two.interface.ipv4Out (.recvFrame (message 2))).map
          (fun frame => (frame.header.dst, frame.payload.concatenate.getLast?))
        = [(#v[2, 0, 0, 0, 0, 2], some 97)] ∧
      Mailbox.due two.waiting (two.interface.event (.recvFrame (message 2)))
        = [(20, dgram 97), (20, dgram 98)] ∧
      (two.step (.recvFrame (message 2))).interface.pending 20 = [] ∧
      one.interface.ipv4Out (.recvFrame (message 1)) = [] ∧
      Mailbox.due one.waiting (one.interface.event (.recvFrame (message 1)))
        = [(20, dgram 97)] := by
  decide +kernel

end DeliveryRun

end NetworkInterface

end Sponge
