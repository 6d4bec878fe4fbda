import Sponge.InterfaceCargo
import Sponge.Router

namespace Sponge

/-!
# Hosts, routers and the links between them

`Internet` is any number of hosts and routers whose interfaces are on links, as `Network` of the
simulator has one router and six hosts.  A link may lose frames, deliver them late, in any order and
more than once.

`Wiring` is what does not change: the addresses, the routes and who is on which link.
`Wiring.Departs` says what routing is for, without tables, queues or frames: a datagram leaves its
host for the next hop, and then each router it comes by for the hop of its longest matching route.
`Internet.journey` is the result: whatever an interface receives has come this way from a host that
sent it, and only its ttl and its checksum have changed.  `Internet.mappings_true` says that no
interface learns a mapping that does not hold on its link.
-/

/-! ### The simulator's hosts -/

/-- A host: an interface, and the next hop of all that it sends. -/
structure Host where
  interface : AsyncNetworkInterface
  nextHop : UInt32

namespace Host

/-- The datagram that `send_to` makes, of a payload which is a random text there. -/
def datagram (host : Host) (destination : UInt32) (ttl : UInt8) (payload : List UInt8) :
    IPv4Datagram :=
  let header : IPv4Header := { src := host.interface.ipAddress, dst := destination }
  { header :=
      { header with
        len := .ofNat (header.hlen.toNat * 4 + payload.length)
        ttl := ttl }
    payload := .ofString payload }

/-- Send a payload.  The datagram is returned, if nothing is thrown. -/
def sendTo (host : Host) (destination : UInt32) (ttl : UInt8) (payload : List UInt8) :
    Except Exception IPv4Datagram × Host :=
  let dgram := host.datagram destination ttl payload
  match host.interface.toNetworkInterface.sendDatagram dgram host.nextHop with
  | (.error e, interface) =>
    (.error e, { host with interface := { host.interface with toNetworkInterface := interface } })
  | (.ok _, interface) =>
    (.ok dgram, { host with interface := { host.interface with toNetworkInterface := interface } })

/-- A payload that fits into a datagram. -/
abbrev Payload := { payload : List UInt8 // payload.length ≤ 65515 }

/-- A payload that fits makes a datagram that says its true length. -/
theorem datagram_fits (host : Host) (destination : UInt32) (ttl : UInt8) (payload : Payload) :
    (host.datagram destination ttl payload).Fits where
  ver := rfl
  hlen := UInt8.le_refl 5
  hlen_le := show 5 ≤ 15 by omega
  offset := show 0 < 2 ^ 13 by omega
  len := by
    have hle := payload.2
    show (UInt16.ofNat (5 * 4 + payload.1.length)).toNat = 4 * 5 + (BufferList.ofString _).size
    rw [BufferList.size_eq_length, BufferList.concatenate_ofString, UInt16.toNat_ofNat']
    omega

end Host

/-! ### What does not change -/

/-- A place where a cable can be plugged in. -/
inductive Port (ρ η : Type)
  | router (r : ρ) (k : Nat)
  | host (h : η)
  deriving DecidableEq

/-- The addresses of the interfaces, the routes of the routers, the next hops of the hosts, and the
    link of each port. -/
structure Wiring (ρ η κ : Type) where
  interfaces : ρ → List (EthernetAddress × UInt32)
  routes : ρ → List Router.Route
  host : η → EthernetAddress × UInt32
  nextHop : η → UInt32
  link : Port ρ η → Option κ

/-- The datagram is the other one after it has been serialized and parsed. -/
structure IPv4Datagram.Copies (d dgram : IPv4Datagram) : Prop where
  header : d.header = dgram.header.setCksum (IPv4Datagram.checksum dgram.header)
  payload : d.payload.concatenate = dgram.payload.concatenate

namespace Wiring

variable {ρ η κ : Type} (w : Wiring ρ η κ)

/-- The addresses of the interface at a port. -/
def address : Port ρ η → Option (EthernetAddress × UInt32)
  | .router r k => (w.interfaces r)[k]?
  | .host h => some (w.host h)

/-- The two ports are on one link, and the second has the IP address. -/
def Hop (p : Port ρ η) (ip : UInt32) (q : Port ρ η) : Prop :=
  ∃ l mac, w.link p = some l ∧ w.link q = some l ∧ w.address q = some (mac, ip)

/-- **The way of a datagram** that a host has sent: after `n` routers it leaves a port for a hop. -/
inductive Departs (origin : η) (first : IPv4Datagram) :
    Nat → Port ρ η → IPv4Datagram → UInt32 → Prop
  | sent : Departs origin first 0 (.host origin) first (w.nextHop origin)
  | routed {n : Nat} {p : Port ρ η} {dgram d : IPv4Datagram} {hop : UInt32} {r : ρ} {k : Nat}
      {call : Router.Call} :
      Departs origin first n p dgram hop → w.Hop p hop (.router r k) → d.Copies dgram →
        Router.Routed (w.routes r) d (some call) →
        Departs origin first (n + 1) (.router r call.interfaceNum) call.dgram call.nextHop

/-- It arrives at the port with the address of the hop. -/
def Arrives (origin : η) (first : IPv4Datagram) (n : Nat) (q : Port ρ η) (d : IPv4Datagram) :
    Prop :=
  ∃ p dgram hop, w.Departs origin first n p dgram hop ∧ w.Hop p hop q ∧ d.Copies dgram

/-- The addresses are those of one interface on the link of the port. -/
def Knows (p : Port ρ η) (ip : UInt32) (mac : EthernetAddress) : Prop :=
  ∃ l q, w.link p = some l ∧ w.link q = some l ∧ w.address q = some (mac, ip)

/-- What is asked of the wiring: the Ethernet addresses on a link differ from one another and from
    the broadcast address; a route of length zero is found again, and every route leads to an
    interface. -/
structure Proper (shift32 : UInt32 → UInt32) : Prop where
  unicast : ∀ p mac ip, w.address p = some (mac, ip) → mac ≠ NetworkInterface.boardMacAdress
  distinct : ∀ p q l mac ip ip', w.link p = some l → w.link q = some l →
    w.address p = some (mac, ip) → w.address q = some (mac, ip') → p = q
  found : ∀ r, ∀ route ∈ w.routes r, route.prefixLength = 0 → shift32 route.routePrefix = 0
  index : ∀ r, ∀ route ∈ w.routes r, route.interfaceNum < (w.interfaces r).length ∧
    route.interfaceNum ≠ Router.noInterface.1

end Wiring

/-! ### The state and its steps -/

structure Internet (ρ η κ : Type) where
  routers : ρ → Router
  hosts : η → Host
  /-- The frames that have been put on a link. -/
  wire : κ → List EthernetFrame
  /-- What the hosts have sent. -/
  sent : List (η × IPv4Datagram)

inductive InternetMove (ρ η : Type)
  | send (h : η) (destination : UInt32) (ttl : UInt8) (payload : Host.Payload)
  | transmit (p : Port ρ η)
  | deliver (p : Port ρ η) (i : Nat)
  | tick (p : Port ρ η) (ms : Nat)
  | route (r : ρ)

namespace Internet

open Wiring

variable {ρ η κ : Type} [DecidableEq ρ] [DecidableEq η] [DecidableEq κ]

/-- The interface at a port. -/
def interface (net : Internet ρ η κ) : Port ρ η → Option AsyncNetworkInterface
  | .router r k => (net.routers r).interfaces[k]?
  | .host h => some (net.hosts h).interface

/-- Change the interface at a port. -/
def update (net : Internet ρ η κ) (f : AsyncNetworkInterface → AsyncNetworkInterface) :
    Port ρ η → Internet ρ η κ
  | .router r k =>
    { net with
      routers := Function.update net.routers r
        { net.routers r with interfaces := (net.routers r).interfaces.modify k f } }
  | .host h =>
    { net with
      hosts := Function.update net.hosts h
        { net.hosts h with interface := f (net.hosts h).interface } }

/-- The frame as `deliver` hands it on: its payload is made one string. -/
def carried (frame : EthernetFrame) : EthernetFrame :=
  { frame with payload := .ofString frame.payload.concatenate }

/-- One step.  A frame leaves the queue of its interface for the link, and may be delivered to any
    interface there from then on. -/
def step (w : Wiring ρ η κ) (net : Internet ρ η κ) : InternetMove ρ η → Internet ρ η κ
  | .send h destination ttl payload =>
    { net with
      hosts := Function.update net.hosts h ((net.hosts h).sendTo destination ttl payload).2
      sent := net.sent ++ [(h, (net.hosts h).datagram destination ttl payload)] }
  | .transmit p =>
    match w.link p, (net.interface p).map (·.framesOut) with
    | some l, some (frame :: _) =>
      { net.update
          (fun n => { n with toNetworkInterface := n.toNetworkInterface.apply .popFrame }) p
        with wire := Function.update net.wire l (net.wire l ++ [carried frame]) }
    | _, _ => net
  | .deliver p i =>
    match (w.link p).bind fun l => (net.wire l)[i]? with
    | some frame => net.update (fun n => (n.recvFrame frame).2) p
    | none => net
  | .tick p ms =>
    net.update (fun n => { n with toNetworkInterface := (n.toNetworkInterface.tick ms).2 }) p
  | .route r => { net with routers := Function.update net.routers r (net.routers r).route.2 }

def run (w : Wiring ρ η κ) (net : Internet ρ η κ) (moves : List (InternetMove ρ η)) :
    Internet ρ η κ :=
  moves.foldl (step w) net

/-- The interfaces are new, and the routes have been added. -/
def start (shift32 : UInt32 → UInt32) (w : Wiring ρ η κ) : Internet ρ η κ where
  routers := fun r =>
    Router.addRoutes shift32
      { interfaces := (w.interfaces r).map fun address =>
          { ethernetAddress := address.1, ipAddress := address.2 } }
      (w.routes r)
  hosts := fun h =>
    { interface := { ethernetAddress := (w.host h).1, ipAddress := (w.host h).2 }
      nextHop := w.nextHop h }
  wire := fun _ => []
  sent := []

end Internet

/-! ### Frames on the way -/

namespace IPv4Datagram

/-- A copy differs in the checksum and in how its payload is cut, and fits all the same. -/
theorem Copies.fits {d dgram : IPv4Datagram} (h : d.Copies dgram) (hfits : dgram.Fits) :
    d.Fits := by
  have hsize : d.payload.size = dgram.payload.size := by
    rw [BufferList.size_eq_length, BufferList.size_eq_length, h.payload]
  refine ⟨?_, ?_, ?_, ?_, ?_⟩
  all_goals rw [h.header]
  · exact hfits.ver
  · exact hfits.hlen
  · exact hfits.hlen_le
  · exact hfits.offset
  · rw [hsize]
    exact hfits.len

/-- Decrementing the ttl does not change the size. -/
theorem Fits.aged {d : IPv4Datagram} (h : d.Fits) : (Router.aged d).Fits :=
  ⟨h.ver, h.hlen, h.hlen_le, h.offset, h.len⟩

end IPv4Datagram

namespace NetworkInterface

open Internet (carried)

variable {n q : NetworkInterface} {frame : EthernetFrame}

/-- What an interface learns from a frame are the addresses of the one that it is from. -/
theorem TellsOwn.sender (h : n.TellsOwn frame) {message : ARPMessage}
    (hmessage : q.arpMessage (carried frame) = some message) :
    message.senderIpAddress = n.ipAddress ∧ message.senderEthernetAddress = n.ethernetAddress := by
  obtain ⟨dst, told, hsupported, hip, hmac, rfl⟩ := h
  have hbytes := ARPMessage.serialize_eq hsupported
  have hparse := @ARPMessage.parse_serialize _ (.ofString _) hsupported hbytes {}
  -- one buffer is carried as it is, so the message that is parsed is the one that was serialized
  have hsame : carried (n.arpFrame dst told) = n.arpFrame dst told := by
    unfold carried arpFrame
    rw [BufferList.concatenate_ofString]
  rw [hsame] at hmessage
  unfold arpMessage arpFrame at hmessage
  rw [hbytes] at hmessage
  -- of the checks on the way, only those that were passed leave a message
  split_ifs at hmessage
  dsimp only [Except.toOption, Option.getD, BufferList.ofString, BufferList.toBuffer] at hmessage
  rw [hparse] at hmessage
  dsimp only at hmessage
  split_ifs at hmessage
  rw [← Option.some.inj hmessage]
  exact ⟨hip, hmac⟩

/-- It holds no datagram. -/
theorem TellsOwn.not_received (h : n.TellsOwn frame) (d : IPv4Datagram) :
    (q.recvFrame (carried frame)).1 ≠ .ok (some d) := by
  intro hrecv
  obtain ⟨dst, told, -, -, -, rfl⟩ := h
  have htype : EthernetHeader.typeARP = EthernetHeader.typeIPv4 := (recvFrame_some hrecv).1
  exact absurd htype (by decide)

/-- A datagram is taken from frames to the interface, and to all of them. -/
theorem recvFrame_some_dst {d : IPv4Datagram} (h : (q.recvFrame frame).1 = .ok (some d)) :
    frame.header.dst = q.ethernetAddress ∨ frame.header.dst = boardMacAdress := by
  by_contra hother
  push Not at hother
  rw [recvFrame, if_pos hother] at h
  simp at h

/-- A frame with a datagram is not taken for a message. -/
theorem Hauls.arpMessage {P : IPv4Datagram → UInt32 → Prop} {M : UInt32 → EthernetAddress → Prop}
    (h : n.Hauls P M frame) : q.arpMessage (carried frame) = none := by
  obtain ⟨dgram, hop, mac, -, -, hheader, -⟩ := h
  have htype : (carried frame).header.type ≠ EthernetHeader.typeARP := by
    show frame.header.type ≠ _
    rw [hheader]
    exact show EthernetHeader.typeIPv4 ≠ EthernetHeader.typeARP by decide
  rw [NetworkInterface.arpMessage, if_pos htype, ite_self]

/-- What an interface reads from a frame with a datagram is that datagram. -/
theorem Hauls.received {P : IPv4Datagram → UInt32 → Prop} {M : UInt32 → EthernetAddress → Prop}
    (h : n.Hauls P M frame) (hfits : ∀ dgram hop, P dgram hop → dgram.Fits) {d : IPv4Datagram}
    (hrecv : (q.recvFrame (carried frame)).1 = .ok (some d)) :
    ∃ dgram hop mac, P dgram hop ∧ M hop mac ∧ d.Copies dgram ∧
      (mac = q.ethernetAddress ∨ mac = boardMacAdress) := by
  obtain ⟨dgram, hop, mac, hdgram, hmac, hheader, hok⟩ := h
  have hfit := hfits dgram hop hdgram
  obtain ⟨-, buffer, hbuffer, hparse⟩ := recvFrame_some hrecv
  have hdst := recvFrame_some_dst hrecv
  rw [show (carried frame).header = n.ipv4Header mac from hheader] at hdst
  refine ⟨dgram, hop, mac, hdgram, hmac, ?_, hdst⟩
  rw [IPv4Datagram.serialize_eq hfit.wellFormed] at hok
  -- the frame holds the serialized datagram, from however many buffers it was joined
  have hstr : buffer.str
      = IPv4Datagram.headerBytes dgram.header ++ dgram.payload.concatenate := by
    rw [← BufferList.concatenate_of_toBuffer hbuffer]
    show (BufferList.ofString frame.payload.concatenate).concatenate = _
    rw [BufferList.concatenate_ofString, ← Except.ok.inj hok, BufferList.concatenate_append,
      BufferList.concatenate_ofString]
  obtain ⟨-, hparsed, rest, hpayload, hrest⟩ := hfit.parse_serialized {} hstr
  rw [hparse] at hparsed hpayload
  exact ⟨hparsed, by rw [hpayload, BufferList.concatenate_ofBuffer, hrest]⟩

end NetworkInterface

/-! ### What an interface holds -/

namespace Wiring

variable {ρ η κ : Type} {w : Wiring ρ η κ}

/-- What is on its way can be serialized. -/
theorem Departs.fits {origin : η} {first : IPv4Datagram} (hfirst : first.Fits) {n : Nat}
    {p : Port ρ η} {dgram : IPv4Datagram} {hop : UInt32}
    (h : w.Departs origin first n p dgram hop) : dgram.Fits := by
  induction h with
  | sent => exact hfirst
  | routed _ _ hcopies hrouted ih =>
    obtain ⟨-, route, -, rfl⟩ := hrouted
    exact (hcopies.fits ih).aged

/-- What the datagram keeps on its way. -/
structure Same (first dgram : IPv4Datagram) (n : Nat) : Prop where
  header : ∃ ttl cksum, dgram.header = { first.header with ttl := ttl, cksum := cksum }
  payload : dgram.payload.concatenate = first.payload.concatenate
  ttl : first.header.ttl.toNat = dgram.header.ttl.toNat + n

/-- Another interface has read the datagram from its frame. -/
theorem Same.copies {first dgram d : IPv4Datagram} {n : Nat} (h : Same first dgram n)
    (hcopies : d.Copies dgram) : Same first d n := by
  obtain ⟨⟨ttl, cksum, hheader⟩, hpayload, httl⟩ := h
  refine ⟨⟨ttl, d.header.cksum, ?_⟩, hcopies.payload.trans hpayload, ?_⟩
  · rw [hcopies.header, hheader]
    rfl
  · rw [hcopies.header]
    exact httl

/-- A router has sent it on: the ttl has lost one, and the number of routers has grown by one. -/
theorem Same.aged {first d : IPv4Datagram} {n : Nat} (h : Same first d n)
    (httl : 2 ≤ d.header.ttl) : Same first (Router.aged d) (n + 1) := by
  obtain ⟨⟨ttl, cksum, hheader⟩, hpayload, hsum⟩ := h
  refine ⟨⟨d.header.ttl - 1, cksum, ?_⟩, hpayload, ?_⟩
  · rw [Router.aged, hheader]
  · have hle : 2 ≤ d.header.ttl.toNat := httl
    show _ = (d.header.ttl - 1).toNat + (n + 1)
    rw [UInt8.toNat_sub_of_le _ _ (UInt8.le_iff_toNat_le.mpr (by simp; omega))]
    simp
    omega

/-- **What a datagram keeps on its way.**  By induction on the routers it has passed. -/
theorem Departs.same {origin : η} {first : IPv4Datagram} {n : Nat} {p : Port ρ η}
    {dgram : IPv4Datagram} {hop : UInt32} (h : w.Departs origin first n p dgram hop) :
    Same first dgram n := by
  induction h with
  | sent => exact ⟨⟨_, _, rfl⟩, rfl, rfl⟩
  | routed _ _ hcopies hrouted ih =>
    obtain ⟨httl, route, -, rfl⟩ := hrouted
    exact (ih.copies hcopies).aged httl

variable (w) (log : List (η × IPv4Datagram))

/-- A datagram of the log leaves the port for the hop. -/
def Leaves (p : Port ρ η) (dgram : IPv4Datagram) (hop : UInt32) : Prop :=
  ∃ x ∈ log, ∃ n, w.Departs x.1 x.2 n p dgram hop

/-- A datagram of the log arrives at the port. -/
def Reaches (q : Port ρ η) (d : IPv4Datagram) : Prop :=
  ∃ x ∈ log, ∃ n, w.Arrives x.1 x.2 n q d

/-- The interface at the port has its addresses, holds only frames with such datagrams, knows only
    true mappings, and has received only such datagrams. -/
structure Carries (p : Port ρ η) (n : AsyncNetworkInterface) : Prop where
  address : w.address p = some (n.ethernetAddress, n.ipAddress)
  cargo : n.Cargo (w.Leaves log p) (w.Knows p)
  received : ∀ d ∈ n.datagramsOut, w.Reaches log p d

/-- The frame on the link is from an interface that carries. -/
def OnWire (l : κ) (frame : EthernetFrame) : Prop :=
  ∃ p original, ∃ n : NetworkInterface, w.link p = some l ∧
    w.address p = some (n.ethernetAddress, n.ipAddress) ∧ frame = Internet.carried original ∧
    (n.TellsOwn original ∨ n.Hauls (w.Leaves log p) (w.Knows p) original)

section

variable {w} {log : List (η × IPv4Datagram)} {p : Port ρ η} {n : AsyncNetworkInterface}

/-- What is on its way stays there when the hosts send more. -/
theorem Leaves.mono {dgram : IPv4Datagram} {hop : UInt32} (h : w.Leaves log p dgram hop)
    (more : List (η × IPv4Datagram)) : w.Leaves (log ++ more) p dgram hop := by
  obtain ⟨x, hx, hdeparts⟩ := h
  exact ⟨x, List.mem_append_left _ hx, hdeparts⟩

/-- An interface that carries does so when the hosts send more. -/
theorem Carries.mono (h : w.Carries log p n) (more : List (η × IPv4Datagram)) :
    w.Carries (log ++ more) p n where
  address := h.address
  cargo := h.cargo.mono (fun _ _ hleaves => hleaves.mono more) fun _ _ => id
  received := by
    intro d hd
    obtain ⟨x, hx, harrives⟩ := h.received d hd
    exact ⟨x, List.mem_append_left _ hx, harrives⟩

/-- And so does a frame on a link. -/
theorem OnWire.mono {l : κ} {frame : EthernetFrame} (h : w.OnWire log l frame)
    (more : List (η × IPv4Datagram)) : w.OnWire (log ++ more) l frame := by
  obtain ⟨p, original, n, hlink, haddress, hframe, hkind⟩ := h
  refine ⟨p, original, n, hlink, haddress, hframe, hkind.imp_right ?_⟩
  rintro ⟨dgram, hop, mac, hleaves, hrest⟩
  exact ⟨dgram, hop, mac, hleaves.mono more, hrest⟩

/-- A datagram that is to leave is handed to the interface. -/
theorem Carries.sendDatagram (h : w.Carries log p n) {dgram : IPv4Datagram} {hop : UInt32}
    (hleaves : w.Leaves log p dgram hop) :
    w.Carries log p
      { n with toNetworkInterface := (n.toNetworkInterface.sendDatagram dgram hop).2 } where
  address := by
    rw [h.address]
    have hsame := n.toNetworkInterface.sendDatagram_cases dgram hop
    rw [NetworkInterface.apply] at hsame
    obtain ⟨new, heq, -⟩ | ⟨-, -, heq⟩ := hsame <;> rw [heq]
  cargo := h.cargo.sendDatagram hleaves
  received := h.received

/-- A frame is taken off the queue. -/
theorem Carries.popFrame (h : w.Carries log p n) :
    w.Carries log p { n with toNetworkInterface := n.toNetworkInterface.apply .popFrame } :=
  ⟨h.address, h.cargo.popFrame, h.received⟩

/-- Time passes for the interface. -/
theorem Carries.tick (h : w.Carries log p n) (ms : Nat) :
    w.Carries log p { n with toNetworkInterface := (n.toNetworkInterface.tick ms).2 } where
  address := by
    have hticked := (n.toNetworkInterface.tick_ticked ms).2
    rw [h.address]
    show _ = some ((n.toNetworkInterface.tick ms).2.ethernetAddress, _)
    rw [hticked.ethernetAddress, hticked.ipAddress]
  cargo := h.cargo.tick ms
  received := h.received

/-- The received datagrams are taken away. -/
theorem Carries.emptied (h : w.Carries log p n) :
    w.Carries log p { n with datagramsOut := [] } :=
  ⟨h.address, h.cargo, by simp⟩

variable {shift32 : UInt32 → UInt32} {l : κ} {frame : EthernetFrame}

/-- The mapping in a message on the link is true there. -/
theorem OnWire.knows (h : w.OnWire log l frame) (hlink : w.link p = some l) {message : ARPMessage}
    (hmessage : n.toNetworkInterface.arpMessage frame = some message) :
    w.Knows p message.senderIpAddress message.senderEthernetAddress := by
  obtain ⟨q, original, m, hq, haddress, rfl, hown | hhauls⟩ := h
  · obtain ⟨hip, hmac⟩ := hown.sender hmessage
    exact ⟨l, q, hlink, hq, by rw [haddress, hip, hmac]⟩
  · rw [hhauls.arpMessage] at hmessage
    simp at hmessage

/-- A datagram in a frame on the link arrives where it is read. -/
theorem OnWire.reaches (h : w.OnWire log l frame) (hproper : w.Proper shift32)
    (hlog : ∀ x ∈ log, x.2.Fits) (hlink : w.link p = some l) (hcarries : w.Carries log p n)
    {d : IPv4Datagram} (hrecv : (n.toNetworkInterface.recvFrame frame).1 = .ok (some d)) :
    w.Reaches log p d := by
  obtain ⟨q, original, m, hq, -, rfl, hown | hhauls⟩ := h
  · -- an interface never hands up an ARP frame
    exact absurd hrecv (hown.not_received d)
  have hfits : ∀ dgram hop, w.Leaves log q dgram hop → dgram.Fits := by
    rintro dgram hop ⟨x, hx, k, hdeparts⟩
    exact hdeparts.fits (hlog x hx)
  obtain ⟨dgram, hop, mac, ⟨x, hx, k, hdeparts⟩, ⟨l', q', hl', hq', haddress⟩, hcopies, hmac⟩ :=
    hhauls.received hfits hrecv
  -- a frame that was addressed to this interface has its address from this port
  have hmine := hmac.resolve_right (hproper.unicast q' mac hop haddress)
  subst hmine
  obtain rfl : l' = l := Option.some.inj (hl'.symm.trans hq)
  obtain rfl : q' = p := hproper.distinct q' p l' _ _ _ hq' hlink haddress hcarries.address
  exact ⟨x, hx, k, q, dgram, hop, hdeparts, ⟨l', _, hq, hq', haddress⟩, hcopies⟩

/-- **A frame from the link.** -/
theorem Carries.recvFrame (h : w.Carries log p n) (hproper : w.Proper shift32)
    (hlog : ∀ x ∈ log, x.2.Fits) (hlink : w.link p = some l) (hwire : w.OnWire log l frame) :
    w.Carries log p (n.recvFrame frame).2 := by
  have hcargo := h.cargo.recvFrame fun message hmessage => hwire.knows hlink hmessage
  have haddress : w.address p
      = some ((n.toNetworkInterface.recvFrame frame).2.ethernetAddress,
          (n.toNetworkInterface.recvFrame frame).2.ipAddress) := by
    rw [h.address]
    -- no frame changes an interface's own addresses
    obtain ⟨message, -, heq⟩ | ⟨-, result, heq, -⟩ := n.toNetworkInterface.recvFrame_cases frame
    · obtain ⟨hmac, hip⟩ := n.toNetworkInterface.receiveARP_addresses message
      rw [heq, hmac, hip]
    · rw [heq]
  unfold AsyncNetworkInterface.recvFrame
  split
  · -- only the frame of an IPv4 datagram adds to what has been received
    rename_i d interface heq
    rw [heq] at hcargo haddress
    refine ⟨haddress, hcargo, List.forall_mem_append.mpr ⟨h.received, ?_⟩⟩
    intro d' hd'
    rw [List.mem_singleton.mp hd']
    exact hwire.reaches hproper hlog hlink h (congrArg Prod.fst heq)
  all_goals
    rename_i heq
    rw [heq] at hcargo haddress
    exact ⟨haddress, hcargo, h.received⟩

end

end Wiring

/-! ### What holds of every run -/

namespace Router

/-- A router is given by its interfaces and its routes. -/
theorem eq_addRoutes {shift32 : UInt32 → UInt32} {routes : List Route} {r : Router}
    (h : r.forwardTable = (addRoutes shift32 {} routes).forwardTable) :
    r = addRoutes shift32 { interfaces := r.interfaces } routes := by
  rw [← addRoutes_interfaces shift32 r.interfaces {} routes]
  dsimp only
  rw [← h]

end Router

namespace Wiring

variable {ρ η κ : Type} {w : Wiring ρ η κ} {log : List (η × IPv4Datagram)}

/-- What arrives can be serialized again. -/
theorem Reaches.fits (hlog : ∀ x ∈ log, x.2.Fits) {q : Port ρ η} {d : IPv4Datagram}
    (h : w.Reaches log q d) : d.Fits := by
  obtain ⟨x, hx, n, p, dgram, hop, hdeparts, -, hcopies⟩ := h
  exact hcopies.fits (hdeparts.fits (hlog x hx))

/-- What reaches a router leaves it by the longest match. -/
theorem Reaches.routed {r : ρ} {k : Nat} {d : IPv4Datagram} {call : Router.Call}
    (h : w.Reaches log (.router r k) d) (hrouted : Router.Routed (w.routes r) d (some call)) :
    w.Leaves log (.router r call.interfaceNum) call.dgram call.nextHop := by
  obtain ⟨x, hx, n, p, dgram, hop, hdeparts, hhop, hcopies⟩ := h
  exact ⟨x, hx, n + 1, hdeparts.routed hhop hcopies hrouted⟩

/-- The calls of a router. -/
theorem Carries.foldl_perform {r : ρ} {calls : List Router.Call}
    (hcalls : ∀ c ∈ calls, w.Leaves log (.router r c.interfaceNum) c.dgram c.nextHop)
    {interfaces : List AsyncNetworkInterface}
    (h : ∀ k n, interfaces[k]? = some n → w.Carries log (.router r k) n) :
    ∀ k n, (calls.foldl Router.perform interfaces)[k]? = some n →
      w.Carries log (.router r k) n := by
  induction calls generalizing interfaces with
  | nil => exact h
  | cons c calls ih =>
    obtain ⟨hc, hrest⟩ := List.forall_mem_cons.mp hcalls
    refine ih hrest fun k n hn => ?_
    rw [Router.perform, List.getElem?_modify] at hn
    obtain ⟨m, hm, rfl⟩ := Option.map_eq_some_iff.mp hn
    by_cases hk : c.interfaceNum = k
    · subst hk
      rw [if_pos rfl]
      exact (h _ m hm).sendDatagram hc
    · rw [if_neg hk]
      exact h k m hm

end Wiring

namespace Internet

variable {ρ η κ : Type} [DecidableEq ρ] [DecidableEq η] [DecidableEq κ]
  {shift32 : UInt32 → UInt32} {w : Wiring ρ η κ} {net : Internet ρ η κ}

/-- **The invariant.**  The routers have their tables and their interfaces, every interface carries
    what has been sent, and so does every link. -/
structure Orderly (shift32 : UInt32 → UInt32) (w : Wiring ρ η κ) (net : Internet ρ η κ) : Prop where
  tables : ∀ r, (net.routers r).forwardTable
    = (Router.addRoutes shift32 {} (w.routes r)).forwardTable
  ports : ∀ r, (net.routers r).interfaces.length = (w.interfaces r).length
  nextHop : ∀ h, (net.hosts h).nextHop = w.nextHop h
  interface : ∀ p n, net.interface p = some n → w.Carries net.sent p n
  wire : ∀ l, ∀ frame ∈ net.wire l, w.OnWire net.sent l frame
  fits : ∀ x ∈ net.sent, x.2.Fits

omit [DecidableEq κ] in
/-- An update is for one port; the others keep their interfaces. -/
theorem interface_update (net : Internet ρ η κ)
    (f : AsyncNetworkInterface → AsyncNetworkInterface) (p q : Port ρ η) :
    (net.update f p).interface q = if p = q then (net.interface q).map f else net.interface q := by
  -- a router's ports share one list, so two ports of it are told apart by their number
  cases p with
  | router r k =>
    cases q with
    | router r' k' =>
      by_cases hr : r' = r
      · subst hr
        by_cases hk : k = k' <;> simp [interface, update, hk]
      · simp [interface, update, hr, Ne.symm hr]
    | host h => simp [interface, update]
  | host h =>
    cases q with
    | router r k => simp [interface, update]
    | host h' =>
      by_cases hh : h' = h
      · subst hh
        simp [interface, update]
      · simp [interface, update, hh, Ne.symm hh]

omit [DecidableEq κ] in
/-- A change of one interface. -/
theorem Orderly.update (h : Orderly shift32 w net) {p : Port ρ η}
    {f : AsyncNetworkInterface → AsyncNetworkInterface}
    (hf : ∀ n, w.Carries net.sent p n → w.Carries net.sent p (f n)) :
    Orderly shift32 w (net.update f p) := by
  have hinterface : ∀ q n, (net.update f p).interface q = some n → w.Carries net.sent q n := by
    intro q n hn
    rw [interface_update] at hn
    split_ifs at hn with hpq
    · subst hpq
      obtain ⟨m, hm, rfl⟩ := Option.map_eq_some_iff.mp hn
      exact hf m (h.interface p m hm)
    · exact h.interface q n hn
  -- an update stays inside of one router or host, whose table or next hop it leaves alone
  cases p with
  | router r k =>
    refine ⟨fun r' => ?_, fun r' => ?_, h.nextHop, hinterface, h.wire, h.fits⟩
    all_goals
      by_cases hr : r' = r
      · subst hr
        simp [Internet.update, h.tables, h.ports]
      · simp [Internet.update, hr, h.tables, h.ports]
  | host g =>
    refine ⟨h.tables, h.ports, fun g' => ?_, hinterface, h.wire, h.fits⟩
    by_cases hg : g' = g
    · subst hg
      simp [Internet.update, h.nextHop]
    · simp [Internet.update, hg, h.nextHop]

omit [DecidableEq ρ] [DecidableEq η] [DecidableEq κ] in
/-- More is sent. -/
theorem Orderly.log (h : Orderly shift32 w net) {x : η × IPv4Datagram} (hx : x.2.Fits) :
    Orderly shift32 w { net with sent := net.sent ++ [x] } where
  tables := h.tables
  ports := h.ports
  nextHop := h.nextHop
  interface := fun p n hn => (h.interface p n hn).mono [x]
  wire := fun l frame hframe => (h.wire l frame hframe).mono [x]
  fits := List.forall_mem_append.mpr ⟨h.fits, by simpa using hx⟩

/-- **A host sends.**  The log grows by the datagram, which leaves the host's port for its first
    hop. -/
theorem Orderly.send (h : Orderly shift32 w net) (g : η) (destination : UInt32) (ttl : UInt8)
    (payload : Host.Payload) :
    Orderly shift32 w (net.step w (.send g destination ttl payload)) := by
  have hfits := (net.hosts g).datagram_fits destination ttl payload
  have hlogged := h.log (x := (g, (net.hosts g).datagram destination ttl payload)) hfits
  -- whether or not the call throws, the interface is the one after `send_datagram`
  have hsent : ((net.hosts g).sendTo destination ttl payload).2 =
      { net.hosts g with
        interface := { (net.hosts g).interface with
          toNetworkInterface := ((net.hosts g).interface.toNetworkInterface.sendDatagram
            ((net.hosts g).datagram destination ttl payload) (net.hosts g).nextHop).2 } } := by
    unfold Host.sendTo
    dsimp only
    split <;> (rename_i heq; rw [heq])
  have hstep : net.step w (.send g destination ttl payload) =
      Internet.update { net with
          sent := net.sent ++ [(g, (net.hosts g).datagram destination ttl payload)] }
        (fun n => { n with
          toNetworkInterface := (n.toNetworkInterface.sendDatagram
            ((net.hosts g).datagram destination ttl payload) (net.hosts g).nextHop).2 })
        (.host g) := by
    rw [step, hsent]
    rfl
  rw [hstep]
  refine hlogged.update fun n hn => hn.sendDatagram ?_
  rw [h.nextHop]
  exact ⟨_, List.mem_append_right _ (List.mem_singleton.mpr rfl), 0, .sent⟩

/-- **A frame goes onto the link.**  It is from an interface that carries. -/
theorem Orderly.transmit (h : Orderly shift32 w net) (p : Port ρ η) :
    Orderly shift32 w (net.step w (.transmit p)) := by
  rw [step]
  split
  · rename_i l frame rest hlink hframes
    have hpopped := h.update (p := p) fun n hn => hn.popFrame
    obtain ⟨n, hn, hqueue⟩ := Option.map_eq_some_iff.mp hframes
    have hcarries := h.interface p n hn
    -- the call to the interface is not a send, so the log of datagrams is the old one
    have hsent : (net.update (fun n => { n with
        toNetworkInterface := n.toNetworkInterface.apply .popFrame }) p).sent = net.sent := by
      cases p <;> rfl
    refine ⟨hpopped.tables, hpopped.ports, hpopped.nextHop, hpopped.interface, ?_, hpopped.fits⟩
    intro l' frame' hframe'
    show w.OnWire (Internet.sent (net.update _ p)) l' frame'
    rw [hsent]
    dsimp only at hframe'
    by_cases hl : l' = l
    · subst hl
      rw [Function.update_self] at hframe'
      -- the frame is put on the link of its own port, after the ones already there
      rcases List.mem_append.mp hframe' with hold | hnew
      · exact h.wire l' frame' hold
      · rw [List.mem_singleton.mp hnew]
        exact ⟨p, frame, n.toNetworkInterface, hlink, hcarries.address, rfl,
          hcarries.cargo.frames frame (by rw [hqueue]; exact List.mem_cons_self)⟩
    · rw [Function.update_of_ne hl] at hframe'
      exact h.wire l' frame' hframe'
  · exact h

/-- **A frame arrives**, at any port of its link.  What the interface learns is true, and what it
    receives has come along the routes. -/
theorem Orderly.deliver (h : Orderly shift32 w net) (hproper : w.Proper shift32) (p : Port ρ η)
    (i : Nat) : Orderly shift32 w (net.step w (.deliver p i)) := by
  rw [step]
  split
  · rename_i frame hframe
    obtain ⟨l, hlink, hget⟩ := Option.bind_eq_some_iff.mp hframe
    exact h.update fun n hn =>
      hn.recvFrame hproper h.fits hlink (h.wire l frame (List.mem_of_getElem? hget))
  · exact h

omit [DecidableEq ρ] [DecidableEq η] [DecidableEq κ] in
/-- **No call of a router throws**, and each is the one of the longest match. -/
theorem Orderly.calls (h : Orderly shift32 w net) (hproper : w.Proper shift32) (r : ρ)
    {d : IPv4Datagram} (hd : d ∈ Router.received (net.routers r).interfaces) :
    (∀ c ∈ (net.routers r).nextCall d, Router.Returns (net.routers r).interfaces c) ∧
      ∀ c ∈ (net.routers r).nextCall d,
        w.Leaves net.sent (.router r c.interfaceNum) c.dgram c.nextHop := by
  obtain ⟨n, hn, hd⟩ := List.mem_flatMap.mp hd
  obtain ⟨k, hk⟩ := List.getElem?_of_mem hn
  have hreaches := (h.interface (.router r k) n hk).received d hd
  have hfits := hreaches.fits h.fits
  have heq := Router.eq_addRoutes (h.tables r)
  -- the route found is the longest match, and its interface exists
  have hrouted := @Router.routed_nextCall shift32 (net.routers r).interfaces (w.routes r) d
    fun _ route hbest => by
      have hmem : route ∈ w.routes r := by
        obtain ⟨-, before, after, hroutes, -, -⟩ := hbest
        rw [hroutes]
        simp
      obtain ⟨hindex, hne⟩ := hproper.index r route hmem
      rw [← h.ports r] at hindex
      exact ⟨.of_shift hbest (hproper.found r route hmem) hne, _,
        List.getElem?_eq_getElem hindex, Or.inl hfits.wellFormed⟩
  rw [← heq] at hrouted
  refine ⟨hrouted.2, fun c hc => ?_⟩
  have hsome := hrouted.1
  rw [Option.mem_def.mp hc] at hsome
  exact hreaches.routed hsome

/-- **A router routes** all it has received.  The calls are those of the longest match, so what
    leaves has come one router further. -/
theorem Orderly.route (h : Orderly shift32 w net) (hproper : w.Proper shift32) (r : ρ) :
    Orderly shift32 w (net.step w (.route r)) := by
  have hroute := Router.route_eq fun d hd => (h.calls hproper r hd).1
  have hleaves : ∀ c ∈ (Router.received (net.routers r).interfaces).filterMap
      (net.routers r).nextCall, w.Leaves net.sent (.router r c.interfaceNum) c.dgram c.nextHop := by
    intro c hc
    obtain ⟨d, hd, hcall⟩ := List.mem_filterMap.mp hc
    exact (h.calls hproper r hd).2 c hcall
  -- each call of `route` sends a received datagram on, which departs from that router
  have hcarries := Wiring.Carries.foldl_perform hleaves
    fun k n hn => h.interface (.router r k) n hn
  rw [step, hroute]
  refine ⟨fun r' => ?_, fun r' => ?_, h.nextHop, fun p n hn => ?_, h.wire, h.fits⟩
  · by_cases hr : r' = r
    · subst hr
      simp [h.tables]
    · simp [hr, h.tables]
  · by_cases hr : r' = r
    · subst hr
      simp [Router.emptied, Router.length_foldl_perform, h.ports]
    · simp [hr, h.ports]
  · cases p with
    | host g => exact h.interface (.host g) n hn
    | router r' k =>
      by_cases hr : r' = r
      · -- the router itself: all its calls are done, and its queues are empty
        subst hr
        rw [Internet.interface] at hn
        dsimp only at hn
        rw [Function.update_self, Router.emptied, List.getElem?_map] at hn
        obtain ⟨m, hm, rfl⟩ := Option.map_eq_some_iff.mp hn
        exact (hcarries k m hm).emptied
      · rw [Internet.interface] at hn
        dsimp only at hn
        rw [Function.update_of_ne hr] at hn
        exact h.interface (.router r' k) n hn

/-- **One step.** -/
theorem Orderly.step (h : Orderly shift32 w net) (hproper : w.Proper shift32)
    (move : InternetMove ρ η) : Orderly shift32 w (net.step w move) := by
  cases move with
  | send g destination ttl payload => exact h.send g destination ttl payload
  | transmit p => exact h.transmit p
  | deliver p i => exact h.deliver hproper p i
  | tick p ms => exact h.update fun n hn => hn.tick ms
  | route r => exact h.route hproper r

/-- **A run.** -/
theorem Orderly.run (h : Orderly shift32 w net) (hproper : w.Proper shift32)
    (moves : List (InternetMove ρ η)) : Orderly shift32 w (net.run w moves) := by
  induction moves generalizing net with
  | nil => exact h
  | cons move moves ih => exact ih (h.step hproper move)

omit [DecidableEq ρ] [DecidableEq η] [DecidableEq κ] in
/-- In the beginning there is nothing but the addresses. -/
theorem start_orderly (shift32 : UInt32 → UInt32) (w : Wiring ρ η κ) :
    Orderly shift32 w (start shift32 w) := by
  have hinterfaces : ∀ r, ((start shift32 w).routers r).interfaces
      = (w.interfaces r).map fun address =>
          { ethernetAddress := address.1, ipAddress := address.2 } := fun r =>
    (congrArg Router.interfaces (Router.addRoutes_interfaces shift32 _ {} (w.routes r))).symm
  refine ⟨fun r => ?_, fun r => ?_, fun _ => rfl, fun p n hn => ?_, ?_, ?_⟩
  · exact (congrArg Router.forwardTable
      (Router.addRoutes_interfaces shift32 _ {} (w.routes r))).symm
  · rw [hinterfaces, List.length_map]
  · cases p with
    | router r k =>
      rw [Internet.interface, hinterfaces, List.getElem?_map] at hn
      obtain ⟨address, haddress, rfl⟩ := Option.map_eq_some_iff.mp hn
      exact ⟨haddress, .new _ _, fun _ hd => absurd hd List.not_mem_nil⟩
    | host g =>
      obtain rfl := Option.some.inj hn
      exact ⟨rfl, .new _ _, fun _ hd => absurd hd List.not_mem_nil⟩
  · intro l frame hframe
    exact absurd hframe List.not_mem_nil
  · intro x hx
    exact absurd hx List.not_mem_nil

/-! ### Results -/

/-- Two hosts of the simulator, with the router between them. -/
def sampleWiring : Wiring Unit Bool Bool where
  interfaces := fun _ =>
    [(#v[0x02, 0, 0, 0, 0, 1], 0x0a000001), (#v[0x02, 0, 0, 0, 0, 2], 0xc0a80001)]
  routes := fun _ =>
    [{ routePrefix := 0x0a000000, prefixLength := ⟨8, by decide⟩, nextHop := none,
        interfaceNum := 0 },
      { routePrefix := 0xc0a80000, prefixLength := ⟨24, by decide⟩, nextHop := none,
        interfaceNum := 1 }]
  host := fun h =>
    if h then (#v[0x02, 0, 0, 0, 0, 4], 0xc0a80002) else (#v[0x02, 0, 0, 0, 0, 3], 0x0a000002)
  nextHop := fun h => if h then 0xc0a80001 else 0x0a000001
  link := fun
    | .router _ 0 => some false
    | .router _ 1 => some true
    | .router _ _ => none
    | .host h => some h

/-- The sample network has proper addresses and routes. -/
theorem sampleWiring_proper : sampleWiring.Proper id where
  unicast := by
    rintro (⟨⟨⟩, _ | _ | k⟩ | _ | _) mac ip ⟨⟩ <;> decide
  distinct := by
    rintro (⟨⟨⟩, _ | _ | k⟩ | _ | _) (⟨⟨⟩, _ | _ | k⟩ | _ | _) l mac ip ip' ⟨⟩ ⟨⟩ ⟨⟩ ⟨⟩ <;> rfl
  found := by decide
  index := by decide

/-- The host asks for the address of the router and sends to it; the router asks for the address of
    the other host and sends on. -/
def sampleMoves : List (InternetMove Unit Bool) :=
  [.send false 0xc0a80002 64 ⟨[1, 2, 3], by decide⟩,
    .transmit (.host false), .deliver (.router () 0) 0,
    .transmit (.router () 0), .deliver (.host false) 1,
    .transmit (.host false), .deliver (.router () 0) 2, .route (),
    .transmit (.router () 1), .deliver (.host true) 0,
    .transmit (.host true), .deliver (.router () 1) 1,
    .transmit (.router () 1), .deliver (.host true) 2]

/-- **Every datagram that is received anywhere has been sent by a host, and has come by the
    routes**: from hop to hop, each time to the interface with the address of the hop, and through
    each router by the longest match.  On the way the ttl has been decremented once for each router;
    the checksum is new, and the rest of the header and the payload are as they were sent. -/
theorem journey (shift32 : UInt32 → UInt32) (w : Wiring ρ η κ) (hproper : w.Proper shift32)
    (moves : List (InternetMove ρ η)) (q : Port ρ η) (n : AsyncNetworkInterface)
    (hn : ((start shift32 w).run w moves).interface q = some n) (d : IPv4Datagram)
    (hd : d ∈ n.datagramsOut) :
    ∃ origin first hops, (origin, first) ∈ ((start shift32 w).run w moves).sent ∧
      w.Arrives origin first hops q d ∧ Wiring.Same first d hops := by
  have hcarries := ((start_orderly shift32 w).run hproper moves).interface q n hn
  obtain ⟨⟨origin, first⟩, hsent, hops, harrives⟩ := hcarries.received d hd
  refine ⟨origin, first, hops, hsent, harrives, ?_⟩
  obtain ⟨p, dgram, hop, hdeparts, -, hcopies⟩ := harrives
  exact hdeparts.same.copies hcopies

/-- The datagram has come to the other host, through one router. -/
theorem journey_sample :
    ∃ n d, ((start id sampleWiring).run sampleWiring sampleMoves).interface (.host true) = some n ∧
      d ∈ n.datagramsOut ∧ d.header.ttl = 63 ∧
      ∃ origin first hops,
        (origin, first) ∈ ((start id sampleWiring).run sampleWiring sampleMoves).sent ∧
        sampleWiring.Arrives origin first hops (.host true) d ∧ Wiring.Same first d hops := by
  have hrun : (((start id sampleWiring).run sampleWiring sampleMoves).interface
      (.host true)).map (fun n => n.datagramsOut.map (·.header.ttl)) = some [63] := by
    decide +kernel
  obtain ⟨n, hn, hqueue⟩ := Option.map_eq_some_iff.mp hrun
  have hmem : (63 : UInt8) ∈ n.datagramsOut.map (·.header.ttl) := by simp [hqueue]
  obtain ⟨d, hd, httl⟩ := List.mem_map.mp hmem
  exact ⟨n, d, hn, hd, httl, journey id sampleWiring sampleWiring_proper sampleMoves _ n hn d hd⟩

/-- **No interface ever learns a false mapping**: the Ethernet address that it has for an IP address
    is the one of an interface on its link with that IP address. -/
theorem mappings_true (shift32 : UInt32 → UInt32) (w : Wiring ρ η κ) (hproper : w.Proper shift32)
    (moves : List (InternetMove ρ η)) (q : Port ρ η) (n : AsyncNetworkInterface)
    (hn : ((start shift32 w).run w moves).interface q = some n) (ip : UInt32)
    (mapping : Int × EthernetAddress) (hlookup : n.arpForwardTable.lookup ip = some mapping) :
    w.Knows q ip mapping.2 :=
  (((start_orderly shift32 w).run hproper moves).interface q n hn).cargo.mappings ip mapping
    hlookup

/-- The second host has learnt the address of the router from its request. -/
theorem mappings_true_sample :
    ∃ n mapping,
      ((start id sampleWiring).run sampleWiring sampleMoves).interface (.host true) = some n ∧
        n.arpForwardTable.lookup 0xc0a80001 = some mapping ∧
        sampleWiring.Knows (.host true) 0xc0a80001 mapping.2 := by
  have hrun : (((start id sampleWiring).run sampleWiring sampleMoves).interface
      (.host true)).map (fun n => n.arpForwardTable.lookup 0xc0a80001)
        = some (some (0, #v[0x02, 0, 0, 0, 0, 2])) := by
    decide +kernel
  obtain ⟨n, hn, hlookup⟩ := Option.map_eq_some_iff.mp hrun
  exact ⟨n, _, hn, hlookup,
    mappings_true id sampleWiring sampleWiring_proper sampleMoves _ n hn _ _ hlookup⟩

end Internet

end Sponge
