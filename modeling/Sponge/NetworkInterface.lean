import Sponge.ARPMessage
import Sponge.IPv4Datagram

namespace Sponge

/-!
# The network interface

`NetworkInterface` puts IPv4 datagrams into Ethernet frames.  It keeps the Ethernet addresses it has
learnt in a table of mappings, and for an address that is not there a pending request with the
datagram that waits for it.  Both kinds of entry carry a timer, a 32-bit `int`.

What throws answers with the exception, beside the state in which it leaves the interface.
The tables are unordered maps; the order in which `tick` visits them is the one of the model.
-/

/-- A network interface.  Its IP address is the number `ipv4_numeric` gives. -/
structure NetworkInterface where
  ethernetAddress : EthernetAddress
  ipAddress : UInt32
  framesOut : List EthernetFrame := []
  arpForwardTable : AList (fun _ : UInt32 => Int × EthernetAddress) := ∅
  arpRequestCache : AList (fun _ : UInt32 => Int × IPv4Datagram) := ∅

namespace NetworkInterface

/-- The broadcast address. -/
def boardMacAdress : EthernetAddress := Vector.replicate 6 0xff

/-- The message of type `type` from this interface. -/
def createARPMessage (n : NetworkInterface) (type : UInt16) (targetIp : UInt32)
    (targetMac : EthernetAddress) : ARPMessage :=
  { opcode := type
    senderEthernetAddress := n.ethernetAddress
    senderIpAddress := n.ipAddress
    targetEthernetAddress := targetMac
    targetIpAddress := targetIp }

/-- Send a frame from this interface. -/
def push (n : NetworkInterface) (dst : EthernetAddress) (type : UInt16) (payload : BufferList) :
    NetworkInterface :=
  { n with
    framesOut := n.framesOut ++
      [{ header := { dst := dst, src := n.ethernetAddress, type := type }, payload := payload }] }

/-- Send an ARP message. -/
def sendARP (n : NetworkInterface) (dst : EthernetAddress) (message : ARPMessage) :
    Except Exception Unit × NetworkInterface :=
  match message.serialize with
  | .error e => (.error e, n)
  | .ok payload => (.ok (), n.push dst EthernetHeader.typeARP (.ofString payload))

/-- Send an IPv4 datagram. -/
def sendIPv4 (n : NetworkInterface) (dst : EthernetAddress) (dgram : IPv4Datagram) :
    Except Exception Unit × NetworkInterface :=
  match dgram.serialize with
  | .error e => (.error e, n)
  | .ok payload => (.ok (), n.push dst EthernetHeader.typeIPv4 payload)

/-- Send a datagram to the next hop: at once if its Ethernet address is known; otherwise the address
    is asked for, unless it has been in the last five seconds. -/
def sendDatagram (n : NetworkInterface) (dgram : IPv4Datagram) (nextHop : UInt32) :
    Except Exception Unit × NetworkInterface :=
  match n.arpForwardTable.lookup nextHop with
  | some mapping => n.sendIPv4 mapping.2 dgram
  | none =>
    -- the datagram is dropped
    if (n.arpRequestCache.lookup nextHop).any (fun cached => cached.1 < 5000) then (.ok (), n)
    else
      let n := { n with arpRequestCache := n.arpRequestCache.insert nextHop (0, dgram) }
      n.sendARP boardMacAdress (n.createARPMessage ARPMessage.opcodeRequest nextHop .zero)

/-- A new mapping. -/
def learn (n : NetworkInterface) (ip : UInt32) (mac : EthernetAddress) : NetworkInterface :=
  { n with arpForwardTable := n.arpForwardTable.insert ip (0, mac) }

/-- The pending request of an address, as `operator[]` finds it. -/
def cached (n : NetworkInterface) (ip : UInt32) : Int × IPv4Datagram :=
  (n.arpRequestCache.lookup ip).getD (0, {})

/-- The pending requests after `operator[]`, which makes one if there is none. -/
def access (n : NetworkInterface) (ip : UInt32) : NetworkInterface :=
  { n with arpRequestCache := n.arpRequestCache.insert ip (n.cached ip) }

/-- An ARP message for the IP address of this interface. -/
def receiveARP (n : NetworkInterface) (message : ARPMessage) :
    Except Exception (Option IPv4Datagram) × NetworkInterface :=
  let sourceIp := message.senderIpAddress
  let sourceMac := message.senderEthernetAddress
  let n := n.learn sourceIp sourceMac
  if message.opcode = ARPMessage.opcodeReply ∧
      message.targetEthernetAddress = n.ethernetAddress then
    -- `operator[]` makes the entry if there is none, and it stays if serializing throws
    let datagram := (n.cached sourceIp).2
    let n := n.access sourceIp
    match n.sendIPv4 sourceMac datagram with
    | (.error e, n) => (.error e, n)
    | (.ok _, n) => (.ok none, { n with arpRequestCache := n.arpRequestCache.erase sourceIp })
  else if message.opcode = ARPMessage.opcodeRequest ∧
      (n.arpForwardTable.lookup message.targetIpAddress ≠ none ∨
        n.ipAddress = message.targetIpAddress) then
    match n.sendARP sourceMac
      (n.createARPMessage ARPMessage.opcodeReply sourceIp sourceMac) with
    | (.error e, n) => (.error e, n)
    | (.ok _, n) => (.ok none, n)
  else (.ok none, n)

/-- Receive an Ethernet frame. -/
def recvFrame (n : NetworkInterface) (frame : EthernetFrame) :
    Except Exception (Option IPv4Datagram) × NetworkInterface :=
  -- a frame for another host
  if frame.header.dst ≠ n.ethernetAddress ∧ frame.header.dst ≠ boardMacAdress then (.ok none, n)
  else if frame.header.type = EthernetHeader.typeIPv4 then
    match frame.payload.toBuffer with
    | .error e => (.error e, n)
    | .ok buffer =>
      match IPv4Datagram.parse {} buffer with
      | (.noError, datagram) => (.ok (some datagram), n)
      | _ => (.ok none, n)
  else if frame.header.type = EthernetHeader.typeARP then
    match frame.payload.toBuffer with
    | .error e => (.error e, n)
    | .ok buffer =>
      match ARPMessage.parse {} buffer with
      | (.noError, message) =>
        if message.targetIpAddress ≠ n.ipAddress then (.ok none, n) else n.receiveARP message
      | _ => (.ok none, n)
  else (.ok none, n)

/-- A timer after `ms` milliseconds. -/
def elapse (timer : Int) (ms : Nat) : Int := (timer + ms).bmod (2 ^ 32)

/-- `tick` for one mapping: it is forgotten after thirty seconds. -/
def tickMapping (ms : Nat) (table : AList (fun _ : UInt32 => Int × EthernetAddress))
    (ip : UInt32) : AList (fun _ : UInt32 => Int × EthernetAddress) :=
  match table.lookup ip with
  | none => table
  | some (timer, mac) =>
    if elapse timer ms > 30000 then table.erase ip else table.insert ip (elapse timer ms, mac)

/-- `tick` for one pending request: it is repeated after five seconds. -/
def tickRequest (n : NetworkInterface) (ms : Nat) (ip : UInt32) :
    Except Exception Unit × NetworkInterface :=
  match n.arpRequestCache.lookup ip with
  | none => (.ok (), n)
  | some (timer, dgram) =>
    let timer := elapse timer ms
    let n := { n with arpRequestCache := n.arpRequestCache.insert ip (timer, dgram) }
    -- asked for again, with the timer at zero
    if timer > 5000 then
      match n.sendARP boardMacAdress
        (n.createARPMessage ARPMessage.opcodeRequest ip .zero) with
      | (.error e, n) => (.error e, n)
      | (.ok _, n) =>
        (.ok (), { n with arpRequestCache := n.arpRequestCache.insert ip (0, dgram) })
    else (.ok (), n)

/-- `tick` for the pending requests, one after another. -/
def tickRequests (ms : Nat) : List UInt32 → NetworkInterface →
    Except Exception Unit × NetworkInterface
  | [], n => (.ok (), n)
  | ip :: ips, n =>
    match n.tickRequest ms ip with
    | (.error e, n) => (.error e, n)
    | (.ok _, n) => tickRequests ms ips n

/-- Time passes. -/
def tick (n : NetworkInterface) (msSinceLastTick : Nat) :
    Except Exception Unit × NetworkInterface :=
  let n := { n with
    arpForwardTable :=
      n.arpForwardTable.keys.foldl (tickMapping msSinceLastTick) n.arpForwardTable }
  n.tickRequests msSinceLastTick n.arpRequestCache.keys

end NetworkInterface

end Sponge
