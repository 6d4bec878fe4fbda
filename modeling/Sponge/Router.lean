import Sponge.InterfaceSteps
import Sponge.IPv4Codec
import Sponge.Lib.LongestPrefix

namespace Sponge

/-!
# The router

`route` takes the datagrams that the interfaces have received, one interface after the other, and
sends each on by the longest matching route.  A table for each prefix length holds the routes, under
the bits of the prefix.

The bits are what is left of the prefix after a shift by `32 - prefix_length`.  For a route of
length zero that is a shift by the width of the type, which C++ leaves undefined: `shift32` stands
for its result, and where this is not zero, as with the shift instruction of x86 that takes the
count modulo 32, the route is not found again.

* `routed_nextCall_iff` — for one datagram: the lookup arrives at the interface and the next hop of
  the longest match, exactly when this is not such a route (or another one leads to the same place)
  and its interface number is not taken for the mark of a failed lookup;
* `routeInterfaces_returns`, `routeInterfaces_eq` — the loops make the calls one after the other if
  and only if none of them throws;
* `route_by_longest_match` — **`route` as a whole**, exactly.
-/

/-- Nothing is thrown exactly for a datagram that can be serialized, or that has to wait. -/
theorem NetworkInterface.sendDatagram_returns_iff {n : NetworkInterface} {dgram : IPv4Datagram}
    {nextHop : UInt32} :
    (n.sendDatagram dgram nextHop).1 = .ok () ↔
      dgram.WellFormed ∨ n.arpForwardTable.lookup nextHop = none := by
  -- only a datagram that is put into a frame now has to serialize
  cases hmapping : n.arpForwardTable.lookup nextHop with
  | some mapping =>
    rw [sendDatagram_known hmapping]
    by_cases hwf : dgram.WellFormed
    · obtain ⟨payload, -, hsent⟩ := sendIPv4_of_wellFormed (n := n) hwf mapping.2
      rw [hsent]
      exact iff_of_true rfl (Or.inl hwf)
    · obtain ⟨e, hthrown⟩ := sendIPv4_of_not_wellFormed (n := n) hwf mapping.2
      rw [hthrown]
      exact iff_of_false (by simp) (by simp [hwf])
  | none =>
    refine iff_of_true ?_ (Or.inr rfl)
    by_cases hold : ∀ cached ∈ n.arpRequestCache.lookup nextHop, 5000 ≤ cached.1
    · rw [sendDatagram_asks hmapping hold]
    · push Not at hold
      obtain ⟨cached, hcached, hfresh⟩ := hold
      rw [sendDatagram_waits hmapping hcached hfresh]

/-- A message is never mistaken for a datagram. -/
theorem NetworkInterface.receiveARP_ne_some (n : NetworkInterface) (message : ARPMessage)
    (dgram : IPv4Datagram) : (n.receiveARP message).1 ≠ .ok (some dgram) := by
  obtain ⟨-, _, _, -, -, heq⟩ | ⟨-, -, _, heq⟩ | ⟨-, _, -, -, heq⟩ := n.receiveARP_cases message
  all_goals
    rw [heq]
    simp

/-- What an interface returns is what it has parsed. -/
theorem NetworkInterface.recvFrame_some {n : NetworkInterface} {frame : EthernetFrame}
    {dgram : IPv4Datagram} (h : (n.recvFrame frame).1 = .ok (some dgram)) :
    frame.header.type = EthernetHeader.typeIPv4 ∧ ∃ buffer, frame.payload.toBuffer = .ok buffer ∧
      IPv4Datagram.parse {} buffer = (.noError, dgram) := by
  obtain ⟨message, -, heq⟩ | ⟨-, result, heq, hanswer⟩ := n.recvFrame_cases frame
  · rw [heq] at h
    exact absurd h (n.receiveARP_ne_some message dgram)
  · rw [heq] at h
    obtain rfl : result = .ok (some dgram) := h
    exact hanswer

/-- A network interface that keeps what it receives. -/
structure AsyncNetworkInterface extends NetworkInterface where
  datagramsOut : List IPv4Datagram := []

namespace AsyncNetworkInterface

/-- Receive a frame; the datagram in it is queued. -/
def recvFrame (n : AsyncNetworkInterface) (frame : EthernetFrame) :
    Except Exception Unit × AsyncNetworkInterface :=
  match n.toNetworkInterface.recvFrame frame with
  | (.ok (some dgram), interface) =>
    (.ok (), { toNetworkInterface := interface, datagramsOut := n.datagramsOut ++ [dgram] })
  | (.ok none, interface) => (.ok (), { n with toNetworkInterface := interface })
  | (.error e, interface) => (.error e, { n with toNetworkInterface := interface })

end AsyncNetworkInterface

/-- Where a route leads: an interface and the next hop, if it is not the destination itself. -/
abbrev Interface := Nat × Option UInt32

structure Router where
  interfaces : List AsyncNetworkInterface := []
  forwardTable : Vector (AList fun _ : UInt32 => Interface) 33 := Vector.replicate 33 ∅

namespace Router

/-- The value of `interface` where no route was found. -/
def noInterface : Interface := (4294967295, none)

/-- The key of a prefix: its first bits.  The shift by 32 is undefined, and yields `shift32`. -/
def getMask (shift32 : UInt32 → UInt32) (ipAddress : UInt32) (prefixLength : Fin 33) : UInt32 :=
  if prefixLength = 0 then shift32 ipAddress else ipAddress >>> (32 - .ofNat prefixLength)

/-- Add a route. -/
def addRoute (shift32 : UInt32 → UInt32) (r : Router) (routePrefix : UInt32)
    (prefixLength : Fin 33) (nextHop : Option UInt32) (interfaceNum : Nat) : Router :=
  { r with
    forwardTable := r.forwardTable.set prefixLength
      (r.forwardTable[prefixLength].insert (getMask shift32 routePrefix prefixLength)
        (interfaceNum, nextHop)) }

/-- The loop of `route_one_datagram`, from the table `interfaceNum` on.  The index `i` in its body,
    which is not declared, is `interface_num`. -/
def findInterface (r : Router) : (interfaceNum : Nat) → interfaceNum < 33 → UInt32 → Interface
  | 0, _, ipAddress => (r.forwardTable[0].lookup ipAddress).getD noInterface
  | n + 1, _, ipAddress =>
    match r.forwardTable[n + 1].lookup ipAddress with
    | some interface => interface
    | none => r.findInterface n (by omega) (ipAddress >>> 1)

/-- `_interfaces[interfaceNum].send_datagram(dgram, next_hop)` -/
def sendDatagram (r : Router) (interfaceNum : Nat) (dgram : IPv4Datagram) (nextHop : UInt32) :
    Except Exception Unit × Router :=
  match r.interfaces[interfaceNum]? with
  | some interface =>
    let (result, sent) := interface.toNetworkInterface.sendDatagram dgram nextHop
    (result, { r with
      interfaces := r.interfaces.set interfaceNum { interface with toNetworkInterface := sent } })
  | none => (.ok (), r)  -- an access past the end of the vector, which is undefined

/-- Route one datagram.  The reference is to the front of a queue, so the datagram is returned. -/
def routeOneDatagram (r : Router) (dgram : IPv4Datagram) :
    Except Exception Unit × IPv4Datagram × Router :=
  let ttl := dgram.header.ttl
  let dgram := { dgram with header := { dgram.header with ttl := ttl - 1 } }
  if ttl < 2 then (.ok (), dgram, r)
  else
    let interface := r.findInterface 32 (by omega) dgram.header.dst
    if interface.1 = noInterface.1 then (.ok (), dgram, r)
    else
      let (result, r) := r.sendDatagram interface.1 dgram (interface.2.getD dgram.header.dst)
      (result, dgram, r)

/-- The datagrams that wait at an interface. -/
def queue (interfaces : List AsyncNetworkInterface) (i : Nat) : List IPv4Datagram :=
  (interfaces[i]?.map AsyncNetworkInterface.datagramsOut).getD []

/-- The interfaces with another queue at one of them. -/
def setQueue (interfaces : List AsyncNetworkInterface) (i : Nat) (queue : List IPv4Datagram) :
    List AsyncNetworkInterface :=
  interfaces.modify i fun interface => { interface with datagramsOut := queue }

/-- The inner loop of `route`, with a bound on the number of iterations. -/
def routeQueue (r : Router) (i : Nat) : Nat → Except Exception Unit × Router
  | 0 => (.ok (), r)
  | fuel + 1 =>
    match queue r.interfaces i with
    | [] => (.ok (), r)
    | front :: _ =>
      match r.routeOneDatagram front with
      | (.error e, dgram, r) =>
        (.error e, { r with
          interfaces := setQueue r.interfaces i (dgram :: (queue r.interfaces i).tail) })
      | (.ok (), _, r) =>
        routeQueue
          { r with interfaces := setQueue r.interfaces i (queue r.interfaces i).tail } i fuel

/-- The outer loop of `route`, over the interfaces with the given indices. -/
def routeInterfaces : List Nat → Router → Except Exception Unit × Router
  | [], r => (.ok (), r)
  | i :: is, r =>
    match r.routeQueue i (queue r.interfaces i).length with
    | (.error e, r) => (.error e, r)
    | (.ok (), r) => routeInterfaces is r

/-- Route every datagram that has been received. -/
def route (r : Router) : Except Exception Unit × Router :=
  routeInterfaces (List.range r.interfaces.length) r

/-! ### What routing is for -/

/-- The arguments of `add_route`. -/
structure Route where
  routePrefix : UInt32
  prefixLength : Fin 33
  nextHop : Option UInt32
  interfaceNum : Nat

/-- The router after a sequence of `add_route` calls. -/
def addRoutes (shift32 : UInt32 → UInt32) (r : Router) (routes : List Route) : Router :=
  routes.foldl (fun r route =>
    r.addRoute shift32 route.routePrefix route.prefixLength route.nextHop route.interfaceNum) r

/-- The first bits of the prefix are those of the destination. -/
def Route.Matches (route : Route) (dst : UInt32) : Prop :=
  LongestPrefix.Matches (fun route => route.routePrefix.toBitVec)
    (fun route => route.prefixLength.val) dst.toBitVec route

/-- The longest matching route, the last added of several. -/
def BestRoute (routes : List Route) (dst : UInt32) (route : Route) : Prop :=
  LongestPrefix.Best (fun route => route.routePrefix.toBitVec)
    (fun route => route.prefixLength.val) routes dst.toBitVec route

/-- A call of `send_datagram`. -/
structure Call where
  interfaceNum : Nat
  dgram : IPv4Datagram
  nextHop : UInt32

/-- The datagram with its ttl decremented. -/
def aged (dgram : IPv4Datagram) : IPv4Datagram :=
  { dgram with header := { dgram.header with ttl := dgram.header.ttl - 1 } }

/-- The call by which a datagram is to be sent on, or none. -/
def Routed (routes : List Route) (dgram : IPv4Datagram) : Option Call → Prop
  | none => dgram.header.ttl < 2 ∨ ∀ route ∈ routes, ¬ route.Matches dgram.header.dst
  | some call => 2 ≤ dgram.header.ttl ∧ ∃ route, BestRoute routes dgram.header.dst route ∧
      call = { interfaceNum := route.interfaceNum, dgram := aged dgram,
               nextHop := route.nextHop.getD dgram.header.dst }

/-- The interfaces after a call. -/
def perform (interfaces : List AsyncNetworkInterface) (c : Call) : List AsyncNetworkInterface :=
  interfaces.modify c.interfaceNum fun interface =>
    { interface with
      toNetworkInterface := (interface.toNetworkInterface.sendDatagram c.dgram c.nextHop).2 }

/-- All that has been received, in the order in which it is routed. -/
def received (interfaces : List AsyncNetworkInterface) : List IPv4Datagram :=
  interfaces.flatMap AsyncNetworkInterface.datagramsOut

/-- The interfaces with their queues emptied. -/
def emptied (interfaces : List AsyncNetworkInterface) : List AsyncNetworkInterface :=
  interfaces.map fun interface => { interface with datagramsOut := [] }

/-- The route of length zero that can be found: the last one whose prefix is shifted to 0. -/
def defaultRoute (shift32 : UInt32 → UInt32) (routes : List Route) : Option Route :=
  (routes.filter fun route => route.prefixLength.val = 0 ∧ shift32 route.routePrefix = 0).getLast?

/-- The lookup arrives where a route leads.  A route of length zero is found itself, or another one
    is found that leads to the same interface and next hop; and the number of the interface is not
    the mark of a failed lookup. -/
structure Found (shift32 : UInt32 → UInt32) (routes : List Route) (dst : UInt32)
    (route : Route) : Prop where
  entered : route.prefixLength.val = 0 → ∃ other ∈ defaultRoute shift32 routes,
    other.interfaceNum = route.interfaceNum ∧ other.nextHop.getD dst = route.nextHop.getD dst
  index : route.interfaceNum ≠ noInterface.1

/-- What keeps a call from being made or from returning is ruled out: the lookup arrives where the
    route leads, there is an interface, and the datagram can be serialized if it is sent at once. -/
structure Usable (shift32 : UInt32 → UInt32) (interfaces : List AsyncNetworkInterface)
    (routes : List Route) (dgram : IPv4Datagram) (route : Route) : Prop
    extends Found shift32 routes dgram.header.dst route where
  returns : ∃ interface, interfaces[route.interfaceNum]? = some interface ∧
    (dgram.WellFormed ∨
      interface.arpForwardTable.lookup (route.nextHop.getD dgram.header.dst) = none)

/-! ### The tables -/

/-- The content of the table for one length. -/
def table (r : Router) (n : Nat) (k : BitVec 32) : Option Interface :=
  r.forwardTable[n]?.bind fun entries => entries.lookup (.ofBitVec k)

/-- The tables as functions, for the general theory of longest prefixes. -/
theorem table_eq (r : Router) {n : Nat} (h : n < 33) (ipAddress : UInt32) :
    r.table n ipAddress.toBitVec = r.forwardTable[n].lookup ipAddress := by
  rw [table, Vector.getElem?_eq_getElem h]
  rfl

/-- **The loop of `route_one_datagram`** is the walk down the tables, with the shift of the address
    in every step. -/
theorem findInterface_eq_walk (r : Router) {n : Nat} (h : n < 33) (ipAddress : UInt32) :
    r.findInterface n h ipAddress =
      (LongestPrefix.walk r.table n ipAddress.toBitVec).getD noInterface := by
  induction n generalizing ipAddress with
  | zero => rw [findInterface, LongestPrefix.walk, table_eq r h]
  | succ n ih =>
    rw [findInterface, LongestPrefix.walk, table_eq r h]
    cases r.forwardTable[n + 1].lookup ipAddress with
    | some interface => rfl
    | none =>
      dsimp only
      rw [ih (by omega)]
      rfl

variable (shift32 : UInt32 → UInt32)

/-- A new route replaces the entry under its length and its shifted prefix. -/
theorem table_addRoute (r : Router) (routePrefix : UInt32) (prefixLength : Fin 33)
    (nextHop : Option UInt32) (interfaceNum : Nat) (n : Nat) (k : BitVec 32) :
    (r.addRoute shift32 routePrefix prefixLength nextHop interfaceNum).table n k =
      if prefixLength.val = n ∧ (getMask shift32 routePrefix prefixLength).toBitVec = k then
        some (interfaceNum, nextHop)
      else r.table n k := by
  unfold addRoute table
  rw [Vector.getElem?_set]
  -- the table of this length and the key are the only place that is written
  by_cases hn : prefixLength.val = n
  · subst hn
    by_cases hk : (getMask shift32 routePrefix prefixLength).toBitVec = k
    · subst hk
      rw [if_pos rfl, if_pos ⟨rfl, rfl⟩, Option.bind_some]
      exact AList.lookup_insert _
    · have hne : UInt32.ofBitVec k ≠ getMask shift32 routePrefix prefixLength :=
        fun h => hk (by rw [← h])
      rw [if_pos rfl, if_neg (fun h => hk h.2), Option.bind_some, AList.lookup_insert_ne hne,
        Vector.getElem?_eq_getElem prefixLength.isLt, Option.bind_some]
      rfl
  · rw [if_neg hn, if_neg (fun h => hn h.1)]

/-- The key of a route. -/
def Route.key (route : Route) : BitVec 32 :=
  (getMask shift32 route.routePrefix route.prefixLength).toBitVec

/-- **The tables after any number of `add_route` calls** hold the latest route for each length and
    key. -/
theorem table_addRoutes (interfaces : List AsyncNetworkInterface) (routes : List Route) :
    (addRoutes shift32 { interfaces := interfaces } routes).table =
      LongestPrefix.stored (Route.key shift32) (fun route => route.prefixLength.val)
        (fun route => (route.interfaceNum, route.nextHop)) routes := by
  induction routes using List.reverseRecOn with
  | nil =>
    funext n k
    show (Vector.replicate 33 ∅)[n]?.bind _ = none
    rw [Vector.getElem?_replicate]
    split <;> rfl
  | append_singleton routes route ih =>
    funext n k
    rw [LongestPrefix.stored_append, ← ih, addRoutes, List.foldl_append]
    exact table_addRoute shift32 _ _ _ _ _ n k

/-- A route of positive length is entered under its first bits; the shift is defined there. -/
theorem key_eq {route : Route} (hpos : 0 < route.prefixLength.val) :
    Route.key shift32 route = route.routePrefix.toBitVec >>> (32 - route.prefixLength.val) := by
  have hlt := route.prefixLength.isLt
  have hcount : (32 - UInt32.ofNat route.prefixLength.val).toNat = 32 - route.prefixLength.val := by
    rw [UInt32.toNat_sub_of_le _ _ (by rw [UInt32.le_iff_toNat_le]; simp; omega)]
    simp
    omega
  rw [Route.key, getMask, if_neg (by intro h; simp [h] at hpos), UInt32.toBitVec_shiftRight]
  rw [BitVec.ushiftRight_eq', BitVec.toNat_umod, UInt32.toNat_toBitVec, hcount]
  have hmod : (32 - route.prefixLength.val) % 32 = 32 - route.prefixLength.val :=
    Nat.mod_eq_of_lt (by omega)
  exact congrArg (route.routePrefix.toBitVec >>> ·) hmod

section

variable {shift32 : UInt32 → UInt32} {interfaces : List AsyncNetworkInterface}
  {routes : List Route} {dst : UInt32}

/-- The loop finds the best route, if that has any bits to be found by. -/
theorem findInterface_of_pos {route : Route} (h : BestRoute routes dst route)
    (hpos : 0 < route.prefixLength.val) :
    (addRoutes shift32 { interfaces := interfaces } routes).findInterface 32 (by omega) dst =
      (route.interfaceNum, route.nextHop) := by
  have hkey : Route.key shift32 route = dst.toBitVec >>> (32 - route.prefixLength.val) := by
    rw [key_eq shift32 hpos]
    exact (LongestPrefix.matches_iff_shift (by omega)).mp h.1
  rw [findInterface_eq_walk, table_addRoutes,
    LongestPrefix.walk_of_best (fun route _ => by omega) (fun route _ => key_eq shift32) h hkey]
  rfl

/-- Where the best route has length zero, the loop finds the last one entered under 0. -/
theorem findInterface_of_zero {route : Route} (h : BestRoute routes dst route)
    (hzero : route.prefixLength.val = 0) :
    (addRoutes shift32 { interfaces := interfaces } routes).findInterface 32 (by omega) dst =
      ((defaultRoute shift32 routes).map
        fun other => (other.interfaceNum, other.nextHop)).getD noInterface := by
  -- the best match has length zero, so no longer route matches
  have hshort : ∀ other ∈ routes, other.Matches dst → other.prefixLength.val = 0 := by
    intro other hother hmatch
    have hle := h.len_le hother hmatch
    omega
  -- for length zero the key of a route is what the shift by 32 gives, and it is looked up under 0
  have hkeys : (fun other : Route => decide (other.prefixLength.val = 0 ∧
        Route.key shift32 other = dst.toBitVec >>> 32)) =
      fun other => decide (other.prefixLength.val = 0 ∧ shift32 other.routePrefix = 0) := by
    funext other
    rw [decide_eq_decide]
    refine and_congr_right fun hlen => ?_
    rw [Route.key, getMask, if_pos (Fin.ext hlen), BitVec.ushiftRight_eq_zero (by omega)]
    exact UInt32.toBitVec_inj (b := 0)
  rw [findInterface_eq_walk, table_addRoutes,
    LongestPrefix.walk_of_zero (fun route _ => by omega) (fun route _ => key_eq shift32) hshort,
    LongestPrefix.stored, hkeys]
  rfl

/-- The last route of length zero is found if its prefix is shifted to 0. -/
theorem Found.of_shift {route : Route} (h : BestRoute routes dst route)
    (hshift : route.prefixLength = 0 → shift32 route.routePrefix = 0)
    (hindex : route.interfaceNum ≠ noInterface.1) : Found shift32 routes dst route := by
  refine ⟨fun hzero => ⟨route, ?_, rfl, rfl⟩, hindex⟩
  obtain ⟨-, before, after, rfl, -, hafter⟩ := h
  -- no route after it has length zero, since that would match
  have hnone : (after.filter fun other =>
      other.prefixLength.val = 0 ∧ shift32 other.routePrefix = 0) = [] := by
    refine List.filter_eq_nil_iff.mpr fun other hother hboth => ?_
    have hlen := (of_decide_eq_true hboth).1
    have hlt : other.prefixLength.val < route.prefixLength.val :=
      hafter other hother fun i (hi : i < other.prefixLength.val) => by omega
    omega
  rw [defaultRoute, List.filter_append,
    List.filter_cons_of_pos (by simpa [hzero] using hshift (Fin.ext hzero)), hnone,
    List.getLast?_concat]
  rfl

/-- **The lookup arrives where the best route leads** exactly when that route can be found. -/
theorem found_iff {route : Route} (h : BestRoute routes dst route) :
    (((addRoutes shift32 { interfaces := interfaces } routes).findInterface 32 (by omega) dst).1
          = route.interfaceNum ∧
        ((addRoutes shift32 { interfaces := interfaces } routes).findInterface 32 (by omega)
          dst).2.getD dst = route.nextHop.getD dst ∧
        ((addRoutes shift32 { interfaces := interfaces } routes).findInterface 32 (by omega) dst).1
          ≠ noInterface.1) ↔ Found shift32 routes dst route := by
  -- only the routes of length zero depend on that shift
  obtain hzero | hpos := Nat.eq_zero_or_pos route.prefixLength.val
  · rw [findInterface_of_zero h hzero]
    cases hdefault : defaultRoute shift32 routes with
    | none =>
      refine iff_of_false (fun hfound => hfound.2.2 rfl) fun hfound => ?_
      obtain ⟨other, hother, -⟩ := hfound.entered hzero
      rw [hdefault] at hother
      cases hother
    | some other =>
      show other.interfaceNum = _ ∧ other.nextHop.getD dst = _ ∧ other.interfaceNum ≠ _ ↔ _
      constructor
      · rintro ⟨hnum, hhop, hne⟩
        exact ⟨fun _ => ⟨other, hdefault, hnum, hhop⟩, hnum ▸ hne⟩
      · intro hfound
        obtain ⟨other', hother', hnum, hhop⟩ := hfound.entered hzero
        obtain rfl : other = other' := Option.some.inj (hdefault.symm.trans hother')
        exact ⟨hnum, hhop, hnum ▸ hfound.index⟩
  · rw [findInterface_of_pos h hpos]
    exact ⟨fun hfound => ⟨fun hzero => by omega, hfound.2.2⟩,
      fun hfound => ⟨rfl, rfl, hfound.index⟩⟩

/-- Where no route matches, nothing is found. -/
theorem findInterface_of_no_match (h : ∀ route ∈ routes, ¬ route.Matches dst) :
    (addRoutes shift32 { interfaces := interfaces } routes).findInterface 32 (by omega) dst =
      noInterface := by
  rw [findInterface_eq_walk, table_addRoutes,
    LongestPrefix.walk_of_no_match (fun route _ => by omega) (fun route _ => key_eq shift32) h]
  rfl

end

/-! ### One datagram -/

/-- The call that the code makes. -/
def nextCall (r : Router) (dgram : IPv4Datagram) : Option Call :=
  if dgram.header.ttl < 2 then none
  else
    let interface := r.findInterface 32 (by omega) dgram.header.dst
    if interface.1 = noInterface.1 then none
    else
      some
        { interfaceNum := interface.1
          dgram := aged dgram
          nextHop := interface.2.getD dgram.header.dst }

/-- The call does not throw. -/
def Returns (interfaces : List AsyncNetworkInterface) (c : Call) : Prop :=
  ∃ interface, interfaces[c.interfaceNum]? = some interface ∧
    (c.dgram.WellFormed ∨ interface.arpForwardTable.lookup c.nextHop = none)

/-- On an interface that there is, a call returns exactly if it does not throw. -/
theorem sendDatagram_ok_iff {r : Router} {c : Call} (hin : c.interfaceNum < r.interfaces.length) :
    (r.sendDatagram c.interfaceNum c.dgram c.nextHop).1 = .ok () ↔ Returns r.interfaces c := by
  rw [sendDatagram, Returns, List.getElem?_eq_getElem hin]
  simp [NetworkInterface.sendDatagram_returns_iff]

/-- A call that returns is made on one interface. -/
theorem sendDatagram_of_returns {r : Router} {c : Call} (h : Returns r.interfaces c) :
    r.sendDatagram c.interfaceNum c.dgram c.nextHop =
      (.ok (), { r with interfaces := perform r.interfaces c }) := by
  obtain ⟨interface, hinterface, hreturns⟩ := h
  have hok : (interface.toNetworkInterface.sendDatagram c.dgram c.nextHop).1 = .ok () :=
    NetworkInterface.sendDatagram_returns_iff.mpr hreturns
  -- the interface is changed in its place in the vector
  have hset : r.interfaces.set c.interfaceNum
        { interface with
          toNetworkInterface := (interface.toNetworkInterface.sendDatagram c.dgram c.nextHop).2 } =
      perform r.interfaces c := by
    refine List.ext_getElem? fun i => ?_
    rw [perform, List.getElem?_set', List.getElem?_modify]
    by_cases hi : c.interfaceNum = i
    · subst hi
      simp [hinterface]
    · simp [hi]
  rw [sendDatagram, hinterface]
  dsimp only
  rw [hok, hset]

/-- One datagram is routed by the call that is made for it, if any. -/
theorem routeOneDatagram_fst (r : Router) (dgram : IPv4Datagram) :
    (r.routeOneDatagram dgram).1 =
      match r.nextCall dgram with
      | none => .ok ()
      | some c => (r.sendDatagram c.interfaceNum c.dgram c.nextHop).1 := by
  unfold routeOneDatagram nextCall
  by_cases httl : dgram.header.ttl < 2
  · rw [if_pos httl, if_pos httl]
  by_cases hnone : (r.findInterface 32 (by omega) dgram.header.dst).1 = noInterface.1
  · simp only [if_neg httl, if_pos hnone]
  · simp only [if_neg httl, if_neg hnone]
    rfl

/-- One datagram: its ttl is decremented in any case, and the call that is due is made. -/
theorem routeOneDatagram_eq {r : Router} {dgram : IPv4Datagram}
    (h : ∀ c ∈ r.nextCall dgram, Returns r.interfaces c) :
    r.routeOneDatagram dgram =
      (.ok (), aged dgram,
        { r with interfaces := (r.nextCall dgram).toList.foldl perform r.interfaces }) := by
  unfold nextCall at h ⊢
  unfold routeOneDatagram
  -- too old, no route, or one call
  by_cases httl : dgram.header.ttl < 2
  · rw [if_pos httl, if_pos httl]
    rfl
  by_cases hnone : (r.findInterface 32 (by omega) dgram.header.dst).1 = noInterface.1
  · simp only [if_neg httl, if_pos hnone]
    rfl
  · simp only [if_neg httl, if_neg hnone] at h ⊢
    have hsent := sendDatagram_of_returns (h _ rfl)
    dsimp only at hsent
    unfold aged at hsent
    rw [hsent]
    rfl

/-- Whether a datagram can be serialized does not depend on its ttl. -/
theorem aged_wellFormed_iff {dgram : IPv4Datagram} : (aged dgram).WellFormed ↔ dgram.WellFormed :=
  ⟨fun h => ⟨h.ver, h.hlen, h.size⟩, fun h => ⟨h.ver, h.hlen, h.size⟩⟩

section

variable {shift32 : UInt32 → UInt32} {interfaces : List AsyncNetworkInterface}
  {routes : List Route} {dgram : IPv4Datagram}

/-- Where a route can be found, the call is made that the best one asks for. -/
theorem nextCall_of_found {route : Route} (httl : 2 ≤ dgram.header.ttl)
    (hbest : BestRoute routes dgram.header.dst route)
    (hfound : Found shift32 routes dgram.header.dst route) :
    (addRoutes shift32 { interfaces := interfaces } routes).nextCall dgram =
      some { interfaceNum := route.interfaceNum, dgram := aged dgram,
             nextHop := route.nextHop.getD dgram.header.dst } := by
  obtain ⟨hnum, hhop, hne⟩ := (found_iff hbest).mpr hfound
  unfold nextCall
  rw [if_neg (UInt8.not_lt.mpr httl)]
  dsimp only
  rw [if_neg hne, hnum, hhop]

/-- **One datagram.**  The call that is made, or not made, is that of the longest match if and only
    if the best route can be found, where a datagram has a best route and may still be sent on. -/
theorem routed_nextCall_iff :
    Routed routes dgram ((addRoutes shift32 { interfaces := interfaces } routes).nextCall dgram) ↔
      (2 ≤ dgram.header.ttl → ∀ route, BestRoute routes dgram.header.dst route →
        Found shift32 routes dgram.header.dst route) := by
  by_cases httl : dgram.header.ttl < 2
  · rw [nextCall, if_pos httl]
    exact iff_of_true (Or.inl httl) fun hle => absurd httl (UInt8.not_lt.mpr hle)
  have hle : 2 ≤ dgram.header.ttl := UInt8.not_lt.mp httl
  by_cases hmatch : ∃ route ∈ routes, route.Matches dgram.header.dst
  swap
  · push Not at hmatch
    rw [nextCall, if_neg httl, findInterface_of_no_match hmatch]
    refine iff_of_true (Or.inr hmatch) fun _ route hbest => ?_
    obtain ⟨hroute, before, after, rfl, -⟩ := hbest
    exact absurd hroute (hmatch route (by simp))
  obtain ⟨route, hbest⟩ := LongestPrefix.exists_best hmatch
  constructor
  · intro hrouted _ route' hbest'
    obtain rfl := hbest.unique hbest'
    -- a call is made, and it is that of the one best route
    cases hcall : (addRoutes shift32 { interfaces := interfaces } routes).nextCall dgram with
    | none =>
      rw [hcall] at hrouted
      obtain ⟨other, hother, hmatches⟩ := hmatch
      rcases hrouted with hold | hnone
      · exact absurd hold httl
      · exact absurd hmatches (hnone other hother)
    | some c =>
      rw [hcall] at hrouted
      obtain ⟨-, other, hother, hc⟩ := hrouted
      obtain rfl := hbest'.unique hother
      rw [nextCall, if_neg httl] at hcall
      dsimp only at hcall
      split at hcall
      · cases hcall
      · rename_i hne
        rw [hc, Option.some.injEq, Call.mk.injEq] at hcall
        exact (found_iff hbest').mp ⟨hcall.1, hcall.2.2, hne⟩
  · intro hfound
    rw [nextCall_of_found hle hbest (hfound hle route hbest)]
    exact ⟨hle, route, hbest, rfl⟩

/-- **The call that is made is that of the longest match**, and it returns. -/
theorem routed_nextCall
    (h : 2 ≤ dgram.header.ttl → ∀ route, BestRoute routes dgram.header.dst route →
      Usable shift32 interfaces routes dgram route) :
    Routed routes dgram
        ((addRoutes shift32 { interfaces := interfaces } routes).nextCall dgram) ∧
      ∀ c ∈ (addRoutes shift32 { interfaces := interfaces } routes).nextCall dgram,
        Returns interfaces c := by
  have hrouted : Routed routes dgram
      ((addRoutes shift32 { interfaces := interfaces } routes).nextCall dgram) :=
    routed_nextCall_iff.mpr fun httl route hbest => (h httl route hbest).toFound
  refine ⟨hrouted, fun c hc => ?_⟩
  rw [Option.mem_def.mp hc] at hrouted
  obtain ⟨httl, route, hbest, rfl⟩ := hrouted
  obtain ⟨interface, hinterface, hreturns⟩ := (h httl route hbest).returns
  exact ⟨interface, hinterface, hreturns.imp_left aged_wellFormed_iff.mpr⟩

/-- A call of the longest match that returns is one by a usable route. -/
theorem usable_of_nextCall
    (hrouted : Routed routes dgram
      ((addRoutes shift32 { interfaces := interfaces } routes).nextCall dgram))
    (hreturns : ∀ c ∈ (addRoutes shift32 { interfaces := interfaces } routes).nextCall dgram,
      Returns interfaces c) (httl : 2 ≤ dgram.header.ttl) {route : Route}
    (hbest : BestRoute routes dgram.header.dst route) :
    Usable shift32 interfaces routes dgram route := by
  have hfound := routed_nextCall_iff.mp hrouted httl route hbest
  obtain ⟨interface, hinterface, hsent⟩ := hreturns _ (nextCall_of_found httl hbest hfound)
  exact ⟨hfound, interface, hinterface, hsent.imp_left aged_wellFormed_iff.mp⟩

end

/-! ### What a call leaves alone -/

/-- A change of one element that a function does not see. -/
theorem map_modify_eq {α β : Type} {f : α → β} {g : α → α} (h : ∀ a, f (g a) = f a) (l : List α)
    (i : Nat) : (l.modify i g).map f = l.map f := by
  refine List.ext_getElem? fun j => ?_
  rw [List.getElem?_map, List.getElem?_map, List.getElem?_modify, Option.map_eq_map,
    Option.map_map]
  congr 1
  funext a
  by_cases hj : i = j <;> simp [hj, h]

/-- Sending learns no mapping. -/
theorem sendDatagram_arpForwardTable (n : NetworkInterface) (dgram : IPv4Datagram)
    (nextHop : UInt32) : (n.sendDatagram dgram nextHop).2.arpForwardTable = n.arpForwardTable := by
  obtain ⟨new, heq, -⟩ | ⟨-, -, heq⟩ := n.sendDatagram_cases dgram nextHop
  · exact congrArg (·.arpForwardTable) heq
  · exact congrArg (·.arpForwardTable) heq

/-- Calls leave alone what sending a datagram does. -/
theorem foldl_perform_map {β : Type} {f : AsyncNetworkInterface → β}
    (hf : ∀ (interface : AsyncNetworkInterface) (dgram : IPv4Datagram) (nextHop : UInt32),
      f { interface with
        toNetworkInterface := (interface.toNetworkInterface.sendDatagram dgram nextHop).2 }
        = f interface)
    (interfaces : List AsyncNetworkInterface) (calls : List Call) :
    (calls.foldl perform interfaces).map f = interfaces.map f := by
  induction calls generalizing interfaces with
  | nil => rfl
  | cons c calls ih =>
    rw [List.foldl_cons, ih, perform, map_modify_eq]
    exact fun interface => hf interface c.dgram c.nextHop

/-- The calls do not touch what has been received. -/
theorem foldl_perform_queues (interfaces : List AsyncNetworkInterface) (calls : List Call) :
    (calls.foldl perform interfaces).map (·.datagramsOut) = interfaces.map (·.datagramsOut) :=
  foldl_perform_map (fun _ _ _ => rfl) interfaces calls

/-- Nor what has been learned, so what holds of the mappings at the start holds at the end. -/
theorem foldl_perform_mappings (interfaces : List AsyncNetworkInterface) (calls : List Call) :
    (calls.foldl perform interfaces).map (·.arpForwardTable)
      = interfaces.map (·.arpForwardTable) :=
  foldl_perform_map (fun interface => sendDatagram_arpForwardTable interface.toNetworkInterface)
    interfaces calls

/-- There are as many interfaces as before. -/
theorem length_foldl_perform (interfaces : List AsyncNetworkInterface) (calls : List Call) :
    (calls.foldl perform interfaces).length = interfaces.length := by
  simpa using congrArg List.length (foldl_perform_queues interfaces calls)

/-- Emptying a queue changes no mapping. -/
theorem setQueue_mappings (interfaces : List AsyncNetworkInterface) (i : Nat)
    (q : List IPv4Datagram) :
    (setQueue interfaces i q).map (·.arpForwardTable) = interfaces.map (·.arpForwardTable) := by
  rw [setQueue, map_modify_eq]
  exact fun _ => rfl

/-- Whether a call returns depends on the mappings only. -/
theorem Returns.of_mappings {interfaces other : List AsyncNetworkInterface} {c : Call}
    (heq : other.map (·.arpForwardTable) = interfaces.map (·.arpForwardTable))
    (h : Returns interfaces c) : Returns other c := by
  obtain ⟨interface, hinterface, hreturns⟩ := h
  have hmapping := congrArg (·[c.interfaceNum]?) heq
  simp only [List.getElem?_map, hinterface, Option.map_some] at hmapping
  obtain ⟨interface', hinterface', hsame⟩ := Option.map_eq_some_iff.mp hmapping
  exact ⟨interface', hinterface', hsame ▸ hreturns⟩

/-- A queue, as one of the list of all queues. -/
theorem queue_eq (interfaces : List AsyncNetworkInterface) (i : Nat) :
    queue interfaces i = ((interfaces.map (·.datagramsOut))[i]?).getD [] := by
  rw [queue, List.getElem?_map]

/-- A call and a change of a queue do not get in each other's way. -/
theorem perform_setQueue (interfaces : List AsyncNetworkInterface) (i : Nat)
    (q : List IPv4Datagram) (c : Call) :
    perform (setQueue interfaces i q) c = setQueue (perform interfaces c) i q := by
  refine List.ext_getElem? fun j => ?_
  simp only [perform, setQueue, List.getElem?_modify, Option.map_eq_map, Option.map_map]
  congr 1
  funext interface
  by_cases hi : i = j <;> by_cases hc : c.interfaceNum = j <;> simp [hi, hc]

/-- Making the calls and emptying the queue can be done in either order. -/
theorem foldl_perform_setQueue (interfaces : List AsyncNetworkInterface) (i : Nat)
    (q : List IPv4Datagram) (calls : List Call) :
    calls.foldl perform (setQueue interfaces i q)
      = setQueue (calls.foldl perform interfaces) i q := by
  induction calls generalizing interfaces with
  | nil => rfl
  | cons c calls ih => rw [List.foldl_cons, perform_setQueue, ih, List.foldl_cons]

theorem setQueue_setQueue (interfaces : List AsyncNetworkInterface) (i : Nat)
    (q q' : List IPv4Datagram) :
    setQueue (setQueue interfaces i q) i q' = setQueue interfaces i q' := by
  rw [setQueue, setQueue, List.modify_modify_eq]
  rfl

/-- Setting a queue to what it is changes nothing. -/
theorem setQueue_queue (interfaces : List AsyncNetworkInterface) (i : Nat) :
    setQueue interfaces i (queue interfaces i) = interfaces := by
  refine List.ext_getElem? fun j => ?_
  rw [setQueue, List.getElem?_modify]
  by_cases hi : i = j
  · subst hi
    cases hinterface : interfaces[i]? with
    | none => rfl
    | some interface => simp [queue, hinterface]
  · simp [hi]

theorem queue_setQueue_self {interfaces : List AsyncNetworkInterface} {i : Nat}
    (h : queue interfaces i ≠ []) (q : List IPv4Datagram) :
    queue (setQueue interfaces i q) i = q := by
  cases hinterface : interfaces[i]? with
  | none => simp [queue, hinterface] at h
  | some interface => simp [queue, setQueue, hinterface]

theorem queue_setQueue_ne (interfaces : List AsyncNetworkInterface) {i j : Nat} (h : i ≠ j)
    (q : List IPv4Datagram) : queue (setQueue interfaces i q) j = queue interfaces j := by
  simp [queue, setQueue, h]

/-- The calls for one queue leave the others as they are. -/
theorem queue_foldl_perform (interfaces : List AsyncNetworkInterface) (calls : List Call)
    (i : Nat) : queue (calls.foldl perform interfaces) i = queue interfaces i := by
  rw [queue_eq, foldl_perform_queues, queue_eq]

section

variable (interfaces : List AsyncNetworkInterface) (calls : List Call) {i : Nat}

/-- After the calls, and a change of one queue, the mappings are those of the start. -/
theorem mappings_routed (i : Nat) (q : List IPv4Datagram) :
    (setQueue (calls.foldl perform interfaces) i q).map (·.arpForwardTable)
      = interfaces.map (·.arpForwardTable) := by
  rw [setQueue_mappings, foldl_perform_mappings]

/-- There are as many interfaces. -/
theorem length_routed (i : Nat) (q : List IPv4Datagram) :
    (setQueue (calls.foldl perform interfaces) i q).length = interfaces.length := by
  simpa using congrArg List.length (mappings_routed interfaces calls i q)

/-- The datagram at the front is popped from the queue as the calls have left it. -/
theorem queue_popped {front : IPv4Datagram} {rest : List IPv4Datagram}
    (hq : queue interfaces i = front :: rest) :
    queue (setQueue (calls.foldl perform interfaces) i rest) i = rest := by
  refine queue_setQueue_self ?_ rest
  rw [queue_foldl_perform, hq]
  exact List.cons_ne_nil front rest

/-- The queues of the other interfaces are as before. -/
theorem queues_routed {others : List Nat} (hi : i ∉ others) (q : List IPv4Datagram) :
    others.flatMap (queue (setQueue (calls.foldl perform interfaces) i q))
      = others.flatMap (queue interfaces) := by
  refine List.flatMap_congr fun j hj => ?_
  have hne : i ≠ j := fun hij => hi (hij ▸ hj)
  rw [queue_setQueue_ne _ hne, queue_foldl_perform]

end

/-! ### The loops -/

/-- **The inner loop** makes the calls for the datagrams of one queue and empties it. -/
theorem routeQueue_eq {r : Router} {i : Nat} {q : List IPv4Datagram}
    (hq : queue r.interfaces i = q)
    (h : ∀ dgram ∈ q, ∀ c ∈ r.nextCall dgram, Returns r.interfaces c) :
    r.routeQueue i q.length =
      (.ok (), { r with
        interfaces := setQueue ((q.filterMap r.nextCall).foldl perform r.interfaces) i [] }) := by
  -- along the queue, popping the front each time
  induction q generalizing r with
  | nil =>
    have hsame : setQueue r.interfaces i [] = r.interfaces := by
      rw [← hq, setQueue_queue]
    rw [List.length_nil, routeQueue, List.filterMap_nil, List.foldl_nil, hsame]
  | cons front rest ih =>
    rw [List.length_cons, routeQueue, hq]
    dsimp only
    rw [routeOneDatagram_eq (h front List.mem_cons_self)]
    dsimp only
    have hcalls : (front :: rest).filterMap r.nextCall
        = (r.nextCall front).toList ++ rest.filterMap r.nextCall := by
      cases hcall : r.nextCall front <;> simp [hcall]
    rw [queue_foldl_perform, hq, List.tail_cons, hcalls, List.foldl_append,
      ih (queue_popped _ _ hq) fun dgram hdgram c hc => ?_]
    · dsimp only
      rw [foldl_perform_setQueue, setQueue_setQueue]
      rfl
    · exact (h dgram (List.mem_cons_of_mem _ hdgram) c hc).of_mappings (mappings_routed _ _ i rest)

/-- **The inner loop returns** only if every call does, where all are on interfaces that there
    are. -/
theorem routeQueue_returns {r : Router} {i : Nat} {q : List IPv4Datagram}
    (hq : queue r.interfaces i = q)
    (hin : ∀ dgram ∈ q, ∀ c ∈ r.nextCall dgram, c.interfaceNum < r.interfaces.length)
    (hok : (r.routeQueue i q.length).1 = .ok ()) :
    ∀ dgram ∈ q, ∀ c ∈ r.nextCall dgram, Returns r.interfaces c := by
  induction q generalizing r with
  | nil => simp
  | cons front rest ih =>
    rw [List.forall_mem_cons] at hin
    -- the first datagram: an exception would end the loop
    have hfront : ∀ c ∈ r.nextCall front, Returns r.interfaces c := by
      intro c hc
      rw [← sendDatagram_ok_iff (hin.1 c hc)]
      have hfst := r.routeOneDatagram_fst front
      rw [Option.mem_def.mp hc] at hfst
      dsimp only at hfst
      rw [List.length_cons, routeQueue, hq] at hok
      dsimp only at hok
      rw [← hfst]
      cases hone : r.routeOneDatagram front with
      | mk result after =>
        cases result with
        | ok => rfl
        | error e =>
          rw [hone] at hok
          cases hok
    rw [List.forall_mem_cons]
    refine ⟨hfront, fun dgram hdgram c hc => ?_⟩
    -- the others: the loop goes on with the same tables and mappings
    rw [List.length_cons, routeQueue, hq] at hok
    dsimp only at hok
    rw [routeOneDatagram_eq hfront] at hok
    dsimp only at hok
    rw [queue_foldl_perform, hq, List.tail_cons] at hok
    have hlater := ih (queue_popped _ _ hq) (fun dgram hdgram c hc => by
      dsimp only
      rw [length_routed]
      exact hin.2 dgram hdgram c hc) hok dgram hdgram c hc
    exact hlater.of_mappings (mappings_routed _ _ i rest).symm

/-- Empty the queues of the interfaces with the given indices. -/
def emptyQueues (indices : List Nat) (interfaces : List AsyncNetworkInterface) :
    List AsyncNetworkInterface :=
  indices.foldl (fun interfaces i => setQueue interfaces i []) interfaces

/-- **The outer loop** makes the calls for the queues one after the other. -/
theorem routeInterfaces_eq {indices : List Nat} (hindices : indices.Nodup) {r : Router}
    (h : ∀ dgram ∈ indices.flatMap (queue r.interfaces), ∀ c ∈ r.nextCall dgram,
      Returns r.interfaces c) :
    routeInterfaces indices r =
      (.ok (), { r with
        interfaces := emptyQueues indices
          (((indices.flatMap (queue r.interfaces)).filterMap r.nextCall).foldl perform
            r.interfaces) }) := by
  -- along the interfaces; the calls add nothing to the queues that are still to be routed
  induction indices generalizing r with
  | nil => rfl
  | cons i rest ih =>
    obtain ⟨hi, hrest⟩ := List.nodup_cons.mp hindices
    rw [List.flatMap_cons] at h ⊢
    rw [routeInterfaces,
      routeQueue_eq rfl fun dgram hdgram => h dgram (List.mem_append_left _ hdgram)]
    dsimp only
    rw [ih hrest fun dgram hdgram c hc => ?_]
    · dsimp only
      rw [queues_routed _ _ hi, foldl_perform_setQueue, List.filterMap_append, List.foldl_append]
      rfl
    · rw [queues_routed _ _ hi] at hdgram
      exact (h dgram (List.mem_append_right _ hdgram) c hc).of_mappings (mappings_routed _ _ i [])

/-- **The outer loop returns** only if every call does. -/
theorem routeInterfaces_returns {indices : List Nat} (hindices : indices.Nodup) {r : Router}
    (hin : ∀ dgram ∈ indices.flatMap (queue r.interfaces), ∀ c ∈ r.nextCall dgram,
      c.interfaceNum < r.interfaces.length)
    (hok : (routeInterfaces indices r).1 = .ok ()) :
    ∀ dgram ∈ indices.flatMap (queue r.interfaces), ∀ c ∈ r.nextCall dgram,
      Returns r.interfaces c := by
  induction indices generalizing r with
  | nil => simp
  | cons i rest ih =>
    obtain ⟨hi, hrest⟩ := List.nodup_cons.mp hindices
    rw [List.flatMap_cons, List.forall_mem_append] at hin ⊢
    have hfirst : ∀ dgram ∈ queue r.interfaces i, ∀ c ∈ r.nextCall dgram,
        Returns r.interfaces c := by
      refine routeQueue_returns rfl hin.1 ?_
      rw [routeInterfaces] at hok
      cases hqueue : r.routeQueue i (queue r.interfaces i).length with
      | mk result after =>
        cases result with
        | ok => rfl
        | error e =>
          rw [hqueue] at hok
          cases hok
    refine ⟨hfirst, fun dgram hdgram c hc => ?_⟩
    rw [routeInterfaces, routeQueue_eq rfl hfirst] at hok
    dsimp only at hok
    -- the queue of this interface has been routed, and the mappings are still the same
    have hlater := ih hrest (fun dgram hdgram c hc => by
      dsimp only at hdgram ⊢
      rw [queues_routed _ _ hi] at hdgram
      rw [length_routed]
      exact hin.2 dgram hdgram c hc) hok dgram (by rw [queues_routed _ _ hi]; exact hdgram) c hc
    exact hlater.of_mappings (mappings_routed _ _ i []).symm

/-- Each interface among the indices has its queue emptied, and nothing else happens. -/
theorem getElem?_emptyQueues (indices : List Nat) (interfaces : List AsyncNetworkInterface)
    (j : Nat) :
    (emptyQueues indices interfaces)[j]? = interfaces[j]?.map fun interface =>
      if j ∈ indices then { interface with datagramsOut := [] } else interface := by
  induction indices generalizing interfaces with
  | nil => simp [emptyQueues]
  | cons i rest ih =>
    rw [emptyQueues, List.foldl_cons, ← emptyQueues, ih, setQueue, List.getElem?_modify,
      Option.map_eq_map, Option.map_map]
    congr 1
    funext interface
    by_cases hi : i = j <;> by_cases hj : j ∈ rest <;> simp [hi, hj, @eq_comm _ j i]

/-- With all indices, all queues are empty. -/
theorem emptyQueues_range {n : Nat} {interfaces : List AsyncNetworkInterface}
    (hn : interfaces.length = n) :
    emptyQueues (List.range n) interfaces = emptied interfaces := by
  refine List.ext_getElem? fun j => ?_
  rw [getElem?_emptyQueues, emptied, List.getElem?_map]
  by_cases hj : j < n
  · simp [hj]
  · simp [List.getElem?_eq_none (hn ▸ Nat.le_of_not_lt hj)]

/-- The queues one after another are all that was received. -/
theorem flatMap_queue_range (interfaces : List AsyncNetworkInterface) :
    (List.range interfaces.length).flatMap (queue interfaces) = received interfaces := by
  have hqueues : (List.range interfaces.length).map (queue interfaces)
      = interfaces.map AsyncNetworkInterface.datagramsOut := by
    refine List.ext_getElem (by simp) fun j hj _ => ?_
    rw [List.length_map, List.length_range] at hj
    simp [queue, List.getElem?_eq_getElem hj]
  rw [received, List.flatMap_def, hqueues, List.flatMap_def]

/-- Routes concern the tables only. -/
theorem addRoutes_interfaces (shift32 : UInt32 → UInt32)
    (interfaces : List AsyncNetworkInterface) (r : Router) (routes : List Route) :
    { addRoutes shift32 r routes with interfaces := interfaces }
      = addRoutes shift32 { r with interfaces := interfaces } routes := by
  induction routes generalizing r with
  | nil => rfl
  | cons route routes ih => exact ih _

/-- All the calls that `route` makes, if none of them throws. -/
theorem route_eq {r : Router}
    (h : ∀ d ∈ received r.interfaces, ∀ c ∈ r.nextCall d, Returns r.interfaces c) :
    r.route =
      (.ok (), { r with
        interfaces := emptied
          (((received r.interfaces).filterMap r.nextCall).foldl perform r.interfaces) }) := by
  rw [route, routeInterfaces_eq List.nodup_range, flatMap_queue_range,
    emptyQueues_range (length_foldl_perform _ _)]
  rwa [flatMap_queue_range]

/-- The router does what it is for.  For each datagram in the queues, in their order, the call is
    made that the longest matching route asks for, or none where the ttl has run out or no route
    matches; each is a call on one of the interfaces; and when `route` returns, all of them have
    been made and the queues are empty. -/
structure Forwards (shift32 : UInt32 → UInt32) (interfaces : List AsyncNetworkInterface)
    (routes : List Route) : Prop where
  calls : ∀ dgram ∈ received interfaces, Routed routes dgram
    ((addRoutes shift32 { interfaces := interfaces } routes).nextCall dgram)
  inRange : ∀ dgram ∈ received interfaces,
    ∀ c ∈ (addRoutes shift32 { interfaces := interfaces } routes).nextCall dgram,
      c.interfaceNum < interfaces.length
  result : (addRoutes shift32 { interfaces := interfaces } routes).route =
    (.ok (), addRoutes shift32
      { interfaces := emptied (((received interfaces).filterMap
          (addRoutes shift32 { interfaces := interfaces } routes).nextCall).foldl perform
          interfaces) } routes)

/-- **Longest-prefix match.**  After any sequence of `add_route` calls and for any datagrams in the
    queues, `route` forwards them by the longest match if and only if, for every datagram that may
    still be sent on and for which a route matches, the best route can be used. -/
theorem route_by_longest_match (shift32 : UInt32 → UInt32)
    (interfaces : List AsyncNetworkInterface) (routes : List Route) :
    Forwards shift32 interfaces routes ↔
      ∀ dgram ∈ received interfaces, 2 ≤ dgram.header.ttl →
        ∀ route, BestRoute routes dgram.header.dst route →
          Usable shift32 interfaces routes dgram route := by
  have hinterfaces : (addRoutes shift32 { interfaces := interfaces } routes).interfaces
      = interfaces :=
    (congrArg Router.interfaces
      (addRoutes_interfaces shift32 interfaces { interfaces := interfaces } routes)).symm
  constructor
  · intro hforwards dgram hdgram httl route hbest
    -- `route` has returned, so every call has
    have hreturns := routeInterfaces_returns (r := addRoutes shift32 { interfaces := interfaces }
      routes) List.nodup_range (by
        rw [hinterfaces, flatMap_queue_range]
        exact hforwards.inRange) (congrArg Prod.fst hforwards.result)
    rw [hinterfaces, flatMap_queue_range] at hreturns
    exact usable_of_nextCall (hforwards.calls dgram hdgram) (hreturns dgram hdgram) httl hbest
  · intro husable
    have hcalls := fun dgram hdgram => routed_nextCall (husable dgram hdgram)
    refine ⟨fun dgram hdgram => (hcalls dgram hdgram).1, fun dgram hdgram c hc => ?_, ?_⟩
    · obtain ⟨interface, hinterface, -⟩ := (hcalls dgram hdgram).2 c hc
      exact (List.getElem?_eq_some_iff.mp hinterface).1
    · rw [route_eq (by
        rw [hinterfaces]
        exact fun dgram hdgram => (hcalls dgram hdgram).2), addRoutes_interfaces, hinterfaces]

/-- A route of length zero that is lost where a shift by 32 changes nothing, as on x86. -/
theorem default_route_lost :
    let dgram : IPv4Datagram := { header := { len := 20, ttl := 64, dst := 0x01020304 } }
    let interfaces : List AsyncNetworkInterface :=
      [{ ethernetAddress := .zero, ipAddress := 1, datagramsOut := [dgram] }]
    let defaultRoute : Route :=
      { routePrefix := 0x0a000000, prefixLength := 0, nextHop := none, interfaceNum := 0 }
    BestRoute [defaultRoute] dgram.header.dst defaultRoute ∧
      (addRoutes id { interfaces := interfaces } [defaultRoute]).route
        = (.ok (), addRoutes id { interfaces := emptied interfaces } [defaultRoute]) ∧
      (perform interfaces { interfaceNum := 0, dgram := aged dgram, nextHop := 0x01020304 }).map
        (·.framesOut.length) = [1] := by
  refine ⟨⟨fun i hi => absurd hi (by simp), [], [], rfl, by simp, by simp⟩, ?_, ?_⟩
  · rfl
  · decide +kernel

end Router

end Sponge
