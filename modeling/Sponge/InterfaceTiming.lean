import Sponge.InterfaceSteps
import Sponge.Lib.History
import Sponge.Lib.Run

namespace Sponge

/-!
# The timers of a network interface

A run of an interface with a clock, which counts the milliseconds that have been ticked, and with
two histories beside it: the mappings in the messages it has heard, and the addresses it has asked
for.

* `mapping_fresh`: the interface uses just the mapping that it has heard last, for thirty seconds.
* `requests_spaced`: it asks for an address at most every five seconds.

The second holds although the pending request may be gone in the meantime: it is erased only by a
reply, which leaves a mapping, and that lasts longer than the five seconds.
-/

namespace NetworkInterface

/-- The milliseconds that pass with a call. -/
def InterfaceOp.elapsed : InterfaceOp → Nat
  | .tick ms => ms
  | _ => 0

/-- The ARP message that comes with a call. -/
def messageIn (n : NetworkInterface) : InterfaceOp → Option ARPMessage
  | .recvFrame frame => n.arpMessage frame
  | _ => none

/-- An interface, the milliseconds that have passed, the mappings heard, the latest first, and the
    addresses asked for, the latest last. -/
structure TimedRun where
  interface : NetworkInterface
  now : Nat := 0
  heard : List (UInt32 × EthernetAddress × Nat) := []
  asked : List (UInt32 × Nat) := []

namespace TimedRun

def start (ethernetAddress : EthernetAddress) (ipAddress : UInt32) : TimedRun :=
  { interface := { ethernetAddress := ethernetAddress, ipAddress := ipAddress } }

/-- A call. -/
def step (r : TimedRun) (op : InterfaceOp) : TimedRun where
  interface := r.interface.apply op
  now := r.now + op.elapsed
  heard :=
    match r.interface.messageIn op with
    | some message =>
      (message.senderIpAddress, message.senderEthernetAddress, r.now) :: r.heard
    | none => r.heard
  asked := r.asked ++ (r.interface.requests op).map fun ip => (ip, r.now + op.elapsed)

variable {r : TimedRun}

/-- The clock does not go back. -/
theorem now_le_run (r : TimedRun) (ops : List InterfaceOp) : r.now ≤ (ops.foldl step r).now := by
  induction ops generalizing r with
  | nil => exact le_refl _
  | cons op ops ih => exact (Nat.le_add_right _ _).trans (ih (r.step op))

/-- What one step keeps while the clock fits into an `int` holds at the end of every run whose ticks
    do. -/
theorem run_of_step {I : TimedRun → Prop}
    (hstep : ∀ r op, I r → r.now + op.elapsed < 2 ^ 31 → I (step r op)) {ops : List InterfaceOp}
    (h : I r) (hticks : (ops.foldl step r).now < 2 ^ 31) : I (ops.foldl step r) := by
  induction ops generalizing r with
  | nil => exact h
  | cons op ops ih =>
    exact ih (hstep r op h ((now_le_run (r.step op) ops).trans_lt hticks)) hticks

/-! ### Mappings -/

/-- The table is what has been heard and is not yet too old. -/
structure Mappings (r : TimedRun) : Prop where
  past : ∀ event ∈ r.heard, event.2.2 ≤ r.now
  table : ∀ ip, r.interface.arpForwardTable.lookup ip =
    (History.fresh 30000 r.now r.heard ip).map fun entry => ((entry.1 : Int), entry.2)

/-- In the beginning nothing has been heard. -/
theorem start_mappings (ethernetAddress : EthernetAddress) (ipAddress : UInt32) :
    Mappings (start ethernetAddress ipAddress) where
  past := by simp [start]
  table := fun _ => rfl

/-- Mappings of known ages after `ms` milliseconds. -/
theorem bind_ageMapping {entry : Option (Nat × EthernetAddress)} {ms : Nat}
    (hfits : ∀ e ∈ entry, e.1 + ms < 2 ^ 31) :
    (entry.map fun e => ((e.1 : Int), e.2)).bind (ageMapping ms) =
      (entry.bind fun e => if e.1 + ms ≤ 30000 then some (e.1 + ms, e.2) else none).map
        fun e => ((e.1 : Int), e.2) := by
  cases entry with
  | none => rfl
  | some e =>
    -- the timer counts the time since the reply, as long as its 32 bits hold it
    have htimer : elapse (e.1 : Int) ms = ((e.1 + ms : Nat) : Int) := by
      rw [elapse_eq (Int.natCast_nonneg _) (by exact_mod_cast hfits e rfl)]
      rfl
    rw [Option.map_some, Option.bind_some, Option.bind_some, ageMapping]
    dsimp only
    rw [htimer]
    by_cases hold : e.1 + ms ≤ 30000
    · rw [if_neg (by omega), if_pos hold, Option.map_some]
    · rw [if_pos (by omega), if_neg hold, Option.map_none]

/-- A call that neither brings a message nor takes time. -/
theorem Mappings.idle (h : Mappings r) {op : InterfaceOp}
    (hmessage : r.interface.messageIn op = none) (helapsed : op.elapsed = 0)
    (htable : (r.interface.apply op).arpForwardTable = r.interface.arpForwardTable) :
    Mappings (r.step op) := by
  have hheard : (r.step op).heard = r.heard := by
    unfold step
    rw [hmessage]
  have hnow : (r.step op).now = r.now := by
    show r.now + op.elapsed = _
    rw [helapsed, Nat.add_zero]
  refine ⟨by rw [hheard, hnow]; exact h.past, fun ip => ?_⟩
  rw [hheard, hnow]
  exact (congrArg (AList.lookup ip) htable).trans (h.table ip)

/-- **One step**: a message is a new mapping, and time ages the others. -/
theorem Mappings.step (h : Mappings r) (op : InterfaceOp) (hticks : r.now + op.elapsed < 2 ^ 31) :
    Mappings (r.step op) := by
  -- only a frame with an ARP message adds to what was heard, and only a tick ages a mapping
  cases op with
  | sendDatagram dgram nextHop =>
    refine h.idle rfl rfl ?_
    obtain ⟨new, heq, -⟩ | ⟨-, -, heq⟩ := r.interface.sendDatagram_cases dgram nextHop <;> rw [heq]
  | recvFrame frame =>
    cases hmessage : r.interface.arpMessage frame with
    | none =>
      refine h.idle hmessage rfl ?_
      rw [NetworkInterface.apply, recvFrame_of_none hmessage]
    | some message =>
      have hheard : (r.step (.recvFrame frame)).heard =
          (message.senderIpAddress, message.senderEthernetAddress, r.now) :: r.heard := by
        have hmessage : r.interface.messageIn (.recvFrame frame) = some message := hmessage
        unfold TimedRun.step
        rw [hmessage]
      have hnow : (r.step (.recvFrame frame)).now = r.now := rfl
      refine ⟨?_, fun ip => ?_⟩
      · rw [hheard]
        intro event hevent
        rcases List.mem_cons.mp hevent with rfl | hevent
        · exact le_refl r.now
        · exact h.past event hevent
      · have htable : (r.step (.recvFrame frame)).interface.arpForwardTable
            = r.interface.arpForwardTable.insert message.senderIpAddress
              (0, message.senderEthernetAddress) := by
          show (r.interface.recvFrame frame).2.arpForwardTable = _
          rw [recvFrame_of_some hmessage, receiveARP_forward]
        rw [htable, hheard, hnow, History.fresh_cons]
        -- the message replaces the mapping of its sender with a fresh one
        by_cases hip : message.senderIpAddress = ip
        · rw [if_pos hip, ← hip, AList.lookup_insert]
          rfl
        · rw [if_neg hip, AList.lookup_insert_ne (Ne.symm hip)]
          exact h.table ip
  | tick ms =>
    have hticked := (r.interface.tick_ticked ms).2
    refine ⟨fun event hevent => (h.past event hevent).trans (Nat.le_add_right _ _), fun ip => ?_⟩
    have htable : (r.step (.tick ms)).interface.arpForwardTable.lookup ip
        = (r.interface.arpForwardTable.lookup ip).bind (ageMapping ms) := hticked.mapping ip
    have hnow : (r.step (.tick ms)).now = r.now + ms := rfl
    have hheard : (r.step (.tick ms)).heard = r.heard := rfl
    -- the limit of thirty seconds is the same for the timer and for the age
    rw [htable, hnow, hheard, h.table, History.fresh_elapse h.past]
    refine bind_ageMapping fun entry hentry => ?_
    obtain ⟨t, -, hage, -⟩ := (History.fresh_eq_some h.past).mp hentry
    have hticks : r.now + ms < 2 ^ 31 := hticks
    omega
  | popFrame => exact h.idle rfl rfl rfl

/-- **The mapping in use is the one heard last, for thirty seconds.**  A datagram is sent to an
    Ethernet address if and only if the last message from the hop had it and is at most that old.
    Messages from one address do not touch the mapping of another, and each ages by itself. -/
theorem mapping_fresh (ethernetAddress : EthernetAddress) (ipAddress : UInt32)
    (ops : List InterfaceOp)
    (hticks : (ops.foldl step (start ethernetAddress ipAddress)).now < 2 ^ 31)
    {dgram : IPv4Datagram} (hwf : dgram.WellFormed) (nextHop : UInt32) (mac : EthernetAddress) :
    let r := ops.foldl step (start ethernetAddress ipAddress)
    ((∃ frame ∈ r.interface.ipv4Out (.sendDatagram dgram nextHop), frame.header.dst = mac) ↔
      ∃ t, History.latest r.heard nextHop = some (mac, t) ∧ r.now - t ≤ 30000) ∧
    (∀ frame message, r.interface.arpMessage frame = some message →
      ∀ ip ≠ message.senderIpAddress,
        (r.interface.apply (.recvFrame frame)).arpForwardTable.lookup ip
          = r.interface.arpForwardTable.lookup ip) ∧
    (∀ ms ip, (r.interface.apply (.tick ms)).arpForwardTable.lookup ip
      = (r.interface.arpForwardTable.lookup ip).bind (ageMapping ms)) := by
  intro r
  have hmappings : Mappings r :=
    run_of_step (fun r op h hticks => Mappings.step h op hticks)
      (start_mappings ethernetAddress ipAddress) hticks
  refine ⟨?_, fun frame message hmessage ip hip => ?_,
    fun ms => (r.interface.tick_ticked ms).2.mapping⟩
  · have htable := hmappings.table nextHop
    cases hmapping : r.interface.arpForwardTable.lookup nextHop with
    | none =>
      rw [ipv4Out_sendDatagram_unknown hmapping]
      refine iff_of_false (by simp) ?_
      -- a reply that is not too old would be in the table
      rintro ⟨t, hlatest, hage⟩
      have hle := History.time_le_of_latest hmappings.past hlatest
      rw [(History.fresh_eq_some hmappings.past).mpr ⟨t, hlatest, Nat.add_sub_of_le hle, hage⟩,
        hmapping] at htable
      exact absurd htable (by simp)
    | some mapping =>
      obtain ⟨payload, -, -, hout⟩ := ipv4Out_sendDatagram_known hwf hmapping
      obtain ⟨⟨age, heard⟩, hfresh, hentry⟩ :=
        Option.map_eq_some_iff.mp (htable.symm.trans hmapping)
      obtain ⟨t, hlatest, hage, hlimit⟩ := (History.fresh_eq_some hmappings.past).mp hfresh
      obtain rfl : (_, heard) = mapping := hentry
      rw [hout, hlatest]
      constructor
      · -- the one frame that goes out has the address of the last reply
        rintro ⟨frame, hframe, rfl⟩
        rw [List.mem_singleton.mp hframe]
        exact ⟨t, rfl, by omega⟩
      · rintro ⟨_, heq, -⟩
        exact ⟨_, List.mem_singleton_self _, congrArg Prod.fst (Option.some.inj heq)⟩
  · rw [NetworkInterface.apply, recvFrame_of_some hmessage, receiveARP_forward,
      AList.lookup_insert_ne hip]

/-- After thirty seconds the mapping of a reply is still in use. -/
theorem mapping_fresh_thirty_seconds :
    let reply : EthernetFrame :=
      { header := { dst := #v[2, 0, 0, 0, 0, 1], src := #v[2, 0, 0, 0, 0, 2], type := 0x806 }
        payload := .ofString [0, 1, 8, 0, 6, 4, 0, 2, 2, 0, 0, 0, 0, 2, 0, 0, 0, 20,
          2, 0, 0, 0, 0, 1, 0, 0, 0, 10] }
    let r := List.foldl step (start #v[2, 0, 0, 0, 0, 1] 10) [.recvFrame reply, .tick 30000]
    ∃ frame ∈ r.interface.ipv4Out (.sendDatagram ⟨{ len := 21 }, .ofString [97]⟩ 20),
      frame.header.dst = #v[2, 0, 0, 0, 0, 2] := by
  intro reply r
  refine (@mapping_fresh #v[2, 0, 0, 0, 0, 1] 10 [.recvFrame reply, .tick 30000]
    (by decide +kernel) ⟨{ len := 21 }, .ofString [97]⟩ (by decide) 20
    #v[2, 0, 0, 0, 0, 2]).1.mpr ⟨0, ?_⟩
  decide +kernel

/-! ### Requests -/

/-- The address was asked for, and is not asked for again too soon: a pending request has been
    waiting at most as long, and if there is none, a mapping has been there at most as long, or five
    seconds have passed. -/
structure Rested (n : NetworkInterface) (now : Nat) (event : UInt32 × Nat) : Prop where
  past : event.2 ≤ now
  request : ∀ cached ∈ n.arpRequestCache.lookup event.1, event.2 + cached.1 ≤ now
  mapping : n.arpRequestCache.lookup event.1 = none →
    ∀ mapping ∈ n.arpForwardTable.lookup event.1, event.2 + mapping.1 ≤ now
  unknown : n.arpRequestCache.lookup event.1 = none → n.arpForwardTable.lookup event.1 = none →
    event.2 + 5000 ≤ now

/-- The timers of the pending requests fit, and the requests so far are far enough apart, also from
    any to come. -/
structure Requests (r : TimedRun) : Prop where
  timer : ∀ ip, ∀ cached ∈ r.interface.arpRequestCache.lookup ip, 0 ≤ cached.1 ∧ cached.1 ≤ r.now
  rested : ∀ event ∈ r.asked, Rested r.interface r.now event
  spaced : History.Spaced 5000 r.asked

/-- A call that asks for the addresses `ips`. -/
theorem Requests.call (h : Requests r) {op : InterfaceOp} {now : Nat}
    (hnow : r.now + op.elapsed = now) {ips : List UInt32} (hips : r.interface.requests op = ips)
    (hnodup : ips.Nodup)
    (htimer : ∀ ip, ∀ cached ∈ (r.interface.apply op).arpRequestCache.lookup ip,
      0 ≤ cached.1 ∧ cached.1 ≤ now)
    (hrested : ∀ event, Rested r.interface r.now event → Rested (r.interface.apply op) now event)
    (hnew : ∀ ip ∈ ips, Rested (r.interface.apply op) now (ip, now))
    (hold : ∀ event, Rested r.interface r.now event → event.1 ∈ ips → event.2 + 5000 ≤ now) :
    Requests (r.step op) := by
  subst hnow hips
  refine ⟨htimer, fun event hevent => ?_,
    h.spaced.append hnodup fun event hevent => hold event (h.rested event hevent)⟩
  rcases List.mem_append.mp hevent with hevent | hevent
  · exact hrested event (h.rested event hevent)
  · obtain ⟨ip, hip, rfl⟩ := List.mem_map.mp hevent
    exact hnew ip hip

/-- A call that takes no time and asks for nothing. -/
theorem Requests.quiet (h : Requests r) {op : InterfaceOp} (helapsed : op.elapsed = 0)
    (hquiet : r.interface.requests op = [])
    (htimer : ∀ ip, ∀ cached ∈ (r.interface.apply op).arpRequestCache.lookup ip,
      0 ≤ cached.1 ∧ cached.1 ≤ r.now)
    (hrested : ∀ event, Rested r.interface r.now event →
      Rested (r.interface.apply op) r.now event) : Requests (r.step op) :=
  h.call (by rw [helapsed, Nat.add_zero]) hquiet List.nodup_nil htimer hrested (by simp) (by simp)

/-- A call that leaves the tables alone. -/
theorem Requests.frames (h : Requests r) {op : InterfaceOp} (helapsed : op.elapsed = 0)
    (hquiet : r.interface.requests op = []) {frames : List EthernetFrame}
    (happly : r.interface.apply op = { r.interface with framesOut := frames }) :
    Requests (r.step op) := by
  refine h.quiet helapsed hquiet ?_ (fun event hevent => ?_)
  · rw [happly]
    exact h.timer
  · rw [happly]
    exact ⟨hevent.past, hevent.request, hevent.mapping, hevent.unknown⟩

/-- A pending request whose timer has just been started. -/
theorem Rested.of_zero {n : NetworkInterface} {now : Nat} {event : UInt32 × Nat}
    (hpast : event.2 ≤ now) {dgram : IPv4Datagram}
    (hcached : n.arpRequestCache.lookup event.1 = some (0, dgram)) : Rested n now event := by
  refine ⟨hpast, ?_, fun hnone => absurd hnone (by simp [hcached]),
    fun hnone => absurd hnone (by simp [hcached])⟩
  rw [hcached]
  rintro _ ⟨⟩
  simpa using hpast

/-- The entries of an address have not been touched. -/
theorem Rested.congr {n m : NetworkInterface} {now : Nat} {event : UInt32 × Nat}
    (h : Rested n now event)
    (hcache : m.arpRequestCache.lookup event.1 = n.arpRequestCache.lookup event.1)
    (hforward : m.arpForwardTable.lookup event.1 = n.arpForwardTable.lookup event.1) :
    Rested m now event := by
  refine ⟨h.past, ?_, ?_, ?_⟩
  · rw [hcache]
    exact h.request
  · rw [hcache, hforward]
    exact h.mapping
  · rw [hcache, hforward]
    exact h.unknown

/-- A datagram: its hop is asked for only if it is not known and has rested. -/
theorem Requests.sendDatagram (h : Requests r) (dgram : IPv4Datagram) (nextHop : UInt32) :
    Requests (r.step (.sendDatagram dgram nextHop)) := by
  -- without a request the cache stays as it is; a request starts the timer of its address again
  obtain ⟨new, happly, hnew⟩ | ⟨hunknown, hold, happly⟩ :=
    r.interface.sendDatagram_cases dgram nextHop
  · refine h.frames rfl ?_ happly
    rw [requests_of_frames new (by rw [happly]), hnew]
  · have hlookup : (r.interface.apply (.sendDatagram dgram nextHop)).arpRequestCache.lookup nextHop
        = some (0, dgram) := by
      rw [happly]
      exact AList.lookup_insert _
    have hother : ∀ ip ≠ nextHop,
        (r.interface.apply (.sendDatagram dgram nextHop)).arpRequestCache.lookup ip
          = r.interface.arpRequestCache.lookup ip := by
      intro ip hip
      rw [happly]
      exact AList.lookup_insert_ne hip
    have hrequests : r.interface.requests (.sendDatagram dgram nextHop) = [nextHop] := by
      rw [requests_of_frames [r.interface.requestFrame nextHop] (by rw [happly]),
        List.filterMap_cons_some (requested_requestFrame _ _), List.filterMap_nil]
    refine h.call rfl hrequests (List.nodup_singleton _) ?_ ?_ ?_ ?_
    · intro ip cached hcached
      by_cases hip : ip = nextHop
      · rw [hip, hlookup] at hcached
        obtain rfl := Option.some.inj hcached
        exact ⟨le_refl _, Int.natCast_nonneg _⟩
      · rw [hother ip hip] at hcached
        exact h.timer ip cached hcached
    · intro event hevent
      by_cases hip : event.1 = nextHop
      · exact .of_zero hevent.past (by rw [hip]; exact hlookup)
      · exact hevent.congr (hother event.1 hip) (by rw [happly])
    · intro ip hip
      obtain rfl := List.mem_singleton.mp hip
      exact .of_zero (le_refl _) hlookup
    · -- the last request for this address is five seconds old by its timer, or by its mapping
      intro event hevent hip
      rw [← List.mem_singleton.mp hip] at hunknown hold
      cases hcached : r.interface.arpRequestCache.lookup event.1 with
      | none => exact hevent.unknown hcached hunknown
      | some cached =>
        have hwaited := hevent.request cached hcached
        have hfive := hold cached hcached
        show event.2 + 5000 ≤ r.now
        omega

/-- A message restarts no timer: what is pending after it was, or `operator[]` has made it. -/
theorem receiveARP_timer (n : NetworkInterface) (message : ARPMessage) {ip : UInt32}
    {cached : Int × IPv4Datagram}
    (hcached : (n.receiveARP message).2.arpRequestCache.lookup ip = some cached) :
    cached.1 = 0 ∨ ∃ old ∈ n.arpRequestCache.lookup ip, old.1 = cached.1 := by
  by_cases hip : message.senderIpAddress = ip
  · subst hip
    rw [receiveARP_cache_sender] at hcached
    -- only a reply looks up the cache, and this makes an entry where none was
    by_cases hreply : n.Replies message
    · by_cases hpending : n.pending message.senderIpAddress = []
      · rw [if_pos hreply, if_pos hpending, NetworkInterface.cached] at hcached
        obtain rfl := Option.some.inj hcached
        cases n.arpRequestCache.lookup message.senderIpAddress with
        | none => exact .inl rfl
        | some old => exact .inr ⟨old, rfl, rfl⟩
      · rw [if_pos hreply, if_neg hpending] at hcached
        exact absurd hcached (by simp)
    · rw [if_neg hreply] at hcached
      exact .inr ⟨cached, hcached, rfl⟩
  · rw [receiveARP_cache_other _ _ hip] at hcached
    exact .inr ⟨cached, hcached, rfl⟩

/-- A message: a pending request is erased only when there is a new mapping. -/
theorem Rested.receiveARP {n : NetworkInterface} {now : Nat} {event : UInt32 × Nat}
    (h : Rested n now event) (message : ARPMessage) :
    Rested (n.receiveARP message).2 now event := by
  have hforward := n.receiveARP_forward message
  have hpast := h.past
  by_cases hip : message.senderIpAddress = event.1
  · -- the reply makes a fresh mapping, and nothing has to be asked for a while
    have hmapping : (n.receiveARP message).2.arpForwardTable.lookup event.1
        = some (0, message.senderEthernetAddress) := by
      rw [hforward, ← hip, AList.lookup_insert]
    refine ⟨hpast, fun cached hcached => ?_, fun _ mapping hfound => ?_,
      fun _ hnone => absurd hnone (by simp [hmapping])⟩
    · rcases receiveARP_timer n message hcached with hzero | ⟨old, hold, hsame⟩
      · omega
      · rw [← hsame]
        exact h.request old hold
    · rw [hmapping] at hfound
      obtain rfl := Option.some.inj hfound
      omega
  · exact h.congr (receiveARP_cache_other _ _ hip)
      (by rw [hforward, AList.lookup_insert_ne (Ne.symm hip)])

/-- **A frame** makes no request, and may only start the timer of one anew. -/
theorem Requests.recvFrame (h : Requests r) (frame : EthernetFrame) :
    Requests (r.step (.recvFrame frame)) := by
  cases hmessage : r.interface.arpMessage frame with
  | none =>
    have happly : r.interface.apply (.recvFrame frame) = r.interface := recvFrame_of_none hmessage
    refine h.frames rfl ?_ happly
    exact requests_of_frames [] (by rw [happly, List.append_nil])
  | some message =>
    have happly : r.interface.apply (.recvFrame frame) = (r.interface.receiveARP message).2 := by
      rw [NetworkInterface.apply, recvFrame_of_some hmessage]
    obtain ⟨new, hframes, hnew⟩ := r.interface.receiveARP_frames message
    refine h.quiet rfl ?_ ?_ ?_
    · rw [requests_of_frames new (by rw [happly, hframes]), hnew]
    · rw [happly]
      intro ip cached hcached
      rcases receiveARP_timer r.interface message hcached with hzero | ⟨old, hold, hsame⟩
      · rw [hzero]
        exact ⟨le_refl _, Int.natCast_nonneg _⟩
      · rw [← hsame]
        exact h.timer _ old hold
    · rw [happly]
      exact fun event hevent => hevent.receiveARP message

/-! ### Requests and time -/

/-- No timer overflows. -/
structure NoOverflow (n : NetworkInterface) (ms : Nat) : Prop where
  request : ∀ ip, ∀ cached ∈ n.arpRequestCache.lookup ip, elapse cached.1 ms = cached.1 + ms
  mapping : ∀ ip, ∀ mapping ∈ n.arpForwardTable.lookup ip, elapse mapping.1 ms = mapping.1 + ms

/-- While the clock fits into an `int`, so does every timer: none is older than the run. -/
theorem noOverflow (h : Requests r) (hmappings : Mappings r) {ms : Nat}
    (hticks : r.now + ms < 2 ^ 31) : NoOverflow r.interface ms := by
  constructor
  · intro ip cached hcached
    obtain ⟨hnonneg, hle⟩ := h.timer ip cached hcached
    exact elapse_eq hnonneg (by omega)
  · intro ip mapping hmapping
    obtain ⟨entry, hfresh, rfl⟩ :=
      Option.map_eq_some_iff.mp ((hmappings.table ip).symm.trans hmapping)
    obtain ⟨t, -, hsum, -⟩ := (History.fresh_eq_some hmappings.past).mp hfresh
    exact elapse_eq (Int.natCast_nonneg _) (by push_cast; omega)

section

variable {n m : NetworkInterface} {ms : Nat} (hticked : Ticked n ms m) (hfits : NoOverflow n ms)
include hticked hfits

/-- The timer of a pending request starts anew or goes on. -/
theorem timer_of_ticked {ip : UInt32} {cached : Int × IPv4Datagram}
    (hcached : m.arpRequestCache.lookup ip = some cached) :
    ∃ old ∈ n.arpRequestCache.lookup ip, cached.1 = 0 ∨ cached.1 = old.1 + ms := by
  obtain ⟨old, hold, rfl⟩ := Option.map_eq_some_iff.mp ((hticked.request ip).symm.trans hcached)
  refine ⟨old, hold, ?_⟩
  unfold ageRequest
  split
  · exact .inl rfl
  · exact .inr (hfits.request ip old hold)

/-- It starts anew when the request is due. -/
theorem timer_of_due {ip : UInt32} (hdue : n.isDue ms ip = true) :
    ∃ old ∈ n.arpRequestCache.lookup ip, 5000 < old.1 + ms ∧
      m.arpRequestCache.lookup ip = some (0, old.2) := by
  obtain ⟨old, hold, hlate⟩ := (Option.any_eq_true _ _).mp hdue
  have hlate : 5000 < elapse old.1 ms := by simpa using hlate
  refine ⟨old, hold, by rwa [hfits.request ip old hold] at hlate, ?_⟩
  rw [hticked.request, hold, Option.map_some, ageRequest, if_pos hlate]

/-- A mapping goes on, for thirty seconds. -/
theorem mapping_of_ticked {ip : UInt32} {old : Int × EthernetAddress}
    (hold : n.arpForwardTable.lookup ip = some old) :
    m.arpForwardTable.lookup ip =
      if old.1 + ms > 30000 then none else some (old.1 + ms, old.2) := by
  rw [hticked.mapping, hold, Option.bind_some, ageMapping, hfits.mapping ip old hold]

/-- **Time** moves the timers of requests and mappings on together with the clock, so the distance
    from the last request grows. -/
theorem Rested.tick {now : Nat} {event : UInt32 × Nat} (h : Rested n now event) :
    Rested m (now + ms) event := by
  have hpast := h.past
  have hnone : m.arpRequestCache.lookup event.1 = none →
      n.arpRequestCache.lookup event.1 = none := by
    rw [hticked.request]
    exact Option.map_eq_none_iff.mp
  refine ⟨by omega, fun cached hcached => ?_, fun hcache mapping hmapping => ?_,
    fun hcache hforward => ?_⟩
  · obtain ⟨old, hold, htimer⟩ := timer_of_ticked hticked hfits hcached
    -- a timer that is not started again goes on
    have hwaited := h.request old hold
    push_cast
    omega
  · obtain ⟨old, hold, -⟩ :=
      Option.bind_eq_some_iff.mp ((hticked.mapping event.1).symm.trans hmapping)
    have hwaited := h.mapping (hnone hcache) old hold
    rw [mapping_of_ticked hticked hfits hold] at hmapping
    -- a mapping is dropped thirty seconds after the reply, which came after the request
    by_cases hexpired : old.1 + ms > 30000
    · rw [if_pos hexpired] at hmapping
      exact absurd hmapping (by simp)
    · rw [if_neg hexpired] at hmapping
      obtain rfl := Option.some.inj hmapping
      push_cast
      omega
  · cases hold : n.arpForwardTable.lookup event.1 with
    | none =>
      have hfive := h.unknown (hnone hcache) hold
      omega
    | some old =>
      -- it has just been forgotten
      have hwaited := h.mapping (hnone hcache) old hold
      rw [mapping_of_ticked hticked hfits hold] at hforward
      by_cases hexpired : old.1 + ms > 30000
      · omega
      · rw [if_neg hexpired] at hforward
        exact absurd hforward (by simp)

end

/-- Time: a pending request is repeated only after more than five seconds, and a mapping is
    forgotten only after more than thirty. -/
theorem Requests.tick (h : Requests r) (hmappings : Mappings r) {ms : Nat}
    (hticks : r.now + ms < 2 ^ 31) : Requests (r.step (.tick ms)) := by
  have hfits := noOverflow h hmappings hticks
  have hticked := (r.interface.tick_ticked ms).2
  obtain ⟨hnodup, hdue⟩ := r.interface.requests_tick ms
  have hnow : r.now + InterfaceOp.elapsed (.tick ms) = r.now + ms := rfl
  refine h.call hnow rfl hnodup ?_ ?_ ?_ ?_
  · -- every timer is started again or goes on with the clock
    intro ip cached hcached
    obtain ⟨old, hold, htimer⟩ := timer_of_ticked hticked hfits hcached
    have hle := h.timer ip old hold
    push_cast
    omega
  · exact fun event hevent => hevent.tick hticked hfits
  · intro ip hip
    obtain ⟨old, -, -, hlookup⟩ := timer_of_due hticked hfits ((hdue ip).mp hip)
    exact .of_zero (le_refl _) hlookup
  · -- the tick sends a request only when the last one is more than five seconds old
    intro event hevent hip
    obtain ⟨old, hold, hlate, -⟩ := timer_of_due hticked hfits ((hdue event.1).mp hip)
    have hwaited := hevent.request old hold
    omega

/-- **Step lemma** for all calls. -/
theorem Requests.step (h : Requests r) (hmappings : Mappings r) (op : InterfaceOp)
    (hticks : r.now + op.elapsed < 2 ^ 31) : Requests (r.step op) := by
  cases op with
  | sendDatagram dgram nextHop => exact h.sendDatagram dgram nextHop
  | recvFrame frame => exact h.recvFrame frame
  | tick ms => exact h.tick hmappings hticks
  | popFrame =>
    refine h.frames rfl ?_ rfl
    unfold requests
    rw [List.drop_eq_nil_of_le (by simp [NetworkInterface.apply])]
    rfl

/-- **Requests for one address are at least five seconds apart**, whatever happens in between. -/
theorem requests_spaced (ethernetAddress : EthernetAddress) (ipAddress : UInt32)
    (ops : List InterfaceOp)
    (hticks : (ops.foldl step (start ethernetAddress ipAddress)).now < 2 ^ 31) :
    (ops.foldl step (start ethernetAddress ipAddress)).asked.Pairwise
      fun earlier later => earlier.1 = later.1 → earlier.2 + 5000 ≤ later.2 := by
  have hinit : Mappings (start ethernetAddress ipAddress) ∧
      Requests (start ethernetAddress ipAddress) :=
    ⟨start_mappings ethernetAddress ipAddress,
      ⟨fun ip cached hcached => absurd hcached (by simp [start]), by simp [start],
        List.Pairwise.nil⟩⟩
  exact (run_of_step (I := fun r => Mappings r ∧ Requests r)
    (fun r op h hticks => ⟨h.1.step op hticks, h.2.step h.1 op hticks⟩) hinit hticks).2.spaced

/-- A hop is asked for, and again after five seconds. -/
theorem requests_spaced_five_seconds :
    let r := List.foldl step (start #v[2, 0, 0, 0, 0, 1] 10)
      [.sendDatagram {} 20, .tick 5000, .sendDatagram {} 20]
    r.asked = [(20, 0), (20, 5000)] ∧
      r.asked.Pairwise fun earlier later => earlier.1 = later.1 → earlier.2 + 5000 ≤ later.2 :=
  ⟨by decide +kernel, requests_spaced _ _ _ (by decide +kernel)⟩

end TimedRun

end NetworkInterface

end Sponge
