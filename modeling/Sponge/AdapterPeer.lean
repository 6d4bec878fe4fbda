import Sponge.TCPOverIP

namespace Sponge

/-!
# The peer of an adapter

A listening adapter takes the first segment for its port that opens a connection, whoever sends it,
and hears nobody else from then on.  The segment should be a valid one, but the adapter relies on
`TCPSegment.parse`, and a string whose data begin inside the header slips through that
(`TCPSegment.Slips`): if it looks like a SYN for the port, the adapter locks onto its sender.

* `segmentIn_eq_valid` — what the parser takes out of a datagram, against the valid segments;
* `trace_listen`, `waiting_of_trace`, `trace_lockedOn` — any number of datagrams, before and after
  the adapter has found its peer;
* `locks_onto_peer` — **the whole history** of an adapter that begins to listen: exactly when it is
  as it should be.
-/

namespace IPv4Datagram

/-- The valid TCP segment that a datagram carries, if any. -/
def validSegment (d : IPv4Datagram) : Option TCPSegment :=
  let b := d.payload.concatenate
  if d.header.proto = TCPOverIPv4Adapter.protoTcp ∧ TCPSegment.Valid d.header.pseudoCksum b then
    some { header := .ofBytes b, payload := b.drop (TCPHeader.sizeIn b) }
  else none

/-- The payload is in one piece, and no longer than the length field of a datagram can say. -/
structure Carried (d : IPv4Datagram) : Prop where
  contiguous : d.Contiguous
  length : d.payload.concatenate.length ≤ 65535

instance (d : IPv4Datagram) : Decidable d.Carried :=
  decidable_of_iff (d.Contiguous ∧ d.payload.concatenate.length ≤ 65535)
    ⟨fun h => ⟨h.1, h.2⟩, fun h => ⟨h.contiguous, h.length⟩⟩

/-- **What the parser takes out of a datagram** is the valid segment in it, but for the strings that
    slip through. -/
theorem segmentIn_eq_valid {d : IPv4Datagram} (hd : d.Carried) :
    d.segmentIn =
      if d.header.proto = TCPOverIPv4Adapter.protoTcp ∧
          TCPSegment.Slips d.header.pseudoCksum d.payload.concatenate then
        some
          { header := .ofBytes d.payload.concatenate
            payload := d.payload.concatenate.drop TCPHeader.length }
      else d.validSegment := by
  obtain ⟨buffer, hbuffer⟩ := hd.contiguous.toBuffer
  have hlength := hd.length
  have hsum := d.header.pseudoCksum_le
  unfold validSegment
  -- another protocol, a segment that slips through, a valid one, or none at all
  by_cases hproto : d.header.proto = TCPOverIPv4Adapter.protoTcp
  swap
  · rw [segmentIn, if_neg hproto, if_neg (fun h => hproto h.1), if_neg (fun h => hproto h.1)]
  rw [BufferList.concatenate_of_toBuffer hbuffer] at hlength ⊢
  by_cases hslips : TCPSegment.Slips d.header.pseudoCksum buffer.str
  · rw [if_pos ⟨hproto, hslips⟩, d.segmentIn_eq hproto hbuffer
      (TCPSegment.parse_of_slips hlength hsum {} hslips), if_pos rfl]
  rw [if_neg (fun h => hslips h.2)]
  by_cases hvalid : TCPSegment.Valid d.header.pseudoCksum buffer.str
  · rw [if_pos ⟨hproto, hvalid⟩, d.segmentIn_eq hproto hbuffer
      (TCPSegment.parse_of_valid hlength hsum {} hvalid), if_pos rfl]
  · rw [if_neg (fun h => hvalid h.2), d.segmentIn_eq hproto hbuffer rfl, if_neg]
    intro hok
    exact ((TCPSegment.parse_noError_iff hlength hsum {}).mp hok).elim hvalid hslips

end IPv4Datagram

namespace TCPOverIPv4Adapter

/-- The valid segment that opens a connection to the adapter's port, if a datagram carries one. -/
def validOpening (a : TCPOverIPv4Adapter) (d : IPv4Datagram) : Option TCPSegment :=
  d.validSegment.filter a.opens

/-- The datagram carries a segment that is not valid, and that the adapter takes for one that opens
    a connection. -/
def SlipsOpening (a : TCPOverIPv4Adapter) (d : IPv4Datagram) : Prop :=
  d.header.proto = protoTcp ∧ TCPSegment.Slips d.header.pseudoCksum d.payload.concatenate ∧
    a.opens { header := .ofBytes d.payload.concatenate } = true

instance (a : TCPOverIPv4Adapter) (d : IPv4Datagram) : Decidable (a.SlipsOpening d) :=
  inferInstanceAs (Decidable (_ ∧ _))

section

variable {a : TCPOverIPv4Adapter} {d : IPv4Datagram}

/-- A string that slips through is not a valid segment. -/
theorem SlipsOpening.validOpening_eq (h : a.SlipsOpening d) : a.validOpening d = none := by
  rw [validOpening, IPv4Datagram.validSegment, if_neg (fun hv => h.2.1.not_valid hv.2)]
  rfl

/-- It is taken for a segment that opens a connection all the same. -/
theorem SlipsOpening.opening_ne (h : a.SlipsOpening d) (hd : d.Carried) : a.opening d ≠ none := by
  rw [opening, IPv4Datagram.segmentIn_eq_valid hd, if_pos ⟨h.1, h.2.1⟩, Option.filter_some, if_pos]
  · exact Option.some_ne_none _
  · exact h.2.2

/-- Nothing else is taken for such a segment but the valid ones. -/
theorem opening_eq_validOpening (hd : d.Carried) (h : ¬ a.SlipsOpening d) :
    a.opening d = a.validOpening d := by
  rw [opening, validOpening, IPv4Datagram.segmentIn_eq_valid hd]
  split
  · rename_i hslips
    -- neither counts: one is not valid, the other is not for the port, or not a SYN
    rw [IPv4Datagram.validSegment, if_neg (fun hv => hslips.2.not_valid hv.2), Option.filter_none,
      Option.filter_some, if_neg]
    exact fun hopens => h ⟨hslips.1, hslips.2, hopens⟩
  · rfl

end

/-- A datagram, what is returned for it, and the adapter afterwards. -/
structure Exchange where
  ipDgram : IPv4Datagram
  returned : Except Exception (Option TCPSegment)
  adapter : TCPOverIPv4Adapter
  deriving DecidableEq

/-- Datagrams are given to the adapter one after another. -/
def trace (a : TCPOverIPv4Adapter) : List IPv4Datagram → List Exchange
  | [] => []
  | d :: ds =>
    let (returned, a) := a.unwrapTcpInIp d
    ⟨d, returned, a⟩ :: trace a ds

/-- What an adapter that has its peer does with a datagram. -/
def heard (peer : FourTuple) (d : IPv4Datagram) : Exchange :=
  ⟨d, .ok (d.segmentIn.filter fun seg => d.fourTuple seg = peer), lockedOn peer⟩

section

variable {a : TCPOverIPv4Adapter} {ds : List IPv4Datagram} (hds : ∀ d ∈ ds, d.Contiguous)
include hds

/-- Once it has its peer, the adapter stays as it is. -/
theorem trace_lockedOn (peer : FourTuple) : (lockedOn peer).trace ds = ds.map (heard peer) := by
  induction ds with
  | nil => rfl
  | cons d ds ih =>
    rw [List.forall_mem_cons] at hds
    rw [trace, unwrapTcpInIp_lockedOn hds.1]
    dsimp only
    rw [ih hds.2, List.map_cons, heard]

/-- Until a connection is opened, the adapter stays as it is, too. -/
theorem trace_listen (hlisten : a.listen = true) (hnone : ∀ d ∈ ds, a.opening d = none)
    (rest : List IPv4Datagram) :
    a.trace (ds ++ rest) = (ds.map fun d => ⟨d, .ok none, a⟩) ++ a.trace rest := by
  induction ds with
  | nil => rfl
  | cons d ds ih =>
    rw [List.forall_mem_cons] at hds hnone
    rw [List.cons_append, trace, unwrapTcpInIp_listen hds.1 hlisten, hnone.1]
    dsimp only
    rw [ih hds.2 hnone.2, List.map_cons, List.cons_append]

/-- Conversely, an adapter that has returned nothing and stayed as it was has seen no segment that
    it takes for one that opens a connection. -/
theorem waiting_of_trace (hlisten : a.listen = true) {rest : List IPv4Datagram}
    {later : List Exchange}
    (htrace : a.trace (ds ++ rest) = (ds.map fun d => ⟨d, .ok none, a⟩) ++ later) :
    ∀ d ∈ ds, a.opening d = none := by
  induction ds with
  | nil => simp
  | cons d ds ih =>
    rw [List.forall_mem_cons] at hds ⊢
    rw [List.cons_append, trace, unwrapTcpInIp_listen hds.1 hlisten] at htrace
    cases hopening : a.opening d with
    | none =>
      rw [hopening] at htrace
      exact ⟨rfl, ih hds.2 (List.cons.inj htrace).2⟩
    | some seg =>
      -- it would have been returned
      rw [hopening] at htrace
      have hhead := congrArg Exchange.returned (List.cons.inj htrace).1
      cases hhead

end

/-- One peer: a listening adapter returns nothing and stays as it is until a datagram carries a
    valid segment that opens a connection.  That segment is returned; from then on the adapter never
    changes, and every segment it returns travels between the same addresses and ports. -/
structure OnePeer (a : TCPOverIPv4Adapter) (ds : List IPv4Datagram) : Prop where
  waits : (∀ d ∈ ds, a.validOpening d = none) → a.trace ds = ds.map fun d => ⟨d, .ok none, a⟩
  locks : ∀ before d rest seg, ds = before ++ d :: rest → (∀ e ∈ before, a.validOpening e = none) →
    a.validOpening d = some seg →
    a.trace ds = (before.map fun e => ⟨e, .ok none, a⟩) ++
        ⟨d, .ok (some seg), lockedOn (d.fourTuple seg)⟩ :: rest.map (heard (d.fourTuple seg)) ∧
      ∀ x ∈ a.trace ds, ∀ seg', x.returned = .ok (some seg') →
        x.ipDgram.fourTuple seg' = d.fourTuple seg

section

variable {a : TCPOverIPv4Adapter} {ds : List IPv4Datagram}

/-- An adapter that has its peer returns segments of that peer only. -/
theorem fourTuple_of_heard {peer : FourTuple} {d : IPv4Datagram} {seg : TCPSegment}
    (h : (heard peer d).returned = .ok (some seg)) : d.fourTuple seg = peer :=
  of_decide_eq_true (Option.filter_eq_some_iff.mp (Except.ok.inj h)).2

/-- What is returned in the history of an adapter that has found its peer. -/
theorem fourTuple_of_returned {before rest : List IPv4Datagram} {d : IPv4Datagram}
    {seg : TCPSegment} {x : Exchange}
    (hx : x ∈ (before.map fun e => ⟨e, .ok none, a⟩) ++
      ⟨d, .ok (some seg), lockedOn (d.fourTuple seg)⟩ :: rest.map (heard (d.fourTuple seg)))
    {seg' : TCPSegment} (hreturned : x.returned = .ok (some seg')) :
    x.ipDgram.fourTuple seg' = d.fourTuple seg := by
  rcases List.mem_append.mp hx with hx | hx
  · obtain ⟨e, -, rfl⟩ := List.mem_map.mp hx
    cases hreturned
  rcases List.mem_cons.mp hx with rfl | hx
  · cases hreturned
    rfl
  · obtain ⟨e, -, rfl⟩ := List.mem_map.mp hx
    exact fourTuple_of_heard hreturned

/-- The history of an adapter that listens, up to the first segment it takes for one that opens a
    connection, and from then on. -/
theorem trace_of_opening {before rest : List IPv4Datagram} {d : IPv4Datagram} {seg : TCPSegment}
    (hds : ∀ e ∈ before ++ d :: rest, e.Contiguous) (hlisten : a.listen = true)
    (hnone : ∀ e ∈ before, a.opening e = none) (hopening : a.opening d = some seg) :
    a.trace (before ++ d :: rest) = (before.map fun e => ⟨e, .ok none, a⟩) ++
      ⟨d, .ok (some seg), lockedOn (d.fourTuple seg)⟩ :: rest.map (heard (d.fourTuple seg)) := by
  rw [List.forall_mem_append, List.forall_mem_cons] at hds
  obtain ⟨hbefore, hd, hrest⟩ := hds
  rw [trace_listen hbefore hlisten hnone, trace, unwrapTcpInIp_listen hd hlisten, hopening]
  dsimp only
  rw [trace_lockedOn hrest]

/-- The datagrams before the first one with a valid segment that opens a connection. -/
def beforeValid (a : TCPOverIPv4Adapter) (ds : List IPv4Datagram) : List IPv4Datagram :=
  ds.takeWhile fun d => (a.validOpening d).isNone

/-- The datagrams before the first valid SYN carry none. -/
theorem validOpening_of_mem_beforeValid {d : IPv4Datagram} (hd : d ∈ a.beforeValid ds) :
    a.validOpening d = none := by
  have hnone : (a.validOpening d).isNone = true :=
    List.mem_takeWhile_imp (p := fun d => (a.validOpening d).isNone) hd
  exact Option.isNone_iff_eq_none.mp hnone

/-- Without a valid SYN, all datagrams come before it. -/
theorem beforeValid_of_none (hnone : ∀ d ∈ ds, a.validOpening d = none) :
    a.beforeValid ds = ds :=
  List.takeWhile_eq_self_iff.mpr fun d hd => Option.isNone_iff_eq_none.mpr (hnone d hd)

/-- The first valid SYN ends the part before it, whatever comes later. -/
theorem beforeValid_append {before rest : List IPv4Datagram} {d : IPv4Datagram} {seg : TCPSegment}
    (hnone : ∀ e ∈ before, a.validOpening e = none) (hvalid : a.validOpening d = some seg) :
    a.beforeValid (before ++ d :: rest) = before := by
  rw [beforeValid, List.takeWhile_append_of_pos
      (fun e he => Option.isNone_iff_eq_none.mpr (hnone e he)),
    List.takeWhile_cons_of_neg (by rw [hvalid]; simp), List.append_nil]

/-- Either there is no such datagram, or the first one comes right after those before it. -/
theorem beforeValid_split (a : TCPOverIPv4Adapter) (ds : List IPv4Datagram) :
    a.beforeValid ds = ds ∨
      ∃ d rest seg, ds = a.beforeValid ds ++ d :: rest ∧ a.validOpening d = some seg := by
  induction ds with
  | nil => exact .inl rfl
  | cons d ds ih =>
    unfold beforeValid at ih ⊢
    cases hvalid : a.validOpening d with
    | some seg =>
      refine .inr ⟨d, ds, seg, ?_, hvalid⟩
      rw [List.takeWhile_cons_of_neg (by simp [hvalid]), List.nil_append]
    | none =>
      rw [List.takeWhile_cons_of_pos (by simp [hvalid])]
      rcases ih with hall | ⟨e, rest, seg, hsplit, hsome⟩
      · exact .inl (congrArg _ hall)
      · exact .inr ⟨e, rest, seg, congrArg (d :: ·) hsplit, hsome⟩

/-- An adapter that is as it should be does not move before that datagram. -/
theorem OnePeer.waiting (h : a.OnePeer ds) :
    ∃ rest later, ds = a.beforeValid ds ++ rest ∧
      a.trace ds = ((a.beforeValid ds).map fun d => ⟨d, .ok none, a⟩) ++ later := by
  rcases a.beforeValid_split ds with hall | ⟨d, rest, seg, hsplit, hsome⟩
  · refine ⟨[], [], by rw [hall, List.append_nil], ?_⟩
    rw [List.append_nil, hall]
    exact h.waits fun d hd => validOpening_of_mem_beforeValid (hall ▸ hd)
  · exact ⟨d :: rest, _, hsplit,
      (h.locks _ d rest seg hsplit (fun e => validOpening_of_mem_beforeValid) hsome).1⟩

variable (hds : ∀ d ∈ ds, d.Carried) (hlisten : a.listen = true)
include hds hlisten

/-- **One peer, unless an invalid SYN slips in.**  The history of a listening adapter is as it
    should be exactly if no datagram before the first valid segment that opens a connection carries
    a string that slips through the parser and looks like such a segment. -/
theorem locks_onto_peer :
    a.OnePeer ds ↔ ∀ d ∈ a.beforeValid ds, ¬ a.SlipsOpening d := by
  constructor
  · -- a segment that slips through ends the waiting before the valid one comes
    intro h d hd hslips
    obtain ⟨rest, later, hsplit, htrace⟩ := h.waiting
    have hbefore : ∀ e ∈ a.beforeValid ds, e.Carried := fun e he =>
      hds e (hsplit ▸ List.mem_append_left rest he)
    rw [congrArg a.trace hsplit] at htrace
    have hnone := waiting_of_trace (fun e he => (hbefore e he).contiguous) hlisten htrace d hd
    exact hslips.opening_ne (hbefore d hd) hnone
  · intro hnot
    constructor
    · intro hnone
      rw [beforeValid_of_none hnone] at hnot
      have hwait := trace_listen (fun e he => (hds e he).contiguous) hlisten
        (fun e he => (opening_eq_validOpening (hds e he) (hnot e he)).trans (hnone e he)) []
      rwa [List.append_nil, trace, List.append_nil] at hwait
    · rintro before d rest seg rfl hnone hsome
      rw [beforeValid_append hnone hsome] at hnot
      have hwaits : ∀ e ∈ before, a.opening e = none := fun e he =>
        (opening_eq_validOpening (hds e (List.mem_append_left _ he)) (hnot e he)).trans
          (hnone e he)
      -- a valid segment does not slip through
      have hopening : a.opening d = some seg := by
        rw [← hsome]
        refine opening_eq_validOpening (hds d (by simp)) fun hslips => ?_
        rw [hslips.validOpening_eq] at hsome
        cases hsome
      have htrace := trace_of_opening (fun e he => (hds e he).contiguous) hlisten hwaits hopening
      refine ⟨htrace, fun x hx seg' => ?_⟩
      rw [htrace] at hx
      exact fourTuple_of_returned hx

end

/-- A SYN for port 80 comes after a datagram of another protocol.  Another one, from the same port
    of a different host, is not returned any more. -/
theorem locks_onto_peer_syn :
    let a : TCPOverIPv4Adapter := ⟨⟨⟨0, 80⟩, ⟨0, 0⟩⟩, true⟩
    let seg : TCPSegment := ⟨{ sport := 1, dport := 80, syn := true, cksum := 0xaf7d }, []⟩
    let udp : IPv4Datagram := ⟨{ proto := 17 }, {}⟩
    let first : IPv4Datagram := ⟨{ len := 40, src := 10, dst := 11 }, .ofString
      [0, 1, 0, 80, 0, 0, 0, 0, 0, 0, 0, 0, 0x50, 2, 0, 0, 0xaf, 0x7d, 0, 0]⟩
    let second : IPv4Datagram := ⟨{ len := 40, src := 12, dst := 11 }, .ofString
      [0, 1, 0, 80, 0, 0, 0, 0, 0, 0, 0, 0, 0x50, 2, 0, 0, 0xaf, 0x7b, 0, 0]⟩
    a.validOpening second ≠ none ∧
      a.trace [udp, first, second] =
        [⟨udp, .ok none, a⟩, ⟨first, .ok (some seg), lockedOn ⟨10, 11, 1, 80⟩⟩,
          ⟨second, .ok none, lockedOn ⟨10, 11, 1, 80⟩⟩] := by
  intro a seg udp first second
  have hone : a.OnePeer [udp, first, second] :=
    (locks_onto_peer (by decide +kernel) rfl).mpr (by decide +kernel)
  have hrun := (hone.locks [udp] first [second] seg rfl (by decide +kernel) (by decide +kernel)).1
  have hsecond : heard (first.fourTuple seg) second
      = ⟨second, .ok none, lockedOn ⟨10, 11, 1, 80⟩⟩ := by decide +kernel
  refine ⟨by decide +kernel, hrun.trans ?_⟩
  rw [List.map_singleton, List.map_singleton, hsecond]
  rfl

/-- A SYN for port 80 whose data offset is zero is not a valid segment.  It is returned, and the
    adapter hears its sender from then on: the valid SYN of another host comes too late. -/
theorem invalid_syn_locks :
    let a : TCPOverIPv4Adapter := ⟨⟨⟨0, 80⟩, ⟨0, 0⟩⟩, true⟩
    let seg : TCPSegment :=
      ⟨{ sport := 1, dport := 80, doff := 0, syn := true, cksum := 0xff7d }, []⟩
    let invalid : IPv4Datagram := ⟨{ len := 40, src := 10, dst := 11 }, .ofString
      [0, 1, 0, 80, 0, 0, 0, 0, 0, 0, 0, 0, 0, 2, 0, 0, 0xff, 0x7d, 0, 0]⟩
    let valid : IPv4Datagram := ⟨{ len := 40, src := 12, dst := 11 }, .ofString
      [0, 1, 0, 80, 0, 0, 0, 0, 0, 0, 0, 0, 0x50, 2, 0, 0, 0xaf, 0x7b, 0, 0]⟩
    a.validOpening invalid = none ∧ a.validOpening valid ≠ none ∧
      a.trace [invalid, valid] =
        [⟨invalid, .ok (some seg), lockedOn ⟨10, 11, 1, 80⟩⟩,
          ⟨valid, .ok none, lockedOn ⟨10, 11, 1, 80⟩⟩] ∧
      ¬ a.OnePeer [invalid, valid] := by
  intro a seg invalid valid
  have hinvalid : a.validOpening invalid = none := by decide +kernel
  have htrace : a.trace [invalid, valid] =
      [⟨invalid, .ok (some seg), lockedOn ⟨10, 11, 1, 80⟩⟩,
        ⟨valid, .ok none, lockedOn ⟨10, 11, 1, 80⟩⟩] := by decide +kernel
  refine ⟨hinvalid, by decide +kernel, htrace, fun hone => ?_⟩
  obtain ⟨seg', hvalid⟩ : ∃ seg', a.validOpening valid = some seg' :=
    Option.ne_none_iff_exists'.mp (by decide +kernel)
  have hshould := (hone.locks [invalid] valid [] seg' rfl (by simpa using hinvalid) hvalid).1
  rw [htrace] at hshould
  -- nothing should be returned for the first one
  have hhead := congrArg Exchange.returned (List.cons.inj hshould).1
  cases hhead

end TCPOverIPv4Adapter

end Sponge
