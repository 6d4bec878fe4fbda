import Sponge.TCPCodec

namespace Sponge

/-!
# TCP segments in IPv4 datagrams

`TCPOverIPv4Adapter` puts segments into datagrams and takes them out again.  It knows its own
address and the one of its peer; a listening adapter learns both from the first segment with SYN.

* `wrapTcpInIp_eq`: what a segment is wrapped in, and that the datagram can be serialized.
* `unwrapTcpInIp_listen`, `unwrapTcpInIp_lockedOn`: which segments are let through, by an adapter
  that listens and by one that has its peer.
* `unwrap_parsed_wrap`: **the round trip** through the bytes of the datagram.
-/

/-- An IPv4 address and a port. -/
structure Address where
  ipv4Numeric : UInt32 := 0
  port : UInt16 := 0
  deriving DecidableEq, Repr

/-- The configuration of an adapter. -/
structure FdAdapterConfig where
  source : Address := {}
  destination : Address := {}
  deriving DecidableEq, Repr

/-- The configuration of the peer. -/
def FdAdapterConfig.mirror (cfg : FdAdapterConfig) : FdAdapterConfig where
  source := cfg.destination
  destination := cfg.source

/-- A converter from TCP segments to IPv4 datagrams. -/
structure TCPOverIPv4Adapter where
  cfg : FdAdapterConfig := {}
  listen : Bool := false
  deriving DecidableEq, Repr

namespace TCPOverIPv4Adapter

/-- The protocol number of TCP. -/
def protoTcp : UInt8 := 6

/-- Take a segment out of a datagram.  Nothing is returned if the datagram is not for us, not from
    our peer, or not accepted by the parser of segments. -/
def unwrapTcpInIp (a : TCPOverIPv4Adapter) (ipDgram : IPv4Datagram) :
    Except Exception (Option TCPSegment) × TCPOverIPv4Adapter :=
  if ¬ a.listen ∧ ipDgram.header.dst ≠ a.cfg.source.ipv4Numeric then (.ok none, a)
  else if ¬ a.listen ∧ ipDgram.header.src ≠ a.cfg.destination.ipv4Numeric then (.ok none, a)
  else if ipDgram.header.proto ≠ protoTcp then (.ok none, a)
  else
    match ipDgram.payload.toBuffer with
    | .error e => (.error e, a)
    | .ok buffer =>
      let (result, tcpSeg) := TCPSegment.parse {} buffer ipDgram.header.pseudoCksum
      if result ≠ .noError then (.ok none, a)
      else if tcpSeg.header.dport ≠ a.cfg.source.port then (.ok none, a)
      -- a listening adapter wants a SYN, and replies to where it came from
      else if a.listen ∧ ¬ (tcpSeg.header.syn ∧ ¬ tcpSeg.header.rst) then (.ok none, a)
      else
        let a : TCPOverIPv4Adapter :=
          if a.listen then
            { cfg :=
                { source := ⟨ipDgram.header.dst, a.cfg.source.port⟩
                  destination := ⟨ipDgram.header.src, tcpSeg.header.sport⟩ }
              listen := false }
          else a
        if tcpSeg.header.sport ≠ a.cfg.destination.port then (.ok none, a)
        else (.ok (some tcpSeg), a)

/-- Set the port numbers of a segment. -/
def setPorts (a : TCPOverIPv4Adapter) (seg : TCPSegment) : TCPSegment :=
  { seg with
    header :=
      { seg.header with sport := a.cfg.source.port, dport := a.cfg.destination.port } }

/-- Put a segment into a datagram.  The port numbers are set in the segment that is given. -/
def wrapTcpInIp (a : TCPOverIPv4Adapter) (seg : TCPSegment) :
    Except Exception IPv4Datagram × TCPSegment :=
  let seg := a.setPorts seg
  let header : IPv4Header := {}
  let header :=
    { header with
      src := a.cfg.source.ipv4Numeric
      dst := a.cfg.destination.ipv4Numeric
      len := .ofNat (header.hlen.toNat * 4 + seg.header.doff.toNat * 4 + seg.payload.length) }
  match seg.serialize header.pseudoCksum with
  | .error e => (.error e, seg)
  | .ok payload => (.ok { header := header, payload := payload }, seg)

end TCPOverIPv4Adapter

/-- The sum of the pseudo-header is far from overflowing: six words of 16 bits. -/
theorem IPv4Header.pseudoCksum_le (h : IPv4Header) : h.pseudoCksum.toNat ≤ 2 ^ 20 := by
  have hhigh : ∀ v : UInt32, (v >>> 16).toNat < 2 ^ 16 := by
    intro v
    have hlt := v.toNat_lt
    rw [UInt32.toNat_shiftRight]
    show v.toNat >>> 16 < 2 ^ 16
    rw [Nat.shiftRight_eq_div_pow]
    omega
  have hlow : ∀ v : UInt32, (v &&& 0xffff).toNat < 2 ^ 16 := by
    intro v
    rw [UInt32.toNat_and]
    exact Nat.and_lt_two_pow _ (by decide)
  -- five summands of at most 17 bits
  have h1 := hhigh h.src
  have h2 := hlow h.src
  have h3 := hhigh h.dst
  have h4 := hlow h.dst
  have h5 := h.proto.toNat_lt
  have h6 := h.payloadLength.toNat_lt
  unfold pseudoCksum
  dsimp only
  simp only [UInt32.toNat_add, UInt8.toNat_toUInt32, UInt16.toNat_toUInt32]
  omega

/-! ### The segment in a datagram -/

/-- The addresses and ports between which a segment travels. -/
structure FourTuple where
  src : UInt32
  dst : UInt32
  sport : UInt16
  dport : UInt16
  deriving DecidableEq, Repr

namespace IPv4Datagram

/-- The payload is in one piece. -/
def Contiguous (d : IPv4Datagram) : Prop := d.payload.buffers.length ≤ 1

instance (d : IPv4Datagram) : Decidable d.Contiguous := inferInstanceAs (Decidable (_ ≤ _))

/-- Such a payload converts to a single buffer. -/
theorem Contiguous.toBuffer {d : IPv4Datagram} (h : d.Contiguous) :
    ∃ buffer, d.payload.toBuffer = .ok buffer := by
  unfold Contiguous at h
  unfold BufferList.toBuffer
  cases hbuffers : d.payload.buffers with
  | nil => exact ⟨_, rfl⟩
  | cons b rest =>
    obtain rfl : rest = [] := by simpa [hbuffers] using h
    exact ⟨_, rfl⟩

/-- The TCP segment that the parser takes out of a datagram, if any.  Not each of them is valid:
    `TCPSegment.Slips`. -/
def segmentIn (d : IPv4Datagram) : Option TCPSegment :=
  if d.header.proto = TCPOverIPv4Adapter.protoTcp then
    match d.payload.toBuffer with
    | .error _ => none
    | .ok buffer =>
      match TCPSegment.parse {} buffer d.header.pseudoCksum with
      | (.noError, seg) => some seg
      | _ => none
  else none

/-- What is in a datagram, by the result of the parser. -/
theorem segmentIn_eq (d : IPv4Datagram) {buffer : Buffer} {result : ParseResult} {seg : TCPSegment}
    (hproto : d.header.proto = TCPOverIPv4Adapter.protoTcp)
    (hbuffer : d.payload.toBuffer = .ok buffer)
    (hparse : TCPSegment.parse {} buffer d.header.pseudoCksum = (result, seg)) :
    d.segmentIn = if result = .noError then some seg else none := by
  unfold segmentIn
  rw [if_pos hproto, hbuffer]
  dsimp only
  rw [hparse]
  cases result <;> rfl

/-- Where a segment in the datagram comes from and goes to. -/
def fourTuple (d : IPv4Datagram) (seg : TCPSegment) : FourTuple :=
  ⟨d.header.src, d.header.dst, seg.header.sport, seg.header.dport⟩

end IPv4Datagram

namespace TCPOverIPv4Adapter

/-- The segment is for the adapter's port, with SYN and without RST. -/
def opens (a : TCPOverIPv4Adapter) (seg : TCPSegment) : Bool :=
  seg.header.dport == a.cfg.source.port && seg.header.syn && !seg.header.rst

/-- The segment by which the adapter finds its peer, if the parser takes one out of a datagram. -/
def opening (a : TCPOverIPv4Adapter) (d : IPv4Datagram) : Option TCPSegment :=
  d.segmentIn.filter a.opens

/-- The adapter that hears one peer. -/
def lockedOn (peer : FourTuple) : TCPOverIPv4Adapter where
  cfg :=
    { source := ⟨peer.dst, peer.dport⟩
      destination := ⟨peer.src, peer.sport⟩ }
  listen := false

/-! ### What is let through -/

section

variable {a : TCPOverIPv4Adapter} {d : IPv4Datagram}

/-- The checks of the datagram, and of the segment in it. -/
theorem unwrapTcpInIp_eq (hd : d.Contiguous) :
    a.unwrapTcpInIp d =
      if ¬ a.listen ∧ d.header.dst ≠ a.cfg.source.ipv4Numeric then (.ok none, a)
      else if ¬ a.listen ∧ d.header.src ≠ a.cfg.destination.ipv4Numeric then (.ok none, a)
      else
        match d.segmentIn with
        | none => (.ok none, a)
        | some seg =>
          if seg.header.dport ≠ a.cfg.source.port then (.ok none, a)
          else if a.listen ∧ ¬ (seg.header.syn ∧ ¬ seg.header.rst) then (.ok none, a)
          else
            let a := if a.listen then
                lockedOn ⟨d.header.src, d.header.dst, seg.header.sport, a.cfg.source.port⟩ else a
            if seg.header.sport ≠ a.cfg.destination.port then (.ok none, a)
            else (.ok (some seg), a) := by
  obtain ⟨buffer, hbuffer⟩ := hd.toBuffer
  unfold unwrapTcpInIp
  by_cases hproto : d.header.proto = protoTcp
  swap
  · rw [if_pos hproto, show d.segmentIn = none from if_neg hproto]
  rw [if_neg (not_not.mpr hproto), hbuffer]
  cases hparse : TCPSegment.parse {} buffer d.header.pseudoCksum with
  | mk result seg =>
    rw [d.segmentIn_eq hproto hbuffer hparse]
    dsimp only
    rw [hparse]
    cases result <;> rfl

/-- A listening adapter looks for a segment that opens a connection, and makes its sender the
    peer. -/
theorem unwrapTcpInIp_listen (hd : d.Contiguous) (hlisten : a.listen = true) :
    a.unwrapTcpInIp d =
      match a.opening d with
      | none => (.ok none, a)
      | some seg => (.ok (some seg), lockedOn (d.fourTuple seg)) := by
  rw [unwrapTcpInIp_eq hd, opening]
  cases d.segmentIn with
  | none => simp [hlisten]
  | some seg =>
    by_cases hdport : seg.header.dport = a.cfg.source.port
    swap
    · simp [opens, hlisten, hdport, Option.filter_some]
    cases hsyn : seg.header.syn <;> cases hrst : seg.header.rst <;>
      simp [opens, hlisten, hdport, hsyn, hrst, Option.filter_some, lockedOn,
        IPv4Datagram.fourTuple]

/-- An adapter that has its peer hears the segments that travel between the same addresses and
    ports, and stays as it is. -/
theorem unwrapTcpInIp_lockedOn (hd : d.Contiguous) (peer : FourTuple) :
    (lockedOn peer).unwrapTcpInIp d =
      (.ok (d.segmentIn.filter fun seg => d.fourTuple seg = peer), lockedOn peer) := by
  obtain ⟨src, dst, sport, dport⟩ := peer
  rw [unwrapTcpInIp_eq hd]
  cases d.segmentIn with
  | none => simp [lockedOn]
  | some seg =>
    -- each of the four comparisons is a check of its own
    by_cases hdst : d.header.dst = dst <;> by_cases hsrc : d.header.src = src <;>
      by_cases hdport : seg.header.dport = dport <;> by_cases hsport : seg.header.sport = sport <;>
      simp [lockedOn, hdst, hsrc, hdport, hsport, Option.filter_some, IPv4Datagram.fourTuple]

end

/-! ### The round trip -/

/-- The header of the datagram that carries a segment. -/
def wrapHeader (a : TCPOverIPv4Adapter) (seg : TCPSegment) : IPv4Header where
  src := a.cfg.source.ipv4Numeric
  dst := a.cfg.destination.ipv4Numeric
  len := .ofNat (5 * 4 + seg.header.doff.toNat * 4 + seg.payload.length)

/-- The datagram that carries a segment. -/
def wrapped (a : TCPOverIPv4Adapter) (seg : TCPSegment) : IPv4Datagram where
  header := a.wrapHeader seg
  payload := ⟨[Buffer.ofString ((a.setPorts seg).headerBytes (a.wrapHeader seg).pseudoCksum),
    Buffer.ofString seg.payload]⟩

/-- The segment as it comes out of the datagram. -/
def received (a : TCPOverIPv4Adapter) (seg : TCPSegment) : TCPSegment where
  header := (a.setPorts seg).header.setCksum
    ((a.setPorts seg).checksum (a.wrapHeader seg).pseudoCksum)
  payload := seg.payload

theorem concatenate_wrapped (a : TCPOverIPv4Adapter) (seg : TCPSegment) :
    (a.wrapped seg).payload.concatenate
      = (a.setPorts seg).headerBytes (a.wrapHeader seg).pseudoCksum ++ seg.payload := by
  simp [BufferList.concatenate_eq, wrapped]

section

variable (a : TCPOverIPv4Adapter) {seg : TCPSegment} (hdoff : 5 ≤ seg.header.doff)
include hdoff

/-- A segment with a proper data offset can always be wrapped. -/
theorem wrapTcpInIp_eq : (a.wrapTcpInIp seg).1 = .ok (a.wrapped seg) := by
  have hserialize := @TCPSegment.serialize_eq (a.setPorts seg) hdoff
    (a.wrapHeader seg).pseudoCksum
  unfold wrapTcpInIp
  dsimp only
  split
  · rename_i e hthrown
    exact absurd (hthrown.symm.trans hserialize) (by simp)
  · rename_i payload hok
    obtain rfl : payload = _ := Except.ok.inj (hok.symm.trans hserialize)
    rfl

variable (hle : seg.header.doff.toNat ≤ 15)
  (hpayload : seg.payload.length ≤ 65535 - 20 - 4 * seg.header.doff.toNat)
include hle hpayload

/-- The length field of the datagram says its true length, as long as that has 16 bits. -/
theorem wrapped_fits : (a.wrapped seg).Fits where
  ver := rfl
  hlen := show (5 : UInt8) ≤ 5 by decide
  hlen_le := show (5 : UInt8).toNat ≤ 15 by decide
  offset := show (0 : UInt16).toNat < 2 ^ 13 by decide
  len := by
    have hheader : ((a.setPorts seg).headerBytes (a.wrapHeader seg).pseudoCksum).length
        = 4 * seg.header.doff.toNat :=
      @TCPSegment.length_headerBytes (a.setPorts seg) hdoff (a.wrapHeader seg).pseudoCksum
    rw [BufferList.size_eq_length, concatenate_wrapped, List.length_append, hheader]
    show (UInt16.ofNat (5 * 4 + seg.header.doff.toNat * 4 + seg.payload.length)).toNat = 4 * 5 + _
    rw [UInt16.toNat_ofNat', Nat.mod_eq_of_lt (by omega)]
    omega

/-- The segment is found in the payload. -/
theorem parse_wrapped {rest : Buffer} (hrest : rest.str = (a.wrapped seg).payload.concatenate) :
    TCPSegment.parse {} rest (a.wrapHeader seg).pseudoCksum = (.noError, a.received seg) := by
  rw [concatenate_wrapped] at hrest
  exact @TCPSegment.parse_serialized (a.setPorts seg) _ hle hdoff
    (show 4 * seg.header.doff.toNat + seg.payload.length ≤ 65535 by omega)
    (a.wrapHeader seg).pseudoCksum_le {} _ hrest

/-- A datagram with the addresses and the payload of a wrapped segment, whatever its checksum. -/
theorem unwrapTcpInIp_wrapped {ipDgram : IPv4Datagram} {rest : Buffer} {cksum : UInt16}
    (hheader : ipDgram.header = (a.wrapHeader seg).setCksum cksum)
    (hrest : ipDgram.payload = .ofBuffer rest)
    (hstr : rest.str = (a.wrapped seg).payload.concatenate) (b : TCPOverIPv4Adapter) :
    (b.cfg = a.cfg.mirror → b.listen = false →
      b.unwrapTcpInIp ipDgram = (.ok (some (a.received seg)), b)) ∧
    (b.cfg.source.port = a.cfg.destination.port → b.listen = true →
      seg.header.syn = true → seg.header.rst = false →
      b.unwrapTcpInIp ipDgram =
        (.ok (some (a.received seg)), { cfg := a.cfg.mirror, listen := false })) := by
  have hproto : ipDgram.header.proto = protoTcp := by
    rw [hheader]
    rfl
  have hsrc : ipDgram.header.src = a.cfg.source.ipv4Numeric := by
    rw [hheader]
    rfl
  have hdst : ipDgram.header.dst = a.cfg.destination.ipv4Numeric := by
    rw [hheader]
    rfl
  have hparse : TCPSegment.parse {} rest ipDgram.header.pseudoCksum
      = (.noError, a.received seg) := by
    rw [hheader]
    exact parse_wrapped a hdoff hle hpayload hstr
  have hcontiguous : ipDgram.Contiguous := by
    rw [IPv4Datagram.Contiguous, hrest]
    exact le_refl 1
  have hsegment : ipDgram.segmentIn = some (a.received seg) := by
    rw [ipDgram.segmentIn_eq hproto (by rw [hrest]; rfl) hparse, if_pos rfl]
  have htuple : ipDgram.fourTuple (a.received seg) = ⟨a.cfg.source.ipv4Numeric,
      a.cfg.destination.ipv4Numeric, a.cfg.source.port, a.cfg.destination.port⟩ := by
    rw [IPv4Datagram.fourTuple, hsrc, hdst]
    rfl
  refine ⟨fun hcfg hlisten => ?_, fun hport hlisten hsyn hrst => ?_⟩
  · -- the mirror of the sender hears what it sends
    have hlocked : b = lockedOn (ipDgram.fourTuple (a.received seg)) := by
      obtain ⟨cfg, listen⟩ := b
      obtain rfl : cfg = a.cfg.mirror := hcfg
      obtain rfl : listen = false := hlisten
      rw [htuple]
      rfl
    rw [hlocked, unwrapTcpInIp_lockedOn hcontiguous, hsegment, Option.filter_some,
      if_pos (by simp)]
  · have hopening : b.opening ipDgram = some (a.received seg) := by
      rw [opening, hsegment, Option.filter_some, if_pos ?_]
      have hdport : (a.received seg).header.dport = b.cfg.source.port := hport.symm
      have hsyn' : (a.received seg).header.syn = true := hsyn
      have hrst' : (a.received seg).header.rst = false := hrst
      simp [opens, hdport, hsyn', hrst']
    rw [unwrapTcpInIp_listen hcontiguous hlisten, hopening]
    dsimp only
    rw [htuple]
    rfl

/-- **A segment survives the way through a datagram.**  Its bytes are parsed, and an adapter that
    mirrors the sending one gets the segment back, with the ports of the sender and a checksum.  So
    does a listening one, if the segment is a SYN; from then on it mirrors the sender. -/
theorem unwrap_parsed_wrap :
    ∃ ipDgram bytes cksum, (a.wrapTcpInIp seg).1 = .ok ipDgram ∧ ipDgram.serialize = .ok bytes ∧
      (IPv4Datagram.parse {} (.ofString bytes.concatenate)).1 = .noError ∧
      (∀ b : TCPOverIPv4Adapter, b.cfg = a.cfg.mirror → b.listen = false →
        b.unwrapTcpInIp (IPv4Datagram.parse {} (.ofString bytes.concatenate)).2 =
          (.ok (some
            { header := { seg.header with
                sport := a.cfg.source.port, dport := a.cfg.destination.port, cksum := cksum }
              payload := seg.payload }), b)) ∧
      (∀ b : TCPOverIPv4Adapter, b.cfg.source.port = a.cfg.destination.port → b.listen = true →
        seg.header.syn = true → seg.header.rst = false →
        b.unwrapTcpInIp (IPv4Datagram.parse {} (.ofString bytes.concatenate)).2 =
          (.ok (some
            { header := { seg.header with
                sport := a.cfg.source.port, dport := a.cfg.destination.port, cksum := cksum }
              payload := seg.payload }), { cfg := a.cfg.mirror, listen := false })) := by
  have hfits := wrapped_fits a hdoff hle hpayload
  have hserialize := IPv4Datagram.serialize_eq hfits.wellFormed
  refine ⟨a.wrapped seg, _, (a.received seg).header.cksum, wrapTcpInIp_eq a hdoff, hserialize, ?_⟩
  have hbytes : (Buffer.ofString ((BufferList.ofString (IPv4Datagram.headerBytes
        (a.wrapped seg).header)).append (a.wrapped seg).payload).concatenate).str
      = IPv4Datagram.headerBytes (a.wrapped seg).header
        ++ (a.wrapped seg).payload.concatenate := by
    simp
  obtain ⟨hok, hheader, rest, hrest, hstr⟩ := hfits.parse_serialized {} hbytes
  have hunwrap := unwrapTcpInIp_wrapped a hdoff hle hpayload hheader hrest hstr
  exact ⟨hok, fun b => (hunwrap b).1, fun b => (hunwrap b).2⟩

end

theorem unwrap_parsed_wrap_syn :
    ∃ ipDgram bytes seg,
      (wrapTcpInIp ⟨⟨⟨1, 2⟩, ⟨3, 4⟩⟩, false⟩ ⟨{ syn := true }, [7]⟩).1 = .ok ipDgram ∧
      ipDgram.serialize = .ok bytes ∧
      unwrapTcpInIp ⟨⟨⟨0, 4⟩, ⟨0, 0⟩⟩, true⟩
          (IPv4Datagram.parse {} (.ofString bytes.concatenate)).2 =
        (.ok (some seg), ⟨⟨⟨3, 4⟩, ⟨1, 2⟩⟩, false⟩) := by
  obtain ⟨ipDgram, bytes, cksum, hwrap, hserialize, -, -, hlistening⟩ :=
    @unwrap_parsed_wrap ⟨⟨⟨1, 2⟩, ⟨3, 4⟩⟩, false⟩ ⟨{ syn := true }, [7]⟩
      (by decide) (by decide) (by decide)
  exact ⟨ipDgram, bytes, _, hwrap, hserialize,
    hlistening ⟨⟨⟨0, 4⟩, ⟨0, 0⟩⟩, true⟩ rfl rfl rfl rfl⟩

end TCPOverIPv4Adapter

end Sponge
