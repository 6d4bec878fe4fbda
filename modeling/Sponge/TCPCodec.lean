import Sponge.IPv4Codec
import Sponge.TCPSegment

namespace Sponge

open BigEndian

/-!
# The TCP codec

The parser and the serializer of TCP segments.  The header's parser fills every field whatever
happens: once there are not enough bytes left it goes on reading zeros.

`TCPHeader.ofBytes` is the header that stands in the first bytes of a string, and
`TCPSegment.Valid` says which strings are segments.  `TCPSegment::parse` looks at the error of
the parser but not at the result of the header's parser, and so accepts a data offset that points
into the header: `Slips`.  `TCPSegment.parse_iff_valid_segment` says that it accepts no other string
that is not a segment, `corruption_detected` that no change of one word of an accepted string gets
through but the one the checksum cannot see, and `segment_roundtrip` that a segment survives.
-/

namespace TCPHeader

/-- The length of a header without options. -/
def length : Nat := 20

/-- Parse the TCP fields. -/
def parse (p : NetParser) : ParseResult × TCPHeader × NetParser :=
  let (sport, p) := p.u16
  let (dport, p) := p.u16
  let (seqno, p) := p.u32
  let (ackno, p) := p.u32
  let (offset, p) := p.u8
  let (flB, p) := p.u8
  let (win, p) := p.u16
  let (cksum, p) := p.u16
  let (uptr, p) := p.u16
  let h : TCPHeader :=
    { sport := sport
      dport := dport
      seqno := ⟨seqno⟩
      ackno := ⟨ackno⟩
      doff := offset >>> 4
      urg := flB &&& 0x20 ≠ 0
      ack := flB &&& 0x10 ≠ 0
      psh := flB &&& 0x08 ≠ 0
      rst := flB &&& 0x04 ≠ 0
      syn := flB &&& 0x02 ≠ 0
      fin := flB &&& 0x01 ≠ 0
      win := win
      cksum := cksum
      uptr := uptr }
  if h.doff < 5 then (.headerTooShort, h, p)
  else
    -- skip any options or anything extra in the header
    let p := p.removePrefix (h.doff.toNat * 4 - length)
    if p.error ≠ .noError then (p.error, h, p) else (.noError, h, p)

/-- Set the checksum field. -/
def setCksum (h : TCPHeader) (cksum : UInt16) : TCPHeader := { h with cksum := cksum }

/-- Serialize the TCP fields (does not recompute the checksum). -/
def serialize (h : TCPHeader) : Except Exception (List UInt8) :=
  if h.doff < 5 then .error (.runtimeError "TCP header too short")
  else
    let ret := []
    let ret := NetUnparser.u16 ret h.sport
    let ret := NetUnparser.u16 ret h.dport
    let ret := NetUnparser.u32 ret h.seqno.rawValue
    let ret := NetUnparser.u32 ret h.ackno.rawValue
    let ret := NetUnparser.u8 ret (h.doff <<< 4)
    let flB :=
      (if h.urg then 0x20 else 0) ||| (if h.ack then 0x10 else 0) |||
        (if h.psh then 0x08 else 0) ||| (if h.rst then 0x04 else 0) |||
        (if h.syn then 0x02 else 0) ||| (if h.fin then 0x01 else 0)
    let ret := NetUnparser.u8 ret flB
    let ret := NetUnparser.u16 ret h.win
    let ret := NetUnparser.u16 ret h.cksum
    let ret := NetUnparser.u16 ret h.uptr
    .ok (IPv4Header.resize ret (4 * h.doff.toNat))

end TCPHeader

namespace TCPSegment

/-- Parse the segment.  Nothing is filled in when the checksum is wrong, and the result of the
    header's parser is not looked at. -/
def parse (seg : TCPSegment) (buffer : Buffer) (datagramLayerChecksum : UInt32) :
    ParseResult × TCPSegment :=
  let check := InternetChecksum.add { sum := datagramLayerChecksum.toNat } buffer.str
  if check.value ≠ 0 then (.badChecksum, seg)
  else
    let p : NetParser := { buffer := buffer }
    let (_, header, p) := TCPHeader.parse p
    (p.error, { header := header, payload := p.buffer.str })

/-- Serialize the segment, with its checksum. -/
def serialize (seg : TCPSegment) (datagramLayerChecksum : UInt32) :
    Except Exception BufferList := do
  let headerZeroChecksum ← (seg.header.setCksum 0).serialize
  -- the checksum is taken over the entire segment
  let check := InternetChecksum.add { sum := datagramLayerChecksum.toNat } headerZeroChecksum
  let check := check.add seg.payload
  let header ← (seg.header.setCksum check.value).serialize
  let ret : BufferList := {}
  let ret := ret.append (.ofString header)
  return ret.append (.ofString seg.payload)

end TCPSegment

namespace TCPHeader

/-! ### The parser of the header -/

/-- The header in the first twenty bytes of a string. -/
def ofBytes (b : List UInt8) : TCPHeader where
  sport := .ofNat (field b 0 2)
  dport := .ofNat (field b 2 2)
  seqno := ⟨.ofNat (field b 4 4)⟩
  ackno := ⟨.ofNat (field b 8 4)⟩
  doff := .ofNat (field b 12 1 / 2 ^ 4)
  urg := (field b 13 1).testBit 5
  ack := (field b 13 1).testBit 4
  psh := (field b 13 1).testBit 3
  rst := (field b 13 1).testBit 2
  syn := (field b 13 1).testBit 1
  fin := (field b 13 1).testBit 0
  win := .ofNat (field b 14 2)
  cksum := .ofNat (field b 16 2)
  uptr := .ofNat (field b 18 2)

/-- The length of the header, as the header says. -/
def sizeIn (b : List UInt8) : Nat := 4 * (field b 12 1 / 2 ^ 4)

/-- The parser after the fields have been read. -/
def finish (h : TCPHeader) (p : NetParser) : ParseResult × TCPHeader × NetParser :=
  if h.doff < 5 then (.headerTooShort, h, p)
  else
    let p := p.removePrefix (h.doff.toNat * 4 - length)
    if p.error ≠ .noError then (p.error, h, p) else (.noError, h, p)

variable {p : NetParser} {b : List UInt8}

/-- What happens then: the rest of the header is taken off, unless the data offset is too small. -/
theorem finish_eq (h : TCPHeader) (hp : NetParser.At p b length) :
    ∃ result q, finish h p = (result, h, q) ∧
      NetParser.At q b (if h.doff < 5 then length else 4 * h.doff.toNat) := by
  unfold finish
  -- a small `doff` is an error that leaves the options where they are
  by_cases hdoff : h.doff < 5
  · rw [if_pos hdoff, if_pos hdoff]
    exact ⟨_, _, rfl, hp⟩
  · have hfive : ¬ h.doff.toNat < 5 := fun hlt => hdoff hlt
    have hskip : length + (h.doff.toNat * 4 - length) = 4 * h.doff.toNat := by
      unfold length
      omega
    have hat := hp.removePrefix (h.doff.toNat * 4 - length)
    rw [hskip] at hat
    rw [if_neg hdoff, if_neg hdoff]
    dsimp only
    split
    · exact ⟨_, _, rfl, hat⟩
    · exact ⟨_, _, rfl, hat⟩

/-- The fields are read in any case, and are those of the string if it is long enough. -/
theorem parse_eq_finish (hp : NetParser.At p b 0) :
    ∃ h q, parse p = finish h q ∧ NetParser.At q b length ∧
      (length ≤ b.length → h = ofBytes b) := by
  -- the fields are read in the order of the header, each from where the last one ended
  obtain ⟨h1, v1⟩ := hp.u16
  obtain ⟨h2, v2⟩ := h1.u16
  obtain ⟨h3, v3⟩ := h2.u32
  obtain ⟨h4, v4⟩ := h3.u32
  obtain ⟨h5, v5⟩ := h4.u8
  obtain ⟨h6, v6⟩ := h5.u8
  obtain ⟨h7, v7⟩ := h6.u16
  obtain ⟨h8, v8⟩ := h7.u16
  obtain ⟨h9, v9⟩ := h8.u16
  unfold parse
  dsimp only
  refine ⟨⟨_, _, _, _, _, _, _, _, _, _, _, _, _, _⟩, _, rfl, h9, fun hlong => ?_⟩
  unfold length at hlong
  rw [v1 (by omega), v2 (by omega), v3 (by omega), v4 (by omega), v5 (by omega), v6 (by omega),
    v7 (by omega), v8 (by omega), v9 (by omega), BitField.shiftRight_four (field_lt b 12 1),
    BitField.flag8 (i := 5) _ (by decide) rfl, BitField.flag8 (i := 4) _ (by decide) rfl,
    BitField.flag8 (i := 3) _ (by decide) rfl, BitField.flag8 (i := 2) _ (by decide) rfl,
    BitField.flag8 (i := 1) _ (by decide) rfl, BitField.flag8 (i := 0) _ (by decide) rfl]
  rfl

/-- The data offset is in the upper half of its byte. -/
theorem ofBytes_doff (b : List UInt8) : (ofBytes b).doff.toNat = field b 12 1 / 2 ^ 4 := by
  have hlt : field b 12 1 < 256 := field_lt b 12 1
  show (UInt8.ofNat (field b 12 1 / 2 ^ 4)).toNat = _
  rw [UInt8.toNat_ofNat', Nat.mod_eq_of_lt (by omega)]

/-! ### What the header is serialized to -/

/-- The byte with the flags. -/
def flB (h : TCPHeader) : UInt8 :=
  (if h.urg then 0x20 else 0) ||| (if h.ack then 0x10 else 0) ||| (if h.psh then 0x08 else 0) |||
    (if h.rst then 0x04 else 0) ||| (if h.syn then 0x02 else 0) ||| (if h.fin then 0x01 else 0)

/-- The fields before the checksum. -/
def front (h : TCPHeader) : List UInt8 :=
  toBytes 2 h.sport.toNat ++ (toBytes 2 h.dport.toNat ++ (toBytes 4 h.seqno.rawValue.toNat ++
    (toBytes 4 h.ackno.rawValue.toNat ++ (toBytes 1 (h.doff <<< 4).toNat ++
      (toBytes 1 h.flB.toNat ++ toBytes 2 h.win.toNat)))))

/-- The field after it, and the space for options. -/
def back (h : TCPHeader) : List UInt8 :=
  toBytes 2 h.uptr.toNat ++ List.replicate (4 * h.doff.toNat - length) 0

/-- **The bytes of a header**, with the checksum between a front part and a back part that do not
    depend on it. -/
theorem serialize_eq {h : TCPHeader} (hdoff : 5 ≤ h.doff) :
    h.serialize = .ok (h.front ++ (toBytes 2 h.cksum.toNat ++ h.back)) := by
  have hfive : 5 ≤ h.doff.toNat := hdoff
  unfold serialize
  rw [if_neg (UInt8.not_lt.mpr hdoff)]
  simp only [NetUnparser.u8, NetUnparser.u16, NetUnparser.u32, NetUnparser.unparseInt,
    List.nil_append]
  rw [IPv4Header.resize_of_le (by simp; omega)]
  simp [front, back, flB, length]

theorem length_front (h : TCPHeader) : h.front.length = 16 := by
  simp [front]

/-- What follows the checksum, with as many zeros as the data offset asks for. -/
theorem length_back {h : TCPHeader} (hdoff : 5 ≤ h.doff) :
    h.back.length = 4 * h.doff.toNat - 18 := by
  have hfive : 5 ≤ h.doff.toNat := hdoff
  simp [back, length]
  omega

/-- Each flag is a bit of its own. -/
theorem testBit_flB (h : TCPHeader) :
    h.flB.toNat.testBit 5 = h.urg ∧ h.flB.toNat.testBit 4 = h.ack ∧ h.flB.toNat.testBit 3 = h.psh ∧
      h.flB.toNat.testBit 2 = h.rst ∧ h.flB.toNat.testBit 1 = h.syn ∧
      h.flB.toNat.testBit 0 = h.fin := by
  unfold flB
  generalize h.urg = urg, h.ack = ack, h.psh = psh, h.rst = rst, h.syn = syn, h.fin = fin
  decide +revert

/-- The fields are read back, if the data offset fits. -/
theorem ofBytes_serialized {h : TCPHeader} (hdoff : h.doff.toNat ≤ 15) (rest : List UInt8) :
    ofBytes (h.front ++ (toBytes 2 h.cksum.toNat ++ (h.back ++ rest))) = h := by
  have hshift : (h.doff <<< 4).toNat = 16 * h.doff.toNat := by
    rw [UInt8.toNat_shiftLeft]
    show h.doff.toNat <<< 4 % 2 ^ 8 = _
    rw [Nat.shiftLeft_eq]
    omega
  have hupper : 16 * h.doff.toNat % 256 / 16 = h.doff.toNat := by omega
  obtain ⟨hurg, hack, hpsh, hrst, hsyn, hfin⟩ := h.testBit_flB
  have hbyte := h.flB.toNat_lt
  unfold ofBytes front back
  simp [hshift, hupper, Nat.mod_eq_of_lt hbyte, hurg, hack, hpsh, hrst, hsyn, hfin]

end TCPHeader

namespace TCPSegment

open TCPHeader

/-! ### What the parser accepts -/

/-- The ones' complement sum of the segment and its pseudo-header is all ones. -/
def ChecksumOk (datagramLayerChecksum : UInt32) (b : List UInt8) : Prop :=
  OnesComplement.sum datagramLayerChecksum.toNat b = 0xffff

instance (sum : UInt32) (b : List UInt8) : Decidable (ChecksumOk sum b) :=
  inferInstanceAs (Decidable (_ = _))

/-- The string is a TCP segment. -/
structure Valid (datagramLayerChecksum : UInt32) (b : List UInt8) : Prop where
  checksum : ChecksumOk datagramLayerChecksum b
  size : TCPHeader.length ≤ b.length
  doff : 5 ≤ field b 12 1 / 2 ^ 4
  options : sizeIn b ≤ b.length

/-- A string that is not a segment and gets through: its data begin inside the header. -/
structure Slips (datagramLayerChecksum : UInt32) (b : List UInt8) : Prop where
  checksum : ChecksumOk datagramLayerChecksum b
  size : TCPHeader.length ≤ b.length
  doff : field b 12 1 / 2 ^ 4 < 5

instance (sum : UInt32) (b : List UInt8) : Decidable (Valid sum b) :=
  decidable_of_iff
    (ChecksumOk sum b ∧ TCPHeader.length ≤ b.length ∧ 5 ≤ field b 12 1 / 2 ^ 4 ∧
      sizeIn b ≤ b.length)
    ⟨fun h => ⟨h.1, h.2.1, h.2.2.1, h.2.2.2⟩, fun h => ⟨h.checksum, h.size, h.doff, h.options⟩⟩

instance (sum : UInt32) (b : List UInt8) : Decidable (Slips sum b) :=
  decidable_of_iff
    (ChecksumOk sum b ∧ TCPHeader.length ≤ b.length ∧ field b 12 1 / 2 ^ 4 < 5)
    ⟨fun h => ⟨h.1, h.2.1, h.2.2⟩, fun h => ⟨h.checksum, h.size, h.doff⟩⟩

/-- A string that slips through is not a segment. -/
theorem Slips.not_valid {sum : UInt32} {b : List UInt8} (h : Slips sum b) : ¬ Valid sum b :=
  fun hvalid => absurd hvalid.doff (Nat.not_le.mpr h.doff)

/-- How much of the string is taken for the header. -/
def headerSize (b : List UInt8) : Nat :=
  if field b 12 1 / 2 ^ 4 < 5 then TCPHeader.length else sizeIn b

/-- Valid or not, the string has a good checksum and is as long as the parser takes its header to
    be. -/
theorem valid_or_slips_iff {sum : UInt32} {b : List UInt8} :
    Valid sum b ∨ Slips sum b ↔
      ChecksumOk sum b ∧ TCPHeader.length ≤ b.length ∧ headerSize b ≤ b.length := by
  -- by the `doff` in the bytes: what is too small for a header is just what slips through
  by_cases hdoff : field b 12 1 / 2 ^ 4 < 5
  · rw [headerSize, if_pos hdoff]
    constructor
    · rintro (hvalid | hslips)
      · exact absurd hvalid.doff (by omega)
      · exact ⟨hslips.checksum, hslips.size, hslips.size⟩
    · rintro ⟨hchecksum, hsize, -⟩
      exact .inr ⟨hchecksum, hsize, hdoff⟩
  · rw [headerSize, if_neg hdoff]
    constructor
    · rintro (hvalid | hslips)
      · exact ⟨hvalid.checksum, hvalid.size, hvalid.options⟩
      · exact absurd hslips.doff hdoff
    · rintro ⟨hchecksum, hsize, hoptions⟩
      exact .inl ⟨hchecksum, hsize, by omega, hoptions⟩

section

variable {buffer : Buffer} {sum : UInt32} (hlength : buffer.str.length ≤ 65535)
  (hsum : sum.toNat ≤ 2 ^ 20) (seg : TCPSegment)
include hlength hsum

/-- Nothing is read from a string with a bad checksum. -/
theorem parse_of_bad_checksum (hbad : ¬ ChecksumOk sum buffer.str) :
    seg.parse buffer sum = (.badChecksum, seg) := by
  have hcheck := InternetChecksum.value_eq_zero_iff
    (InternetChecksum.sum_lt_of_length hsum hlength)
  unfold parse
  dsimp only
  rw [if_pos (fun hzero => hbad (hcheck.mp hzero))]

/-- With the right checksum, the fields and the payload are filled in, and the parser's error
    decides. -/
theorem parse_of_checksum (hok : ChecksumOk sum buffer.str) :
    ∃ h q, seg.parse buffer sum = (q.error, { header := h, payload := q.buffer.str }) ∧
      (buffer.str.length < TCPHeader.length → q.error ≠ .noError) ∧
      (TCPHeader.length ≤ buffer.str.length →
        h = .ofBytes buffer.str ∧ NetParser.At q buffer.str (headerSize buffer.str)) := by
  have hcheck := InternetChecksum.value_eq_zero_iff
    (InternetChecksum.sum_lt_of_length hsum hlength)
  obtain ⟨h, q, hparse, hq, hfields⟩ := TCPHeader.parse_eq_finish (NetParser.At.start buffer)
  obtain ⟨result, q', hfinish, hq'⟩ := TCPHeader.finish_eq h hq
  refine ⟨h, q', ?_, ?_, ?_⟩
  · unfold parse
    dsimp only
    rw [if_neg (not_not.mpr (hcheck.mpr hok)), hparse, hfinish]
  · intro hshort
    -- the parser is in error as soon as a read goes past the end
    refine hq'.fails ?_
    split
    · exact hshort
    · rename_i hdoff
      have hfive : ¬ h.doff.toNat < 5 := fun hlt => hdoff hlt
      unfold TCPHeader.length at hshort
      omega
  · intro hlong
    obtain rfl := hfields hlong
    have hdoff : (TCPHeader.ofBytes buffer.str).doff < 5 ↔ field buffer.str 12 1 / 2 ^ 4 < 5 := by
      rw [UInt8.lt_iff_toNat_lt, ofBytes_doff]
      rfl
    rw [ofBytes_doff] at hq'
    simp only [hdoff] at hq'
    exact ⟨rfl, hq'⟩

/-- **Acceptance**: the valid segments, and those that slip through. -/
theorem parse_noError_iff :
    (seg.parse buffer sum).1 = .noError ↔ Valid sum buffer.str ∨ Slips sum buffer.str := by
  rw [valid_or_slips_iff]
  by_cases hok : ChecksumOk sum buffer.str
  -- the checksum is looked at first, and nothing else if it is wrong
  swap
  · rw [parse_of_bad_checksum hlength hsum seg hok]
    exact iff_of_false (by simp) (fun h => hok h.1)
  obtain ⟨h, q, hparse, hshort, hlong⟩ := parse_of_checksum hlength hsum seg hok
  rw [hparse]
  by_cases hsize : TCPHeader.length ≤ buffer.str.length
  · have hq := (hlong hsize).2
    exact hq.error_iff.trans ⟨fun hle => ⟨hok, hsize, hle⟩, fun h => h.2.2⟩
  · exact iff_of_false (hshort (by omega)) (fun h => hsize h.2.1)

/-- The fields and the payload of a valid segment. -/
theorem parse_of_valid (hvalid : Valid sum buffer.str) :
    seg.parse buffer sum = (.noError,
      { header := .ofBytes buffer.str, payload := buffer.str.drop (sizeIn buffer.str) }) := by
  obtain ⟨h, q, hparse, -, hlong⟩ := parse_of_checksum hlength hsum seg hvalid.checksum
  obtain ⟨rfl, hq⟩ := hlong hvalid.size
  rw [headerSize, if_neg (Nat.not_lt.mpr hvalid.doff)] at hq
  obtain ⟨hleft, hnoError⟩ := hq.reads hvalid.options
  rw [hparse, hleft, hnoError]

/-- The fields of a string that slips through are filled in all the same, and what follows the first
    twenty bytes is taken for the payload. -/
theorem parse_of_slips (hslips : Slips sum buffer.str) :
    seg.parse buffer sum = (.noError,
      { header := .ofBytes buffer.str, payload := buffer.str.drop TCPHeader.length }) := by
  obtain ⟨h, q, hparse, -, hlong⟩ := parse_of_checksum hlength hsum seg hslips.checksum
  obtain ⟨rfl, hq⟩ := hlong hslips.size
  rw [headerSize, if_pos hslips.doff] at hq
  obtain ⟨hleft, hnoError⟩ := hq.reads hslips.size
  rw [hparse, hleft, hnoError]

/-- **The parser accepts exactly the valid segments, but for those whose data offset is too small**,
    and fills in the fields and the payload of a valid one. -/
theorem parse_iff_valid_segment :
    (((seg.parse buffer sum).1 = .noError ↔ Valid sum buffer.str) ↔ ¬ Slips sum buffer.str) ∧
      (Valid sum buffer.str →
        (seg.parse buffer sum).2 =
          { header := .ofBytes buffer.str, payload := buffer.str.drop (sizeIn buffer.str) }) := by
  constructor
  · rw [parse_noError_iff hlength hsum]
    constructor
    · intro hexact hslips
      exact hslips.not_valid (hexact.mp (.inr hslips))
    · intro hnot
      exact ⟨fun h => h.resolve_right hnot, .inl⟩
  · intro hvalid
    rw [parse_of_valid hlength hsum seg hvalid]

end

theorem parse_iff_valid_segment_twenty :
    Valid 0 [0, 0, 0, 0, 0, 0, 0, 0, 0, 0, 0, 0, 0x50, 0, 0, 0, 0xaf, 0xff, 0, 0] ∧
      (parse {} (Buffer.ofString
        [0, 0, 0, 0, 0, 0, 0, 0, 0, 0, 0, 0, 0x50, 0, 0, 0, 0xaf, 0xff, 0, 0]) 0).1 = .noError := by
  have hvalid : Valid 0 [0, 0, 0, 0, 0, 0, 0, 0, 0, 0, 0, 0, 0x50, 0, 0, 0, 0xaf, 0xff, 0, 0] := by
    decide
  refine ⟨hvalid, ((parse_iff_valid_segment (by decide) (by decide) {}).1.mpr ?_).mpr hvalid⟩
  exact fun hslips => hslips.not_valid hvalid

/-- A segment without a data offset is accepted. -/
theorem parse_accepts_zero_doff :
    (parse {} (Buffer.ofString
        [0, 0, 0, 0, 0, 0, 0, 0, 0, 0, 0, 0, 0, 0, 0, 0, 0xff, 0xff, 0, 0]) 0).1 = .noError ∧
      ¬ Valid 0 [0, 0, 0, 0, 0, 0, 0, 0, 0, 0, 0, 0, 0, 0, 0, 0, 0xff, 0xff, 0, 0] := by
  decide

/-- **Corruption is detected.**  A string that differs from an accepted one in a single aligned
    word, which may be the half word at its end, is rejected, unless the word was all zeros and is
    all ones now or the other way round. -/
theorem corruption_detected (buffer buffer' : Buffer) {sum : UInt32}
    (hlength : buffer.str.length ≤ 65535) (hsum : sum.toNat ≤ 2 ^ 20) (seg seg' : TCPSegment)
    (haccepted : (seg.parse buffer sum).1 = .noError)
    (hsame : buffer'.str.length = buffer.str.length) (hdiffer : buffer'.str ≠ buffer.str) {k : Nat}
    (hword : ∀ i, i / 2 ≠ k → buffer'.str[i]? = buffer.str[i]?)
    (hchange : ¬ (((OnesComplement.words buffer.str)[k]? = some 0 ∧
        (OnesComplement.words buffer'.str)[k]? = some 0xffff) ∨
      ((OnesComplement.words buffer.str)[k]? = some 0xffff ∧
        (OnesComplement.words buffer'.str)[k]? = some 0))) :
    seg'.parse buffer' sum = (.badChecksum, seg') := by
  have hok : ChecksumOk sum buffer.str := by
    rcases (parse_noError_iff hlength hsum seg).mp haccepted with hvalid | hslips
    · exact hvalid.checksum
    · exact hslips.checksum
  refine parse_of_bad_checksum (by rw [hsame]; exact hlength) hsum seg' fun hok' => hchange ?_
  exact OnesComplement.words_of_sum_eq hsame hdiffer hword hok hok'

/-- The destination port is changed. -/
theorem corruption_detected_port :
    (parse {} (Buffer.ofString
        [0, 0, 0, 0, 0, 0, 0, 0, 0, 0, 0, 0, 0x50, 0, 0, 0, 0xaf, 0xff, 0, 0]) 0).1 = .noError ∧
      (parse {} (Buffer.ofString
        [0, 0, 0, 80, 0, 0, 0, 0, 0, 0, 0, 0, 0x50, 0, 0, 0, 0xaf, 0xff, 0, 0]) 0)
          = (.badChecksum, {}) := by
  refine ⟨by decide, corruption_detected (Buffer.ofString
    [0, 0, 0, 0, 0, 0, 0, 0, 0, 0, 0, 0, 0x50, 0, 0, 0, 0xaf, 0xff, 0, 0]) _ (k := 1) (by decide)
    (by decide) {} {} (by decide) (by decide) (by decide) (fun i hi => ?_) (by decide)⟩
  -- only the bytes 2 and 3 are in the word 1
  rcases i with _ | _ | _ | _ | i
  · rfl
  · rfl
  · exact absurd rfl hi
  · exact absurd rfl hi
  · rfl

/-! ### The round trip -/

/-- The checksum that is put into the header. -/
def checksum (datagramLayerChecksum : UInt32) (seg : TCPSegment) : UInt16 :=
  (InternetChecksum.add { sum := datagramLayerChecksum.toNat }
    (seg.header.front ++ (toBytes 2 0 ++ (seg.header.back ++ seg.payload)))).value

/-- The header as it is sent. -/
def headerBytes (datagramLayerChecksum : UInt32) (seg : TCPSegment) : List UInt8 :=
  seg.header.front ++ (toBytes 2 (seg.checksum datagramLayerChecksum).toNat ++ seg.header.back)

section

variable {seg : TCPSegment} (hdoff : 5 ≤ seg.header.doff) (sum : UInt32)
include hdoff

/-- **The bytes of a segment** are those of its header, with the right checksum, and its payload. -/
theorem serialize_eq : seg.serialize sum =
    .ok ⟨[Buffer.ofString (seg.headerBytes sum), Buffer.ofString seg.payload]⟩ := by
  -- the header is written twice, with a checksum of zero and with the real one
  have hheader : ∀ cksum : UInt16, (seg.header.setCksum cksum).serialize
      = .ok (seg.header.front ++ (toBytes 2 cksum.toNat ++ seg.header.back)) :=
    fun cksum => TCPHeader.serialize_eq hdoff
  have hchecksum : ((InternetChecksum.add { sum := sum.toNat }
      (seg.header.front ++ (toBytes 2 0 ++ seg.header.back))).add seg.payload).value
        = seg.checksum sum := by
    rw [← InternetChecksum.add_append, checksum, List.append_assoc, List.append_assoc]
  unfold serialize
  rw [hheader]
  show ((seg.header.setCksum ((InternetChecksum.add { sum := sum.toNat }
    (seg.header.front ++ (toBytes 2 0 ++ seg.header.back))).add seg.payload).value).serialize
      >>= _) = _
  rw [hchecksum, hheader]
  rfl

/-- The header takes as many bytes as its data offset says. -/
theorem length_headerBytes : (seg.headerBytes sum).length = 4 * seg.header.doff.toNat := by
  have hfive : 5 ≤ seg.header.doff.toNat := hdoff
  rw [headerBytes, List.length_append, List.length_append, length_front, length_back hdoff,
    length_toBytes]
  omega

end

section

variable {seg : TCPSegment} (sum : UInt32) (hle : seg.header.doff.toNat ≤ 15)
include hle

/-- The fields of the serialized header are read back, with the checksum filled in. -/
theorem ofBytes_eq : TCPHeader.ofBytes (seg.headerBytes sum ++ seg.payload)
    = seg.header.setCksum (seg.checksum sum) := by
  have hback := ofBytes_serialized (h := seg.header.setCksum (seg.checksum sum)) hle seg.payload
  rw [headerBytes, List.append_assoc, List.append_assoc]
  exact hback

/-- And the payload begins where it was put. -/
theorem sizeIn_eq : sizeIn (seg.headerBytes sum ++ seg.payload) = 4 * seg.header.doff.toNat := by
  rw [sizeIn, ← ofBytes_doff, ofBytes_eq sum hle]
  rfl

variable (hdoff : 5 ≤ seg.header.doff)
include hdoff

variable (hfits : 4 * seg.header.doff.toNat + seg.payload.length ≤ 65535)
  (hsum : sum.toNat ≤ 2 ^ 20)
include hfits hsum

/-- **What is serialized is a valid segment.** -/
theorem valid_serialized : Valid sum (seg.headerBytes sum ++ seg.payload) := by
  have hfive : 5 ≤ seg.header.doff.toNat := hdoff
  have hheader := length_headerBytes hdoff sum
  have hsize := sizeIn_eq sum hle
  refine ⟨?_, ?_, ?_, ?_⟩
  · -- the checksum field makes the sum over the segment all ones
    rw [ChecksumOk, headerBytes, List.append_assoc, List.append_assoc]
    refine InternetChecksum.sum_insert_checksum (by rw [length_front]) ?_
    refine InternetChecksum.sum_lt_of_length hsum ?_
    rw [headerBytes] at hheader
    simp only [List.length_append, length_toBytes] at hheader ⊢
    omega
  · rw [List.length_append, hheader, TCPHeader.length]
    omega
  · rw [sizeIn] at hsize
    omega
  · rw [hsize, List.length_append, hheader]
    omega

/-- **A segment survives the round trip**, but for its checksum. -/
theorem parse_serialized (seg₀ : TCPSegment) {buffer : Buffer}
    (hbuffer : buffer.str = seg.headerBytes sum ++ seg.payload) :
    seg₀.parse buffer sum = (.noError,
      { header := seg.header.setCksum (seg.checksum sum), payload := seg.payload }) := by
  have hvalid := valid_serialized sum hle hdoff hfits hsum
  have hlength : buffer.str.length ≤ 65535 := by
    rw [hbuffer, List.length_append, length_headerBytes hdoff]
    exact hfits
  rw [← hbuffer] at hvalid
  rw [parse_of_valid hlength hsum seg₀ hvalid, hbuffer, ofBytes_eq sum hle,
    sizeIn_eq sum hle, List.drop_left' (length_headerBytes hdoff sum)]

end

/-- **Round trip.**  What `serialize` makes of a segment whose data offset fits into its four bits
    is parsed, with the same sum of the pseudo-header, into the segment with another checksum. -/
theorem segment_roundtrip (seg seg₀ : TCPSegment) (sum : UInt32)
    (hdoff : 5 ≤ seg.header.doff.toNat) (hle : seg.header.doff.toNat ≤ 15)
    (hfits : 4 * seg.header.doff.toNat + seg.payload.length ≤ 65535)
    (hsum : sum.toNat ≤ 2 ^ 20) :
    ∃ bytes cksum, seg.serialize sum = .ok bytes ∧
      seg₀.parse (Buffer.ofString bytes.concatenate) sum = (.noError,
        { header := seg.header.setCksum cksum, payload := seg.payload }) := by
  have hfive : 5 ≤ seg.header.doff := UInt8.le_iff_toNat_le.mpr hdoff
  refine ⟨_, seg.checksum sum, serialize_eq hfive sum,
    parse_serialized sum hle hfive hfits hsum seg₀ ?_⟩
  simp [BufferList.concatenate_eq]

/-- A FIN with options and an odd number of bytes. -/
theorem segment_roundtrip_odd :
    ∃ bytes cksum, serialize { header := { doff := 6, fin := true }, payload := [1, 2, 3] } 70000
        = .ok bytes ∧
      parse {} (Buffer.ofString bytes.concatenate) 70000 = (.noError,
        { header := TCPHeader.setCksum { doff := 6, fin := true } cksum, payload := [1, 2, 3] }) :=
  segment_roundtrip { header := { doff := 6, fin := true }, payload := [1, 2, 3] } {} 70000
    (by decide) (by decide) (by decide) (by decide)

end TCPSegment

end Sponge
