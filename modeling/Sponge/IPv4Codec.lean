import Sponge.IPv4Datagram
import Sponge.Lib.BitField

namespace Sponge

open BigEndian

/-!
# What the IPv4 parser accepts

`IPv4Header.ofBytes` is the header that stands in the first bytes of a string, and
`IPv4Datagram.Valid` says which strings are datagrams.

`IPv4Datagram::parse` does not look at the result of the header's parser.  It still rejects what the
comparison of the lengths rejects, and accepts the rest: `Slips` are the strings that are not
datagrams and get through.  `parse_iff_valid_datagram` says that there are no others, and
`datagram_roundtrip` that a datagram whose fields fit survives.
-/

namespace IPv4Header

/-- The header in the first twenty bytes of a string. -/
def ofBytes (b : List UInt8) : IPv4Header where
  ver := .ofNat (field b 0 1 / 2 ^ 4)
  hlen := .ofNat (field b 0 1 % 2 ^ 4)
  tos := .ofNat (field b 1 1)
  len := .ofNat (field b 2 2)
  id := .ofNat (field b 4 2)
  df := (field b 6 2).testBit 14
  mf := (field b 6 2).testBit 13
  offset := .ofNat (field b 6 2 % 2 ^ 13)
  ttl := .ofNat (field b 8 1)
  proto := .ofNat (field b 9 1)
  cksum := .ofNat (field b 10 2)
  src := .ofNat (field b 12 4)
  dst := .ofNat (field b 16 4)

/-- The length of the header, as the header says. -/
def sizeIn (b : List UInt8) : Nat := 4 * (field b 0 1 % 2 ^ 4)

/-- The header agrees with the length of the string. -/
structure Framed (b : List UInt8) : Prop where
  ver : field b 0 1 / 2 ^ 4 = 4
  hlen : 5 ≤ field b 0 1 % 2 ^ 4
  options : sizeIn b ≤ b.length
  len : field b 2 2 = b.length

instance (b : List UInt8) : Decidable (Framed b) :=
  decidable_of_iff
    (field b 0 1 / 2 ^ 4 = 4 ∧ 5 ≤ field b 0 1 % 2 ^ 4 ∧ sizeIn b ≤ b.length ∧
      field b 2 2 = b.length)
    ⟨fun h => ⟨h.1, h.2.1, h.2.2.1, h.2.2.2⟩, fun h => ⟨h.ver, h.hlen, h.options, h.len⟩⟩

/-- The ones' complement sum of the header is all ones. -/
def ChecksumOk (b : List UInt8) : Prop := OnesComplement.sum 0 (b.take (sizeIn b)) = 0xffff

instance (b : List UInt8) : Decidable (ChecksumOk b) :=
  inferInstanceAs (Decidable (_ = _))

/-! ### The parser of the header -/

variable {p : NetParser} {b : List UInt8}

theorem size_eq (hp : NetParser.At p b 0) : p.buffer.size = b.length := by
  rw [Buffer.size, (hp.reads (Nat.zero_le _)).left, List.drop_zero]

/-- Too short for a header: nothing is read. -/
theorem parse_of_short (h : IPv4Header) (hp : NetParser.At p b 0) (hshort : b.length < length) :
    h.parse p = (.packetTooShort, h, p) := by
  unfold parse
  dsimp only
  rw [if_pos (by rw [size_eq hp]; exact hshort)]

/-- The parser after the fields have been read. -/
def finish (original : Buffer) (h : IPv4Header) (p : NetParser) :
    ParseResult × IPv4Header × NetParser :=
  if original.size < 4 * h.hlen.toNat then (.packetTooShort, h, p)
  else if h.ver ≠ 4 then (.wrongIPVersion, h, p)
  else if h.hlen < 5 then (.headerTooShort, h, p)
  else if original.size ≠ h.len.toNat then (.truncatedPacket, h, p)
  else
    let p := p.removePrefix (h.hlen.toNat * 4 - length)
    if p.error ≠ .noError then (p.error, h, p)
    else
      let check := InternetChecksum.add {} (original.str.take (4 * h.hlen.toNat))
      if check.value ≠ 0 then (.badChecksum, h, p) else (.noError, h, p)

/-- The fields are read in any case. -/
theorem parse_of_long (h : IPv4Header) (hp : NetParser.At p b 0) (hlong : length ≤ b.length) :
    ∃ q, NetParser.At q b length ∧ h.parse p = finish p.buffer (ofBytes b) q := by
  -- the fields are read in the order of the header, each from where the last one ended
  unfold length at hlong
  obtain ⟨h1, v1⟩ := hp.u8
  obtain ⟨h2, v2⟩ := h1.u8
  obtain ⟨h3, v3⟩ := h2.u16
  obtain ⟨h4, v4⟩ := h3.u16
  obtain ⟨h5, v5⟩ := h4.u16
  obtain ⟨h6, v6⟩ := h5.u8
  obtain ⟨h7, v7⟩ := h6.u8
  obtain ⟨h8, v8⟩ := h7.u16
  obtain ⟨h9, v9⟩ := h8.u32
  obtain ⟨h10, v10⟩ := h9.u32
  refine ⟨_, h10, ?_⟩
  unfold parse
  dsimp only
  rw [if_neg (by rw [size_eq hp, length]; omega), v1 (by omega), v2 (by omega), v3 (by omega),
    v4 (by omega), v5 (by omega), v6 (by omega), v7 (by omega), v8 (by omega), v9 (by omega),
    v10 (by omega), BitField.shiftRight_four (field_lt b 0 1), BitField.and_fifteen,
    BitField.and_thirteen, BitField.flag16 (i := 14) _ (by decide) rfl,
    BitField.flag16 (i := 13) _ (by decide) rfl]
  rfl

/-- The header length is in the lower half of the first byte. -/
theorem ofBytes_hlen (b : List UInt8) : (ofBytes b).hlen.toNat = field b 0 1 % 2 ^ 4 := by
  show (UInt8.ofNat (field b 0 1 % 2 ^ 4)).toNat = _
  rw [UInt8.toNat_ofNat']
  omega

theorem ofBytes_len (b : List UInt8) : (ofBytes b).len.toNat = field b 2 2 :=
  toNat_field_two b 2

/-- The four comparisons of the parser. -/
theorem framed_iff (b : List UInt8) :
    Framed b ↔ ¬ b.length < 4 * (ofBytes b).hlen.toNat ∧ (ofBytes b).ver = 4 ∧
      ¬ (ofBytes b).hlen < 5 ∧ b.length = (ofBytes b).len.toNat := by
  -- version and length share the first byte
  have hfirst : field b 0 1 < 256 := field_lt b 0 1
  have hver : (ofBytes b).ver = 4 ↔ field b 0 1 / 2 ^ 4 = 4 := by
    show UInt8.ofNat (field b 0 1 / 2 ^ 4) = 4 ↔ _
    rw [← UInt8.toNat_inj, UInt8.toNat_ofNat', Nat.mod_eq_of_lt (by omega)]
    rfl
  have hhlen : (ofBytes b).hlen < 5 ↔ field b 0 1 % 2 ^ 4 < 5 := by
    rw [UInt8.lt_iff_toNat_lt, ofBytes_hlen]
    rfl
  rw [hver, hhlen, ofBytes_hlen, ofBytes_len]
  constructor
  · rintro ⟨hv, hh, ho, hl⟩
    rw [sizeIn] at ho
    exact ⟨by omega, hv, by omega, hl.symm⟩
  · rintro ⟨ho, hv, hh, hl⟩
    exact ⟨hv, by omega, by rw [sizeIn]; omega, hl.symm⟩

/-- If they succeed, the options are taken off and the sum is checked. -/
theorem finish_of_framed {original : Buffer} (horiginal : original.str = b) (hframed : Framed b)
    (hp : NetParser.At p b length) :
    ∃ result q, finish original (ofBytes b) p = (result, ofBytes b, q) ∧
      NetParser.At q b (sizeIn b) ∧ (result = .noError ↔ ChecksumOk b) := by
  have hsize : original.size = b.length := by rw [Buffer.size, horiginal]
  obtain ⟨hoptions, hver, hhlen, hlength⟩ := (framed_iff b).mp hframed
  have hskip : length + ((ofBytes b).hlen.toNat * 4 - length) = sizeIn b := by
    have hminimum := hframed.hlen
    rw [ofBytes_hlen, length, sizeIn]
    omega
  have hat := hp.removePrefix ((ofBytes b).hlen.toNat * 4 - length)
  rw [hskip] at hat
  -- at most 15 words of four bytes are summed, so the sum does not overflow
  have hfits : 0 + (OnesComplement.words (b.take (4 * (ofBytes b).hlen.toNat))).sum < 2 ^ 32 := by
    refine InternetChecksum.sum_lt_of_length (Nat.zero_le _) ?_
    have hle := List.length_take_le (4 * (ofBytes b).hlen.toNat) b
    rw [ofBytes_hlen] at hle ⊢
    omega
  have hcheck := InternetChecksum.value_eq_zero_iff hfits
  unfold finish
  rw [hsize, if_neg hoptions, if_neg (not_not.mpr hver), if_neg hhlen,
    if_neg (not_not.mpr hlength)]
  dsimp only
  rw [if_neg (not_not.mpr (hat.error_iff.mpr hframed.options)), horiginal]
  have hok : ChecksumOk b ↔
      OnesComplement.sum 0 (b.take (4 * (ofBytes b).hlen.toNat)) = 0xffff := by
    rw [ofBytes_hlen]
    rfl
  -- only the checksum is left to decide
  split
  · rename_i hbad
    exact ⟨_, _, rfl, hat, iff_of_false (by simp) (fun h => hbad (hcheck.mpr (hok.mp h)))⟩
  · rename_i hgood
    exact ⟨_, _, rfl, hat, iff_of_true rfl (hok.mpr (hcheck.mp (not_not.mp hgood)))⟩

/-- If one of them fails, so does the parser, and leaves the options. -/
theorem finish_of_not_framed {original : Buffer} (horiginal : original.str = b)
    (hframed : ¬ Framed b) (p : NetParser) :
    ∃ result, finish original (ofBytes b) p = (result, ofBytes b, p) ∧ result ≠ .noError := by
  have hsize : original.size = b.length := by rw [Buffer.size, horiginal]
  rw [framed_iff] at hframed
  unfold finish
  rw [hsize]
  -- the checks are made in this order, and each has an error of its own
  split
  · exact ⟨_, rfl, by simp⟩
  split
  · exact ⟨_, rfl, by simp⟩
  split
  · exact ⟨_, rfl, by simp⟩
  split
  · exact ⟨_, rfl, by simp⟩
  · rename_i hoptions hver hhlen hlength
    exact absurd ⟨hoptions, not_not.mp hver, hhlen, not_not.mp hlength⟩ hframed

/-! ### What the header is serialized to -/

/-- The byte with the version and the length. -/
def firstByte (h : IPv4Header) : UInt8 := (h.ver <<< 4) ||| (h.hlen &&& 0xf)

/-- The word with the flags and the fragment offset. -/
def foVal (h : IPv4Header) : UInt16 :=
  (if h.df then 0x4000 else 0) ||| (if h.mf then 0x2000 else 0) ||| (h.offset &&& 0x1fff)

/-- The fields before the checksum. -/
def front (h : IPv4Header) : List UInt8 :=
  toBytes 1 h.firstByte.toNat ++ (toBytes 1 h.tos.toNat ++
    (toBytes 2 h.len.toNat ++ (toBytes 2 h.id.toNat ++ (toBytes 2 h.foVal.toNat ++
      (toBytes 1 h.ttl.toNat ++ toBytes 1 h.proto.toNat)))))

/-- The fields after it, and the space for options. -/
def back (h : IPv4Header) : List UInt8 :=
  toBytes 4 h.src.toNat ++ (toBytes 4 h.dst.toNat ++
    List.replicate (4 * h.hlen.toNat - length) 0)

/-- The options are filled up with zeros. -/
theorem resize_of_le {s : List UInt8} {n : Nat} (h : s.length ≤ n) :
    resize s n = s ++ List.replicate (n - s.length) 0 := by
  rw [resize, List.take_of_length_le h]

/-- **The bytes of a header**, with the checksum between a front part and a back part that do not
    depend on it. -/
theorem serialize_eq {h : IPv4Header} (hver : h.ver = 4) (hlen : 5 ≤ h.hlen) :
    h.serialize = .ok (h.front ++ (toBytes 2 h.cksum.toNat ++ h.back)) := by
  have hfive : 5 ≤ h.hlen.toNat := hlen
  unfold serialize
  rw [if_neg (not_not.mpr hver), if_neg (by unfold length; omega)]
  simp only [NetUnparser.u8, NetUnparser.u16, NetUnparser.u32, NetUnparser.unparseInt,
    List.nil_append]
  rw [resize_of_le (by simp; omega)]
  simp [front, back, firstByte, foVal, length]

theorem length_front (h : IPv4Header) : h.front.length = 10 := by
  simp [front]

/-- What follows the checksum, with as many zeros as the header length asks for. -/
theorem length_back {h : IPv4Header} (hlen : 5 ≤ h.hlen) :
    h.back.length = 4 * h.hlen.toNat - 12 := by
  have hfive : 5 ≤ h.hlen.toNat := hlen
  simp [back, length]
  omega

/-- The two flags are bits of their own in the word of the fragment offset. -/
theorem testBit_foVal (h : IPv4Header) :
    h.foVal.toNat.testBit 14 = h.df ∧ h.foVal.toNat.testBit 13 = h.mf := by
  have hmasks : Nat.testBit 16384 14 = true ∧ Nat.testBit 16384 13 = false ∧
      Nat.testBit 8192 14 = false ∧ Nat.testBit 8192 13 = true ∧
      Nat.testBit 8191 14 = false ∧ Nat.testBit 8191 13 = false := by
    decide
  simp [foVal, BitField.testBit_mask16, hmasks]

/-- The offset is in the lower thirteen bits of that word. -/
theorem foVal_mod (h : IPv4Header) : h.foVal.toNat % 2 ^ 13 = h.offset.toNat % 2 ^ 13 := by
  have hoffset : h.offset.toNat &&& 0x1fff = h.offset.toNat % 2 ^ 13 :=
    Nat.and_two_pow_sub_one_eq_mod _ 13
  have hflags : ∀ c d : Bool,
      ((if c then (0x4000 : UInt16) else 0) ||| (if d then 0x2000 else 0)).toNat % 2 ^ 13 = 0 := by
    decide
  rw [foVal, UInt16.toNat_or, Nat.or_mod_two_pow, hflags, UInt16.toNat_and]
  show 0 ||| (h.offset.toNat &&& 0x1fff) % 2 ^ 13 = _
  rw [hoffset, Nat.zero_or, Nat.mod_mod]

/-- The fields are read back, if those of a few bits fit. -/
theorem ofBytes_serialized {h : IPv4Header} (hver : h.ver = 4) (hlen : h.hlen.toNat ≤ 15)
    (hoffset : h.offset.toNat < 2 ^ 13) (rest : List UInt8) :
    ofBytes (h.front ++ (toBytes 2 h.cksum.toNat ++ (h.back ++ rest))) = h := by
  -- the version is in the upper half of the first byte, the length in the lower
  have hfirst : h.firstByte.toNat = 64 + h.hlen.toNat := by
    have hfour : h.ver.toNat = 4 := congrArg UInt8.toNat hver
    rw [firstByte, BitField.toNat_halves, hfour]
    omega
  have hupper : UInt8.ofNat (h.firstByte.toNat / 16) = h.ver := by
    rw [hver, show h.firstByte.toNat / 16 = 4 by omega]
    rfl
  have hlower : h.firstByte.toNat % 16 = h.hlen.toNat := by omega
  have hlow : h.foVal.toNat % 8192 = h.offset.toNat := h.foVal_mod.trans (Nat.mod_eq_of_lt hoffset)
  obtain ⟨hdf, hmf⟩ := h.testBit_foVal
  have hbyte := h.firstByte.toNat_lt
  have hword := h.foVal.toNat_lt
  unfold ofBytes front back
  simp [Nat.mod_eq_of_lt hbyte, Nat.mod_eq_of_lt hword, hupper, hlower, hlow, hdf, hmf]

end IPv4Header

namespace IPv4Datagram

open IPv4Header

/-- The string is an IPv4 datagram. -/
structure Valid (b : List UInt8) : Prop extends Framed b where
  size : IPv4Header.length ≤ b.length
  checksum : ChecksumOk b

/-- A string that is not a datagram and gets through: its sum is wrong, or the header does not agree
    with the length, but what follows the first twenty bytes is as long as the payload should be. -/
def Slips (b : List UInt8) : Prop :=
  IPv4Header.length ≤ b.length ∧
    ((Framed b ∧ ¬ ChecksumOk b) ∨
      (¬ Framed b ∧ b.length - IPv4Header.length = (field b 2 2 + 2 ^ 16 - sizeIn b) % 2 ^ 16))

instance (b : List UInt8) : Decidable (Valid b) :=
  decidable_of_iff (Framed b ∧ IPv4Header.length ≤ b.length ∧ ChecksumOk b)
    ⟨fun h => ⟨h.1, h.2.1, h.2.2⟩, fun h => ⟨h.toFramed, h.size, h.checksum⟩⟩

/-- The length of the payload is a 16-bit difference, which wraps where the header is longer than
    the datagram. -/
theorem toNat_payloadLength_ofBytes (b : List UInt8) :
    (IPv4Header.ofBytes b).payloadLength.toNat = (field b 2 2 + 2 ^ 16 - sizeIn b) % 2 ^ 16 := by
  have hfour : (4 : UInt16).toNat = 4 := rfl
  rw [IPv4Header.payloadLength, UInt16.toNat_sub, UInt16.toNat_mul, UInt8.toNat_toUInt16,
    ofBytes_hlen, ofBytes_len, hfour, sizeIn]
  omega

theorem size_ofBuffer {p : NetParser} {b : List UInt8} {k : Nat} (hp : NetParser.At p b k)
    (hle : k ≤ b.length) : (BufferList.ofBuffer p.buffer).size = b.length - k := by
  rw [BufferList.size_eq_length, BufferList.concatenate_ofBuffer, (hp.reads hle).left,
    List.length_drop]

/-- The header of a new datagram announces a payload longer than any string that is too short for a
    header. -/
theorem parse_of_short (buffer : Buffer) (hshort : buffer.str.length < IPv4Header.length) :
    (parse {} buffer).1 ≠ .noError := by
  have hsize : (BufferList.ofBuffer buffer).size = buffer.str.length :=
    size_ofBuffer (NetParser.At.start buffer) (Nat.zero_le _)
  have hannounced : ({} : IPv4Header).payloadLength.toNat = 65516 := rfl
  unfold parse
  dsimp only
  rw [IPv4Header.parse_of_short _ (NetParser.At.start buffer) hshort]
  dsimp only
  rw [if_pos (by rw [hsize, hannounced]; unfold IPv4Header.length at hshort; omega)]
  simp

/-- The strings whose header agrees with their length are accepted, whatever the checksum says. -/
theorem parse_of_framed (d : IPv4Datagram) (buffer : Buffer)
    (hlong : IPv4Header.length ≤ buffer.str.length) (hframed : Framed buffer.str) :
    (d.parse buffer).1 = .noError ∧ (d.parse buffer).2.header = .ofBytes buffer.str ∧
      ∃ rest : Buffer, (d.parse buffer).2.payload = .ofBuffer rest ∧
        rest.str = buffer.str.drop (sizeIn buffer.str) := by
  -- the buffer that is left starts behind the options
  obtain ⟨q, hq, hfields⟩ := d.header.parse_of_long (NetParser.At.start buffer) hlong
  obtain ⟨result, q', hfinish, hq', -⟩ := finish_of_framed rfl hframed hq
  rw [hfinish] at hfields
  have hsize := size_ofBuffer hq' hframed.options
  have hannounced := toNat_payloadLength_ofBytes buffer.str
  have hlen := hframed.len
  have hoptions := hframed.options
  have hlt : field buffer.str 2 2 < 2 ^ 16 := field_lt buffer.str 2 2
  unfold parse
  dsimp only
  rw [hfields]
  dsimp only
  rw [if_neg (by rw [hsize, hannounced]; omega)]
  exact ⟨hq'.error_iff.mpr hoptions, rfl, q'.buffer, rfl, (hq'.reads hoptions).left⟩

/-- Of the others, those whose payload after the first twenty bytes is as long as announced. -/
theorem parse_of_not_framed (d : IPv4Datagram) (buffer : Buffer)
    (hlong : IPv4Header.length ≤ buffer.str.length) (hframed : ¬ Framed buffer.str) :
    (d.parse buffer).1 = .noError ↔ buffer.str.length - IPv4Header.length =
      (field buffer.str 2 2 + 2 ^ 16 - sizeIn buffer.str) % 2 ^ 16 := by
  -- the options have not been skipped here, so the payload is counted from byte 20 on
  obtain ⟨q, hq, hfields⟩ := d.header.parse_of_long (NetParser.At.start buffer) hlong
  obtain ⟨result, hfinish, -⟩ := finish_of_not_framed (rfl : buffer.str = buffer.str) hframed q
  rw [hfinish] at hfields
  unfold parse
  dsimp only
  rw [hfields]
  dsimp only
  rw [size_ofBuffer hq hlong, toNat_payloadLength_ofBytes]
  split
  · rename_i hdiffer
    exact iff_of_false (by simp) hdiffer
  · rename_i hsame
    exact iff_of_true (hq.error_iff.mpr hlong) (not_not.mp hsame)

/-- What is read from such a string can be sent on. -/
theorem parse_wellFormed {buffer : Buffer} (hlong : IPv4Header.length ≤ buffer.str.length)
    (hframed : Framed buffer.str) : (parse {} buffer).2.WellFormed := by
  obtain ⟨hnoError, hheader, -⟩ := parse_of_framed {} buffer hlong hframed
  refine ⟨?_, ?_, ?_⟩
  · rw [hheader]
    show UInt8.ofNat (field buffer.str 0 1 / 2 ^ 4) = 4
    rw [hframed.ver]
    rfl
  · rw [hheader, UInt8.le_iff_toNat_le, ofBytes_hlen]
    exact hframed.hlen
  · -- a payload of another size is an error
    unfold parse at hnoError ⊢
    dsimp only at hnoError ⊢
    split at hnoError
    · exact absurd hnoError (by simp)
    · rename_i hsize
      rw [if_neg hsize]
      exact not_not.mp hsize

/-- What is accepted. -/
theorem parse_noError_iff (buffer : Buffer) :
    (parse {} buffer).1 = .noError ↔ Valid buffer.str ∨ Slips buffer.str := by
  -- shorter than a header; framed, where only the checksum is open; or not framed
  by_cases hlong : IPv4Header.length ≤ buffer.str.length
  swap
  · have hrejected := parse_of_short buffer (by omega)
    refine ⟨fun h => absurd h hrejected, ?_⟩
    rintro (hvalid | hslips)
    · exact absurd hvalid.size hlong
    · exact absurd hslips.1 hlong
  by_cases hframed : Framed buffer.str
  · refine iff_of_true (parse_of_framed {} buffer hlong hframed).1 ?_
    by_cases hchecksum : ChecksumOk buffer.str
    · exact .inl ⟨hframed, hlong, hchecksum⟩
    · exact .inr ⟨hlong, .inl ⟨hframed, hchecksum⟩⟩
  · rw [parse_of_not_framed {} buffer hlong hframed]
    refine ⟨fun h => .inr ⟨hlong, .inr ⟨hframed, h⟩⟩, ?_⟩
    rintro (hvalid | ⟨-, ⟨hframed', -⟩ | ⟨-, hsize⟩⟩)
    · exact absurd hvalid.toFramed hframed
    · exact absurd hframed' hframed
    · exact hsize

/-- A string that slips through is not a valid datagram. -/
theorem Slips.not_valid {b : List UInt8} (h : Slips b) : ¬ Valid b := by
  rintro hvalid
  obtain ⟨-, ⟨-, hchecksum⟩ | ⟨hframed, -⟩⟩ := h
  · exact hchecksum hvalid.checksum
  · exact hframed hvalid.toFramed

/-- **The parser accepts exactly the valid datagrams, but for those that slip through**, and fills
    in the fields and the payload of a valid one. -/
theorem parse_iff_valid_datagram (buffer : Buffer) :
    (((parse {} buffer).1 = .noError ↔ Valid buffer.str) ↔ ¬ Slips buffer.str) ∧
      (Valid buffer.str →
        (parse {} buffer).2.header = .ofBytes buffer.str ∧
          (parse {} buffer).2.payload.concatenate = buffer.str.drop (sizeIn buffer.str)) := by
  constructor
  · rw [parse_noError_iff]
    constructor
    · intro hexact hslips
      exact hslips.not_valid (hexact.mp (.inr hslips))
    · intro hnot
      exact ⟨fun h => h.resolve_right hnot, .inl⟩
  · intro hvalid
    obtain ⟨-, hheader, rest, hpayload, hrest⟩ :=
      parse_of_framed {} buffer hvalid.size hvalid.toFramed
    refine ⟨hheader, ?_⟩
    rw [hpayload, BufferList.concatenate_ofBuffer, hrest]

/-- A header whose checksum is wrong is accepted. -/
theorem parse_accepts_bad_checksum :
    (parse {} (Buffer.ofString
        [0x45, 0, 0, 20, 0, 0, 0, 0, 64, 6, 0, 0, 10, 0, 0, 1, 10, 0, 0, 2])).1 = .noError ∧
      ¬ Valid [0x45, 0, 0, 20, 0, 0, 0, 0, 64, 6, 0, 0, 10, 0, 0, 1, 10, 0, 0, 2] := by
  decide

/-! ### The round trip -/

/-- The fields of a few bits fit, and the length is the one of the header and the payload. -/
structure Fits (d : IPv4Datagram) : Prop where
  ver : d.header.ver = 4
  hlen : 5 ≤ d.header.hlen
  hlen_le : d.header.hlen.toNat ≤ 15
  offset : d.header.offset.toNat < 2 ^ 13
  len : d.header.len.toNat = 4 * d.header.hlen.toNat + d.payload.size

/-- The checksum that is put into the header. -/
def checksum (h : IPv4Header) : UInt16 :=
  (InternetChecksum.add {} (h.front ++ (toBytes 2 0 ++ h.back))).value

/-- The header as it is sent. -/
def headerBytes (h : IPv4Header) : List UInt8 :=
  h.front ++ (toBytes 2 (checksum h).toNat ++ h.back)

/-- A datagram that fits can be serialized. -/
theorem Fits.wellFormed {d : IPv4Datagram} (h : d.Fits) : d.WellFormed where
  ver := h.ver
  hlen := h.hlen
  size := by
    have hfour : (4 : UInt16).toNat = 4 := rfl
    have hlen := h.len
    have hle := h.hlen_le
    have hlt := d.header.len.toNat_lt
    rw [IPv4Header.payloadLength, UInt16.toNat_sub, UInt16.toNat_mul, UInt8.toNat_toUInt16, hfour]
    omega

/-- **The bytes of a datagram** are those of its header, with the right checksum, and its payload.
    -/
theorem serialize_eq {d : IPv4Datagram} (h : d.WellFormed) :
    d.serialize = .ok ((BufferList.ofString (headerBytes d.header)).append d.payload) := by
  have hheader : ∀ cksum : UInt16, (d.header.setCksum cksum).serialize
      = .ok (d.header.front ++ (toBytes 2 cksum.toNat ++ d.header.back)) :=
    fun cksum => IPv4Header.serialize_eq h.ver h.hlen
  unfold serialize
  rw [if_neg (not_not.mpr h.size), hheader]
  show ((d.header.setCksum (checksum d.header)).serialize >>= fun header =>
    pure ((BufferList.ofString header).append d.payload)) = _
  rw [hheader]
  rfl

/-- The header takes as many bytes as its length field says. -/
theorem length_headerBytes {h : IPv4Header} (hlen : 5 ≤ h.hlen) :
    (headerBytes h).length = 4 * h.hlen.toNat := by
  have hfive : 5 ≤ h.hlen.toNat := hlen
  rw [headerBytes, List.length_append, List.length_append, length_front, length_back hlen,
    length_toBytes]
  omega

section

variable {d : IPv4Datagram} (h : d.Fits)
include h

/-- The fields of the serialized header are read back, with the checksum filled in. -/
theorem Fits.ofBytes_eq :
    IPv4Header.ofBytes (headerBytes d.header ++ d.payload.concatenate)
      = d.header.setCksum (checksum d.header) := by
  have hback := ofBytes_serialized (h := d.header.setCksum (checksum d.header)) h.ver h.hlen_le
    h.offset d.payload.concatenate
  rw [headerBytes, List.append_assoc, List.append_assoc]
  exact hback

/-- And the header ends where it was made to end. -/
theorem Fits.sizeIn_eq :
    sizeIn (headerBytes d.header ++ d.payload.concatenate) = 4 * d.header.hlen.toNat := by
  rw [sizeIn, ← ofBytes_hlen, h.ofBytes_eq]
  rfl

/-- **What is serialized is a valid datagram.** -/
theorem Fits.valid : Valid (headerBytes d.header ++ d.payload.concatenate) := by
  have hfive : 5 ≤ d.header.hlen.toNat := h.hlen
  have hlength : (headerBytes d.header ++ d.payload.concatenate).length = d.header.len.toNat := by
    rw [List.length_append, length_headerBytes h.hlen, h.len, BufferList.size_eq_length]
  have hframed : Framed (headerBytes d.header ++ d.payload.concatenate) := by
    rw [framed_iff, h.ofBytes_eq, hlength]
    have hlen := h.len
    exact ⟨by show ¬ d.header.len.toNat < 4 * d.header.hlen.toNat; omega, h.ver,
      UInt8.not_lt.mpr h.hlen, rfl⟩
  refine ⟨hframed, by rw [hlength, h.len, IPv4Header.length]; omega, ?_⟩
  have hlen := h.hlen_le
  have hheader := length_headerBytes h.hlen
  rw [ChecksumOk, h.sizeIn_eq, List.take_left' hheader]
  -- the checksum field makes the sum over the header all ones
  refine InternetChecksum.sum_insert_checksum (by rw [length_front]) ?_
  refine InternetChecksum.sum_lt_of_length (Nat.zero_le _) ?_
  rw [headerBytes] at hheader
  simp only [List.length_append, length_toBytes] at hheader ⊢
  omega

/-- **A datagram survives the round trip**, but for its checksum. -/
theorem Fits.parse_serialized (d₀ : IPv4Datagram) {buffer : Buffer}
    (hbuffer : buffer.str = headerBytes d.header ++ d.payload.concatenate) :
    (d₀.parse buffer).1 = .noError ∧
      (d₀.parse buffer).2.header = d.header.setCksum (checksum d.header) ∧
      ∃ rest : Buffer, (d₀.parse buffer).2.payload = .ofBuffer rest ∧
        rest.str = d.payload.concatenate := by
  have hvalid := h.valid
  rw [← hbuffer] at hvalid
  obtain ⟨hok, hheader, rest, hpayload, hrest⟩ :=
    parse_of_framed d₀ buffer hvalid.size hvalid.toFramed
  rw [hbuffer] at hheader hrest
  rw [h.sizeIn_eq, List.drop_left' (length_headerBytes h.hlen)] at hrest
  exact ⟨hok, hheader.trans h.ofBytes_eq, rest, hpayload, hrest⟩

end

/-- The header of a valid datagram is accepted by its parser. -/
theorem Valid.header_noError {buffer : Buffer} (h : Valid buffer.str) (h₀ : IPv4Header) :
    (h₀.parse { buffer := buffer }).1 = .noError := by
  obtain ⟨q, hq, hfields⟩ := h₀.parse_of_long (NetParser.At.start buffer) h.size
  obtain ⟨result, q', hfinish, -, hresult⟩ := finish_of_framed rfl h.toFramed hq
  rw [hfields, hfinish]
  exact hresult.mpr h.checksum

/-- **Round trip.**  A datagram whose fields fit is serialized to as many bytes as it says; the
    parser of the header accepts them, and the parser of the datagram restores everything but the
    checksum. -/
theorem datagram_roundtrip (d d₀ : IPv4Datagram) (h₀ : IPv4Header) (h : d.Fits) :
    ∃ bytes cksum, d.serialize = .ok bytes ∧
      bytes.concatenate.length = d.header.len.toNat ∧
      (h₀.parse { buffer := Buffer.ofString bytes.concatenate }).1 = .noError ∧
      (d₀.parse (Buffer.ofString bytes.concatenate)).1 = .noError ∧
      (d₀.parse (Buffer.ofString bytes.concatenate)).2.header = d.header.setCksum cksum ∧
      (d₀.parse (Buffer.ofString bytes.concatenate)).2.payload.concatenate
        = d.payload.concatenate := by
  -- on the wire the buffers of the datagram are joined
  have hbytes : ((BufferList.ofString (headerBytes d.header)).append d.payload).concatenate
      = headerBytes d.header ++ d.payload.concatenate := by
    rw [BufferList.concatenate_append, BufferList.concatenate_ofString]
  have hbuffer : (Buffer.ofString ((BufferList.ofString (headerBytes d.header)).append
      d.payload).concatenate).str = headerBytes d.header ++ d.payload.concatenate := by
    rw [Buffer.str_ofString, hbytes]
  have hvalid := h.valid
  obtain ⟨hok, hheader, rest, hpayload, hrest⟩ := h.parse_serialized d₀ hbuffer
  refine ⟨_, checksum d.header, serialize_eq h.wellFormed, ?_, ?_, hok, hheader, ?_⟩
  · rw [hbytes, List.length_append, length_headerBytes h.hlen, h.len, BufferList.size_eq_length]
  · rw [← hbuffer] at hvalid
    exact hvalid.header_noError h₀
  · rw [hpayload, BufferList.concatenate_ofBuffer, hrest]

/-- A datagram with space for options and three bytes. -/
theorem datagram_roundtrip_options :
    let d : IPv4Datagram := { header := { hlen := 6, len := 27 }, payload := .ofString [1, 2, 3] }
    d.Fits ∧ ∃ bytes, d.serialize = .ok bytes ∧ bytes.concatenate.length = 27 ∧
      (parse {} (Buffer.ofString bytes.concatenate)).1 = .noError := by
  have hfits : Fits { header := { hlen := 6, len := 27 }, payload := .ofString [1, 2, 3] } :=
    ⟨by decide, by decide, by decide, by decide, by decide⟩
  obtain ⟨bytes, cksum, hok, hlength, -, hparse, -⟩ := datagram_roundtrip
    { header := { hlen := 6, len := 27 }, payload := .ofString [1, 2, 3] } {} {} hfits
  exact ⟨hfits, bytes, hok, hlength, hparse⟩

end IPv4Datagram

end Sponge
