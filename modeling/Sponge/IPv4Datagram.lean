import Sponge.Parser
import Sponge.InternetChecksum

namespace Sponge

/-!
# IPv4 datagrams

The header with its defaults, the datagram made of a header and a payload, and the codecs of both.
A parser is given the object it fills, since it leaves the fields it has read there also when it
fails; `IPv4Datagram.parse` goes on from what the header's parser leaves.

`serialize_isOk_iff` says which datagrams can be serialized.
-/

/-- The header of an IPv4 datagram (options are not supported). -/
structure IPv4Header where
  ver : UInt8 := 4
  hlen : UInt8 := 5
  tos : UInt8 := 0
  len : UInt16 := 0
  id : UInt16 := 0
  df : Bool := true
  mf : Bool := false
  offset : UInt16 := 0
  ttl : UInt8 := 128
  proto : UInt8 := 6
  cksum : UInt16 := 0
  src : UInt32 := 0
  dst : UInt32 := 0
  deriving DecidableEq, Repr

namespace IPv4Header

/-- The length of a header without options. -/
def length : Nat := 20

/-- Length of the payload. -/
def payloadLength (h : IPv4Header) : UInt16 := h.len - 4 * h.hlen.toUInt16

/-- The pseudo-header's contribution to the TCP checksum. -/
def pseudoCksum (h : IPv4Header) : UInt32 :=
  let pcksum := (h.src >>> 16) + (h.src &&& 0xffff)
  let pcksum := pcksum + ((h.dst >>> 16) + (h.dst &&& 0xffff))
  let pcksum := pcksum + h.proto.toUInt32
  pcksum + h.payloadLength.toUInt32

/-- Parse the IP fields. -/
def parse (h : IPv4Header) (p : NetParser) : ParseResult × IPv4Header × NetParser :=
  let originalSerializedVersion := p.buffer
  let dataSize := p.buffer.size
  if dataSize < length then (.packetTooShort, h, p)
  else
    let (firstByte, p) := p.u8
    let (tos, p) := p.u8
    let (len, p) := p.u16
    let (id, p) := p.u16
    let (foVal, p) := p.u16
    let (ttl, p) := p.u8
    let (proto, p) := p.u8
    let (cksum, p) := p.u16
    let (src, p) := p.u32
    let (dst, p) := p.u32
    let h : IPv4Header :=
      { ver := firstByte >>> 4
        hlen := firstByte &&& 0x0f
        tos := tos
        len := len
        id := id
        df := foVal &&& 0x4000 ≠ 0
        mf := foVal &&& 0x2000 ≠ 0
        offset := foVal &&& 0x1fff
        ttl := ttl
        proto := proto
        cksum := cksum
        src := src
        dst := dst }
    if dataSize < 4 * h.hlen.toNat then (.packetTooShort, h, p)
    else if h.ver ≠ 4 then (.wrongIPVersion, h, p)
    else if h.hlen < 5 then (.headerTooShort, h, p)
    else if dataSize ≠ h.len.toNat then (.truncatedPacket, h, p)
    else
      let p := p.removePrefix (h.hlen.toNat * 4 - length)
      if p.error ≠ .noError then (p.error, h, p)
      else
        let check := InternetChecksum.add {} (originalSerializedVersion.str.take (4 * h.hlen.toNat))
        if check.value ≠ 0 then (.badChecksum, h, p) else (.noError, h, p)

/-- Set the checksum field. -/
def setCksum (h : IPv4Header) (cksum : UInt16) : IPv4Header := { h with cksum := cksum }

/-- Change the length of a string, filling up with zeros. -/
def resize (s : List UInt8) (n : Nat) : List UInt8 := s.take n ++ List.replicate (n - s.length) 0

/-- Serialize the IP fields (does not recompute the checksum). -/
def serialize (h : IPv4Header) : Except Exception (List UInt8) :=
  if h.ver ≠ 4 then .error (.runtimeError "wrong IP version")
  else if 4 * h.hlen.toNat < length then .error (.runtimeError "IP header too short")
  else
    let ret := []
    let firstByte := (h.ver <<< 4) ||| (h.hlen &&& 0xf)
    let ret := NetUnparser.u8 ret firstByte
    let ret := NetUnparser.u8 ret h.tos
    let ret := NetUnparser.u16 ret h.len
    let ret := NetUnparser.u16 ret h.id
    let foVal :=
      (if h.df then 0x4000 else 0) ||| (if h.mf then 0x2000 else 0) ||| (h.offset &&& 0x1fff)
    let ret := NetUnparser.u16 ret foVal
    let ret := NetUnparser.u8 ret h.ttl
    let ret := NetUnparser.u8 ret h.proto
    let ret := NetUnparser.u16 ret h.cksum
    let ret := NetUnparser.u32 ret h.src
    let ret := NetUnparser.u32 ret h.dst
    .ok (resize ret (4 * h.hlen.toNat))

end IPv4Header

/-- An IPv4 datagram. -/
structure IPv4Datagram where
  header : IPv4Header := {}
  payload : BufferList := {}
  deriving DecidableEq, Repr

namespace IPv4Datagram

/-- Parse the datagram.  The result of the header's parser is not looked at. -/
def parse (d : IPv4Datagram) (buffer : Buffer) : ParseResult × IPv4Datagram :=
  let p : NetParser := { buffer := buffer }
  let (_, header, p) := d.header.parse p
  let d : IPv4Datagram := { header := header, payload := .ofBuffer p.buffer }
  if d.payload.size ≠ d.header.payloadLength.toNat then (.packetTooShort, d) else (p.error, d)

/-- Serialize the datagram, with the checksum of its header. -/
def serialize (d : IPv4Datagram) : Except Exception BufferList :=
  if d.payload.size ≠ d.header.payloadLength.toNat then
    .error (.runtimeError "IPv4Datagram::serialize: payload is wrong size")
  else do
    let headerZeroChecksum ← (d.header.setCksum 0).serialize
    -- the checksum is taken over the header only
    let check := InternetChecksum.add {} headerZeroChecksum
    let header ← (d.header.setCksum check.value).serialize
    return (BufferList.ofString header).append d.payload

/-- A datagram whose fields agree with one another and with the payload. -/
structure WellFormed (d : IPv4Datagram) : Prop where
  ver : d.header.ver = 4
  hlen : 5 ≤ d.header.hlen
  size : d.payload.size = d.header.payloadLength.toNat

instance (d : IPv4Datagram) : Decidable d.WellFormed :=
  decidable_of_iff
    (d.header.ver = 4 ∧ 5 ≤ d.header.hlen ∧ d.payload.size = d.header.payloadLength.toNat)
    ⟨fun h => ⟨h.1, h.2.1, h.2.2⟩, fun h => ⟨h.ver, h.hlen, h.size⟩⟩

end IPv4Datagram

/-- A header can be serialized exactly if it is of version 4 and has a length of at least five
    words. -/
theorem IPv4Header.serialize_isOk_iff (h : IPv4Header) :
    (∃ bytes, h.serialize = .ok bytes) ↔ h.ver = 4 ∧ 5 ≤ h.hlen := by
  have hlen : 4 * h.hlen.toNat < IPv4Header.length ↔ ¬ 5 ≤ h.hlen := by
    rw [UInt8.le_iff_toNat_le, IPv4Header.length]
    simp only [UInt8.reduceToNat]
    omega
  unfold serialize
  -- the two checks of the source, in its order
  split
  · rename_i hver
    simp [hver]
  · rename_i hver
    split
    · rename_i hshort
      simp [hlen.mp hshort]
    · rename_i hlong
      refine ⟨fun _ => ⟨by simpa using hver, ?_⟩, fun _ => ⟨_, rfl⟩⟩
      by_contra hnot
      exact hlong (hlen.mpr hnot)

/-- **Serializing throws exactly for the datagrams that are not well-formed.** -/
theorem IPv4Datagram.serialize_isOk_iff (d : IPv4Datagram) :
    (∃ bytes, d.serialize = .ok bytes) ↔ d.WellFormed := by
  unfold serialize
  by_cases hsize : d.payload.size = d.header.payloadLength.toNat
  swap
  · rw [if_pos hsize]
    refine ⟨fun ⟨_, hok⟩ => absurd hok (by simp), fun hwf => absurd hwf.size hsize⟩
  rw [if_neg (by simpa using hsize)]
  constructor
  · rintro ⟨bytes, hok⟩
    cases hheader : (d.header.setCksum 0).serialize with
    | error e =>
      rw [hheader] at hok
      exact absurd hok (by simp [bind, Except.bind])
    | ok zero =>
      obtain ⟨hver, hlen⟩ := (IPv4Header.serialize_isOk_iff _).mp ⟨zero, hheader⟩
      exact ⟨hver, hlen, hsize⟩
  · rintro ⟨hver, hlen, -⟩
    -- neither check reads the checksum
    have hfine : ∀ cksum, ∃ bytes, (d.header.setCksum cksum).serialize = .ok bytes :=
      fun cksum => (IPv4Header.serialize_isOk_iff (d.header.setCksum cksum)).mpr ⟨hver, hlen⟩
    obtain ⟨zero, hzero⟩ := hfine 0
    obtain ⟨header, hheader⟩ := hfine (InternetChecksum.add {} zero).value
    refine ⟨(BufferList.ofString header).append d.payload, ?_⟩
    rw [hzero]
    show ((d.header.setCksum (InternetChecksum.add {} zero).value).serialize >>= fun header =>
      pure ((BufferList.ofString header).append d.payload)) = _
    rw [hheader]
    rfl

end Sponge
