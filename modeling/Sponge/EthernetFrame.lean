import Sponge.Parser

namespace Sponge

/-!
# Ethernet frames

An Ethernet frame is a header of fourteen bytes and a payload.  The header's parser reports a
string that is shorter by what it returns, and leaves the `NetParser` as it is; the frame's parser
does not look at what the header's returned but at the error of the `NetParser`.

`EthernetFrame.parse_long` and `parse_short` say what is parsed from any string.  No string is
rejected: one with less than a header becomes the payload of a frame that keeps the header it had.
-/

/-- An Ethernet address. -/
abbrev EthernetAddress := Vector UInt8 6

/-- The address of all zeros. -/
def EthernetAddress.zero : EthernetAddress := Vector.replicate 6 0

/-- The header of an Ethernet frame. -/
structure EthernetHeader where
  dst : EthernetAddress := .zero
  src : EthernetAddress := .zero
  type : UInt16 := 0
  deriving DecidableEq, Repr

namespace EthernetHeader

/-- The length of a header in bytes. -/
def length : Nat := 14

def typeIPv4 : UInt16 := 0x800

def typeARP : UInt16 := 0x806

/-- Parse the header. -/
def parse (h : EthernetHeader) (p : NetParser) : ParseResult × EthernetHeader × NetParser :=
  if p.buffer.size < length then (.packetTooShort, h, p)
  else
    let (dst, p) := p.u8s 6
    let (src, p) := p.u8s 6
    let (type, p) := p.u16
    (p.error, { h with dst := dst, src := src, type := type }, p)

/-- Serialize the header. -/
def serialize (h : EthernetHeader) : List UInt8 :=
  let ret := []
  let ret := NetUnparser.u8s ret h.dst
  let ret := NetUnparser.u8s ret h.src
  let ret := NetUnparser.u16 ret h.type
  ret

end EthernetHeader

/-- An Ethernet frame. -/
structure EthernetFrame where
  header : EthernetHeader := {}
  payload : BufferList := {}
  deriving DecidableEq, Repr

namespace EthernetFrame

/-- Parse the frame.  What the header's parser returns is not looked at. -/
def parse (f : EthernetFrame) (buffer : Buffer) : ParseResult × EthernetFrame :=
  let p : NetParser := { buffer := buffer }
  let (_, header, p) := f.header.parse p
  (p.error, { f with header := header, payload := .ofBuffer p.buffer })

/-- Serialize the frame. -/
def serialize (f : EthernetFrame) : BufferList :=
  let ret : BufferList := {}
  let ret := ret.append (.ofString f.header.serialize)
  let ret := ret.append f.payload
  ret

end EthernetFrame

/-! ### The header -/

namespace EthernetHeader

/-- The fields of a header, one after another. -/
theorem serialize_eq (h : EthernetHeader) :
    h.serialize = h.dst.toList ++ (h.src.toList ++ BigEndian.toBytes 2 h.type.toNat) := by
  simp [serialize, NetUnparser.u8s_eq, NetUnparser.u16, NetUnparser.unparseInt]

/-- A header always takes fourteen bytes. -/
theorem length_serialize (h : EthernetHeader) : h.serialize.length = length := by
  simp [serialize_eq, length]

/-- The header that stands at the front of a string. -/
def ofBytes (b : List UInt8) : EthernetHeader where
  dst := BigEndian.array b 0 6
  src := BigEndian.array b 6 6
  type := .ofNat (BigEndian.field b 12 2)

/-- The fields of a serialized header are read back. -/
theorem ofBytes_serialize (h : EthernetHeader) (rest : List UInt8) :
    ofBytes (h.serialize ++ rest) = h := by
  simp [ofBytes, serialize_eq]

/-- Conversely, the fields of a string serialize to its first bytes. -/
theorem serialize_ofBytes {b : List UInt8} (h : length ≤ b.length) :
    (ofBytes b).serialize = b.take length := by
  unfold length at h
  rw [serialize_eq]
  dsimp only [ofBytes]
  rw [BigEndian.toNat_field_two, BigEndian.toList_array (by omega),
    BigEndian.toList_array (by omega), BigEndian.toBytes_field (by omega), length,
    ← List.append_assoc]
  -- the pieces are joined from the front
  rw [List.drop_zero, ← List.take_add, ← List.take_add]

/-- A header's worth of bytes is taken off a string that has as many. -/
theorem parse_long {buffer : Buffer} (hlong : length ≤ buffer.str.length) (h : EthernetHeader) :
    ∃ p, h.parse { buffer := buffer } = (.noError, ofBytes buffer.str, p) ∧
      p.Reads (buffer.str.drop length) := by
  have hsize : ¬ buffer.size < length := by
    rw [Buffer.size]
    omega
  unfold length at hlong
  obtain ⟨hat, hdst⟩ := (NetParser.At.start buffer).u8s 6
  obtain ⟨hat, hsrc⟩ := hat.u8s 6
  obtain ⟨hat, htype⟩ := hat.u16
  unfold parse
  rw [if_neg hsize]
  dsimp only
  refine ⟨_, ?_, hat.reads (by omega)⟩
  rw [(hat.reads (by omega)).ok, hdst (by omega), hsrc (by omega), htype (by omega), ofBytes]

end EthernetHeader

/-! ### The frame -/

namespace EthernetFrame

/-- The bytes of a frame are those of its header and its payload. -/
@[simp] theorem concatenate_serialize (f : EthernetFrame) :
    f.serialize.concatenate = f.header.serialize ++ f.payload.concatenate := by
  have hempty : BufferList.concatenate {} = [] := rfl
  simp [serialize, hempty]

/-- A string with a header is split behind it. -/
theorem parse_long {buffer : Buffer} (hlong : EthernetHeader.length ≤ buffer.str.length)
    (f : EthernetFrame) :
    (f.parse buffer).1 = .noError ∧ (f.parse buffer).2.header = .ofBytes buffer.str ∧
      (f.parse buffer).2.payload.concatenate = buffer.str.drop EthernetHeader.length := by
  obtain ⟨p, hparse, hreads⟩ := EthernetHeader.parse_long hlong f.header
  unfold parse
  dsimp only
  rw [hparse]
  exact ⟨hreads.ok, rfl, (BufferList.concatenate_ofBuffer _).trans hreads.left⟩

/-- **A string without a whole header is accepted**, as the payload of a frame that keeps the
    header it had. -/
theorem parse_short {buffer : Buffer} (hshort : buffer.str.length < EthernetHeader.length)
    (f : EthernetFrame) :
    f.parse buffer = (.noError, { header := f.header, payload := .ofBuffer buffer }) := by
  have hsize : buffer.size < EthernetHeader.length := hshort
  unfold parse EthernetHeader.parse
  dsimp only
  rw [if_pos hsize]

/-- The header and the payload of a serialized frame are read back. -/
theorem parse_serialize {g : EthernetFrame} {buffer : Buffer}
    (hbuffer : buffer.str = g.serialize.concatenate) (f : EthernetFrame) :
    (f.parse buffer).1 = .noError ∧ (f.parse buffer).2.header = g.header ∧
      (f.parse buffer).2.payload.concatenate = g.payload.concatenate := by
  rw [concatenate_serialize] at hbuffer
  have hlong : EthernetHeader.length ≤ buffer.str.length := by
    rw [hbuffer, List.length_append, EthernetHeader.length_serialize]
    omega
  obtain ⟨hok, hheader, hpayload⟩ := f.parse_long hlong
  refine ⟨hok, ?_, ?_⟩
  · rw [hheader, hbuffer, EthernetHeader.ofBytes_serialize]
  · rw [hpayload, hbuffer, List.drop_left' g.header.length_serialize]

/-- **Exactness.**  That a frame is accepted just when it has a header, and is then serialized to
    the string it was parsed from, holds of the strings with a header and of no others.  Every
    serialized frame is read back. -/
theorem parse_exact_iff (f : EthernetFrame) (buffer : Buffer) :
    ((((f.parse buffer).1 = .noError ↔ EthernetHeader.length ≤ buffer.str.length) ∧
        ((f.parse buffer).1 = .noError →
          (f.parse buffer).2.serialize.concatenate = buffer.str)) ↔
      EthernetHeader.length ≤ buffer.str.length) ∧
    ∀ g : EthernetFrame, buffer.str = g.serialize.concatenate →
      (f.parse buffer).1 = .noError ∧ (f.parse buffer).2.header = g.header ∧
        (f.parse buffer).2.payload.concatenate = g.payload.concatenate := by
  refine ⟨⟨fun hexact => ?_, fun hlong => ?_⟩, fun _ hbuffer => parse_serialize hbuffer f⟩
  · -- a string without a header is accepted all the same
    by_contra hshort
    have hparse := f.parse_short (Nat.lt_of_not_le hshort)
    exact hshort (hexact.1.mp (by rw [hparse]))
  · obtain ⟨hok, hheader, hpayload⟩ := f.parse_long hlong
    refine ⟨⟨fun _ => hlong, fun _ => hok⟩, fun _ => ?_⟩
    rw [concatenate_serialize, hheader, hpayload, EthernetHeader.serialize_ofBytes hlong,
      List.take_append_drop]

/-- One byte is accepted as a frame, which is then serialized to fifteen. -/
theorem one_byte_accepted :
    (({} : EthernetFrame).parse (.ofString [0x45])).1 = .noError ∧
      ([0x45] : List UInt8).length < EthernetHeader.length ∧
      (({} : EthernetFrame).parse (.ofString [0x45])).2.serialize.concatenate
        = List.replicate 14 0 ++ [0x45] := by
  decide

end EthernetFrame

end Sponge
