import Sponge.EthernetFrame

namespace Sponge

/-!
# ARP messages

An ARP message asks for the Ethernet address of an IP address, or answers; its parser and its
serializer support the one combination of types and sizes that goes with Ethernet and IPv4.

`ofBytes` is the message that stands at the front of a string.  `parse_long` says what is parsed
from a string that is long enough, `serialize_ofBytes` that its bytes are written again, and
`parse_serialize` is the round trip of the messages that are supported.
-/

/-- An ARP message. -/
structure ARPMessage where
  hardwareType : UInt16 := 1
  protocolType : UInt16 := EthernetHeader.typeIPv4
  hardwareAddressSize : UInt8 := 6
  protocolAddressSize : UInt8 := 4
  opcode : UInt16 := 0
  senderEthernetAddress : EthernetAddress := .zero
  senderIpAddress : UInt32 := 0
  targetEthernetAddress : EthernetAddress := .zero
  targetIpAddress : UInt32 := 0
  deriving DecidableEq, Repr

namespace ARPMessage

/-- The length of a message in bytes. -/
def length : Nat := 28

/-- The type of Ethernet as a link-layer protocol. -/
def typeEthernet : UInt16 := 1

def opcodeRequest : UInt16 := 1

def opcodeReply : UInt16 := 2

/-- Is this type of message supported by the parser? -/
def supported (m : ARPMessage) : Bool :=
  m.hardwareType = typeEthernet && m.protocolType = EthernetHeader.typeIPv4 &&
    m.hardwareAddressSize = 6 && m.protocolAddressSize = 4 &&
    (m.opcode = opcodeRequest || m.opcode = opcodeReply)

/-- Parse the message. -/
def parse (m : ARPMessage) (buffer : Buffer) : ParseResult × ARPMessage :=
  let p : NetParser := { buffer := buffer }
  if p.buffer.size < length then (.packetTooShort, m)
  else
    let (hardwareType, p) := p.u16
    let (protocolType, p) := p.u16
    let (hardwareAddressSize, p) := p.u8
    let (protocolAddressSize, p) := p.u8
    let (opcode, p) := p.u16
    let m : ARPMessage :=
      { m with
        hardwareType := hardwareType
        protocolType := protocolType
        hardwareAddressSize := hardwareAddressSize
        protocolAddressSize := protocolAddressSize
        opcode := opcode }
    if m.supported = false then (.unsupported, m)
    else
      let (senderEthernetAddress, p) := p.u8s 6
      let (senderIpAddress, p) := p.u32
      let (targetEthernetAddress, p) := p.u8s 6
      let (targetIpAddress, p) := p.u32
      (p.error,
        { m with
          senderEthernetAddress := senderEthernetAddress
          senderIpAddress := senderIpAddress
          targetEthernetAddress := targetEthernetAddress
          targetIpAddress := targetIpAddress })

/-- Serialize the message. -/
def serialize (m : ARPMessage) : Except Exception (List UInt8) :=
  if m.supported = false then
    .error (.runtimeError ("ARPMessage::serialize(): unsupported field combination " ++
      "(must be Ethernet/IP, and request or reply)"))
  else
    let ret := []
    let ret := NetUnparser.u16 ret m.hardwareType
    let ret := NetUnparser.u16 ret m.protocolType
    let ret := NetUnparser.u8 ret m.hardwareAddressSize
    let ret := NetUnparser.u8 ret m.protocolAddressSize
    let ret := NetUnparser.u16 ret m.opcode
    let ret := NetUnparser.u8s ret m.senderEthernetAddress
    let ret := NetUnparser.u32 ret m.senderIpAddress
    let ret := NetUnparser.u8s ret m.targetEthernetAddress
    let ret := NetUnparser.u32 ret m.targetIpAddress
    .ok ret

/-- The fields of a message, one after another. -/
theorem serialize_eq {m : ARPMessage} (h : m.supported = true) :
    m.serialize = .ok (BigEndian.toBytes 2 m.hardwareType.toNat ++
      (BigEndian.toBytes 2 m.protocolType.toNat ++
        (BigEndian.toBytes 1 m.hardwareAddressSize.toNat ++
          (BigEndian.toBytes 1 m.protocolAddressSize.toNat ++
            (BigEndian.toBytes 2 m.opcode.toNat ++
              (m.senderEthernetAddress.toList ++ (BigEndian.toBytes 4 m.senderIpAddress.toNat ++
                (m.targetEthernetAddress.toList ++
                  BigEndian.toBytes 4 m.targetIpAddress.toNat)))))))) := by
  rw [serialize, if_neg (by simp [h])]
  simp [NetUnparser.u8s_eq, NetUnparser.u8, NetUnparser.u16, NetUnparser.u32,
    NetUnparser.unparseInt]

/-- A message of another protocol, or of another kind, cannot be serialized; the exception says so.
    -/
theorem serialize_unsupported {m : ARPMessage} (h : m.supported = false) :
    m.serialize = .error (.runtimeError
      ("ARPMessage::serialize(): unsupported field combination " ++
        "(must be Ethernet/IP, and request or reply)")) := by
  rw [serialize, if_pos h]

/-! ### The message in a string -/

/-- The message that stands at the front of a string. -/
def ofBytes (b : List UInt8) : ARPMessage where
  hardwareType := .ofNat (BigEndian.field b 0 2)
  protocolType := .ofNat (BigEndian.field b 2 2)
  hardwareAddressSize := .ofNat (BigEndian.field b 4 1)
  protocolAddressSize := .ofNat (BigEndian.field b 5 1)
  opcode := .ofNat (BigEndian.field b 6 2)
  senderEthernetAddress := BigEndian.array b 8 6
  senderIpAddress := .ofNat (BigEndian.field b 14 4)
  targetEthernetAddress := BigEndian.array b 18 6
  targetIpAddress := .ofNat (BigEndian.field b 24 4)

/-- A string that is long enough, with the types, the sizes and an opcode of Ethernet and IPv4. -/
structure Valid (b : List UInt8) : Prop where
  size : length ≤ b.length
  hardwareType : BigEndian.field b 0 2 = 1
  protocolType : BigEndian.field b 2 2 = 0x0800
  hardwareAddressSize : BigEndian.field b 4 1 = 6
  protocolAddressSize : BigEndian.field b 5 1 = 4
  opcode : BigEndian.field b 6 2 = 1 ∨ BigEndian.field b 6 2 = 2

/-- The message is supported just when the string's fields are those of Ethernet and IPv4. -/
theorem supported_ofBytes_iff {b : List UInt8} (hsize : length ≤ b.length) :
    (ofBytes b).supported = true ↔ Valid b := by
  have h16 : ∀ pos (v : UInt16),
      UInt16.ofNat (BigEndian.field b pos 2) = v ↔ BigEndian.field b pos 2 = v.toNat := by
    intro pos v
    rw [← UInt16.toNat_inj, BigEndian.toNat_field_two]
  have h8 : ∀ pos (v : UInt8),
      UInt8.ofNat (BigEndian.field b pos 1) = v ↔ BigEndian.field b pos 1 = v.toNat := by
    intro pos v
    rw [← UInt8.toNat_inj, BigEndian.toNat_field_one]
  simp only [supported, ofBytes, Bool.and_eq_true, Bool.or_eq_true, decide_eq_true_eq, h16, h8]
  constructor
  · rintro ⟨⟨⟨⟨htype, hproto⟩, hhsize⟩, hpsize⟩, hop⟩
    exact ⟨hsize, htype, hproto, hhsize, hpsize, hop⟩
  · intro h
    exact ⟨⟨⟨⟨h.hardwareType, h.protocolType⟩, h.hardwareAddressSize⟩, h.protocolAddressSize⟩,
      h.opcode⟩

/-- A message is parsed from a string that is long enough, when it is supported. -/
theorem parse_long {buffer : Buffer} (hlong : length ≤ buffer.str.length) (m : ARPMessage) :
    ((ofBytes buffer.str).supported = true → m.parse buffer = (.noError, ofBytes buffer.str)) ∧
      ((ofBytes buffer.str).supported = false → (m.parse buffer).1 = .unsupported) := by
  have hsize : ¬ buffer.size < length := by
    rw [Buffer.size]
    omega
  unfold length at hlong
  obtain ⟨hat, h1⟩ := (NetParser.At.start buffer).u16
  obtain ⟨hat, h2⟩ := hat.u16
  obtain ⟨hat, h3⟩ := hat.u8
  obtain ⟨hat, h4⟩ := hat.u8
  obtain ⟨hat, h5⟩ := hat.u16
  obtain ⟨hat, h6⟩ := hat.u8s 6
  obtain ⟨hat, h7⟩ := hat.u32
  obtain ⟨hat, h8⟩ := hat.u8s 6
  obtain ⟨hat, h9⟩ := hat.u32
  have hok := (hat.reads (by omega)).ok
  unfold parse
  dsimp only
  rw [if_neg hsize, hok, h1 (by omega), h2 (by omega), h3 (by omega), h4 (by omega),
    h5 (by omega), h6 (by omega), h7 (by omega), h8 (by omega), h9 (by omega)]
  -- only the fields read first are looked at
  refine ⟨fun hsupported => ?_, fun hsupported => ?_⟩
  · refine (if_neg fun hnot => ?_).trans rfl
    exact absurd (hsupported.symm.trans hnot) (by simp)
  · exact congrArg Prod.fst (if_pos hsupported)

/-- A string that is too short is not read at all. -/
theorem parse_short {buffer : Buffer} (hshort : buffer.str.length < length) (m : ARPMessage) :
    m.parse buffer = (.packetTooShort, m) := by
  have hsize : buffer.size < length := hshort
  unfold parse
  dsimp only
  rw [if_pos hsize]

/-- **Acceptance.**  The parser accepts exactly the strings that begin with a supported message. -/
theorem parse_noError_iff (m : ARPMessage) (buffer : Buffer) :
    (m.parse buffer).1 = .noError ↔ Valid buffer.str := by
  by_cases hlong : length ≤ buffer.str.length
  · obtain ⟨hyes, hno⟩ := m.parse_long hlong
    rw [← supported_ofBytes_iff hlong]
    cases hsupported : (ofBytes buffer.str).supported with
    | true => simp [hyes hsupported]
    | false => simp [hno hsupported]
  · rw [m.parse_short (Nat.lt_of_not_le hlong)]
    exact ⟨fun h => absurd h (by simp), fun h => absurd h.size hlong⟩

/-- What is accepted is filled in field by field, whatever the message held before. -/
theorem parse_valid {buffer : Buffer} (h : Valid buffer.str) (m : ARPMessage) :
    m.parse buffer = (.noError, ofBytes buffer.str) :=
  (m.parse_long h.size).1 ((supported_ofBytes_iff h.size).mpr h)

/-- **What is parsed is written again.** -/
theorem serialize_ofBytes {b : List UInt8} (h : Valid b) :
    (ofBytes b).serialize = .ok (b.take length) := by
  have hsize := h.size
  unfold length at hsize
  rw [serialize_eq ((supported_ofBytes_iff h.size).mpr h)]
  dsimp only [ofBytes]
  simp only [BigEndian.toNat_field_one, BigEndian.toNat_field_two, BigEndian.toNat_field_four]
  iterate 7 rw [BigEndian.toBytes_field (by omega)]
  rw [BigEndian.toList_array (by omega), BigEndian.toList_array (by omega)]
  -- the pieces are joined from the front
  simp only [← List.append_assoc]
  rw [List.drop_zero]
  iterate 8 rw [← List.take_add]
  rfl

/-- A message that is written is the one that is read. -/
theorem ofBytes_serialize {m : ARPMessage} {bytes : List UInt8} (h : m.supported = true)
    (hbytes : m.serialize = .ok bytes) : length ≤ bytes.length ∧ ofBytes bytes = m := by
  rw [serialize_eq h, Except.ok.injEq] at hbytes
  subst hbytes
  have hlast := BigEndian.field_toBytes 4 m.targetIpAddress.toNat []
  rw [List.append_nil] at hlast
  refine ⟨by simp [length], ?_⟩
  simp [ofBytes, hlast]

/-- **Round trip.**  A buffer with a serialized message is parsed into the message. -/
theorem parse_serialize {m : ARPMessage} {buffer : Buffer} (h : m.supported = true)
    (hbuffer : m.serialize = .ok buffer.str) (m0 : ARPMessage) :
    m0.parse buffer = (.noError, m) := by
  obtain ⟨hlong, hm⟩ := ofBytes_serialize h hbuffer
  have hparse := (m0.parse_long hlong).1
  rw [hm] at hparse
  exact hparse h

/-- **Exactness of the codec.**  A string is parsed just when it is a valid message; its bytes are
    then written again.  A supported message is read back from what is written, and one that is
    not supported is not written. -/
theorem codec_exact (m0 : ARPMessage) (buffer : Buffer) :
    ((m0.parse buffer).1 = .noError ↔ Valid buffer.str) ∧
      ((m0.parse buffer).1 = .noError →
        (m0.parse buffer).2.serialize = .ok (buffer.str.take length)) ∧
      ∀ m : ARPMessage,
        (m.supported = true → ∃ bytes, m.serialize = .ok bytes ∧
          m0.parse (.ofString bytes) = (.noError, m)) ∧
        (m.supported = false → ∃ what, m.serialize = .error (.runtimeError what)) := by
  refine ⟨m0.parse_noError_iff buffer, fun hok => ?_, fun m => ⟨fun h => ?_, fun h => ?_⟩⟩
  · have hvalid := (m0.parse_noError_iff buffer).mp hok
    rw [parse_valid hvalid m0, serialize_ofBytes hvalid]
  · refine ⟨_, serialize_eq h, parse_serialize h ?_ m0⟩
    rw [Buffer.str_ofString, serialize_eq h]
  · exact ⟨_, serialize_unsupported h⟩

end ARPMessage

end Sponge
