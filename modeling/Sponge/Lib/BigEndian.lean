import Mathlib

/-!
# Numbers in network byte order

`ofBytes` reads a number from its bytes, the most significant first, `field` from those at some
place in a string, and `toBytes len` writes the last `len` of them.  What is written is read back,
up to what does not fit: `ofBytes_toBytes`.  What is read is written back: `toBytes_field`.

`array` reads bytes at some place as they are.
-/

namespace BigEndian

/-- The number with these bytes. -/
def ofBytes (bytes : List UInt8) : Nat := bytes.foldl (fun n b => n * 256 + b.toNat) 0

/-- The number in the `len` bytes of a string from the position `pos` on. -/
def field (bytes : List UInt8) (pos len : Nat) : Nat := ofBytes ((bytes.drop pos).take len)

/-- The `len` bytes of a string from the position `pos` on. -/
def array (bytes : List UInt8) (pos len : Nat) : Vector UInt8 len :=
  .ofFn fun i => bytes.getD (pos + i) 0

/-- The last `len` bytes of a number. -/
def toBytes (len n : Nat) : List UInt8 :=
  (List.range len).map fun i => .ofNat (n / 256 ^ (len - i - 1))

@[simp] theorem length_toBytes (len n : Nat) : (toBytes len n).length = len := by
  simp [toBytes]

/-- The most significant byte comes first. -/
theorem toBytes_succ (len n : Nat) :
    toBytes (len + 1) n = .ofNat (n / 256 ^ len) :: toBytes len n := by
  unfold toBytes
  rw [List.range_succ_eq_map, List.map_cons, List.map_map]
  congr 1
  refine List.map_congr_left fun i _ => ?_
  show UInt8.ofNat (n / 256 ^ (len + 1 - (i + 1) - 1)) = _
  rw [Nat.add_sub_add_right]

/-- It counts as many times as there are values of the bytes after it. -/
theorem ofBytes_cons (b : UInt8) (bytes : List UInt8) :
    ofBytes (b :: bytes) = b.toNat * 256 ^ bytes.length + ofBytes bytes := by
  -- the fold from any start
  have hfold : ∀ n, bytes.foldl (fun n b => n * 256 + b.toNat) n
      = n * 256 ^ bytes.length + ofBytes bytes := by
    unfold ofBytes
    induction bytes with
    | nil => simp
    | cons c bytes ih =>
      intro n
      rw [List.foldl_cons, List.foldl_cons, ih, ih (0 * 256 + c.toNat), List.length_cons, pow_succ]
      ring
  rw [ofBytes, List.foldl_cons, hfold]
  simp

/-- **Round trip**, up to what does not fit into the bytes. -/
theorem ofBytes_toBytes (len n : Nat) : ofBytes (toBytes len n) = n % 256 ^ len := by
  induction len with
  | zero => simp [toBytes, ofBytes, Nat.mod_one]
  | succ len ih =>
    have hbyte : (UInt8.ofNat (n / 256 ^ len)).toNat = n / 256 ^ len % 256 := by simp
    rw [toBytes_succ, ofBytes_cons, length_toBytes, ih, hbyte, pow_succ, Nat.mod_mul,
      Nat.mul_comm (256 ^ len), Nat.add_comm]

/-! ### Fields of a string -/

/-- A number is bounded by the number of its bytes. -/
theorem ofBytes_lt (bytes : List UInt8) : ofBytes bytes < 256 ^ bytes.length := by
  induction bytes with
  | nil => simp [ofBytes]
  | cons b bytes ih =>
    have hb := b.toNat_lt
    rw [ofBytes_cons, List.length_cons, pow_succ]
    calc b.toNat * 256 ^ bytes.length + ofBytes bytes
        < b.toNat * 256 ^ bytes.length + 256 ^ bytes.length := by omega
      _ = (b.toNat + 1) * 256 ^ bytes.length := by ring
      _ ≤ 256 * 256 ^ bytes.length := Nat.mul_le_mul_right _ (by omega)
      _ = 256 ^ bytes.length * 256 := Nat.mul_comm _ _

/-- So is a field. -/
theorem field_lt (bytes : List UInt8) (pos len : Nat) : field bytes pos len < 256 ^ len :=
  (ofBytes_lt _).trans_le (Nat.pow_le_pow_right (by decide) (List.length_take_le _ _))

theorem toNat_field_one (bytes : List UInt8) (pos : Nat) :
    (UInt8.ofNat (field bytes pos 1)).toNat = field bytes pos 1 :=
  UInt8.toNat_ofNat_of_lt' (field_lt bytes pos 1)

theorem toNat_field_two (bytes : List UInt8) (pos : Nat) :
    (UInt16.ofNat (field bytes pos 2)).toNat = field bytes pos 2 :=
  UInt16.toNat_ofNat_of_lt' (field_lt bytes pos 2)

theorem toNat_field_four (bytes : List UInt8) (pos : Nat) :
    (UInt32.ofNat (field bytes pos 4)).toNat = field bytes pos 4 :=
  UInt32.toNat_ofNat_of_lt' (field_lt bytes pos 4)

/-- A field that is written is read back. -/
@[simp] theorem field_toBytes (len n : Nat) (rest : List UInt8) :
    field (toBytes len n ++ rest) 0 len = n % 256 ^ len := by
  rw [field, List.drop_zero, List.take_left' (length_toBytes len n), ofBytes_toBytes]

/-- The fields after the first part of a string. -/
@[simp] theorem field_append {front : List UInt8} {pos : Nat} (h : front.length ≤ pos) (len : Nat)
    (rest : List UInt8) : field (front ++ rest) pos len = field rest (pos - front.length) len := by
  rw [field, List.drop_append, List.drop_eq_nil_of_le h, List.nil_append, field]

/-- A number of one byte is that byte. -/
theorem field_one (bytes : List UInt8) (pos : Nat) :
    UInt8.ofNat (field bytes pos 1) = bytes.getD pos 0 := by
  rw [field, List.take_one, List.head?_drop, List.getD_eq_getElem?_getD]
  cases bytes[pos]? with
  | none => rfl
  | some b => simp [ofBytes]

/-- What does not fit is not written. -/
theorem toBytes_add (len m n : Nat) : toBytes len (m * 256 ^ len + n) = toBytes len n := by
  induction len generalizing m with
  | zero => rfl
  | succ len ih =>
    have hpos : 0 < 256 ^ len := by positivity
    have hsplit : m * 256 ^ (len + 1) + n = m * 256 * 256 ^ len + n := by ring
    have hbyte : UInt8.ofNat ((m * 256 * 256 ^ len + n) / 256 ^ len) = .ofNat (n / 256 ^ len) := by
      rw [Nat.mul_comm, Nat.mul_add_div hpos, ← UInt8.toNat_inj]
      simp
    rw [toBytes_succ, toBytes_succ, hsplit, hbyte, ih]

/-- **What is read is written back.** -/
theorem toBytes_ofBytes (bytes : List UInt8) : toBytes bytes.length (ofBytes bytes) = bytes := by
  induction bytes with
  | nil => rfl
  | cons b bytes ih =>
    have hpos : 0 < 256 ^ bytes.length := by positivity
    have hhigh : (b.toNat * 256 ^ bytes.length + ofBytes bytes) / 256 ^ bytes.length = b.toNat := by
      rw [Nat.mul_comm, Nat.mul_add_div hpos, Nat.div_eq_of_lt (ofBytes_lt bytes), Nat.add_zero]
    rw [List.length_cons, toBytes_succ, ofBytes_cons, hhigh, toBytes_add, ih, UInt8.ofNat_toNat]

/-- **Round trip** the other way, where the field lies inside of the string. -/
theorem toBytes_field {bytes : List UInt8} {pos len : Nat} (h : pos + len ≤ bytes.length) :
    toBytes len (field bytes pos len) = (bytes.drop pos).take len := by
  have hlen : ((bytes.drop pos).take len).length = len := by
    rw [List.length_take, List.length_drop]
    omega
  have hback := toBytes_ofBytes ((bytes.drop pos).take len)
  rwa [hlen] at hback

/-! ### Arrays of a string -/

/-- A field of bytes is read byte by byte. -/
theorem array_succ (bytes : List UInt8) (pos len : Nat) :
    array bytes pos (len + 1) = (array bytes pos len).push (bytes.getD (pos + len) 0) := by
  rw [array, Vector.ofFn_succ]
  rfl

/-- It is a slice of the string, where the field lies inside of it. -/
theorem toList_array {bytes : List UInt8} {pos len : Nat} (h : pos + len ≤ bytes.length) :
    (array bytes pos len).toList = (bytes.drop pos).take len := by
  refine List.ext_getElem ?_ fun i hi hi' => ?_
  · rw [Vector.length_toList, List.length_take, List.length_drop]
    omega
  · rw [Vector.length_toList] at hi
    have hget : bytes[pos + i]? = some bytes[pos + i] := List.getElem?_eq_getElem _
    simp [array, hget]

/-- An array that is written is read back. -/
@[simp] theorem array_toList {len : Nat} (v : Vector UInt8 len) (rest : List UInt8) :
    array (v.toList ++ rest) 0 len = v := by
  refine Vector.ext fun i hi => ?_
  have hget : (v.toList ++ rest)[i]? = some v[i] := by
    rw [List.getElem?_append_left (by simpa using hi)]
    simp [hi]
  simp [array, hget]

/-- The arrays after the first part of a string. -/
@[simp] theorem array_append {front : List UInt8} {pos : Nat} (h : front.length ≤ pos) (len : Nat)
    (rest : List UInt8) : array (front ++ rest) pos len = array rest (pos - front.length) len := by
  refine Vector.ext fun i hi => ?_
  have hget : (front ++ rest)[pos + i]? = rest[pos - front.length + i]? := by
    rw [List.getElem?_append_right (by omega)]
    congr 1
    omega
  simp [array, hget]

end BigEndian
