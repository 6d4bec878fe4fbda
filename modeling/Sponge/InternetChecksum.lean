import Sponge.Lib.BigEndian
import Sponge.Lib.Loop
import Sponge.Lib.OnesComplement

namespace Sponge

/-!
# The Internet checksum

The sum of the 16-bit words of a string, kept in 32 bits while strings are added and folded into 16
bits, end-around carry included, when its value is asked for.

`value_add` says that this is the complement of the ones' complement sum, as long as the 32 bits
suffice, and `value_foldl_add` that they do for the pieces of a packet; `value_eq_zero_iff` is the
check of a received checksum, and `sum_insert_checksum` says that a checksum put into the place of a
zero word passes it.
-/

/-- The sum so far, of 32 bits, and whether an odd number of bytes has been added. -/
structure InternetChecksum where
  sum : Nat := 0
  parity : Bool := false
  deriving DecidableEq, Repr

namespace InternetChecksum

/-- Add one byte, as the first or the second of its word. -/
def addByte (c : InternetChecksum) (b : UInt8) : InternetChecksum where
  sum := (c.sum + if c.parity then b.toNat else b.toNat * 2 ^ 8) % 2 ^ 32
  parity := !c.parity

/-- Add a string. -/
def add (c : InternetChecksum) (data : List UInt8) : InternetChecksum := data.foldl addByte c

/-- One iteration of the loop that folds the sum. -/
def foldStep (ret : Nat) : ForInStep Nat :=
  if ret > 0xffff then .yield (ret / 2 ^ 16 + ret % 2 ^ 16) else .done ret

/-- The complement of the folded sum.  Every iteration makes the sum smaller. -/
def value (c : InternetChecksum) : UInt16 := ~~~ .ofNat (Loop.run foldStep c.sum c.sum)

open OnesComplement

/-- Strings can be added one after another. -/
theorem add_append (c : InternetChecksum) (data more : List UInt8) :
    c.add (data ++ more) = (c.add data).add more :=
  List.foldl_append

/-- Adding piece by piece is adding the whole. -/
theorem foldl_add (c : InternetChecksum) (chunks : List (List UInt8)) :
    chunks.foldl add c = c.add chunks.flatten := by
  induction chunks generalizing c with
  | nil => rfl
  | cons data chunks ih => rw [List.foldl_cons, ih, List.flatten_cons, add_append]

/-! ### The loop that folds the sum -/

/-- The loop stops when there is no carry left. -/
theorem foldStep_of_zero (s : Nat) (hs : s = 0) : foldStep s = .done s := if_neg (by omega)

/-- Every iteration makes the sum smaller. -/
theorem lt_of_foldStep (s t : Nat) (hyield : foldStep s = .yield t) : t < s := by
  unfold foldStep at hyield
  split at hyield
  · cases hyield
    omega
  · cases hyield

/-- The last iteration leaves the sum as it is. -/
theorem eq_of_foldStep (s t : Nat) (hdone : foldStep s = .done t) : t = s := by
  unfold foldStep at hdone
  split at hdone <;> cases hdone
  rfl

/-- The loop ends: a sum with carry is larger than its two halves together. -/
theorem foldStep_ends (n : Nat) : Loop.Ends foldStep n n (Loop.run foldStep n n) :=
  Loop.ends (μ := id) foldStep_of_zero lt_of_foldStep eq_of_foldStep n

/-! ### The value in ones' complement arithmetic -/

/-- The loop brings the sum down to the 16 bits it stands for. -/
theorem run_foldStep (n : Nat) : Loop.run foldStep n n = reduce n := by
  -- every iteration leaves what the sum stands for
  have hreduce : reduce (Loop.run foldStep n n) = reduce n := by
    refine Loop.run_rule (P := fun t => reduce t = reduce n) ?_ ?_ n rfl
    · intro s t hs hdone
      rw [eq_of_foldStep s t hdone, hs]
    · intro s t hs hyield
      unfold foldStep at hyield
      split at hyield
      · cases hyield
        rw [reduce_fold, hs]
      · cases hyield
  -- and after the last one it is down to 16 bits
  have hle : Loop.run foldStep n n ≤ 0xffff := by
    have hdone := (foldStep_ends n).1
    generalize Loop.run foldStep n n = last at hdone
    unfold foldStep at hdone
    split at hdone
    · cases hdone
    · omega
  rw [← hreduce, reduce_of_le hle]

/-- **The checksum** is the complement of the folded sum. -/
theorem toNat_value (c : InternetChecksum) : c.value.toNat = 0xffff - reduce c.sum := by
  have hle := reduce_le c.sum
  rw [value, run_foldStep, UInt16.toNat_not, UInt16.toNat_ofNat', Nat.mod_eq_of_lt (by omega)]
  rfl

/-- Adding a string to an even number of bytes. -/
theorem add_sum {s : Nat} (hs : s < 2 ^ 32) (data : List UInt8) :
    (add { sum := s } data).sum = (s + (words data).sum) % 2 ^ 32 := by
  fun_induction words data generalizing s with
  | case1 => exact (Nat.mod_eq_of_lt hs).symm
  | case2 b => simp [add, addByte]
  | case3 a b rest ih =>
    -- two bytes make one word
    have hstep : add { sum := s } (a :: b :: rest)
        = add { sum := ((s + a.toNat * 2 ^ 8) % 2 ^ 32 + b.toNat) % 2 ^ 32 } rest := by
      simp [add, addByte]
    rw [hstep, ih (Nat.mod_lt _ (by decide)), List.sum_cons]
    omega

/-- **The complement of the ones' complement sum**, as long as the 32 bits suffice. -/
theorem value_add {s : Nat} {data : List UInt8} (hfits : s + (words data).sum < 2 ^ 32) :
    (add { sum := s } data).value.toNat = 0xffff - OnesComplement.sum s data := by
  rw [toNat_value, add_sum (by omega), Nat.mod_eq_of_lt hfits, sum_eq]

/-- The 32 bits suffice for a packet and the sum of its pseudo-header. -/
theorem sum_lt_of_length {s : Nat} {data : List UInt8} (hs : s ≤ 2 ^ 20)
    (hlength : data.length ≤ 65535) : s + (words data).sum < 2 ^ 32 := by
  have hle := sum_words_le data
  omega

/-- The 32 bits suffice for one byte more. -/
theorem addByte_lt_of_length {s : Nat} {data : List UInt8} (hs : s ≤ 2 ^ 20)
    (hlength : data.length < 65535) (b : UInt8) :
    (add { sum := s } data).sum
      + (if (add { sum := s } data).parity then b.toNat else b.toNat * 2 ^ 8) < 2 ^ 32 := by
  have hle := sum_words_le data
  have hsum : (add { sum := s } data).sum ≤ s + (words data).sum := by
    rw [add_sum (by omega)]
    exact Nat.mod_le _ _
  have hb := b.toNat_lt
  split <;> omega

/-- **Strings of several calls.**  For the strings of a packet, in however many pieces, of odd
    lengths too, the value is that of the whole string: the complement of the ones' complement sum.
    The loop ends by itself, and no byte carries the sum out of its 32 bits. -/
theorem value_foldl_add (initialSum : Nat) (chunks : List (List UInt8))
    (hsum : initialSum ≤ 2 ^ 20) (hlength : (chunks.map List.length).sum ≤ 65535) :
    let c := chunks.foldl add { sum := initialSum }
    Loop.Ends foldStep c.sum c.sum (Loop.run foldStep c.sum c.sum) ∧
      c.value = (add { sum := initialSum } chunks.flatten).value ∧
      c.value.toNat = 0xffff - OnesComplement.sum initialSum chunks.flatten ∧
      ∀ front data b more back, chunks = front ++ (data ++ b :: more) :: back →
        let c := (front.foldl add { sum := initialSum }).add data
        c.sum + (if c.parity then b.toNat else b.toNat * 2 ^ 8) < 2 ^ 32 := by
  intro c
  have hwhole : c = add { sum := initialSum } chunks.flatten := foldl_add _ chunks
  rw [← List.length_flatten] at hlength
  refine ⟨foldStep_ends c.sum, by rw [hwhole], ?_, ?_⟩
  · rw [hwhole]
    exact value_add (sum_lt_of_length hsum hlength)
  · -- what has been added before a byte is one string, too
    rintro front data b more back rfl
    have hbefore : (front.foldl add { sum := initialSum }).add data
        = add { sum := initialSum } (front.flatten ++ data) := by
      rw [foldl_add, add_append]
    have hshort : (front.flatten ++ data).length < 65535 := by
      simp only [List.flatten_append, List.flatten_cons, List.length_append,
        List.length_cons] at hlength ⊢
      omega
    rw [hbefore]
    exact addByte_lt_of_length hsum hshort b

/-- The words of `45 | 00 01 | 02` are `4500` and `0102`, although each is in two pieces. -/
theorem value_foldl_add_pieces :
    ([[0x45], [0x00, 0x01], [0x02]].foldl add { sum := 6 }).value.toNat = 0xffff - 0x4608 :=
  (value_foldl_add 6 [[0x45], [0x00, 0x01], [0x02]] (by decide) (by decide)).2.2.1

/-- A string with its checksum in it sums up to all ones. -/
theorem value_eq_zero_iff {s : Nat} {data : List UInt8} (hfits : s + (words data).sum < 2 ^ 32) :
    (add { sum := s } data).value = 0 ↔ OnesComplement.sum s data = 0xffff := by
  have hvalue := value_add hfits
  have hle : OnesComplement.sum s data ≤ 0xffff := by
    rw [sum_eq]
    exact reduce_le _
  constructor
  · intro hzero
    rw [hzero] at hvalue
    have : (0 : UInt16).toNat = 0 := rfl
    omega
  · intro hones
    refine UInt16.toNat.inj ?_
    rw [hvalue, hones]
    rfl

/-- Two bytes are one word. -/
theorem words_toBytes (v : UInt16) : words (BigEndian.toBytes 2 v.toNat) = [v.toNat] := by
  have hlt := v.toNat_lt
  simp only [BigEndian.toBytes, List.range_succ, List.range_zero, List.nil_append, List.map_cons,
    List.map_nil, List.cons_append, words, UInt8.toNat_ofNat', List.cons.injEq, and_true]
  omega

/-- **A checksum in its place.**  A string with a word of zeros at an even position, and the same
    string with the checksum of the whole there. -/
theorem sum_insert_checksum {s : Nat} {front back : List UInt8} (heven : front.length % 2 = 0)
    (hfits : s + (words (front ++ (BigEndian.toBytes 2 0 ++ back))).sum < 2 ^ 32) :
    OnesComplement.sum s (front ++ (BigEndian.toBytes 2
      (add { sum := s } (front ++ (BigEndian.toBytes 2 0 ++ back))).value.toNat ++ back))
        = 0xffff := by
  -- the word contributes itself, wherever it stands
  have hword : ∀ v : UInt16, (words (front ++ (BigEndian.toBytes 2 v.toNat ++ back))).sum
      = (words front).sum + (words back).sum + v.toNat := by
    intro v
    rw [words_append heven, words_append (by simp), words_toBytes, List.sum_append,
      List.sum_append, List.sum_singleton]
    omega
  have hzero := hword 0
  rw [UInt16.toNat_zero, Nat.add_zero] at hzero
  rw [sum_eq, hword, value_add hfits, sum_eq, hzero, ← Nat.add_assoc]
  exact reduce_add_complement (s + ((words front).sum + (words back).sum))

end InternetChecksum

end Sponge
