/-
PinBridge/Proofs/Wire/Fields.lean

Fields that share a byte, and numbers that fill several.

A byte is built from its lowest field up, each one above all bits that are set
so far (`Below`).  So what is read where the last field was put is this field,
cut to its width (`bits_add_place`), and what is read below is what was there
before (`bits_add_place_of_le`).  A flag is a field of one bit.

The other way round, a field that is read and put back is the byte under a mask
(`place_bits`), and masks that have no bit in common add up (`and_add_and`).

Numbers of several bytes are read back as they were written, and written back as
they were read (`word16At_littleEndian`, `littleEndian_word16At` and so on).
-/
import PinBridge.Wire.Bytes

namespace PinBridge
namespace Wire

variable {b v : UInt8} {low width l w n m : Nat}

/-! ### The numbers behind fields -/

/-- What is put above a number stays below the sum of the two widths. -/
theorem add_mul_lt {x y : Nat} (hx : x < Nat.pow 2 low) (hy : y < Nat.pow 2 width) :
    x + y * Nat.pow 2 low < Nat.pow 2 (low + width) := by
  have hsum : Nat.pow 2 (low + width) = Nat.pow 2 width * Nat.pow 2 low := by
    rw [Nat.add_comm]
    exact Nat.pow_add 2 width low
  calc x + y * Nat.pow 2 low
      < Nat.pow 2 low + y * Nat.pow 2 low := Nat.add_lt_add_right hx _
    _ = (y + 1) * Nat.pow 2 low := by rw [Nat.succ_mul, Nat.add_comm]
    _ ≤ Nat.pow 2 width * Nat.pow 2 low := Nat.mul_le_mul_right _ hy
    _ = Nat.pow 2 (low + width) := hsum.symm

theorem two_pow_pos (n : Nat) : 0 < Nat.pow 2 n := Nat.pow_pos Nat.zero_lt_two

theorem pow_le_byte (h : n ≤ 8) : Nat.pow 2 n ≤ 256 := Nat.pow_le_pow_right Nat.zero_lt_two h

theorem mod_pow_lt (x n : Nat) : x % Nat.pow 2 n < Nat.pow 2 n :=
  Nat.mod_lt x (two_pow_pos n)

theorem toNat_bits (b : UInt8) (low : Nat) (h : width ≤ 8) :
    (bits b low width).toNat = b.toNat / Nat.pow 2 low % Nat.pow 2 width := by
  rw [bits]
  exact UInt8.toNat_ofNat_of_lt' (Nat.lt_of_lt_of_le (mod_pow_lt _ _) (pow_le_byte h))

theorem toNat_place (v : UInt8) (h : low + width ≤ 8) :
    (place v low width).toNat = v.toNat % Nat.pow 2 width * Nat.pow 2 low := by
  have hlt := add_mul_lt (two_pow_pos low) (mod_pow_lt v.toNat width)
  rw [Nat.zero_add] at hlt
  rw [place]
  exact UInt8.toNat_ofNat_of_lt' (Nat.lt_of_lt_of_le hlt (pow_le_byte h))

/-- A field is no wider than its place. -/
theorem bits_lt (b : UInt8) (low : Nat) (hwidth : width ≤ 8) :
    (bits b low width).toNat < Nat.pow 2 width := by
  rw [toNat_bits b low hwidth]
  exact mod_pow_lt _ _

/-! ### Fields one above the other -/

/-- No bit of the byte is set from position `n` up. -/
def Below (b : UInt8) (n : Nat) : Prop := b.toNat < Nat.pow 2 n

theorem Below.mono (hb : Below b m) (h : m ≤ n) : Below b n :=
  Nat.lt_of_lt_of_le hb (Nat.pow_le_pow_right Nat.zero_lt_two h)

/-- The byte with a field put above its bits. -/
theorem toNat_add_place (hb : Below b low) (v : UInt8) (h : low + width ≤ 8) :
    (b + place v low width).toNat
      = b.toNat + v.toNat % Nat.pow 2 width * Nat.pow 2 low := by
  have hlt := add_mul_lt hb (mod_pow_lt v.toNat width)
  rw [UInt8.toNat_add, toNat_place v h]
  exact Nat.mod_eq_of_lt (Nat.lt_of_lt_of_le hlt (pow_le_byte h))

@[simp] theorem below_place (hn : low + width ≤ n) (h : n ≤ 8) : Below (place v low width) n := by
  have hlt := add_mul_lt (two_pow_pos low) (mod_pow_lt v.toNat width)
  refine Below.mono (m := low + width) ?_ hn
  rw [Below, toNat_place v (Nat.le_trans hn h)]
  rwa [Nat.zero_add] at hlt

@[simp] theorem below_add_place (hb : Below b low) (hn : low + width ≤ n) (h : n ≤ 8) :
    Below (b + place v low width) n := by
  refine Below.mono (m := low + width) ?_ hn
  rw [Below, toNat_add_place hb v (Nat.le_trans hn h)]
  exact add_mul_lt hb (mod_pow_lt v.toNat width)

/-- The low bits of a byte are what is left when it is divided. -/
theorem bits_zero (v : UInt8) (h : width < 8) :
    bits v 0 width = v % UInt8.ofNat (Nat.pow 2 width) := by
  have hpow : (UInt8.ofNat (Nat.pow 2 width)).toNat = Nat.pow 2 width := by
    refine UInt8.toNat_ofNat_of_lt' ?_
    exact Nat.lt_of_lt_of_le (Nat.pow_lt_pow_right Nat.one_lt_two h) (Nat.le_refl 256)
  apply UInt8.toNat_inj.1
  rw [toNat_bits v 0 (Nat.le_of_lt h), UInt8.toNat_mod, hpow]
  show v.toNat / 1 % _ = _
  rw [Nat.div_one]

/-- **The field that was put last is read back**, cut to its width. -/
@[simp] theorem bits_add_place (hb : Below b low) (h : low + width ≤ 8) :
    bits (b + place v low width) low width = bits v 0 width := by
  have hwidth : width ≤ 8 := Nat.le_trans (Nat.le_add_left width low) h
  apply UInt8.toNat_inj.1
  rw [toNat_bits _ low hwidth, toNat_bits v 0 hwidth, toNat_add_place hb v h,
    Nat.add_mul_div_right _ _ (two_pow_pos low), Nat.div_eq_of_lt hb, Nat.zero_add, Nat.mod_mod]
  show _ = v.toNat / 1 % _
  rw [Nat.div_one]

/-- **What lies below the field that was put last is read as before.** -/
@[simp] theorem bits_add_place_of_le (hb : Below b low) (h : low + width ≤ 8) (hl : l + w ≤ low) :
    bits (b + place v low width) l w = bits b l w := by
  have hw : w ≤ 8 := by omega
  have hlow : Nat.pow 2 low = Nat.pow 2 l * (Nat.pow 2 w * Nat.pow 2 (low - l - w)) := by
    have hsplit : low = l + (w + (low - l - w)) := by omega
    calc Nat.pow 2 low
        = Nat.pow 2 (l + (w + (low - l - w))) := congrArg (Nat.pow 2) hsplit
      _ = Nat.pow 2 l * Nat.pow 2 (w + (low - l - w)) := Nat.pow_add 2 _ _
      _ = Nat.pow 2 l * (Nat.pow 2 w * Nat.pow 2 (low - l - w)) :=
          congrArg _ (Nat.pow_add 2 _ _)
  apply UInt8.toNat_inj.1
  rw [toNat_bits _ l hw, toNat_bits b l hw, toNat_add_place hb v h, hlow, Nat.mul_left_comm,
    Nat.add_mul_div_left _ _ (two_pow_pos l), Nat.mul_left_comm, Nat.add_mul_mod_self_left]

/-- A field on its own is read back. -/
@[simp] theorem bits_place (h : low + width ≤ 8) :
    bits (place v low width) low width = bits v 0 width := by
  have hzero : Below 0 low := two_pow_pos low
  have hread := bits_add_place (v := v) hzero h
  rwa [UInt8.zero_add] at hread

/-! ### Flags -/

/-- A flag is a field of one bit. -/
theorem placeBit_eq_place (v : Bool) (i : Nat) : placeBit v i = place v.toUInt8 i 1 := by
  cases v with
  | false =>
    show (0 : UInt8) = .ofNat (0 % 2 * Nat.pow 2 i)
    rw [Nat.zero_mod, Nat.zero_mul]
    rfl
  | true =>
    show UInt8.ofNat (Nat.pow 2 i) = .ofNat (1 % 2 * Nat.pow 2 i)
    rw [Nat.mod_eq_of_lt Nat.one_lt_two, Nat.one_mul]

theorem bits_one (b : UInt8) (i : Nat) : bits b i 1 = (bit b i).toUInt8 := by
  have hcases : b.toNat / Nat.pow 2 i % 2 = 0 ∨ b.toNat / Nat.pow 2 i % 2 = 1 := by omega
  unfold bit bits
  show UInt8.ofNat (b.toNat / Nat.pow 2 i % 2) = _
  rcases hcases with h | h
  · rw [h]
    rfl
  · rw [h]
    rfl

/-- A flag is set if the field is. -/
theorem bit_eq_bits (b : UInt8) (i : Nat) : bit b i = (bits b i 1 == 1) := by
  rw [bits_one]
  cases bit b i <;> rfl

@[simp] theorem bits_toUInt8 (v : Bool) : bits v.toUInt8 0 1 = v.toUInt8 := by
  cases v <;> rfl

@[simp] theorem toUInt8_beq_one (v : Bool) : (v.toUInt8 == 1) = v := by
  cases v <;> rfl

/-! ### Fields put back -/

/-- **A field that is read and put back is the byte under the mask of its place.** -/
theorem place_bits (b : UInt8) (h : low + width ≤ 8) :
    place (bits b low width) low width = b &&& place 255 low width := by
  have hwidth : width ≤ 8 := Nat.le_trans (Nat.le_add_left width low) h
  -- the mask is all ones, moved up
  have hones : (255 : Nat) % Nat.pow 2 width = 2 ^ width - 1 := by
    rw [Nat.pow_eq, show 255 = 2 ^ 8 - 1 from rfl, ← Nat.and_two_pow_sub_one_eq_mod]
    refine Nat.eq_of_testBit_eq fun i => ?_
    simp only [Nat.testBit_and, Nat.testBit_two_pow_sub_one]
    grind
  apply UInt8.toNat_inj.1
  rw [UInt8.toNat_and, toNat_place _ h, toNat_place _ h, toNat_bits _ _ hwidth, Nat.mod_mod]
  show _ = b.toNat &&& 255 % Nat.pow 2 width * Nat.pow 2 low
  rw [hones]
  refine Nat.eq_of_testBit_eq fun i => ?_
  simp only [Nat.pow_eq, Nat.testBit_and, Nat.testBit_mul_two_pow, Nat.testBit_mod_two_pow,
    Nat.testBit_div_two_pow, Nat.testBit_two_pow_sub_one]
  by_cases hi : low ≤ i
  · rw [Nat.sub_add_cancel hi]
    simp only [hi, decide_true, Bool.true_and]
    exact Bool.and_comm _ _
  · simp [hi]

/-- A flag that is read and put back. -/
theorem placeBit_bit (b : UInt8) {i : Nat} (h : i + 1 ≤ 8) :
    placeBit (bit b i) i = b &&& place 255 i 1 := by
  rw [placeBit_eq_place, ← bits_one, place_bits b h]

/-- **Masks that have no bit in common add up.** -/
theorem and_add_and (b : UInt8) {m n : UInt8} (h : m &&& n = 0) :
    (b &&& m) + (b &&& n) = b &&& (m ||| n) := by
  have hdisjoint : (b &&& m).toBitVec &&& (b &&& n).toBitVec = 0#8 := by
    have hmasks : (b &&& m) &&& (b &&& n) = 0 := by
      rw [UInt8.and_assoc, ← UInt8.and_assoc m, UInt8.and_comm m b, UInt8.and_assoc b m, h,
        UInt8.and_zero, UInt8.and_zero]
    exact congrArg UInt8.toBitVec hmasks
  apply UInt8.toBitVec_inj.1
  rw [UInt8.toBitVec_add, BitVec.add_eq_or_of_and_eq_zero _ _ hdisjoint, UInt8.toBitVec_and,
    UInt8.toBitVec_and, UInt8.toBitVec_and, UInt8.toBitVec_or, BitVec.and_or_distrib_left]

/-! ### Numbers of several bytes -/

/-- The bytes of a number can be written back. -/
theorem littleEndian_ofLittleEndian (bs : Bytes) :
    littleEndian bs.length (ofLittleEndian bs) = bs := by
  induction bs with
  | nil => rfl
  | cons b bs ih =>
    have hb : b.toNat < 256 := b.toNat_lt
    have hlow : (b.toNat + 256 * ofLittleEndian bs) % 256 = b.toNat := by omega
    have hhigh : (b.toNat + 256 * ofLittleEndian bs) / 256 = ofLittleEndian bs := by omega
    rw [List.length_cons, littleEndian, ofLittleEndian, hlow, hhigh, ih, UInt8.ofNat_toNat]

/-- So many bytes hold a number of so many bytes. -/
theorem ofLittleEndian_lt (bs : Bytes) : ofLittleEndian bs < Nat.pow 256 bs.length := by
  induction bs with
  | nil => exact Nat.zero_lt_one
  | cons b bs ih =>
    have hb : b.toNat < 256 := b.toNat_lt
    show b.toNat + 256 * ofLittleEndian bs < Nat.pow 256 bs.length * 256
    omega

section Words

variable {bs : Bytes} {i : Nat}

/-- A number that fits its bytes is read back. -/
theorem ofLittleEndian_of_lt {window : Bytes} (hwindow : window = littleEndian width n)
    (h : n < Nat.pow 256 width) : ofLittleEndian window = n := by
  rw [hwindow, ofLittleEndian_littleEndian, Nat.mod_eq_of_lt h]

theorem word16At_littleEndian (n : UInt16) (h : (bs.drop i).take 2 = littleEndian 2 n.toNat) :
    word16At bs i = n := by
  rw [word16At, ofLittleEndian_of_lt h n.toNat_lt, UInt16.ofNat_toNat]

theorem word32At_littleEndian (n : UInt32) (h : (bs.drop i).take 4 = littleEndian 4 n.toNat) :
    word32At bs i = n := by
  rw [word32At, ofLittleEndian_of_lt h n.toNat_lt, UInt32.ofNat_toNat]

theorem word64At_littleEndian (n : UInt64) (h : (bs.drop i).take 8 = littleEndian 8 n.toNat) :
    word64At bs i = n := by
  rw [word64At, ofLittleEndian_of_lt h n.toNat_lt, UInt64.ofNat_toNat]

/-- What lies between two positions. -/
theorem length_window (h : i + width ≤ bs.length) : ((bs.drop i).take width).length = width := by
  rw [List.length_take, List.length_drop]
  omega

/-- All that there is lies between the first position and the last. -/
theorem window_whole (h : bs.length = width) : (bs.drop 0).take width = bs := by
  rw [List.drop_zero, ← h, List.take_length]

/-- A number that is read from so many bytes fits so many. -/
theorem ofLittleEndian_window_lt (h : i + width ≤ bs.length) :
    ofLittleEndian ((bs.drop i).take width) < Nat.pow 256 width := by
  have hlt := ofLittleEndian_lt ((bs.drop i).take width)
  rwa [length_window h] at hlt

/-- The bytes of a number are written back where it was read. -/
theorem littleEndian_window (h : i + width ≤ bs.length) :
    littleEndian width (ofLittleEndian ((bs.drop i).take width)) = (bs.drop i).take width := by
  have hback := littleEndian_ofLittleEndian ((bs.drop i).take width)
  rwa [length_window h] at hback

theorem littleEndian_word16At (h : i + 2 ≤ bs.length) :
    littleEndian 2 (word16At bs i).toNat = (bs.drop i).take 2 := by
  rw [word16At, UInt16.toNat_ofNat_of_lt' (ofLittleEndian_window_lt h), littleEndian_window h]

theorem littleEndian_word32At (h : i + 4 ≤ bs.length) :
    littleEndian 4 (word32At bs i).toNat = (bs.drop i).take 4 := by
  rw [word32At, UInt32.toNat_ofNat_of_lt' (ofLittleEndian_window_lt h), littleEndian_window h]

theorem littleEndian_word64At (h : i + 8 ≤ bs.length) :
    littleEndian 8 (word64At bs i).toNat = (bs.drop i).take 8 := by
  rw [word64At, UInt64.toNat_ofNat_of_lt' (ofLittleEndian_window_lt h), littleEndian_window h]

end Words

end Wire
end PinBridge
