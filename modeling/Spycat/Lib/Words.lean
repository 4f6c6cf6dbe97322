import Mathlib.Algebra.Ring.Int.Defs
import Mathlib.Algebra.Ring.Nat

/-! Machine words add up like the integers modulo their size. -/

namespace Spycat.Lib

instance instAddCommMonoidInt64 : AddCommMonoid Int64 where
  add_assoc := Int64.add_assoc
  zero_add := Int64.zero_add
  add_zero := Int64.add_zero
  add_comm := Int64.add_comm
  nsmul := nsmulRec

/-- An unsigned number below the sign bit stays the same as a signed one. -/
theorem toInt_toInt64 {value : UInt64} (small : value.toNat < 2 ^ 63) :
    value.toInt64.toInt = value.toNat := by
  -- The same bits stand for the same number while the highest one is zero.
  rw [← Int64.toInt_toBitVec]
  simp only [UInt64.toBitVec_toInt64, BitVec.toInt_eq_toNat_cond, UInt64.toNat_toBitVec]
  omega

/-- So does one that is taken for a signed number of 32 bits in between. -/
theorem toInt_toInt32_toInt64 {value : UInt32} (small : value.toNat < 2 ^ 31) :
    value.toInt32.toInt64.toUInt64.toInt64.toInt = value.toNat := by
  -- A number without its sign bit is not extended by ones.
  rw [Int64.toInt64_toUInt64, Int32.toInt_toInt64, ← Int32.toInt_toBitVec]
  simp only [UInt32.toBitVec_toInt32, BitVec.toInt_eq_toNat_cond, UInt32.toNat_toBitVec]
  omega

/-- A number of 32 bits stays the same as a wider one, with a sign or without. -/
theorem toInt_widened (value : UInt32) : value.toUInt64.toInt64.toInt = value.toNat := by
  -- A number of 32 bits is far from the sign bit of a wider one.
  have narrow : value.toUInt64.toNat < 2 ^ 63 := by
    have range := value.toNat_lt
    rw [UInt32.toNat_toUInt64]
    omega
  rw [toInt_toInt64 narrow, UInt32.toNat_toUInt64]

/-- A difference of signed numbers that fits 64 bits does not wrap. -/
theorem toInt_sub_fits {a b : Int64} (low : -2 ^ 63 ≤ a.toInt - b.toInt)
    (high : a.toInt - b.toInt < 2 ^ 63) : (a - b).toInt = a.toInt - b.toInt := by
  -- Within the bounds the difference does not wrap.
  rw [Int64.toInt_sub]
  exact Int.bmod_eq_of_le (by simpa using low) (by simpa using high)

/-- A signed number that is not negative stays the same as an unsigned one. -/
theorem toNat_toUInt64 {value : Int64} (positive : 0 ≤ value.toInt) :
    value.toUInt64.toNat = value.toInt.toNat :=
  -- Without a sign both readings of the 64 bits are the same.
  Int64.toNat_toUInt64_of_le (by
    rw [Int64.le_iff_toInt_le]
    simpa using positive)

/-- Cutting a signed number to 32 bits takes its remainder. -/
theorem toNat_narrow (value : Int64) :
    (value.toUInt64.toUInt32.toNat : Int) = value.toInt % 2 ^ 32 := by
  -- The bits of a negative number are those of its remainder by 2^64.
  have range : value.toBitVec.toNat < 2 ^ 64 := value.toBitVec.isLt
  rw [UInt64.toNat_toUInt32, ← Int64.toInt_toBitVec, BitVec.toInt_eq_toNat_cond]
  show ((value.toBitVec.toNat % 2 ^ 32 : Nat) : Int) = _
  split <;> omega

/-- The upper half of a number of 64 bits. -/
theorem toNat_upper (value : UInt64) : (value >>> 32).toUInt32.toNat = value.toNat / 2 ^ 32 := by
  -- Shifting by 32 bits leaves 32 of them.
  have narrow : value.toNat < 2 ^ 64 := value.toNat_lt
  rw [UInt64.toNat_toUInt32, UInt64.toNat_shiftRight]
  show value.toNat >>> 32 % 2 ^ 32 = _
  rw [Nat.shiftRight_eq_div_pow]
  omega

/-- A number of 32 bits is found again in a wider signed one. -/
theorem toInt32_widened (value : UInt32) : value.toUInt64.toInt64.toInt32 = value.toInt32 := by
  -- Widening adds zeros in front of the bits, and narrowing takes them off.
  apply Int32.toBitVec_inj.mp
  simp [BitVec.signExtend_eq_setWidth_of_le]

/-- A number without its sign bit is not negative. -/
theorem not_neg_toInt32 {value : UInt32} (small : value.toNat < 2 ^ 31) :
    ¬ value.toInt32 < 0 := by
  -- The same bits without the sign bit are the same number.
  rw [Int32.lt_iff_toInt_lt, ← Int32.toInt_toBitVec]
  simp only [UInt32.toBitVec_toInt32, BitVec.toInt_eq_toNat_cond, UInt32.toNat_toBitVec,
    Int32.reduceToInt]
  omega

/-- A number cut to 32 bits and extended with its sign has ones where the highest bit is one. -/
theorem toNat_signExtended (value : UInt64) :
    value.toUInt32.toInt32.toInt64.toUInt64.toNat = value.toNat % 2 ^ 32 +
      if 2 ^ 31 ≤ value.toNat % 2 ^ 32 then 2 ^ 64 - 2 ^ 32 else 0 := by
  -- The remainder fits into 64 bits as it is.
  have lower : (value.toBitVec.setWidth 32).toNat = value.toNat % 2 ^ 32 := BitVec.toNat_setWidth ..
  have fits : value.toNat % 2 ^ 32 % 2 ^ 64 = value.toNat % 2 ^ 32 := by omega
  show ((value.toBitVec.setWidth 32).signExtend 64).toNat = _
  rw [BitVec.toNat_signExtend, BitVec.toNat_setWidth, BitVec.msb_eq_decide, lower, fits]
  simp only [decide_eq_true_eq]

/-- The number of 64 bits that is made of two halves. -/
def ofHalves (upper lower : UInt32) : UInt64 := UInt64.ofNat (upper.toNat * 2 ^ 32 + lower.toNat)

theorem toNat_ofHalves (upper lower : UInt32) :
    (ofHalves upper lower).toNat = upper.toNat * 2 ^ 32 + lower.toNat := by
  -- Two halves of 32 bits fit.
  have high := upper.toNat_lt
  have low := lower.toNat_lt
  exact UInt64.toNat_ofNat_of_lt' (by simp only [UInt64.size]; omega)

/-- Both halves are found again. -/
theorem upper_ofHalves (upper lower : UInt32) :
    (ofHalves upper lower >>> 32).toUInt32 = upper := by
  -- The lower half is too small to carry over.
  have low := lower.toNat_lt
  apply UInt32.toNat_inj.mp
  rw [toNat_upper, toNat_ofHalves]
  omega

theorem lower_ofHalves (upper lower : UInt32) : (ofHalves upper lower).toUInt32 = lower := by
  -- The upper half is a multiple of 2 ^ 32.
  have low := lower.toNat_lt
  apply UInt32.toNat_inj.mp
  rw [UInt64.toNat_toUInt32, toNat_ofHalves]
  omega

end Spycat.Lib
