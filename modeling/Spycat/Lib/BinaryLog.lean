import Mathlib.Algebra.Ring.Nat
import Mathlib.Data.Nat.Log

/-! Floors of binary logarithms, found by halving the range of bits. -/

namespace Spycat.Lib

/-- A number with more bits than are shifted out has as many bits more than what is left. -/
theorem log2_shift {number shift : Nat} (large : 2 ^ shift ≤ number) :
    Nat.log2 number = shift + Nat.log2 (number / 2 ^ shift) := by
  -- The logarithm is at least as many as are shifted out.
  have atLeast : shift ≤ Nat.log 2 number := Nat.le_log_of_pow_le (by decide) large
  rw [Nat.log2_eq_log_two, Nat.log2_eq_log_two, Nat.log_div_base_pow]
  omega

/--
What is left of a search for the highest bit: a number of few bits, and how many were shifted out.

Those come in multiples of the width that is left.
-/
structure Halved (number width : Nat) (r v : UInt32) : Prop where
  total : r.toNat + Nat.log2 v.toNat = Nat.log2 number
  small : v.toNat < 2 ^ 2 ^ width
  aligned : 2 ^ width ∣ r.toNat

/-- How much is shifted out when the upper half of the bits is not zero. -/
def halfShift (bound amount v : UInt32) : UInt32 := (if v > bound then 1 else 0 : UInt32) <<< amount

/-- An amount of bits is a power of two, unless there is nothing to shift out. -/
theorem toNat_halfShift {width : Nat} {amount : UInt32} (narrow : width < 5)
    (by_ : amount.toNat = width) (bound v : UInt32) :
    (halfShift bound amount v).toNat = if v > bound then 2 ^ width else 0 := by
  -- The width is one of five.
  have power : 2 ^ width < 2 ^ 32 := Nat.pow_lt_pow_right (by decide) (by omega)
  unfold halfShift
  rw [UInt32.toNat_shiftLeft, by_, Nat.mod_eq_of_lt (by omega : width < 32)]
  split
  · rw [UInt32.toNat_one, Nat.shiftLeft_eq, Nat.one_mul, Nat.mod_eq_of_lt power]
  · rw [UInt32.toNat_zero, Nat.zero_shiftLeft, Nat.zero_mod]

/-- Bits that are put below a multiple of a power of two are added to it. -/
theorem toNat_or_of_dvd {r low : UInt32} {width : Nat} (aligned : 2 ^ width ∣ r.toNat)
    (small : low.toNat < 2 ^ width) : (r ||| low).toNat = r.toNat + low.toNat := by
  -- A multiple has zeros where the bits are put.
  obtain ⟨factor, same⟩ := aligned
  rw [UInt32.toNat_or, same, ← Nat.two_pow_add_eq_or_of_lt small]

/-- Shifting the upper half down, if it is not zero, halves the width. -/
theorem Halved.next {number width : Nat} {r v : UInt32} (halved : Halved number (width + 1) r v)
    (bound amount : UInt32) (narrow : width < 5)
    (most : bound.toNat + 1 = 2 ^ 2 ^ width) (by_ : amount.toNat = width) :
    Halved number width (r ||| halfShift bound amount v) (v >>> halfShift bound amount v) := by
  -- As much is shifted out of the number as is put into the result, or nothing is.
  obtain ⟨total, small, aligned⟩ := halved
  have shift := toNat_halfShift narrow by_ bound v
  have halves : 2 ^ 2 ^ (width + 1) = 2 ^ 2 ^ width * 2 ^ 2 ^ width := by
    rw [← Nat.pow_add, Nat.pow_succ, Nat.mul_two]
  have below : (halfShift bound amount v).toNat < 2 ^ (width + 1) := by
    have next := Nat.pow_succ 2 width
    have positive := Nat.two_pow_pos width
    rw [shift]
    split <;> omega
  have joined := toNat_or_of_dvd aligned below
  have amounts : (halfShift bound amount v).toNat < 32 :=
    below.trans_le (Nat.pow_le_pow_right (by decide) narrow)
  have shifted : (v >>> halfShift bound amount v).toNat =
      v.toNat / 2 ^ (halfShift bound amount v).toNat := by
    rw [UInt32.toNat_shiftRight, Nat.mod_eq_of_lt amounts, Nat.shiftRight_eq_div_pow]
  have finer : 2 ^ width ∣ r.toNat := Nat.dvd_trans (Nat.pow_dvd_pow 2 (Nat.le_succ width)) aligned
  rw [shift] at joined shifted
  by_cases upper : v > bound
  · rw [if_pos upper] at joined shifted
    have large : 2 ^ 2 ^ width ≤ v.toNat := most ▸ UInt32.lt_iff_toNat_lt.mp upper
    refine ⟨?_, ?_, ?_⟩
    · rw [joined, shifted, ← total, log2_shift large, Nat.add_assoc]
    · rw [shifted, Nat.div_lt_iff_lt_mul (Nat.two_pow_pos _), ← halves]
      exact small
    · rw [joined]
      exact Nat.dvd_add finer (Nat.dvd_refl _)
  · rw [if_neg upper] at joined shifted
    have few : v.toNat ≤ bound.toNat :=
      Nat.not_lt.mp fun less => upper (UInt32.lt_iff_toNat_lt.mpr less)
    refine ⟨?_, ?_, ?_⟩
    · rw [joined, shifted, ← total, Nat.pow_zero, Nat.div_one, Nat.add_zero]
    · rw [shifted, Nat.pow_zero, Nat.div_one, ← most]
      omega
    · rw [joined]
      exact finer

/-- A number of two bits has its logarithm as its upper bit. -/
theorem Halved.last {number : Nat} {r v : UInt32} (halved : Halved number 1 r v) :
    (r ||| (v >>> 1)).toNat = Nat.log2 number := by
  -- There are four such numbers.
  obtain ⟨total, small, aligned⟩ := halved
  have upper : (v >>> 1).toNat = v.toNat / 2 := by
    rw [UInt32.toNat_shiftRight]
    rfl
  have few : ∀ bits < 4, Nat.log2 bits = bits / 2 := by decide
  rw [toNat_or_of_dvd aligned (by omega), upper, ← total, few v.toNat small]

/-- The search begins with all bits. -/
theorem halved_start (v : UInt32) : Halved v.toNat 5 0 v where
  -- Nothing was shifted off the number yet, which has 32 bits.
  total := Nat.zero_add _
  small := v.toNat_lt
  aligned := Nat.dvd_zero _

end Spycat.Lib
