import Mathlib.Algebra.Ring.Nat

/-! Natural numbers as bytes, lowest byte first. -/

namespace Spycat.Lib

/-- The number a byte string stands for. -/
def leNat : List UInt8 → Nat
  | [] => 0
  | byte :: rest => byte.toNat + 256 * leNat rest

/-- The lowest bytes of a number, as many as asked for. -/
def lePut : Nat → Nat → List UInt8
  | 0, _ => []
  | count + 1, value => UInt8.ofNat value :: lePut count (value / 256)

@[simp] theorem lePut_length (count value : Nat) : (lePut count value).length = count := by
  -- Each byte written is one of the width.
  induction count generalizing value with
  | zero => rfl
  | succ count ih => simp [lePut, ih]

/-- The lowest bytes stand in front of the ones above them. -/
theorem lePut_add (low high value : Nat) :
    lePut (low + high) value = lePut low value ++ lePut high (value / 256 ^ low) := by
  -- Each byte in front divides what is left by 256.
  induction low generalizing value with
  | zero => simp [lePut]
  | succ low ih =>
    rw [Nat.succ_add, lePut, ih, lePut, List.cons_append, Nat.div_div_eq_div_mul, ← Nat.pow_succ']

/-- Bytes that were put are read back, up to the number of values they can hold. -/
theorem leNat_lePut (count value : Nat) : leNat (lePut count value) = value % 256 ^ count := by
  -- The first byte is the remainder by 256, the others stand for the quotient.
  induction count generalizing value with
  | zero => simp [lePut, leNat, Nat.mod_one]
  | succ count ih =>
    have low : (UInt8.ofNat value).toNat = value % 256 := by simp
    rw [lePut, leNat, ih, low, Nat.pow_succ, Nat.mul_comm (256 ^ count), Nat.mod_mul]

end Spycat.Lib
