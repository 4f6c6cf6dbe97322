import Spycat.Ebpf.Futexsnoop
import Spycat.Lib.BinaryLog
import Spycat.Lib.Words

/-! The slot of a duration is the floor of its binary logarithm. -/

namespace Spycat.Futexsnoop

open Lib

/-- The logarithm of a 32-bit value, which is found in five rounds. -/
theorem toNat_log2 (v : UInt32) : (log2 v).toNat = Nat.log2 v.toNat := by
  -- Every round shifts out half of the bits that are left, unless the upper half is zero.
  have sixteen := (halved_start v).next 0xFFFF 4 (by decide) (by decide) rfl
  have eight := sixteen.next 0xFF 3 (by decide) (by decide) rfl
  have four := eight.next 0xF 2 (by decide) (by decide) rfl
  have two := four.next 0x3 1 (by decide) (by decide) rfl
  have last := two.last
  rw [UInt32.zero_or] at last
  exact last

/-- The logarithm of a 64-bit value. -/
theorem toNat_log2l (v : UInt64) : (log2l v).toNat = Nat.log2 v.toNat := by
  have range := v.toNat_lt
  have upper := toNat_upper v
  simp only [log2l]
  -- The upper half decides unless it is zero.
  split
  · rename_i nonzero
    have positive : 0 < (v >>> 32).toUInt32.toNat := Nat.pos_of_ne_zero fun zero =>
      nonzero (UInt32.toNat_inj.mp zero)
    have large : 2 ^ 32 ≤ v.toNat := by omega
    have few : Nat.log2 (v.toNat / 2 ^ 32) < 32 := (Nat.log2_lt (by omega)).mpr (by omega)
    rw [UInt32.toNat_toUInt64, UInt32.toNat_add, toNat_log2, upper, log2_shift large]
    show (_ + 32) % 2 ^ 32 = _
    omega
  · rename_i zero
    have zero : (v >>> 32).toUInt32 = 0 := not_not.mp zero
    have small : v.toNat / 2 ^ 32 = 0 := upper ▸ congrArg UInt32.toNat zero
    rw [UInt32.toNat_toUInt64, toNat_log2, UInt64.toNat_toUInt32, Nat.mod_eq_of_lt (by omega)]

/-- The slot of a duration. -/
theorem slotOf_val (delta : UInt64) :
    (slotOf delta).val = min (Nat.log2 delta.toNat) (maxSlots - 1) := by
  -- The logarithm is a slot of its own as long as there are so many slots.
  have found := toNat_log2l delta
  have slots : maxSlots = 24 := rfl
  simp only [slotOf]
  split
  · rename_i inside
    simp only [found] at inside ⊢
    omega
  · rename_i outside
    simp only [found] at outside ⊢
    omega

end Spycat.Futexsnoop
