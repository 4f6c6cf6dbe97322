import Mathlib.Algebra.Order.Ring.Int

/-! The ticker behind the uploads: its times are multiples of a duration. -/

namespace Spycat.AlignedTicker

/-- The last multiple of a duration up to a time. -/
def truncate (time d : Int) : Int := time - time % d

/-- The time of the first tick: the next multiple of the duration. -/
def first (now d : Int) : Int := truncate now d + d

/-- The time that a tick of the underlying ticker is reported with: the closest multiple. -/
def aligned (now d : Int) : Int :=
  let prev := truncate now d
  let next := prev + d
  if now - prev < next - now then prev else next

/-- A tick that comes some durations later is reported as many durations later. -/
theorem aligned_later (now d : Int) (count : Nat) :
    aligned (now + count * d) d = aligned now d + count * d := by
  -- Both times stand at the same distance from their multiples.
  have same : truncate (now + count * d) d = truncate now d + count * d := by
    simp only [truncate, Int.add_mul_emod_self_right]
    omega
  simp only [aligned, same]
  split <;> split <;> omega

end Spycat.AlignedTicker
