import Mathlib.Algebra.Ring.Nat

/-! Times since the boot of the machine, against those of a clock that counts from 1970. -/

namespace Spycat

/-- The two clocks as one round reads them, one shortly after the other. -/
structure ClockReading where
  unixTime : Int64
  bootTime : Int64

/-- What the rounds so far make of the clocks. -/
structure BootEstimate where
  minDiff : Int64
  bootTimeOffset : Int64

namespace BootEstimate

/-- Before the first round no difference is known. -/
def start : BootEstimate where
  minDiff := Int64.maxValue
  bootTimeOffset := 0

/-- A round whose clocks differ by less than those of the rounds before decides. -/
def round (estimate : BootEstimate) (reading : ClockReading) : BootEstimate :=
  let offset := reading.unixTime - reading.bootTime
  -- The sign is turned in 64 bits, where the smallest number stays negative.
  let diff := if offset < 0 then -offset else offset
  if diff < estimate.minDiff then { minDiff := diff, bootTimeOffset := offset } else estimate

end BootEstimate

/-- How often the clocks are read. -/
def estimationRounds : Nat := 25

end Spycat
