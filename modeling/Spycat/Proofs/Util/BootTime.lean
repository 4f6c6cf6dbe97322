import Spycat.Proofs.Ebpf.OffcpuLabels
import Spycat.Util.BootTime

/-! How far the times of events are off: the estimation takes the round with the longest delay. -/

namespace Spycat

open Lib

/-- A round reads the clock of the boot a while after the other one, and both go at one speed. -/
structure Steady (since : Int) (delay : Nat → Nat) (clocks : Nat → Option ClockReading) : Prop where
  reads : ∀ round < estimationRounds, ∃ reading, clocks round = some reading ∧
    reading.unixTime.toInt - reading.bootTime.toInt = since - delay round
  -- The machine was started after 1970, and before the clock of 64 bits ends.
  started : ∀ round < estimationRounds, delay round ≤ since
  ends : since < 2 ^ 63 - 1

/-- The longest delay of all rounds. -/
structure LongestDelay (delay : Nat → Nat) (longest : Nat) : Prop where
  reached : ∃ round < estimationRounds, delay round = longest
  all : ∀ round < estimationRounds, delay round ≤ longest

/-- After some rounds the estimate is the offset of the round with the longest delay so far. -/
structure Estimates (since : Int) (delay : Nat → Nat) (rounds : Nat) (estimate : BootEstimate) :
    Prop where
  least : ∀ round < rounds, estimate.minDiff.toInt ≤ since - delay round
  first : rounds = 0 → estimate = .start
  later : 0 < rounds → ∃ round < rounds, estimate.bootTimeOffset.toInt = since - delay round ∧
    estimate.minDiff.toInt = since - delay round

section Estimation

variable {since : Int} {delay : Nat → Nat} {clocks : Nat → Option ClockReading}

/-- A round whose delay is longer than all before decides. -/
theorem Estimates.round (steady : Steady since delay clocks) {rounds : Nat}
    (inside : rounds < estimationRounds) {estimate : BootEstimate}
    (holds : Estimates since delay rounds estimate) {reading : ClockReading}
    (read : clocks rounds = some reading) :
    Estimates since delay (rounds + 1) (estimate.round reading) := by
  obtain ⟨same, known, differ⟩ := steady.reads rounds inside
  obtain rfl := Option.some.inj (read.symm.trans known)
  have started := steady.started rounds inside
  have ends := steady.ends
  have offset : (reading.unixTime - reading.bootTime).toInt = since - delay rounds := by
    rw [toInt_sub_fits (by omega) (by omega), differ]
  -- The machine was started after 1970, so the sign is never turned.
  have unturned : ¬ reading.unixTime - reading.bootTime < 0 := by
    rw [Int64.lt_iff_toInt_lt, offset]
    simp only [Int64.toInt_zero]
    omega
  by_cases closer : reading.unixTime - reading.bootTime < estimate.minDiff
  · have taken : estimate.round reading =
        { minDiff := reading.unixTime - reading.bootTime
          bootTimeOffset := reading.unixTime - reading.bootTime } := by
      simp only [BootEstimate.round, if_neg unturned, if_pos closer]
    rw [taken]
    rw [Int64.lt_iff_toInt_lt, offset] at closer
    refine ⟨fun round before => ?_, by omega, fun _ => ⟨rounds, by omega, offset, offset⟩⟩
    rcases Nat.lt_succ_iff_lt_or_eq.mp before with earlier | rfl
    · have bound := holds.least round earlier
      simp only [offset]
      omega
    · exact offset.le
  · have kept : estimate.round reading = estimate := by
      simp only [BootEstimate.round, if_neg unturned, if_neg closer]
    rw [kept]
    rw [Int64.lt_iff_toInt_lt, offset] at closer
    refine ⟨fun round before => ?_, by omega, fun _ => ?_⟩
    · rcases Nat.lt_succ_iff_lt_or_eq.mp before with earlier | rfl
      · exact holds.least round earlier
      · omega
    · rcases Nat.eq_zero_or_pos rounds with zero | positive
      · -- The first round is closer than the estimate at the start.
        rw [holds.first zero, BootEstimate.start, Int64.toInt_maxValue] at closer
        omega
      · obtain ⟨round, before, decides⟩ := holds.later positive
        exact ⟨round, by omega, decides⟩

/-- Two delays that are both the longest are the same. -/
theorem LongestDelay.unique {longest other : Nat} (long : LongestDelay delay longest)
    (also : LongestDelay delay other) : longest = other := by
  -- Each is the delay of some round, so neither is longer.
  obtain ⟨round, inside, rfl⟩ := long.reached
  obtain ⟨round', inside', rfl⟩ := also.reached
  exact Nat.le_antisymm (also.all round inside) (long.all round' inside')

end Estimation

end Spycat
