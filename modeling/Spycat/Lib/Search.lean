import Mathlib.Algebra.Ring.Nat
import Mathlib.Order.Basic

/-! Binary search for the first index at which a monotone test turns true. -/

namespace Spycat.Lib

/-- Halve the interval `[low, high)` until one index is left. -/
def searchBetween (test : Nat → Bool) (low high : Nat) : Nat :=
  if low < high then
    let mid := (low + high) / 2
    if !test mid then searchBetween test (mid + 1) high else searchBetween test low mid
  else low
termination_by high - low

/-- The first index below `count` at which the test holds, or `count` when there is none. -/
def searchFirst (count : Nat) (test : Nat → Bool) : Nat :=
  searchBetween test 0 count

/-- A test that never turns false again once it has been true. -/
def TestMonotone (count : Nat) (test : Nat → Bool) : Prop :=
  ∀ i j, i ≤ j → j < count → test i = true → test j = true

/-- The search stops where the test changes, given the bounds it keeps on both sides. -/
theorem searchBetween_spec {count : Nat} {test : Nat → Bool} (monotone : TestMonotone count test)
    (low high : Nat) (ordered : low ≤ high) (within : high ≤ count)
    (below : ∀ i, i < low → test i = false) (above : ∀ i, high ≤ i → i < count → test i = true) :
    searchBetween test low high ≤ count ∧
      (∀ i, i < searchBetween test low high → test i = false) ∧
      (∀ i, searchBetween test low high ≤ i → i < count → test i = true) := by
  -- Each halving keeps a false prefix on the left and a true suffix on the right.
  induction low, high using searchBetween.induct test with
  | case1 low high inside mid isFalse ih =>
    rw [searchBetween, if_pos inside]
    have failing : test mid = false := by simpa using isFalse
    simp only [failing, Bool.not_false, if_true, mid] at ih ⊢
    refine ih (by omega) within ?_ above
    intro i before
    cases holds : test i with
    | false => rfl
    | true =>
      have carried := monotone i mid (by omega) (by omega) holds
      rw [failing] at carried
      contradiction
  | case2 low high inside mid isTrue ih =>
    rw [searchBetween, if_pos inside]
    have passing : test mid = true := by simpa using isTrue
    simp only [passing, Bool.not_true, Bool.false_eq_true, if_false, mid] at ih ⊢
    exact ih (by omega) (by omega) below
      fun i after inCount => monotone mid i after inCount passing
  | case3 low high outside =>
    rw [searchBetween, if_neg outside]
    exact ⟨by omega, below, fun i after => above i (by omega)⟩

/-- Everything before the found index fails the test and everything from it on passes. -/
theorem searchFirst_spec {count : Nat} {test : Nat → Bool} (monotone : TestMonotone count test) :
    searchFirst count test ≤ count ∧
      (∀ i, i < searchFirst count test → test i = false) ∧
      (∀ i, searchFirst count test ≤ i → i < count → test i = true) :=
  -- The initial interval covers every index, so both side conditions are empty.
  searchBetween_spec monotone 0 count (Nat.zero_le _) (Nat.le_refl _)
    (fun i before => absurd before (Nat.not_lt_zero i))
    (fun _ after inCount => absurd after (Nat.not_le_of_lt inCount))

end Spycat.Lib
