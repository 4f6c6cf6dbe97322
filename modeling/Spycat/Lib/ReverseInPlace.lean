import Mathlib.Data.List.Basic

/-! Reversing an array in place, by two indices that meet in the middle. -/

namespace Spycat.Lib

variable {α : Type}

/-- Exchange the elements at two indices until the indices meet; absent where one of them is not
an index of the array. -/
def reverseBetween (s : Array α) (i j : Int) : Option (Array α) :=
  if i < j then
    if inside : i.toNat < s.size ∧ j.toNat < s.size ∧ 0 ≤ i then
      reverseBetween (s.swap i.toNat j.toNat inside.1 inside.2.1) (i + 1) (j - 1)
    else none
  else some s
termination_by (j - i).toNat
decreasing_by omega

/-- Reverse an array in place. -/
def reverseInPlace (s : Array α) : Option (Array α) := reverseBetween s 0 (s.size - 1)

/-- An exchange at the same distance from both ends, with what is in between reversed, reverses what
is between the ends themselves. -/
theorem getElem?_swap_ends (s : Array α) {i j : Nat} (first : i < s.size) (second : j < s.size)
    (ordered : i < j) (opposite : i + j + 1 = s.size) (k : Nat) :
    (if i < k ∧ k < j then (s.swap i j first second)[s.size - 1 - k]?
      else (s.swap i j first second)[k]?) =
      if i ≤ k ∧ k ≤ j then s[s.size - 1 - k]? else s[k]? := by
  -- An element between the two is not touched; the two ends change places.
  have atFirst : s[i]? = some s[i] := Array.getElem?_eq_getElem first
  have atSecond : s[j]? = some s[j] := Array.getElem?_eq_getElem second
  by_cases between : i < k ∧ k < j
  · rw [if_pos between, if_pos (by omega), Array.getElem?_swap, if_neg (by omega),
      if_neg (by omega)]
  · rw [if_neg between, Array.getElem?_swap]
    by_cases low : i = k
    · rw [if_neg (by omega), if_pos low, if_pos (by omega), ← atSecond]
      congr 1
      omega
    · by_cases high : j = k
      · rw [if_pos high, if_pos (by omega), ← atFirst]
        congr 1
        omega
      · rw [if_neg high, if_neg low, if_neg (by omega)]

/-- Two indices at the same distance from both ends reverse what is between them. -/
theorem reverseBetween_spec (s : Array α) (i j : Int) (nonneg : 0 ≤ i)
    (opposite : i + j = s.size - 1) :
    ∃ t : Array α, reverseBetween s i j = some t ∧ t.size = s.size ∧
      ∀ k : Nat, t[k]? =
        if i ≤ k ∧ (k : Int) ≤ j then s[s.size - 1 - k]? else s[k]? := by
  -- Every exchange puts two elements in their places, and leaves less in between.
  fun_induction reverseBetween s i j with
  | case1 s i j ordered inside ih =>
    have size : (s.swap i.toNat j.toNat inside.1 inside.2.1).size = s.size := Array.size_swap
    have bounds : i.toNat < j.toNat ∧ i.toNat + j.toNat + 1 = s.size ∧ 0 ≤ i + 1 ∧
        i + 1 + (j - 1) = s.size - 1 := by
      clear ih
      omega
    have inner : ∀ k : Nat, (i + 1 ≤ k ∧ (k : Int) ≤ j - 1) ↔ i.toNat < k ∧ k < j.toNat := by
      clear ih
      omega
    have outer : ∀ k : Nat, (i ≤ k ∧ (k : Int) ≤ j) ↔ i.toNat ≤ k ∧ k ≤ j.toNat := by
      clear ih
      omega
    have ends := getElem?_swap_ends s inside.1 inside.2.1 bounds.1 bounds.2.1
    obtain ⟨t, loop, length, elements⟩ := ih bounds.2.2.1 (by rw [size]; exact bounds.2.2.2)
    refine ⟨t, loop, length.trans size, fun k => ?_⟩
    rw [elements k, size]
    simp only [inner, outer]
    exact ends k
  | case2 s i j ordered outside => exact absurd ⟨by omega, by omega, nonneg⟩ outside
  | case3 s i j met =>
    refine ⟨s, rfl, rfl, fun k => ?_⟩
    split
    · next between => rw [show s.size - 1 - k = k by omega]
    · rfl

/-- The array is reversed, and no other index is used. -/
theorem reverseInPlace_eq (s : Array α) : reverseInPlace s = some s.reverse := by
  -- The loop starts with both ends, so it reverses everything between them.
  obtain ⟨t, loop, size, elements⟩ :=
    reverseBetween_spec s 0 (s.size - 1) (Int.le_refl 0) (Int.zero_add _)
  rw [reverseInPlace, loop]
  congr 1
  apply Array.ext_getElem?
  intro k
  rw [elements k]
  by_cases inside : k < s.size
  · rw [if_pos (by omega), Array.getElem?_reverse inside]
  · rw [if_neg (by omega), Array.getElem?_eq_none (by omega),
      Array.getElem?_eq_none (by rw [Array.size_reverse]; omega)]

end Spycat.Lib
