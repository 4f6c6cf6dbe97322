import Mathlib.Algebra.BigOperators.Group.List.Basic
import Mathlib.Algebra.Ring.Nat
import Mathlib.Data.List.Forall2

/-! Lists whose elements all go through a partial function. -/

namespace Spycat.Lib

variable {α β μ : Type} {f : α → Option β} {input : List α} {output : List β}

/-- A list goes through when its elements do, one by one. -/
theorem mapM_forall₂ (mapped : input.mapM f = some output) :
    List.Forall₂ (fun a b => f a = some b) input output := by
  -- Elements go through one after the other, and one that does not stops them all.
  induction input generalizing output with
  | nil =>
    obtain rfl : [] = output := by simpa using mapped
    exact .nil
  | cons head tail ih =>
    rw [List.mapM_cons] at mapped
    cases first : f head with
    | none => simp [first] at mapped
    | some b =>
      cases rest : tail.mapM f with
      | none => simp [first, rest] at mapped
      | some bs =>
        obtain rfl : b :: bs = output := by simpa [first, rest] using mapped
        exact .cons first (ih rest)

/-- The element at a position goes to the element at that position. -/
theorem mapM_getElem? (mapped : input.mapM f = some output) (i : Nat) :
    output[i]? = input[i]?.bind f := by
  -- At every index the input and the output are related, or both have ended.
  have related := mapM_forall₂ mapped
  clear mapped
  induction related generalizing i with
  | nil => rfl
  | cons head tail ih =>
    cases i with
    | zero => simp [head]
    | succ i => simpa using ih i

/-- A function that is defined on every element goes through the list. -/
theorem mapM_goes (goes : ∀ a ∈ input, ∃ b, f a = some b) :
    ∃ output, input.mapM f = some output := by
  -- The induction follows the list.
  induction input with
  | nil => exact ⟨[], rfl⟩
  | cons a rest ih =>
    obtain ⟨b, first⟩ := goes a (by simp)
    obtain ⟨output, others⟩ := ih fun other member => goes other (by simp [member])
    exact ⟨b :: output, by simp [List.mapM_cons, first, others]⟩

/-- Sums agree that agree element by element. -/
theorem mapM_sum [AddCommMonoid μ] (before : α → μ) (after : β → μ)
    (agree : ∀ a ∈ input, ∀ b, f a = some b → after b = before a)
    (mapped : input.mapM f = some output) :
    (output.map after).sum = (input.map before).sum := by
  -- Both sums run over related lists in step.
  have related := mapM_forall₂ mapped
  clear mapped
  induction related with
  | nil => rfl
  | cons head tail ih =>
    rw [List.map_cons, List.sum_cons, List.map_cons, List.sum_cons,
      ih fun a member => agree a (by simp [member]), agree _ (by simp) _ head]

/-- Every element of a list that goes through does so itself. -/
theorem mapM_mem (mapped : input.mapM f = some output) {a : α} (member : a ∈ input) :
    ∃ b ∈ output, f a = some b := by
  -- Input and output are related place by place.
  have related := mapM_forall₂ mapped
  clear mapped
  induction related with
  | nil => simp at member
  | @cons head first tail rest went _ ih =>
    rcases List.mem_cons.mp member with rfl | later
    · exact ⟨first, by simp, went⟩
    · obtain ⟨b, inside, went⟩ := ih later
      exact ⟨b, by simp [inside], went⟩

/-- Every element of the output comes from one of the input. -/
theorem mapM_mem_output (mapped : input.mapM f = some output) {b : β} (member : b ∈ output) :
    ∃ a ∈ input, f a = some b := by
  -- The element of the input is the one at the same position.
  obtain ⟨i, found⟩ := List.mem_iff_getElem?.mp member
  rw [mapM_getElem? mapped i] at found
  obtain ⟨a, located, went⟩ := Option.bind_eq_some_iff.mp found
  exact ⟨a, List.mem_of_getElem? located, went⟩

/-- A list goes through exactly when each of its elements does. -/
theorem mapM_goes_iff :
    (∃ output, input.mapM f = some output) ↔ ∀ a ∈ input, ∃ b, f a = some b := by
  -- One member without a result is enough to have none.
  constructor
  · intro ⟨output, mapped⟩ a member
    obtain ⟨b, _, went⟩ := mapM_mem mapped member
    exact ⟨b, went⟩
  · exact mapM_goes

section Related

variable {γ : Type} {R : γ → α → Prop} {list : List γ}

/-- What holds of related elements together holds throughout both lists or neither. -/
theorem forall_mem_iff (left : γ → Prop) (right : α → Prop)
    (agree : ∀ c a, R c a → (left c ↔ right a)) (related : List.Forall₂ R list input) :
    (∀ c ∈ list, left c) ↔ ∀ a ∈ input, right a := by
  -- The induction goes through both lists together.
  induction related with
  | nil => simp
  | cons head _ ih => simp [ih, agree _ _ head]

/-- What a list is related to stays related to where the list goes. -/
theorem mapM_related {S : γ → β → Prop} (moves : ∀ c a b, R c a → f a = some b → S c b)
    (related : List.Forall₂ R list input) (mapped : input.mapM f = some output) :
    List.Forall₂ S list output := by
  -- Both relations run over the same list in the middle.
  have went := mapM_forall₂ mapped
  clear mapped
  induction related generalizing output with
  | nil =>
    cases went
    exact .nil
  | cons head _ ih =>
    cases went with
    | cons first rest => exact .cons (moves _ _ _ head first) (ih rest)

end Related

end Spycat.Lib
