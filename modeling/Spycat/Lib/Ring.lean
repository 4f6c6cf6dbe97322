import Mathlib.Data.List.Basic
import Mathlib.Data.Vector.Basic

/-! A ring: values that are written one after the other into slots, each one over the oldest. -/

namespace Spycat.Lib

variable {α : Type} {size : Nat}

/-- The number of the last value written into a slot, after so many values; absent for no value. -/
def lastWritten (size count slot : Nat) : Option Nat :=
  if slot < count then some (slot + (count - 1 - slot) / size * size) else none

/-- The slots after a history of values; those not written to yet hold the same blank value. -/
def ringOf (size : Nat) (blank : α) (history : List α) : Vector α size :=
  Vector.ofFn fun slot =>
    ((lastWritten size history.length slot).bind fun number => history[number]?).getD blank

/-- The values of a ring from the oldest one on, where so many values were written. -/
def unroll (slots : Vector α size) (filled : 0 < size) (count : Nat) : List α :=
  List.ofFn fun i : Fin (min count size) =>
    slots.get ⟨(count - min count size + i.val) % size, Nat.mod_lt _ filled⟩

/-- A value is the last one of its slot if its slot is right and no later value has it. -/
theorem lastWritten_eq_some {count slot number : Nat} (inside : slot < size) :
    lastWritten size count slot = some number ↔
      number % size = slot ∧ number < count ∧ count ≤ number + size := by
  -- The division counts how often the ring was gone through since the slot was first written.
  have whole : (count - 1 - slot) / size * size + (count - 1 - slot) % size = count - 1 - slot :=
    Nat.div_add_mod' ..
  have rest : (count - 1 - slot) % size < size := Nat.mod_lt _ (by omega)
  unfold lastWritten
  split
  · rename_i written
    rw [Option.some.injEq]
    constructor
    · intro same
      subst same
      refine ⟨?_, by omega, by omega⟩
      rw [Nat.add_mul_mod_self_right, Nat.mod_eq_of_lt inside]
    · intro ⟨right, before, recent⟩
      -- Both numbers are in one window of the length of the ring, and fall into one slot.
      have other := Nat.div_add_mod' number size
      generalize (count - 1 - slot) / size = turns at whole ⊢
      generalize number / size = turns' at other
      rw [right] at other
      rcases Nat.lt_trichotomy turns turns' with fewer | same | more
      · have step : (turns + 1) * size ≤ turns' * size := Nat.mul_le_mul_right _ fewer
        rw [Nat.add_mul, Nat.one_mul] at step
        omega
      · subst same
        omega
      · have step : (turns' + 1) * size ≤ turns * size := Nat.mul_le_mul_right _ more
        rw [Nat.add_mul, Nat.one_mul] at step
        omega
  · rename_i unwritten
    refine iff_of_false nofun fun ⟨right, before, _⟩ => ?_
    have lower : number % size ≤ number := Nat.mod_le ..
    omega

/-- A slot holds the last value whose number falls into it. -/
theorem ringOf_recent {blank : α} {history : List α} {number : Nat} {value : α}
    (written : history[number]? = some value) (recent : history.length ≤ number + size)
    (inside : number % size < size) :
    (ringOf size blank history)[number % size] = value := by
  -- The number is before the end of the history, as there is a value of it.
  obtain ⟨before, _⟩ := List.getElem?_eq_some_iff.mp written
  have last := (@lastWritten_eq_some _ history.length _ _ inside).mpr ⟨rfl, before, recent⟩
  simp only [ringOf, Vector.getElem_ofFn, last, Option.bind_some, written, Option.getD_some]

/-- A slot that no value has reached is blank. -/
theorem ringOf_blank {blank : α} {history : List α} {slot : Nat}
    (unwritten : history.length ≤ slot) (inside : slot < size) :
    (ringOf size blank history)[slot] = blank := by
  -- There is no last value of such a slot.
  simp [ringOf, lastWritten, Nat.not_lt.mpr unwritten]

/-- A ring before anything was written is blank all around. -/
theorem ringOf_nil (blank : α) : ringOf size blank [] = Vector.replicate size blank := by
  -- Every slot is one that nothing has reached.
  apply Vector.ext
  intro slot inside
  rw [ringOf_blank (Nat.zero_le _), Vector.getElem_replicate]

/-- One more value goes into the slot of its number, and every other slot stays. -/
theorem ringOf_append {blank : α} {history : List α} (value : α)
    (inside : history.length % size < size) :
    ringOf size blank (history ++ [value]) =
      (ringOf size blank history).set (history.length % size) value := by
  -- A slot that is not written to keeps its last number, and that value stays in the history.
  apply Vector.ext
  intro slot within
  rw [Vector.getElem_set]
  split
  · rename_i same
    subst same
    exact ringOf_recent (by simp) (by simp; omega) inside
  · rename_i other
    rcases Nat.lt_or_ge slot history.length with written | unwritten
    · obtain ⟨number, last⟩ : ∃ number, lastWritten size history.length slot = some number :=
        ⟨_, if_pos written⟩
      obtain ⟨rfl, before, recent⟩ := (lastWritten_eq_some within).mp last
      have found : history[number]? = some history[number] := List.getElem?_eq_getElem before
      have kept : (history ++ [value])[number]? = some history[number] := by
        rw [List.getElem?_append_left before, found]
      -- A number that is a whole ring away from the new one falls into its slot.
      have apart : history.length ≠ number + size := by
        intro away
        rw [away, Nat.add_mod_right] at other
        exact other rfl
      rw [ringOf_recent found recent within, ringOf_recent kept (by simp; omega) within]
    · rw [ringOf_blank unwritten within]
      -- The slot right behind the history is the one written to, unless the ring is full.
      have behind : slot ≠ history.length := by
        intro next
        rw [← next, Nat.mod_eq_of_lt within] at other
        exact other rfl
      exact ringOf_blank (by simp; omega) within

/-- A ring is unrolled to the last values of its history, as many as it has slots. -/
theorem unroll_ringOf (blank : α) (history : List α) (filled : 0 < size) :
    unroll (ringOf size blank history) filled history.length =
      history.drop (history.length - size) := by
  -- The numbers of the last values follow each other, up to the end of the history.
  have start : history.length - min history.length size = history.length - size := by omega
  apply List.ext_getElem
  · simp only [unroll, List.length_ofFn, List.length_drop]
    omega
  · intro i inside _
    rw [unroll, List.length_ofFn] at inside
    have before : history.length - size + i < history.length := by omega
    simp only [unroll, List.getElem_ofFn, List.getElem_drop, start]
    exact ringOf_recent (List.getElem?_eq_getElem before) (by omega) (Nat.mod_lt _ filled)

end Spycat.Lib
