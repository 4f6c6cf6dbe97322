import Mathlib.Algebra.BigOperators.Fin
import Spycat.Proofs.Ebpf.FutexHistories

/-! What the counters of a history count: the waits, their durations, and how many are in a slot. -/

namespace Spycat.Futexsnoop

open Lib

section Record

variable (arch : TargetArch) (h : Hist) (delta ts : UInt64) (comm : Bytes)

/-- A wait is counted. -/
@[simp] theorem record_contended :
    (h.record arch delta ts comm).contended = h.contended + 1 := by
  -- Both variants count the wait.
  cases arch <;> simp only [Hist.record, Hist.updateDurs] <;> split <;> rfl

/-- The duration of a wait is added. -/
@[simp] theorem record_totalElapsed :
    (h.record arch delta ts comm).totalElapsed = h.totalElapsed + delta := by
  -- Both variants add the duration.
  cases arch <;> simp only [Hist.record, Hist.updateDurs] <;> split <;> rfl

/-- A wait is counted in its slot, and in no other. -/
theorem record_slots (i : Fin maxSlots) :
    (h.record arch delta ts comm).slots[i] =
      if slotOf delta = i then h.slots[i] + 1 else h.slots[i] := by
  -- One slot is set, and the others are read back as they were.
  have same : (h.record arch delta ts comm).slots =
      h.slots.set (slotOf delta) (h.slots[slotOf delta] + 1) := by
    cases arch <;> simp only [Hist.record, Hist.updateDurs] <;> split <;> rfl
  rw [Fin.getElem_fin, same, Vector.getElem_set]
  by_cases own : slotOf delta = i
  · subst own
    simp
  · have apart : ¬ (slotOf delta).val = i.val := fun equal => own (Fin.ext equal)
    simp [own, apart]

end Record

/-- How many waits are in a slot. -/
def inSlot (waits : List Wait) (i : Fin maxSlots) : Nat :=
  waits.countP fun wait => min (Nat.log2 wait.duration.toNat) (maxSlots - 1) = i

/-- The counters of a history, as wide as they are, count the waits. -/
structure Tallied (waits : List Wait) (h : Hist) : Prop where
  contended : h.contended.toNat = waits.length % 2 ^ 64
  elapsed : h.totalElapsed.toNat = (waits.map (·.duration.toNat)).sum % 2 ^ 64
  slots : ∀ i : Fin maxSlots, h.slots[i].toNat = inSlot waits i % 2 ^ 32
  total : (∑ i : Fin maxSlots, h.slots[i].toNat) % 2 ^ 32 = h.contended.toNat % 2 ^ 32
  divisor : h.contended = 0 ↔ 2 ^ 64 ∣ waits.length

/-- A wait is in the slot that it is counted in. -/
theorem inSlot_append (waits : List Wait) (wait : Wait) (i : Fin maxSlots) :
    inSlot (waits ++ [wait]) i = inSlot waits i + if slotOf wait.duration = i then 1 else 0 := by
  -- The slot of the last wait is its logarithm, up to the last slot.
  have own : slotOf wait.duration = i ↔
      min (Nat.log2 wait.duration.toNat) (maxSlots - 1) = i.val := by
    rw [← slotOf_val, Fin.ext_iff]
  simp only [inSlot, List.countP_append, List.countP_singleton, own, decide_eq_true_eq]

/-- Every wait is in one slot. -/
theorem sum_inSlot (waits : List Wait) : ∑ i : Fin maxSlots, inSlot waits i = waits.length := by
  -- The last wait adds one to the sum, in whichever slot it is.
  induction waits using List.reverseRecOn with
  | nil => simp [inSlot]
  | append_singleton waits wait ih =>
    simp only [inSlot_append, Finset.sum_add_distrib, ih, Finset.sum_ite_eq, Finset.mem_univ,
      if_true, List.length_append, List.length_singleton]

/-- The counters of waits that were counted from the start. -/
theorem recordAll_counters (arch : TargetArch) (waits : List Wait) :
    (Hist.initial.recordAll arch waits).contended.toNat = waits.length % 2 ^ 64 ∧
      (Hist.initial.recordAll arch waits).totalElapsed.toNat =
        (waits.map (·.duration.toNat)).sum % 2 ^ 64 ∧
      ∀ i : Fin maxSlots,
        (Hist.initial.recordAll arch waits).slots[i].toNat = inSlot waits i % 2 ^ 32 := by
  -- The induction adds the last wait, so that every counter grows at its end.
  induction waits using List.reverseRecOn with
  | nil => simp [Hist.recordAll, Hist.initial, inSlot]
  | append_singleton waits wait ih =>
    obtain ⟨contended, elapsed, slots⟩ := ih
    have last : Hist.initial.recordAll arch (waits ++ [wait]) =
        (Hist.initial.recordAll arch waits).record arch wait.duration wait.ts wait.comm := by
      simp [Hist.recordAll]
    rw [last, record_contended, record_totalElapsed]
    refine ⟨?_, ?_, fun i => ?_⟩
    · rw [UInt64.toNat_add, contended, List.length_append]
      exact Nat.mod_add_mod ..
    · rw [UInt64.toNat_add, elapsed, List.map_append, List.sum_append]
      simp [Nat.mod_add_mod]
    · rw [record_slots, inSlot_append]
      split
      · rw [UInt32.toNat_add, slots i]
        exact Nat.mod_add_mod ..
      · exact slots i

/-- So the counters of waits that were counted from the start are right. -/
theorem tallied_recordAll (arch : TargetArch) (waits : List Wait) :
    Tallied waits (Hist.initial.recordAll arch waits) := by
  -- Two of the figures follow from the three counters.
  obtain ⟨contended, elapsed, slots⟩ := recordAll_counters arch waits
  refine ⟨contended, elapsed, slots, ?_, ?_⟩
  · -- What the slots have lost is as much as counting all waits in one of them would have.
    simp only [slots]
    rw [← Finset.sum_nat_mod, sum_inSlot, contended]
    omega
  · rw [← UInt64.toNat_inj, contended, UInt64.toNat_zero, Nat.dvd_iff_mod_eq_zero]

/-- The counters are among the figures. -/
theorem tallied_of_figures {waits : List Wait} {h : Hist} (tallied : Tallied waits h.figures) :
    Tallied waits h where
  -- The figures are all that is tallied.
  contended := tallied.contended
  elapsed := tallied.elapsed
  slots := tallied.slots
  total := tallied.total
  divisor := tallied.divisor

/--
The counters of a history count the waits that are taken into it: their number, their durations, and
how many are in the slot of each logarithm, up to the last slot, modulo the sizes of the counters.

After every run a history is one of the waits that were recorded under its key.
-/
theorem futexExit_tallies (arch : TargetArch) :
    (∀ waits, Tallied waits (Hist.initial.recordAll arch waits)) ∧
      ∀ args inside actions s, run (FutexTracer.step arch) (.new args inside) actions = some s →
        ∀ key, match s.maps.histsMap.lookup key with
          | none => recordedUnder arch (.new args inside) key actions = []
          | some h => Tallied (recordedUnder arch (.new args inside) key actions) h := by
  -- The history under a key is that of the waits recorded for it.
  refine ⟨tallied_recordAll arch, ?_⟩
  intro args inside actions s ran key
  have history := (run_filed args inside ran).histories key
  generalize recordedUnder arch (.new args inside) key actions = waits at history ⊢
  generalize s.maps.histsMap.lookup key = held at history ⊢
  cases history with
  | nothing => rfl
  | recorded some_ same => exact tallied_of_figures (same ▸ tallied_recordAll arch waits)

/-- Two waits are counted, one of them in the slot of four to seven microseconds. -/
theorem futexExit_tallies_two :
    ∃ s h, run (FutexTracer.step .other) openTracer shortWaits = some s ∧
      s.maps.histsMap.lookup ⟨1, 7, 0⟩ = some h ∧ h.contended.toNat = 2 ∧
      h.totalElapsed.toNat = 5 ∧ h.slots[2].toNat = 1 := by
  have goes : ∃ s, run (FutexTracer.step .other) openTracer shortWaits = some s := ⟨_, rfl⟩
  obtain ⟨s, ran⟩ := goes
  -- Both waits are recorded, so there is a history.
  have counted := (futexExit_tallies .other).2 everyWait _ _ s ran ⟨1, 7, 0⟩
  have waits := recordedUnder_shortWaits
  rw [openTracer] at waits
  rw [waits] at counted
  cases held : s.maps.histsMap.lookup ⟨1, 7, 0⟩ with
  | none => simp [held] at counted
  | some h =>
    rw [held] at counted
    exact ⟨s, h, ran, held, counted.contended, counted.elapsed, counted.slots ⟨2, by decide⟩⟩

/-- A wait of no time. -/
def noTime : Wait where
  duration := 0
  ts := 0
  comm := []

/-- Equal waits are all in one slot. -/
theorem inSlot_replicate (number : Nat) (i : Fin maxSlots) :
    inSlot (List.replicate number noTime) i = if slotOf 0 = i then number else 0 := by
  -- The last of the waits is in the same slot as the others.
  induction number with
  | zero => simp [inSlot]
  | succ number ih =>
    rw [List.replicate_succ', inSlot_append, ih, noTime]
    split <;> rfl

/-- The counters after equal waits. -/
theorem repeated_counters (number : Nat) :
    (Hist.initial.recordAll .other (List.replicate number noTime)).contended.toNat =
        number % 2 ^ 64 ∧
      (∑ i : Fin maxSlots,
        (Hist.initial.recordAll .other (List.replicate number noTime)).slots[i].toNat) =
          number % 2 ^ 32 := by
  -- All other slots stay empty, so the sum is what is left of one of them.
  obtain ⟨contended, _, slots⟩ := recordAll_counters .other (List.replicate number noTime)
  have each : ∀ i : Fin maxSlots, (if slotOf 0 = i then number else 0) % 2 ^ 32 =
      if slotOf 0 = i then number % 2 ^ 32 else 0 := by
    intro i
    split <;> rfl
  refine ⟨by rw [contended, List.length_replicate], ?_⟩
  simp only [slots, inSlot_replicate, each, Finset.sum_ite_eq, Finset.mem_univ, if_true]

/-- After 2^32 equal waits the slots add up to nothing, and after 2^64 there is no divisor. -/
theorem futexExit_tallies_wrap :
    (∑ i : Fin maxSlots,
        (Hist.initial.recordAll .other (List.replicate (2 ^ 32) noTime)).slots[i].toNat) ≠
      (Hist.initial.recordAll .other (List.replicate (2 ^ 32) noTime)).contended.toNat ∧
    (Hist.initial.recordAll .other (List.replicate (2 ^ 64) noTime)).contended.toNat = 0 := by
  -- The numbers stay symbols until the counters are known.
  obtain ⟨contended, slots⟩ := repeated_counters (2 ^ 32)
  rw [contended, slots, (repeated_counters (2 ^ 64)).1]
  decide

end Spycat.Futexsnoop
