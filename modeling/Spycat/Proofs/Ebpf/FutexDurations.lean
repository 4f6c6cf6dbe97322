import Spycat.Proofs.Ebpf.FutexHistories

/-! The shortest and the longest wait of a history, in the two variants of its update. -/

namespace Spycat.Futexsnoop

open Lib

/-- The shortest wait is held. -/
def KeepsShortest (waits : List Wait) (h : Hist) : Prop :=
  (∃ wait ∈ waits, wait.duration = h.minDur) ∧ ∀ wait ∈ waits, h.minDur ≤ wait.duration

/-- The longest wait is held. -/
def KeepsLongest (waits : List Wait) (h : Hist) : Prop :=
  (∃ wait ∈ waits, wait.duration = h.maxDur) ∧ ∀ wait ∈ waits, wait.duration ≤ h.maxDur

/-- When the first of the waits ended that are as long as the longest one is held. -/
def KeepsLongestEnd (waits : List Wait) (h : Hist) : Prop :=
  ∀ wait, waits.find? (·.duration = h.maxDur) = some wait → h.maxDurTs = wait.ts

/-- All of these are held, and both variants of the update come to the same. -/
structure KeepsDurations (waits : List Wait) (h : Hist) : Prop where
  shortest : KeepsShortest waits h
  longest : KeepsLongest waits h
  longestEnd : KeepsLongestEnd waits h
  variants : Hist.initial.recordAll .amd64 waits = Hist.initial.recordAll .other waits

/-- Waits are counted one after the other. -/
theorem recordAll_append (arch : TargetArch) (h : Hist) (waits : List Wait) (wait : Wait) :
    h.recordAll arch (waits ++ [wait]) =
      (h.recordAll arch waits).record arch wait.duration wait.ts wait.comm := by
  -- The last wait is recorded behind the others.
  simp [Hist.recordAll]

section Record

variable (arch : TargetArch) (h : Hist) (delta ts : UInt64) (comm : Bytes)

/-- The shortest wait is replaced by a shorter one, and whenever it is zero. -/
theorem record_minDur :
    (h.record arch delta ts comm).minDur =
      if h.minDur = 0 ∨ h.minDur > delta then delta else h.minDur := by
  -- Both variants update the bounds in the same way.
  cases arch <;> simp only [Hist.record, Hist.updateDurs] <;> split <;> rfl

/-- The variant that is compiled stores the longest wait back as it was. -/
theorem record_maxDur_other : (h.record .other delta ts comm).maxDur = h.maxDur := by
  -- The longest wait starts at zero, and no wait changes it.
  -- Both branches keep the field.
  simp only [Hist.record, Hist.updateDurs]
  split <;> rfl

/-- It notes when a wait ended that is longer than that. -/
theorem record_maxDurTs_other :
    (h.record .other delta ts comm).maxDurTs = if h.maxDur < delta then ts else h.maxDurTs := by
  -- The comparison is the one of the source.
  simp only [Hist.record, Hist.updateDurs]
  split <;> simp_all

/-- The other variant replaces the longest wait by a longer one, and notes when that ended. -/
theorem record_longest_amd64 :
    (h.record .amd64 delta ts comm).maxDur = (if h.maxDur < delta then delta else h.maxDur) ∧
      (h.record .amd64 delta ts comm).maxDurTs =
        if h.maxDur < delta then ts else h.maxDurTs := by
  -- The branch that is taken writes both fields.
  simp only [Hist.record, Hist.updateDurs]
  split <;> simp_all

/-- Both variants treat a wait of no time alike. -/
theorem record_zero_variants : h.record .amd64 0 ts comm = h.record .other 0 ts comm := by
  -- No wait is longest with no time.
  have never : ¬ h.maxDur < 0 := UInt64.not_lt_zero
  simp [Hist.record, Hist.updateDurs, never]

end Record

section Histories

variable {waits : List Wait}

/-- The longest wait of the compiled variant is zero, whatever the waits are. -/
theorem maxDur_other (waits : List Wait) : (Hist.initial.recordAll .other waits).maxDur = 0 := by
  -- The compiled variant never writes the field.
  induction waits using List.reverseRecOn with
  | nil => rfl
  | append_singleton waits wait ih => rw [recordAll_append, record_maxDur_other, ih]

/-- After waits of no time nothing is noted, and both variants agree. -/
theorem recordAll_zero (zero : ∀ wait ∈ waits, wait.duration = 0) :
    (Hist.initial.recordAll .other waits).minDur = 0 ∧
      (Hist.initial.recordAll .other waits).maxDurTs = 0 ∧
      Hist.initial.recordAll .amd64 waits = Hist.initial.recordAll .other waits := by
  -- The sentinel is replaced by what it is.
  induction waits using List.reverseRecOn with
  | nil => exact ⟨rfl, rfl, rfl⟩
  | append_singleton waits wait ih =>
    obtain ⟨shortest, noted, variants⟩ := ih fun other member => zero other (by simp [member])
    have none_ : wait.duration = 0 := zero wait (by simp)
    have never : ¬ (0 : UInt64) < 0 := UInt64.not_lt_zero
    rw [recordAll_append, recordAll_append, none_]
    refine ⟨?_, ?_, ?_⟩
    · rw [record_minDur, shortest]
      simp
    · rw [record_maxDurTs_other, maxDur_other, if_neg never, noted]
    · rw [variants, record_zero_variants]

end Histories

/-- The compiled variant is right exactly for waits of no time, the first of which ended at zero. -/
theorem keepsDurations_iff (first : Wait) (rest : List Wait) {h : Hist}
    (figures : h.figures = Hist.initial.recordAll .other (first :: rest)) :
    KeepsDurations (first :: rest) h ↔
      (∀ wait ∈ first :: rest, wait.duration = 0) ∧ first.ts = 0 := by
  -- A longest wait of zero bounds all waits, and no wait was ever noted as longer.
  have longest : h.maxDur = 0 := (congrArg Hist.maxDur figures).trans (maxDur_other _)
  constructor
  · intro keeps
    have zero : ∀ wait ∈ first :: rest, wait.duration = 0 := by
      intro wait member
      have below := keeps.longest.2 wait member
      rw [longest] at below
      exact UInt64.le_zero_iff.mp below
    have noted : h.maxDurTs = 0 := (congrArg Hist.maxDurTs figures).trans (recordAll_zero zero).2.1
    refine ⟨zero, ?_⟩
    rw [← keeps.longestEnd first (by simp [longest, zero first]), noted]
  · intro ⟨zero, ended⟩
    obtain ⟨shortest, noted, variants⟩ := recordAll_zero zero
    have shortest : h.minDur = 0 := (congrArg Hist.minDur figures).trans shortest
    have noted : h.maxDurTs = 0 := (congrArg Hist.maxDurTs figures).trans noted
    refine ⟨⟨⟨first, by simp, ?_⟩, fun wait member => ?_⟩,
      ⟨⟨first, by simp, ?_⟩, fun wait member => ?_⟩, fun wait found => ?_, variants⟩
    · rw [shortest, zero first (by simp)]
    · rw [shortest, zero wait member]
      exact UInt64.le_refl 0
    · rw [longest, zero first (by simp)]
    · rw [longest, zero wait member]
      exact UInt64.le_refl 0
    · -- The first wait of all is as long as the longest one.
      have same : first = wait := by simpa [longest, zero first] using found
      rw [noted, ← same, ended]

/-- The shorter one of two waits is held, of which zero stands for none yet. -/
theorem minDur_append (arch : TargetArch) (waits : List Wait) (last : Wait) :
    (Hist.initial.recordAll arch (waits ++ [last])).minDur =
      if (Hist.initial.recordAll arch waits).minDur = 0 ∨
        (Hist.initial.recordAll arch waits).minDur > last.duration then last.duration
      else (Hist.initial.recordAll arch waits).minDur := by
  -- The last wait is compared with the smallest so far, where zero counts as none.
  rw [recordAll_append, record_minDur]

/-- One more wait is taken into the shortest one, unless that is held as none yet. -/
theorem keepsShortest_append (arch : TargetArch) {waits : List Wait}
    (before : (waits = [] ∧ (Hist.initial.recordAll arch waits).minDur = 0) ∨
      ((Hist.initial.recordAll arch waits).minDur ≠ 0 ∧
        KeepsShortest waits (Hist.initial.recordAll arch waits))) (last : Wait) :
    KeepsShortest (waits ++ [last]) (Hist.initial.recordAll arch (waits ++ [last])) := by
  -- Either nothing is held yet, or the shorter of two waits is.
  unfold KeepsShortest
  rw [minDur_append]
  rcases before with ⟨rfl, none_⟩ | ⟨some_, ⟨wait, member, same⟩, least⟩
  · rw [if_pos (.inl none_)]
    simp
  · by_cases shorter : (Hist.initial.recordAll arch waits).minDur > last.duration
    · rw [if_pos (.inr shorter)]
      refine ⟨⟨last, by simp, rfl⟩, fun other inside => ?_⟩
      rcases List.mem_append.mp inside with earlier | own
      · exact UInt64.le_of_lt (UInt64.lt_of_lt_of_le shorter (least other earlier))
      · rw [List.mem_singleton.mp own]
        exact UInt64.le_refl _
    · rw [if_neg (not_or.mpr ⟨some_, shorter⟩)]
      refine ⟨⟨wait, by simp [member], same⟩, fun other inside => ?_⟩
      rcases List.mem_append.mp inside with earlier | own
      · exact least other earlier
      · rw [List.mem_singleton.mp own]
        exact UInt64.not_lt.mp shorter

/-- As long as no wait takes no time, the shortest one is held and is not zero. -/
theorem minDur_positive (arch : TargetArch) {waits : List Wait}
    (positive : ∀ wait ∈ waits, wait.duration ≠ 0) :
    (waits = [] ∧ (Hist.initial.recordAll arch waits).minDur = 0) ∨
      ((Hist.initial.recordAll arch waits).minDur ≠ 0 ∧
        KeepsShortest waits (Hist.initial.recordAll arch waits)) := by
  -- The sentinel is gone for good after the first wait.
  induction waits using List.reverseRecOn with
  | nil => exact .inl ⟨rfl, rfl⟩
  | append_singleton waits last ih =>
    have before := ih fun wait member => positive wait (by simp [member])
    refine .inr ⟨?_, keepsShortest_append arch before last⟩
    have own := positive last (by simp)
    rw [minDur_append]
    split
    · exact own
    · rename_i kept
      exact (not_or.mp kept).1

/-- In both variants the shortest wait is right unless a longer one comes last after one of zero. -/
theorem keepsShortest_iff (arch : TargetArch) (waits : List Wait) (last : Wait) :
    KeepsShortest (waits ++ [last]) (Hist.initial.recordAll arch (waits ++ [last])) ↔
      (∀ wait ∈ waits, wait.duration ≠ 0) ∨ last.duration = 0 := by
  -- After a wait of zero, the next one is held whatever it is.
  constructor
  · intro ⟨_, least⟩
    by_contra neither
    obtain ⟨zero, nonzero⟩ := not_or.mp neither
    obtain ⟨wait, member, none_⟩ : ∃ wait ∈ waits, wait.duration = 0 := by simpa using zero
    have below := least wait (by simp [member])
    rw [none_, minDur_append, UInt64.le_zero_iff] at below
    split at below
    · exact nonzero below
    · rename_i kept
      exact (not_or.mp kept).1 below
  · rintro (positive | none_)
    · exact keepsShortest_append arch (minDur_positive arch positive) last
    · have zero : (Hist.initial.recordAll arch (waits ++ [last])).minDur = 0 := by
        rw [minDur_append, none_]
        split
        · rfl
        · rename_i kept
          exact absurd (UInt64.pos_iff_ne_zero.mpr (not_or.mp kept).1) (not_or.mp kept).2
      refine ⟨⟨last, by simp, none_.trans zero.symm⟩, fun wait _ => ?_⟩
      rw [zero]
      exact UInt64.zero_le

/-- The other variant holds the longest wait. -/
theorem keepsLongest_amd64 (waits : List Wait) (last : Wait) :
    KeepsLongest (waits ++ [last]) (Hist.initial.recordAll .amd64 (waits ++ [last])) := by
  have append : ∀ {waits : List Wait} (last : Wait),
      (waits = [] ∧ (Hist.initial.recordAll .amd64 waits).maxDur = 0) ∨
        KeepsLongest waits (Hist.initial.recordAll .amd64 waits) →
      KeepsLongest (waits ++ [last]) (Hist.initial.recordAll .amd64 (waits ++ [last])) := by
    intro waits last before
    unfold KeepsLongest
    rw [recordAll_append, (record_longest_amd64 ..).1]
    -- The longest wait so far is compared with the last one.
    have above : ∀ wait ∈ waits, wait.duration ≤ (Hist.initial.recordAll .amd64 waits).maxDur := by
      rcases before with ⟨rfl, _⟩ | ⟨_, greatest⟩
      · simp
      · exact greatest
    split
    · rename_i longer
      refine ⟨⟨last, by simp, rfl⟩, fun other inside => ?_⟩
      rcases List.mem_append.mp inside with earlier | own
      · exact UInt64.le_of_lt (UInt64.lt_of_le_of_lt (above other earlier) longer)
      · rw [List.mem_singleton.mp own]
        exact UInt64.le_refl _
    · rename_i kept
      refine ⟨?_, fun other inside => ?_⟩
      · rcases before with ⟨rfl, none_⟩ | ⟨⟨wait, member, same⟩, _⟩
        · refine ⟨last, by simp, ?_⟩
          rw [none_] at kept ⊢
          exact UInt64.le_zero_iff.mp (UInt64.not_lt.mp kept)
        · exact ⟨wait, by simp [member], same⟩
      · rcases List.mem_append.mp inside with earlier | own
        · exact above other earlier
        · rw [List.mem_singleton.mp own]
          exact UInt64.not_lt.mp kept
  induction waits using List.reverseRecOn generalizing last with
  | nil => exact append last (.inl ⟨rfl, rfl⟩)
  | append_singleton waits other ih => exact append last (.inr (ih other))

/--
A history holds the shortest and the longest of its waits, and when that ended, in the compiled
variant and as in the other one, exactly where all waits took no time and the first ended at zero.

The shortest one alone is right unless a longer one comes last after one of zero, and the variant
that is not compiled would hold the longest one.
-/
theorem futexExit_durations (args : UserArgs) (inside : UInt64 → Bool)
    (actions : List FutexAction) (s : FutexTracer)
    (ran : run (FutexTracer.step .other) (.new args inside) actions = some s) (key : HistKey)
    (h : Hist) (held : s.maps.histsMap.lookup key = some h) :
    let waits := recordedUnder .other (.new args inside) key actions
    waits ≠ [] ∧
      (KeepsDurations waits h ↔
        (∀ wait ∈ waits, wait.duration = 0) ∧ ∀ first ∈ waits.head?, first.ts = 0) ∧
      (KeepsShortest waits h ↔
        (∀ wait ∈ waits.dropLast, wait.duration ≠ 0) ∨ ∀ last ∈ waits.getLast?, last.duration = 0) ∧
      KeepsLongest waits (Hist.initial.recordAll .amd64 waits) := by
  -- The history under the key is made of the waits that were recorded for it.
  intro waits
  have history : HistoryOf .other waits _ := (run_filed args inside ran).histories key
  rw [held] at history
  clear_value waits
  cases history with
  | recorded some_ figures =>
    refine ⟨some_, ?_, ?_, ?_⟩
    · obtain ⟨first, rest, rfl⟩ := List.exists_cons_of_ne_nil some_
      simpa using keepsDurations_iff first rest figures
    · obtain ⟨before, last, rfl⟩ := (List.eq_nil_or_concat' waits).resolve_left some_
      have shortest : KeepsShortest (before ++ [last]) h ↔ _ :=
        figures ▸ keepsShortest_iff .other before last
      simpa using shortest
    · obtain ⟨before, last, rfl⟩ := (List.eq_nil_or_concat' waits).resolve_left some_
      exact keepsLongest_amd64 before last

/-- Where waits were recorded there is a history of them. -/
theorem held_of_recorded {arch : TargetArch} {args : UserArgs} {inside : UInt64 → Bool}
    {actions : List FutexAction} {s : FutexTracer}
    (ran : run (FutexTracer.step arch) (.new args inside) actions = some s) {key : HistKey}
    {first : Wait} {rest : List Wait}
    (waits : recordedUnder arch (.new args inside) key actions = first :: rest) :
    ∃ h, s.maps.histsMap.lookup key = some h ∧
      h.figures = Hist.initial.recordAll arch (first :: rest) := by
  -- A history without waits is none at all.
  have history := (run_filed args inside ran).histories key
  rw [waits] at history
  generalize s.maps.histsMap.lookup key = held at history ⊢
  cases history with
  | recorded _ figures => exact ⟨_, rfl, figures⟩

/-- A wait of no time that ends at zero. -/
def instantWait : List FutexAction := [enterAt 0, exitAt 0]

/-- Its history is as it should be. -/
theorem futexExit_durations_instant :
    ∃ s h, run (FutexTracer.step .other) openTracer instantWait = some s ∧
      s.maps.histsMap.lookup ⟨1, 7, 0⟩ = some h ∧
      KeepsDurations (recordedUnder .other openTracer ⟨1, 7, 0⟩ instantWait) h := by
  -- The condition holds of the one wait that is recorded.
  have waits : recordedUnder .other openTracer ⟨1, 7, 0⟩ instantWait = [⟨0, 0, []⟩] := by
    decide +kernel
  obtain ⟨s, ran⟩ : ∃ s, run (FutexTracer.step .other) openTracer instantWait = some s := ⟨_, rfl⟩
  obtain ⟨h, held, _⟩ := held_of_recorded ran waits
  refine ⟨s, h, ran, held, ?_⟩
  refine (futexExit_durations _ _ instantWait s ran ⟨1, 7, 0⟩ h held).2.1.mpr ?_
  rw [← openTracer, waits]
  simp

/-- After waits of no time and of five microseconds, the shortest is five and the longest zero. -/
theorem futexExit_durations_short :
    ∃ s h, run (FutexTracer.step .other) openTracer shortWaits = some s ∧
      s.maps.histsMap.lookup ⟨1, 7, 0⟩ = some h ∧
      recordedUnder .other openTracer ⟨1, 7, 0⟩ shortWaits = [⟨0, 0, []⟩, ⟨5, 5000, []⟩] ∧
      h.minDur = 5 ∧ h.maxDur = 0 ∧
      (Hist.initial.recordAll .amd64 [⟨0, 0, []⟩, ⟨5, 5000, []⟩]).maxDur = 5 := by
  -- The figures are computed from the two waits.
  obtain ⟨s, ran⟩ : ∃ s, run (FutexTracer.step .other) openTracer shortWaits = some s := ⟨_, rfl⟩
  obtain ⟨h, held, figures⟩ := held_of_recorded ran recordedUnder_shortWaits
  refine ⟨s, h, ran, held, recordedUnder_shortWaits, ?_, ?_, by decide⟩
  · exact (congrArg Hist.minDur figures).trans (by decide)
  · exact (congrArg Hist.maxDur figures).trans (by decide)

end Spycat.Futexsnoop
