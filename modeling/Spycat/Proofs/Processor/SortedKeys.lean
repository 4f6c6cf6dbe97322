import Spycat.Proofs.Processor.LabelKeys

/-! The key of all attributes of a map, whichever way the map is visited and the key is sorted. -/

namespace Spycat

open Lib

/-- A map that a key can be made of: there are slots for all attributes, and all have names. -/
structure AttributeMap.Fits (m : AttributeMap) : Prop where
  few : m.size ≤ maxLabelKeySize
  named : m.lookup "" = none

/-- The slots of all attributes before they are sorted. -/
def slotsOf (order : RangeOrder String) (m : AttributeMap) : LabelKeys :=
  .fill ((m.range order).map fun entry => .ofAttribute entry.1 entry.2)

/-- The slots of all attributes after they are sorted. -/
def SlotSort.keys (sort : SlotSort) (keys : LabelKeys) : LabelKeys where
  keys := sort.arrange keys.keys
  full := sort.full keys

section Sorted

variable {m first second : AttributeMap} {order other : RangeOrder String} {sort further : SlotSort}

/-- Where there are slots for all attributes, they are filled and sorted. -/
theorem AttributeMap.Fits.getLabelsKeys (fits : m.Fits) :
    Spycat.getLabelsKeys order sort m = some (sort.keys (slotsOf order m)) := by
  -- There is no attribute without a slot.
  have length : (m.range order).length ≤ maxLabelKeySize := by
    rw [Assoc.length_range]
    exact fits.few
  simp only [Spycat.getLabelsKeys, List.length_map, if_pos length]
  rfl

/-- The slots of all attributes are one for each of them, and the unused ones. -/
theorem AttributeMap.Fits.slotsOf_keys (fits : m.Fits) :
    (slotsOf order m).keys =
      ((m.range order).map fun entry => LabelKey.ofAttribute entry.1 entry.2) ++
        List.replicate (maxLabelKeySize - m.size) .unused := by
  -- No attribute is cut off.
  have length : (m.range order).length ≤ maxLabelKeySize := by
    rw [Assoc.length_range]
    exact fits.few
  simp only [slotsOf, LabelKeys.fill, List.length_map, Assoc.length_range]
  rw [List.take_of_length_le (by simpa using length)]

/-- A slot is unused, or it is that of an attribute. -/
theorem AttributeMap.Fits.mem_slotsOf (fits : m.Fits) {slot : LabelKey}
    (member : slot ∈ (slotsOf order m).keys) :
    slot = .unused ∨ ∃ name value, slot = .ofAttribute name value ∧ name ≠ "" ∧
      m.lookup name = some value := by
  -- The slots in front are those of the attributes.
  rw [fits.slotsOf_keys, List.mem_append] at member
  rcases member with used | unused
  · obtain ⟨⟨name, value⟩, visited, rfl⟩ := List.mem_map.mp used
    have found : m.lookup name = some value := Assoc.mem_range.mp visited
    refine .inr ⟨name, value, rfl, ?_, found⟩
    rintro rfl
    rw [fits.named] at found
    cases found
  · exact .inl (List.eq_of_mem_replicate unused)

/-- Slots with one name are the same slot. -/
theorem AttributeMap.Fits.slot_eq (fits : m.Fits) {slot same : LabelKey}
    (left : slot ∈ (slotsOf order m).keys) (right : same ∈ (slotsOf order m).keys)
    (named : slot.name = same.name) : slot = same := by
  -- An unused slot has no name, and a name has one value.
  rcases fits.mem_slotsOf left with rfl | ⟨name, value, rfl, some_, found⟩ <;>
    rcases fits.mem_slotsOf right with rfl | ⟨other, held, rfl, other_, stored⟩
  · rfl
  · exact absurd named.symm other_
  · exact absurd named some_
  · obtain rfl : name = other := named
    rw [Option.some.inj (found.symm.trans stored)]

/-- Maps with the same attributes have the same sorted slots. -/
theorem AttributeMap.Fits.keys_eq (fits : first.Fits) (alike : second.Fits)
    (same : ∀ name, first.lookup name = second.lookup name) :
    sort.keys (slotsOf order first) = further.keys (slotsOf other second) := by
  -- Both loops fill the same slots, and sorting them leaves one order.
  have visited := Assoc.range_perm_range same order other
  have sizes : first.size = second.size := by
    rw [← Assoc.length_range first order, ← Assoc.length_range second other, visited.length_eq]
  have slots : (slotsOf order first).keys.Perm (slotsOf other second).keys := by
    rw [fits.slotsOf_keys, alike.slotsOf_keys, sizes]
    exact (visited.map _).append_right _
  have unsorted := sort.perm (slotsOf order first).keys
  have sorted : (sort.arrange (slotsOf order first).keys).Perm
      (further.arrange (slotsOf other second).keys) :=
    unsorted.trans (slots.trans (further.perm _).symm)
  have keys : sort.arrange (slotsOf order first).keys =
      further.arrange (slotsOf other second).keys := by
    -- Slots of which neither is before the other have one name.
    refine sorted.eq_of_pairwise ?_ (sort.sorted _) (further.sorted _)
    intro slot alike left right notBefore notAfter
    refine fits.slot_eq (unsorted.mem_iff.mp left)
      (unsorted.mem_iff.mp (sorted.mem_iff.mpr right)) ?_
    exact String.le_antisymm notBefore notAfter
  unfold SlotSort.keys
  simp only [keys]

/-- The sorted slots of a map give back its attributes. -/
theorem AttributeMap.Fits.getLabels (fits : m.Fits) (name : String) :
    (sort.keys (slotsOf order m)).getLabels.lookup name = m.lookup name := by
  -- The slots stand for the visited attributes, in the order of their names.
  have length : (m.range order).length ≤ maxLabelKeySize := by
    rw [Assoc.length_range]
    exact fits.few
  have attributes := LabelKeys.filterMap_fill (m.range order)
  rw [List.take_of_length_le length] at attributes
  have sorted : ((sort.keys (slotsOf order m)).keys.filterMap LabelKey.standsFor).Perm
      (m.range order) := attributes ▸ (sort.perm (slotsOf order m).keys).filterMap _
  rw [LabelKeys.getLabels_eq, Assoc.lookup_insertAll, AList.lookup_empty, Option.or_none]
  -- Each name is visited once, so it is its own value that is stored last.
  have distinct := (sorted.map (·.1)).nodup_iff.mpr (Assoc.nodup_range m order)
  apply Option.ext
  intro value
  rw [Assoc.lastValue_eq_some distinct, sorted.mem_iff, Assoc.mem_range]

end Sorted

/-- Merging sorts slots by their names. -/
theorem mergeSort_sorted (slots : List LabelKey) :
    (slots.mergeSort fun first second => ¬ second.name < first.name).Pairwise
      fun first second => ¬ second.name < first.name := by
  -- Names that are not before one another are ordered all the same.
  have sorted := @List.pairwise_mergeSort _ (fun first second : LabelKey =>
      decide (¬ second.name < first.name)) (fun first second third below further => by
        simp only [decide_eq_true_eq] at below further ⊢
        exact String.le_trans below further)
      (fun first second => by
        simp only [Bool.or_eq_true, decide_eq_true_eq]
        exact String.le_total first.name second.name) slots
  simpa using sorted

/-- Sorting by merging, which keeps slots of one name in their order. -/
def SlotSort.merge : SlotSort where
  arrange := fun slots => slots.mergeSort fun first second => ¬ second.name < first.name
  perm := fun slots => List.mergeSort_perm slots _
  sorted := mergeSort_sorted

/--
The key of all attributes depends neither on the order in which a loop visits them nor on how slots
are sorted, gives back the attributes, and is that of another map exactly where the two hold the
same attributes.
-/
theorem getLabelsKeys_canonical (m : AttributeMap) (fits : m.Fits) :
    ∃ key, (∀ order sort, getLabelsKeys order sort m = some key) ∧
      (∀ name, key.getLabels.lookup name = m.lookup name) ∧
      ∀ other : AttributeMap, other.Fits → ∀ order sort,
        (getLabelsKeys order sort other = some key ↔
          ∀ name, m.lookup name = other.lookup name) := by
  -- Whichever way the slots were sorted, merging would have come to the same.
  refine ⟨SlotSort.merge.keys (slotsOf .listed m), fun order sort => ?_, fits.getLabels, ?_⟩
  · rw [fits.getLabelsKeys, fits.keys_eq fits fun _ => rfl]
  · intro other alike order sort
    rw [alike.getLabelsKeys, Option.some.injEq]
    constructor
    · intro equal name
      -- A key gives back the attributes of both maps.
      rw [← fits.getLabels name, ← equal, alike.getLabels]
    · exact fun same => (fits.keys_eq alike same).symm

/-- The labels of a task have one key, whichever way they are visited, and it gives them back. -/
theorem getLabelsKeys_canonical_task :
    ∃ key, (∀ order sort, getLabelsKeys order sort (taskLabels 7) = some key) ∧
      key.getLabels.lookup "idle" = some (.bool true) ∧
      getLabelsKeys .listed .merge (taskLabels 8) ≠ some key := by
  -- The labels have three names, and none of them is empty.
  obtain ⟨key, same, labels, equal⟩ := getLabelsKeys_canonical (taskLabels 7) ⟨by decide, by decide⟩
  refine ⟨key, same, labels "idle", fun alike => ?_⟩
  have agree := (equal (taskLabels 8) ⟨by decide, by decide⟩ .listed .merge).mp alike
  exact absurd (agree "pid") (by decide)

end Spycat
