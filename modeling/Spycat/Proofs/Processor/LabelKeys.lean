import Spycat.Lib.TextBytes
import Spycat.Proofs.Processor.Conservation

/-! A key holds the labels it was made of, and nothing of the labels behind its last slot. -/

namespace Spycat

open Lib

/-- The byte of a digit. -/
theorem digit_byte {digit : Nat} (small : digit < 10) :
    (UInt8.ofNat digit.digitChar.toNat).toNat = 48 + digit := by
  -- The digits are the characters from 48 on.
  rw [Nat.toNat_digitChar_of_lt_ten small]
  exact UInt8.toNat_ofNat_of_lt' (by simp only [UInt8.size]; omega)

/-- The value of the digits of a decimal number is the number. -/
theorem parseDigits_repr (number : Nat) :
    parseDigits number.repr.toUTF8.toList = some number := by
  have digits : number.repr.toUTF8.toList ≠ [] := by
    rw [toUTF8_repr]
    simp [Nat.toDigits_ne_nil]
  rw [parseDigits, if_neg digits, toUTF8_repr]
  clear digits
  -- The last digit is read behind the number that the others make.
  induction number using Nat.strongRecOn with
  | ind number ih =>
    by_cases small : number < 10
    · rw [Nat.toDigits_of_lt_base small]
      have byte := digit_byte small
      simp only [List.map_cons, List.map_nil, List.foldlM_cons, List.foldlM_nil]
      rw [if_pos (by omega), byte]
      simp
    · have last : number % 10 < 10 := Nat.mod_lt _ (by decide)
      have byte := digit_byte last
      rw [Nat.toDigits_of_base_le (by decide) (by omega), List.map_append, List.foldlM_append,
        ih (number / 10) (by omega)]
      simp only [List.map_cons, List.map_nil, List.foldlM_cons, List.foldlM_nil]
      rw [Option.bind_eq_bind, Option.bind_some, if_pos (by omega), byte]
      simp only [Option.bind_some, Option.pure_def, Option.some.injEq]
      omega

/-- The digits of a number are no sign. -/
theorem digit_of_mem_repr {number : Nat} {byte : UInt8}
    (member : byte ∈ number.repr.toUTF8.toList) : 48 ≤ byte.toNat := by
  -- Every byte is that of a digit.
  rw [toUTF8_repr] at member
  obtain ⟨c, inside, rfl⟩ := List.mem_map.mp member
  have digit := Char.isDigit_iff_toNat.mp
    (Nat.isDigit_of_mem_toDigits (by decide) (by decide) inside)
  have nine : '9'.toNat = 57 := rfl
  have zero : '0'.toNat = 48 := rfl
  rw [UInt8.toNat_ofNat_of_lt' (by simp only [UInt8.size]; omega)]
  omega

/-- Digits without a sign in front of them stand for the number that they make. -/
theorem parseInt_digits (number : Nat) :
    parseInt number.repr.toUTF8.toList =
      Int64.ofInt (max (-2 ^ 63) (min (number : Int) (2 ^ 63 - 1))) := by
  have unsigned := @digit_of_mem_repr number
  have parsed := parseDigits_repr number
  generalize number.repr.toUTF8.toList = digits at unsigned parsed
  unfold parseInt
  -- Neither of the two signs is a digit.
  split
  · exact absurd (unsigned List.mem_cons_self) (by decide)
  · exact absurd (unsigned List.mem_cons_self) (by decide)
  · rw [parsed]
    rfl

/-- Digits behind a minus stand for what is that much below zero. -/
theorem parseInt_minus (number : Nat) :
    parseInt (45 :: number.repr.toUTF8.toList) =
      Int64.ofInt (max (-2 ^ 63) (min (-(number : Int)) (2 ^ 63 - 1))) := by
  -- The minus is taken off, and its number is turned around.
  rw [parseInt, parseDigits_repr]
  rfl

/-- The text of an integer stands for it. -/
theorem parseInt_formatInt (value : Int64) : parseInt (formatInt value) = value := by
  have low := value.le_toInt
  have high := value.toInt_lt
  rw [formatInt, Int.toString_eq_repr, Int.repr_eq_if]
  -- In range nothing is cut off, whichever sign the integer has.
  split
  · rename_i positive
    rw [parseInt_digits,
      show max (-2 ^ 63) (min (value.toInt.toNat : Int) (2 ^ 63 - 1)) = value.toInt by omega,
      Int64.ofInt_toInt]
  · rename_i negative
    have sign : "-".toUTF8.toList = [45] := by decide +kernel
    rw [toUTF8_append, sign, List.singleton_append, parseInt_minus,
      show max (-2 ^ 63) (min (-((-value.toInt).toNat : Int)) (2 ^ 63 - 1)) = value.toInt by omega,
      Int64.ofInt_toInt]

/-- The text of a boolean stands for it. -/
theorem parseBool_formatBool (value : Bool) : parseBool (formatBool value) = value := by
  -- There are two texts.
  cases value <;> decide +kernel

/-- The attribute that a slot stands for, if it is used. -/
def LabelKey.standsFor (key : LabelKey) : Option (String × AttributeValue) :=
  match key.vType with
  | .boolean => some (key.name, .bool (parseBool key.value))
  | .string => some (key.name, .string key.value)
  | .int => some (key.name, .int (parseInt key.value))
  | .none => none

/-- The slot of an attribute stands for the attribute. -/
@[simp] theorem LabelKey.standsFor_ofAttribute (name : String) (value : AttributeValue) :
    (LabelKey.ofAttribute name value).standsFor = some (name, value) := by
  -- The text of a value is read back as the value.
  cases value with
  | string value => rfl
  | int value =>
    simp [standsFor, ofAttribute, AttributeValue.vType, AttributeValue.toText, parseInt_formatInt]
  | bool value =>
    simp [standsFor, ofAttribute, AttributeValue.vType, AttributeValue.toText, parseBool_formatBool]

@[simp] theorem LabelKey.standsFor_unused : LabelKey.unused.standsFor = none := rfl

namespace LabelKeys

/-- The labels of a key are the attributes that its slots stand for, stored one after the other. -/
theorem getLabels_eq (keys : LabelKeys) :
    keys.getLabels = Assoc.insertAll ∅ (keys.keys.filterMap LabelKey.standsFor) := by
  -- Each slot stores the attribute that it stands for, if any.
  rw [Assoc.insertAll, List.foldl_filterMap, getLabels]
  congr 1
  funext labels key
  unfold LabelKey.standsFor
  cases key.vType <;> rfl

/-- The slots of attributes stand for them, as far as there are slots. -/
theorem filterMap_fill (attributes : List (String × AttributeValue)) :
    (fill (attributes.map fun entry => .ofAttribute entry.1 entry.2)).keys.filterMap
      LabelKey.standsFor = attributes.take maxLabelKeySize := by
  -- The slots behind those of the attributes are unused.
  simp only [fill, List.filterMap_append, ← List.map_take, List.filterMap_map, Function.comp_def,
    LabelKey.standsFor_ofAttribute]
  simp

/-- A key is decided by the slots of its first elements. -/
theorem fill_congr {α : Type} {list : List α} {first second : α → LabelKey}
    (same : ∀ a ∈ list.take maxLabelKeySize, first a = second a) :
    fill (list.map first) = fill (list.map second) := by
  -- No slot is filled from behind the first elements.
  have slots : (list.map first).take maxLabelKeySize = (list.map second).take maxLabelKeySize := by
    rw [← List.map_take, ← List.map_take]
    exact List.map_congr_left same
  simp only [fill, slots, List.length_map]

end LabelKeys

/-- Every selected attribute exists, with the type that it is selected with. -/
def LabelSelectors.Typed (s : LabelSelectors) (labels : AttributeMap) : Prop :=
  ∀ selector ∈ s.selectors,
    ∃ value, labels.lookup selector.name = some value ∧ value.vType = selector.vType

/-- Two maps agree on the attributes of the selectors that find a slot. -/
def LabelSelectors.Agree (s : LabelSelectors) (first second : AttributeMap) : Prop :=
  ∀ selector ∈ s.selectors.take maxLabelKeySize,
    first.lookup selector.name = second.lookup selector.name

/-- The attribute that is selected. -/
def LabelSelector.selected (labels : AttributeMap) (selector : LabelSelector) :
    String × AttributeValue :=
  (selector.name, (labels.lookup selector.name).getD (.bool false))

namespace LabelSelectors

variable {s : LabelSelectors} {labels first second : AttributeMap}

/-- The slots of a key are those of the selected attributes. -/
theorem Typed.getLabelKeys (typed : s.Typed labels) :
    s.getLabelKeys labels =
      .fill (s.selectors.map fun selector =>
        .ofAttribute selector.name (selector.selected labels).2) := by
  -- A selector reads the attribute by its own type, which is that of the value.
  refine LabelKeys.fill_congr fun selector member => ?_
  obtain ⟨value, found, same⟩ := typed selector (List.mem_of_mem_take member)
  rw [← same]
  cases value <;>
    simp [LabelSelector.selected, found, LabelKey.ofAttribute, AttributeValue.vType,
      AttributeValue.toText, AttributeMap.getBoolValue, AttributeMap.getStringValue,
      AttributeMap.getIntValue]

/-- The labels of a key are the attributes of the selectors that find a slot. -/
theorem Typed.getLabels (typed : s.Typed labels) (name : String) :
    (s.getLabelKeys labels).getLabels.lookup name =
      if (s.selectors.take maxLabelKeySize).any (·.name = name) then labels.lookup name
      else none := by
  -- The slots stand for the attributes of the first selectors.
  have slots := LabelKeys.filterMap_fill (s.selectors.map fun selector => selector.selected labels)
  rw [List.map_map] at slots
  rw [typed.getLabelKeys, LabelKeys.getLabels_eq]
  have attributes : (LabelKeys.fill (s.selectors.map fun selector =>
      .ofAttribute selector.name (selector.selected labels).2)).keys.filterMap
        LabelKey.standsFor = (s.selectors.take maxLabelKeySize).map fun selector =>
          (selector.name, (labels.lookup selector.name).getD (.bool false)) := by
    rw [List.map_take]
    exact slots
  rw [attributes, Assoc.lookup_insertAll, Assoc.lastValue_map name LabelSelector.name
    (fun name => (labels.lookup name).getD (.bool false))]
  split
  · rename_i any
    obtain ⟨selector, member, named⟩ := List.any_eq_true.mp any
    obtain ⟨value, found, _⟩ := typed selector (List.mem_of_mem_take member)
    obtain rfl : selector.name = name := by simpa using named
    simp [found]
  · rfl

/-- Keys are equal exactly where the attributes of the selectors that find a slot are. -/
theorem Typed.getLabelKeys_eq (firstTyped : s.Typed first) (secondTyped : s.Typed second) :
    s.getLabelKeys first = s.getLabelKeys second ↔ s.Agree first second := by
  -- A key gives the selected attributes back, and is made of nothing else.
  constructor
  · intro same selector member
    have found : (s.selectors.take maxLabelKeySize).any (·.name = selector.name) = true :=
      List.any_eq_true.mpr ⟨selector, member, by simp⟩
    have left := firstTyped.getLabels selector.name
    have right := secondTyped.getLabels selector.name
    rw [if_pos found] at left right
    rw [← left, ← right, same]
  · intro agree
    rw [firstTyped.getLabelKeys, secondTyped.getLabelKeys]
    refine LabelKeys.fill_congr fun selector member => ?_
    simp only [LabelSelector.selected, agree selector member]

end LabelSelectors

/--
Keys made by the same selectors are equal exactly where the first selected attributes are, as many
as a key has slots, and give back just these attributes.

So a record of another series leaves the entries of a series as they are.
-/
theorem LabelSelectors.getLabelKeys_separates (s : LabelSelectors) (first second : AttributeMap)
    (firstTyped : s.Typed first) (secondTyped : s.Typed second) :
    (s.getLabelKeys first = s.getLabelKeys second ↔ s.Agree first second) ∧
      (∀ name, (s.getLabelKeys first).getLabels.lookup name =
        if (s.selectors.take maxLabelKeySize).any (·.name = name) then first.lookup name
        else none) ∧
      ∀ (d d' : DefaultAggregator) (data : DataBlock), data.labels = second →
        d.aggregate data s.selectors = some d' → ¬ s.Agree first second →
          ∀ block, d'.entry block (s.getLabelKeys first) =
            d.entry block (s.getLabelKeys first) := by
  -- Another key means another entry.
  have equal := firstTyped.getLabelKeys_eq secondTyped
  refine ⟨equal, firstTyped.getLabels, ?_⟩
  intro d d' data labels aggregated differ block
  refine aggregate_other aggregated fun ⟨_, same⟩ => differ (equal.mp ?_)
  rw [labels] at same
  exact same.symm

/-- One label of each type. -/
def threeSelectors : LabelSelectors :=
  (newLabelSelectors [⟨"comm", .string⟩, ⟨"pid", .int⟩]).appendSelectors [⟨"idle", .boolean⟩]

/-- The labels of a task. -/
def taskLabels (pid : Int64) : AttributeMap :=
  (((∅ : AttributeMap).addStringValue "comm" [115, 104]).addIntValue "pid" pid).insert "idle"
    (.bool true)

theorem taskLabels_typed (pid : Int64) : threeSelectors.Typed (taskLabels pid) := by
  -- Each of the three labels is there.
  intro selector member
  simp only [threeSelectors, newLabelSelectors, LabelSelectors.appendSelectors, List.cons_append,
    List.nil_append, List.mem_cons, List.not_mem_nil, or_false] at member
  rcases member with rfl | rfl | rfl
  · exact ⟨.string [115, 104], rfl, rfl⟩
  · exact ⟨.int pid, rfl, rfl⟩
  · exact ⟨.bool true, rfl, rfl⟩

/-- Tasks with other numbers have other keys, and a key gives the number back. -/
theorem LabelSelectors.getLabelKeys_separates_tasks :
    threeSelectors.getLabelKeys (taskLabels (-7)) ≠ threeSelectors.getLabelKeys (taskLabels 7) ∧
      (threeSelectors.getLabelKeys (taskLabels (-7))).getLabels.lookup "pid" =
        some (.int (-7)) := by
  -- The two maps differ in the number.
  obtain ⟨equal, labels, -⟩ := LabelSelectors.getLabelKeys_separates threeSelectors
    (taskLabels (-7)) (taskLabels 7) (taskLabels_typed (-7)) (taskLabels_typed 7)
  refine ⟨fun same => ?_, (labels "pid").trans rfl⟩
  exact absurd (equal.mp same ⟨"pid", .int⟩ (by decide)) (by decide)

/-- More selectors than a key has slots: one label again and again, and another one behind it. -/
def longSelectors : LabelSelectors :=
  (newLabelSelectors (List.replicate 37 ⟨"a", .string⟩)).appendSelectors [⟨"b", .string⟩]

/-- Two labels, of which the selectors reach the first. -/
def twoLabels (second : Bytes) : AttributeMap :=
  ((∅ : AttributeMap).addStringValue "a" []).addStringValue "b" second

/-- Two series that differ in the last selected label have one key, which does not hold it. -/
theorem LabelSelectors.getLabelKeys_collide :
    (∀ selector ∈ longSelectors.selectors, ∀ second ∈ [[1], [2]],
        ((twoLabels second).lookup selector.name).map AttributeValue.vType =
          some selector.vType) ∧
      (twoLabels [1]).lookup "b" ≠ (twoLabels [2]).lookup "b" ∧
      longSelectors.getLabelKeys (twoLabels [1]) = longSelectors.getLabelKeys (twoLabels [2]) ∧
      (longSelectors.getLabelKeys (twoLabels [1])).getLabels.lookup "b" = none := by
  -- Both label maps are evaluated: the second label finds no slot.
  decide +kernel

end Spycat
