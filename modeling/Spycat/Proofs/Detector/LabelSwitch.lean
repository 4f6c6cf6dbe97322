import Spycat.Detector.Labels
import Spycat.Lib.Words
import Spycat.Processor.LabelKey

/-! How label switches store the attributes of an event, and how labels are read back. -/

namespace Spycat

open Lib

/-- Run one attribute through a switch. -/
def applyCase (cases : List LabelCase) (labels : AttributeMap) (kv : KeyValue) : AttributeMap :=
  match cases.find? fun entry => entry.1 == kv.key with
  | some entry => entry.2 labels kv
  | none => labels

/-- A switch goes through the attributes one after the other. -/
theorem formatLabels_eq (cases : List LabelCase) (e : SpyEvent) :
    formatLabels cases e = e.userAttributes.foldl (applyCase cases) ∅ := rfl

section Cases

variable (cases : List LabelCase) (labels : AttributeMap) (kv : KeyValue) (key label : String)

/-- A key that no case lists adds nothing. -/
theorem applyCase_nil : applyCase [] labels kv = labels := rfl

/-- The first case decides, or the others do. -/
theorem applyCase_cons (first : LabelCase) :
    applyCase (first :: cases) labels kv =
      if first.1 = kv.key then first.2 labels kv else applyCase cases labels kv := by
  -- The search through the cases starts at the first one.
  by_cases same : first.1 = kv.key
  · simp [applyCase, same]
  · simp [applyCase, same]

/-! What each kind of case stores. -/

theorem applyCase_int :
    applyCase (intCase key label :: cases) labels kv =
      if key = kv.key then labels.insert label (.int kv.getUintValue.toInt64)
      else applyCase cases labels kv := applyCase_cons ..

theorem applyCase_thousandth :
    applyCase (thousandthCase key label :: cases) labels kv =
      if key = kv.key then labels.insert label (.int (kv.getUintValue / 1000).toInt64)
      else applyCase cases labels kv := applyCase_cons ..

theorem applyCase_string :
    applyCase (stringCase key label :: cases) labels kv =
      if key = kv.key then labels.insert label (.string kv.value)
      else applyCase cases labels kv := applyCase_cons ..

theorem applyCase_trimmed :
    applyCase (trimmedCase key label :: cases) labels kv =
      if key = kv.key then labels.insert label (.string (withoutNul kv.value))
      else applyCase cases labels kv := applyCase_cons ..

theorem applyCase_time (format : UInt64 → Bytes) :
    applyCase (timeCase format key label :: cases) labels kv =
      if key = kv.key then labels.insert label (.string (format kv.getUintValue))
      else applyCase cases labels kv := applyCase_cons ..

end Cases

/-- Labels that were stored one after the other. -/
def storedLabels (entries : List (String × AttributeValue)) : AttributeMap :=
  Assoc.insertAll ∅ entries

/-- The labels of a task are stored behind the others. -/
theorem addTask_stored (entries : List (String × AttributeValue)) (task : TaskInfo) :
    addTask (storedLabels entries) task =
      storedLabels (entries ++
        [(Model.pid, .int (Int64.ofNat task.pid.toNat)),
          (Model.tid, .int (Int64.ofNat task.tid.toNat)),
          (Model.comm, .string (withoutNul task.comm))]) := by
  -- Storing more entries is storing them behind the others.
  rw [storedLabels, storedLabels, Assoc.insertAll_append]
  rfl

/-- An integer that was stored last under its label is read back. -/
theorem getIntValue_stored {entries : List (String × AttributeValue)} {label : String}
    {value : Int64} (last : Assoc.lastValue label entries = some (.int value)) :
    (storedLabels entries).getIntValue label = value := by
  -- The last entry under a label is the one that is found.
  simp [AttributeMap.getIntValue, storedLabels, Assoc.lookup_insertAll, last]

/-- A string that was stored last under its label is read back. -/
theorem getStringValue_stored {entries : List (String × AttributeValue)} {label : String}
    {value : Bytes} (last : Assoc.lastValue label entries = some (.string value)) :
    (storedLabels entries).getStringValue label = value := by
  -- The last entry under a label is the one that is found.
  simp [AttributeMap.getStringValue, storedLabels, Assoc.lookup_insertAll, last]

/-- A string that was not stored is read as an empty one. -/
theorem getStringValue_missing {entries : List (String × AttributeValue)} {label : String}
    (missing : Assoc.lastValue label entries = none) :
    (storedLabels entries).getStringValue label = [] := by
  -- There is no entry under the label, which reads as an empty text.
  simp [AttributeMap.getStringValue, storedLabels, Assoc.lookup_insertAll, missing]

/-- A label holds a number. -/
def HasNumber (labels : AttributeMap) (label : String) (number : Nat) : Prop :=
  ∃ value, labels.lookup label = some (.int value) ∧ value.toInt = number

/-- A label holds the number that was stored last under it. -/
theorem hasNumber_stored {labels : List (String × AttributeValue)} {label : String}
    {value : Int64} {number : Nat} (last : Assoc.lastValue label labels = some (.int value)) :
    HasNumber (storedLabels labels) label number ↔ value.toInt = number := by
  -- Nothing else is stored under the label afterwards.
  simp only [HasNumber, storedLabels, Assoc.lookup_insertAll, last, Option.some_or]
  constructor
  · rintro ⟨other, stored, same⟩
    simp only [Option.some.injEq, AttributeValue.int.injEq] at stored
    rwa [stored]
  · exact fun same => ⟨value, rfl, same⟩

/-- An unsigned number below the sign bit is held as it is. -/
theorem hasNumber_unsigned {labels : List (String × AttributeValue)} {label : String}
    {value : UInt64} (last : Assoc.lastValue label labels = some (.int value.toInt64))
    (small : value.toNat < 2 ^ 63) : HasNumber (storedLabels labels) label value.toNat :=
  -- The sign bit is not set, so the signed reading is the number itself.
  (hasNumber_stored last).mpr (toInt_toInt64 small)

/-- A number of 32 bits is held as it is. -/
theorem hasNumber_narrow {labels : List (String × AttributeValue)} {label : String}
    {value : UInt32} (last : Assoc.lastValue label labels = some (.int (Int64.ofNat value.toNat))) :
    HasNumber (storedLabels labels) label value.toNat := by
  -- Such a number is far from the sign bit.
  have room : value.toNat < 2 ^ 63 := by
    have narrow := value.toNat_lt
    omega
  exact (hasNumber_stored last).mpr (Int64.toInt_ofNat_of_lt room)

/-- So is one that was read as a number of 64 bits. -/
theorem hasNumber_widened {labels : List (String × AttributeValue)} {label : String}
    {value : UInt32} (last : Assoc.lastValue label labels = some (.int value.toUInt64.toInt64)) :
    HasNumber (storedLabels labels) label value.toNat :=
  -- A number of 32 bits is far from the sign bit.
  (hasNumber_stored last).mpr (toInt_widened value)

/-- A label holds a word: an integer with the 64 bits of an unsigned number. -/
def HasWord (labels : AttributeMap) (label : String) (number : Nat) : Prop :=
  ∃ value, labels.lookup label = some (.int value) ∧ value.toUInt64.toNat = number

/-- A label holds the word that was stored last under it. -/
theorem hasWord_stored {labels : List (String × AttributeValue)} {label : String}
    {value : UInt64} (last : Assoc.lastValue label labels = some (.int value.toInt64)) :
    HasWord (storedLabels labels) label value.toNat := by
  -- The sign is only a reading of the same 64 bits.
  refine ⟨value.toInt64, ?_, ?_⟩
  · simp [storedLabels, Assoc.lookup_insertAll, last]
  · rw [UInt64.toUInt64_toInt64]

/-- A word below the sign bit is the number itself. -/
theorem HasWord.hasNumber {labels : AttributeMap} {label : String} {number : Nat}
    (word : HasWord labels label number) (small : number < 2 ^ 63) :
    HasNumber labels label number := by
  -- Below the sign bit the word and the number are the same.
  obtain ⟨value, stored, rfl⟩ := word
  refine ⟨value, stored, ?_⟩
  have same := toInt_toInt64 small
  rwa [Int64.toInt64_toUInt64] at same

/-- A label holds a string. -/
def HasString (labels : AttributeMap) (label : String) (text : Bytes) : Prop :=
  labels.lookup label = some (.string text)

/-- A label holds the string that was stored last under it. -/
theorem hasString_stored {labels : List (String × AttributeValue)} {label : String}
    {value text : Bytes} (last : Assoc.lastValue label labels = some (.string value)) :
    HasString (storedLabels labels) label text ↔ value = text := by
  -- The last entry under a label is the one that is found.
  simp [HasString, storedLabels, Assoc.lookup_insertAll, last]

end Spycat
