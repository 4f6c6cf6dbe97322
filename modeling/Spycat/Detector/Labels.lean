import Spycat.Core.DataBlock

/-! How detectors turn the attributes of an event into the labels of a record. -/

namespace Spycat

open Lib

/-- A string without its NUL bytes. -/
def withoutNul (value : Bytes) : Bytes := value.filter (· ≠ 0)

/-- What a label switch does with an attribute whose key it lists. -/
abbrev LabelCase := String × (AttributeMap → KeyValue → AttributeMap)

/-- The attribute as an integer under a label. -/
def intCase (key label : String) : LabelCase :=
  (key, fun labels kv => labels.addIntValue label kv.getUintValue.toInt64)

/-- The attribute in thousandths, rounded down, as an integer under a label. -/
def thousandthCase (key label : String) : LabelCase :=
  (key, fun labels kv => labels.addIntValue label (kv.getUintValue / 1000).toInt64)

/-- The attribute's bytes as a string under a label. -/
def stringCase (key label : String) : LabelCase :=
  (key, fun labels kv => labels.addStringValue label kv.value)

/-- The attribute's bytes without NULs as a string under a label. -/
def trimmedCase (key label : String) : LabelCase :=
  (key, fun labels kv => labels.addStringValue label (withoutNul kv.value))

/-- The attribute as a point in time under a label. -/
def timeCase (format : UInt64 → Bytes) (key label : String) : LabelCase :=
  (key, fun labels kv => labels.addStringValue label (format kv.getUintValue))

/-- Run every attribute of an event through a switch; keys it does not list add nothing. -/
def formatLabels (cases : List LabelCase) (e : SpyEvent) : AttributeMap :=
  e.userAttributes.foldl (fun labels kv =>
    match cases.find? fun entry => entry.1 == kv.key with
    | some entry => entry.2 labels kv
    | none => labels) ∅

/-- The labels every record of a task carries. -/
def addTask (labels : AttributeMap) (task : TaskInfo) : AttributeMap :=
  ((labels.addIntValue Model.pid (Int64.ofNat task.pid.toNat)).addIntValue Model.tid
    (Int64.ofNat task.tid.toNat)).addStringValue Model.comm (withoutNul task.comm)

end Spycat
