import Spycat.Core.DataBlock

/-! The keys that records are aggregated under, made of the labels a selector list names. -/

namespace Spycat

open Lib

/-- The type a label was selected with; unused slots of a key have none. -/
inductive VType where
  | none
  | boolean
  | string
  | int
  deriving DecidableEq

/-- A label to select. -/
structure LabelSelector where
  name : String
  vType : VType
  deriving DecidableEq

/-- One slot of a key. -/
structure LabelKey where
  name : String
  value : Bytes
  vType : VType
  deriving DecidableEq

/-- How many slots a key has. -/
def maxLabelKeySize : Nat := 37

/-- A key: a fixed number of slots, the unused ones empty. -/
structure LabelKeys where
  keys : List LabelKey
  full : keys.length = maxLabelKeySize
  deriving DecidableEq

/-- A slot that holds nothing. -/
def LabelKey.unused : LabelKey := { name := "", value := [], vType := .none }

/-- The first slots filled with the given ones, and the others unused. -/
def LabelKeys.fill (slots : List LabelKey) : LabelKeys where
  keys := slots.take maxLabelKeySize ++ List.replicate (maxLabelKeySize - slots.length) .unused
  full := by
    simp only [List.length_append, List.length_take, List.length_replicate]
    omega

/-- The text of a boolean. -/
def formatBool (value : Bool) : Bytes := (if value then "true" else "false").toUTF8.toList

/-- The decimal text of an integer. -/
def formatInt (value : Int64) : Bytes := (toString value.toInt).toUTF8.toList

/-- The boolean that a text stands for; texts that stand for none are taken as false. -/
def parseBool (text : Bytes) : Bool :=
  text ∈ ["1", "t", "T", "true", "TRUE", "True"].map fun accepted => accepted.toUTF8.toList

/-- The value of decimal digits, absent for no digits or for any other byte. -/
def parseDigits (text : Bytes) : Option Nat :=
  if text = [] then none
  else
    text.foldlM (fun value byte =>
      if 48 ≤ byte.toNat ∧ byte.toNat ≤ 57 then some (10 * value + (byte.toNat - 48)) else none) 0

/-- The integer that a text stands for; zero for other texts, the nearest one out of range. -/
def parseInt (text : Bytes) : Int64 :=
  let parsed : Option Int :=
    match text with
    | 45 :: digits => (parseDigits digits).map fun value => -(value : Int)
    | 43 :: digits => (parseDigits digits).map fun value => (value : Int)
    | digits => (parseDigits digits).map fun value => (value : Int)
  match parsed with
  | none => 0
  | some value => Int64.ofInt (max (-2 ^ 63) (min value (2 ^ 63 - 1)))

namespace AttributeMap

/-- The string under a name, empty when there is none. -/
def getStringValue (labels : AttributeMap) (key : String) : Bytes :=
  match labels.lookup key with
  | some (.string value) => value
  | _ => []

/-- The integer under a name, zero when there is none. -/
def getIntValue (labels : AttributeMap) (key : String) : Int64 :=
  match labels.lookup key with
  | some (.int value) => value
  | _ => 0

/-- The boolean under a name, false when there is none. -/
def getBoolValue (labels : AttributeMap) (key : String) : Bool :=
  match labels.lookup key with
  | some (.bool value) => value
  | _ => false

end AttributeMap

/-- The key that selectors make of a record's labels; only the first selectors find a slot. -/
def getLabelKeys (selectors : List LabelSelector) (labels : AttributeMap) : LabelKeys :=
  .fill (selectors.map fun selector =>
    { name := selector.name
      vType := selector.vType
      value :=
        match selector.vType with
        | .boolean => formatBool (labels.getBoolValue selector.name)
        | .string => labels.getStringValue selector.name
        | .int => formatInt (labels.getIntValue selector.name)
        | .none => [] })

/-- The labels to select, in the order in which they were added. -/
structure LabelSelectors where
  selectors : List LabelSelector
  deriving DecidableEq

/-- Selectors to start with. -/
def newLabelSelectors (selectors : List LabelSelector) : LabelSelectors where
  selectors := selectors

namespace LabelSelectors

/-- Select further labels; there is no bound on how many. -/
def appendSelectors (s : LabelSelectors) (selectors : List LabelSelector) : LabelSelectors where
  selectors := s.selectors ++ selectors

/-- The key that the selectors make of a record's labels. -/
def getLabelKeys (s : LabelSelectors) (labels : AttributeMap) : LabelKeys :=
  Spycat.getLabelKeys s.selectors labels

end LabelSelectors

/-- The labels that a key was made of. -/
def LabelKeys.getLabels (keys : LabelKeys) : AttributeMap :=
  keys.keys.foldl (fun labels key =>
    match key.vType with
    | .boolean => labels.insert key.name (.bool (parseBool key.value))
    | .string => labels.addStringValue key.name key.value
    | .int => labels.addIntValue key.name (parseInt key.value)
    | .none => labels) ∅

namespace AttributeValue

/-- The text of a value. -/
def toText : AttributeValue → Bytes
  | .string value => value
  | .int value => formatInt value
  | .bool value => formatBool value

/-- The type that a label with the value is selected with. -/
def vType : AttributeValue → VType
  | .string _ => .string
  | .int _ => .int
  | .bool _ => .boolean

end AttributeValue

/-- The slot of an attribute. -/
def LabelKey.ofAttribute (name : String) (value : AttributeValue) : LabelKey where
  name := name
  value := value.toText
  vType := value.vType

/--
A way to sort slots by their names.

Slots of one name come in any order, as the sort is not stable.
-/
structure SlotSort where
  arrange : List LabelKey → List LabelKey
  perm : ∀ slots, (arrange slots).Perm slots
  sorted : ∀ slots, (arrange slots).Pairwise fun first second => ¬ second.name < first.name

/-- Sorting keeps the number of slots. -/
theorem SlotSort.full (sort : SlotSort) (keys : LabelKeys) :
    (sort.arrange keys.keys).length = maxLabelKeySize :=
  -- Sorting changes the order alone.
  (sort.perm keys.keys).length_eq.trans keys.full

/--
The key that all attributes make, in the order of their names.

The result is absent where the source panics, for an attribute that there is no slot for.
-/
def getLabelsKeys (order : RangeOrder String) (sort : SlotSort) (attributes : AttributeMap) :
    Option LabelKeys :=
  let slots := (attributes.range order).map fun (name, value) => LabelKey.ofAttribute name value
  if slots.length ≤ maxLabelKeySize then
    some { keys := sort.arrange (LabelKeys.fill slots).keys, full := sort.full (.fill slots) }
  else none

end Spycat
