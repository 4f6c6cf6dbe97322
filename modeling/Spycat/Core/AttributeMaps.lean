import Spycat.Core.DataBlock
import Spycat.Lib.Cells

/-! Label maps as the program keeps them: the values are references, which a merge shares. -/

namespace Spycat

open Lib

/-- The type of a label's value. -/
inductive AttributeValueType where
  | string
  | int
  | boolean
  deriving DecidableEq

namespace AttributeValue

/-- The type of a value. -/
def type : AttributeValue → AttributeValueType
  | .string _ => .string
  | .int _ => .int
  | .bool _ => .boolean

/-- The default of the type of a value. -/
def reset : AttributeValue → AttributeValue
  | .string _ => .string []
  | .int _ => .int 0
  | .bool _ => .bool false

end AttributeValue

/-- Label maps by the variables that hold them, each of which has a map of its own. -/
abbrev AttributeMaps (ι : Type) := CellMaps ι String AttributeValue

namespace AttributeMaps

variable {ι : Type} [DecidableEq ι]

/-- Hold a new map in a variable. -/
def newAttributeMap (maps : AttributeMaps ι) (target : ι) : AttributeMaps ι := maps.clear target

/-- Store a string under a name, behind a new reference. -/
def addStringValue (maps : AttributeMaps ι) (a : ι) (key : String) (value : Bytes) :
    AttributeMaps ι :=
  maps.put a key (.string value)

/-- Store an integer under a name, behind a new reference. -/
def addIntValue (maps : AttributeMaps ι) (a : ι) (key : String) (value : Int64) :
    AttributeMaps ι :=
  maps.put a key (.int value)

/-- Store a truth value under a name, behind a new reference. -/
def addBoolValue (maps : AttributeMaps ι) (a : ι) (key : String) (value : Bool) :
    AttributeMaps ι :=
  maps.put a key (.bool value)

/-- Store a value under a name, behind a new reference. -/
def addValue (maps : AttributeMaps ι) (a : ι) (key : String) : AttributeValue → AttributeMaps ι
  | .string value => maps.addStringValue a key value
  | .int value => maps.addIntValue a key value
  | .bool value => maps.addBoolValue a key value

/--
Overwrite the value behind a reference, or store it where there is none.

The result is absent where the source panics, for a value of another type.
-/
def updateAddValue (maps : AttributeMaps ι) (a : ι) (key : String) (value : AttributeValue) :
    Option (AttributeMaps ι) :=
  match (maps.maps a).lookup key with
  | some cell =>
    if maps.cells[cell]?.map (·.type) = some value.type then some (maps.write cell value) else none
  | none => some (maps.addValue a key value)

/-- Overwrite or store a string. -/
def updateAddStringValue (maps : AttributeMaps ι) (a : ι) (key : String) (value : Bytes) :
    Option (AttributeMaps ι) :=
  maps.updateAddValue a key (.string value)

/-- Overwrite or store an integer. -/
def updateAddIntValue (maps : AttributeMaps ι) (a : ι) (key : String) (value : Int64) :
    Option (AttributeMaps ι) :=
  maps.updateAddValue a key (.int value)

/-- Overwrite or store a truth value. -/
def updateAddBoolValue (maps : AttributeMaps ι) (a : ι) (key : String) (value : Bool) :
    Option (AttributeMaps ι) :=
  maps.updateAddValue a key (.bool value)

/-- Take over the references of another map, if there is one. -/
def merge (maps : AttributeMaps ι) (order : RangeOrder String) (a : ι) (other : Option ι) :
    AttributeMaps ι :=
  match other with
  | some other => maps.adopt order a other
  | none => maps

/-- Take a name out. -/
def removeAttribute (maps : AttributeMaps ι) (a : ι) (key : String) : AttributeMaps ι :=
  maps.remove a key

/-- Take all names out. -/
def clearAttributes (maps : AttributeMaps ι) (a : ι) : AttributeMaps ι := maps.clear a

/-- Set every value behind a reference to its default. -/
def resetValues (maps : AttributeMaps ι) (order : RangeOrder String) (a : ι) : AttributeMaps ι :=
  maps.change order a AttributeValue.reset

/-- Hold a map with the same values in a variable, each behind a new reference. -/
def clone (maps : AttributeMaps ι) (order : RangeOrder String) (a target : ι) : AttributeMaps ι :=
  maps.copy order a target

/-- A call of one of the functions. -/
inductive Call (ι : Type) where
  | new (target : ι)
  | add (a : ι) (key : String) (value : AttributeValue)
  | updateAddString (a : ι) (key : String) (value : Bytes)
  | updateAddInt (a : ι) (key : String) (value : Int64)
  | updateAddBool (a : ι) (key : String) (value : Bool)
  | merge (order : RangeOrder String) (a : ι) (other : Option ι)
  | remove (a : ι) (key : String)
  | clear (a : ι)
  | reset (order : RangeOrder String) (a : ι)
  | clone (order : RangeOrder String) (a target : ι)

/-- One call; absent where the source panics. -/
def step (maps : AttributeMaps ι) : Call ι → Option (AttributeMaps ι)
  | .new target => some (maps.newAttributeMap target)
  | .add a key value => some (maps.addValue a key value)
  | .updateAddString a key value => maps.updateAddStringValue a key value
  | .updateAddInt a key value => maps.updateAddIntValue a key value
  | .updateAddBool a key value => maps.updateAddBoolValue a key value
  | .merge order a other => some (maps.merge order a other)
  | .remove a key => some (maps.removeAttribute a key)
  | .clear a => some (maps.clearAttributes a)
  | .reset order a => some (maps.resetValues order a)
  | .clone order a target => some (maps.clone order a target)

/-- A call that shares references. -/
def Call.Shares : Call ι → Prop
  | .merge _ _ (some _) => True
  | _ => False

/-- A call that writes behind references that were there before. -/
def Call.Writes : Call ι → Prop
  | .updateAddString .. | .updateAddInt .. | .updateAddBool .. | .reset .. => True
  | _ => False

end AttributeMaps

/-! What the functions are for: maps that have their values to themselves. -/

/-- The values of label maps, by the variables that hold them. -/
abbrev AttributeValues (ι : Type) := ι → String → Option AttributeValue

namespace AttributeValues

variable {ι : Type} [DecidableEq ι]

/-- Store a value under a name of one map, or none. -/
def set (values : AttributeValues ι) (a : ι) (key : String) (value : Option AttributeValue) :
    AttributeValues ι :=
  fun other key' => if other = a ∧ key' = key then value else values other key'

/-- Give all values of one map. -/
def become (values : AttributeValues ι) (a : ι) (those : String → Option AttributeValue) :
    AttributeValues ι :=
  fun other key => if other = a then those key else values other key

/-- Store a value where none of another type is. -/
def updateAdd (values : AttributeValues ι) (a : ι) (key : String) (value : AttributeValue) :
    Option (AttributeValues ι) :=
  if (values a key).all (·.type = value.type) then some (values.set a key (some value)) else none

/-- What a call makes of the values. -/
def step (values : AttributeValues ι) : AttributeMaps.Call ι → Option (AttributeValues ι)
  | .new target => some (values.become target fun _ => none)
  | .add a key value => some (values.set a key (some value))
  | .updateAddString a key value => values.updateAdd a key (.string value)
  | .updateAddInt a key value => values.updateAdd a key (.int value)
  | .updateAddBool a key value => values.updateAdd a key (.bool value)
  | .merge _ a (some other) =>
    some (values.become a fun key => (values other key).or (values a key))
  | .merge _ _ none => some values
  | .remove a key => some (values.set a key none)
  | .clear a => some (values.become a fun _ => none)
  | .reset _ a => some (values.become a fun key => (values a key).map AttributeValue.reset)
  | .clone _ a target => some (values.become target (values a))

end AttributeValues

end Spycat
