import Spycat.Lib.Record

/-! Copying a struct into another one by reflection, field by field in the order of both. -/

namespace Spycat

open Lib

/-- The types of the fields that configurations have. -/
inductive FieldType where
  | string
  | int
  | uint
  | bool
  | duration
  deriving DecidableEq, Repr

namespace FieldType

/-- The values of a type. -/
def Value : FieldType → Type
  | .string => String
  | .int => Int64
  | .uint => UInt64
  | .bool => Bool
  | .duration => Int64

/-- The value that a field has before it is set. -/
def zero : (type : FieldType) → type.Value
  | .string => ("" : String)
  | .int => (0 : Int64)
  | .uint => (0 : UInt64)
  | .bool => false
  | .duration => (0 : Int64)

end FieldType

/-- A struct type: the names of its fields with their types, in their order. -/
abbrev StructType := Fields FieldType

/-- A struct of a type. -/
abbrev Struct (type : StructType) := Record FieldType.Value type

/-- The struct that has no field set. -/
def Struct.zero : (type : StructType) → Struct type
  | [] => ()
  | field :: rest => (field.2.zero, zero rest)

/-- What an argument of an interface type can hold: a struct, a pointer to one, or neither. -/
inductive Interface (type : StructType) where
  | nilPointer
  | pointer (value : Struct type)
  | struct (value : Struct type)
  | other

/-- The struct that is copied from or into. -/
def Interface.elem {type : StructType} : Interface type → Option (Struct type)
  | .pointer value | .struct value => some value
  | .nilPointer | .other => none

/-- Copy all fields, or return an error; the outer result is absent where the source panics. -/
def copyStruct {source target : StructType} (src : Interface source) (dest : Interface target) :
    Option (Except String (Interface target)) :=
  match src, dest with
  | .nilPointer, _ => some (.error "src pointer is nil")
  | _, .nilPointer => some (.error "dest pointer is nil")
  | src, dest =>
    match src.elem, dest with
    | none, _ => some (.error "src must be a struct")
    | some _, .nilPointer | some _, .other => some (.error "dest must be a struct")
    | some value, .pointer record =>
      (Record.copyInto source target value record).map fun record => .ok (.pointer record)
    -- The fields of a struct that is not behind a pointer cannot be set.
    | some _, .struct record => if source = [] then some (.ok (.struct record)) else none

end Spycat
