import Spycat.Core.SpyEvent

/-! The fixed array that an event keeps its attributes in, and where setting and reading panic. -/

namespace Spycat.AttributeArray

open Lib

/-- An attribute of the array; nothing but the setters sees to it that the value has the width. -/
structure KeyValue where
  key : String
  valueType : ValueType
  value : Bytes
  deriving DecidableEq

/-- An event's attributes; its other fields are not touched by them. -/
structure SpyEvent where
  paramsCnt : UInt16
  userAttributes : Vector KeyValue spyEventFieldMax

/-- An event before the first attribute. -/
def SpyEvent.fresh : SpyEvent where
  paramsCnt := 0
  userAttributes := Vector.replicate spyEventFieldMax { key := "", valueType := .none, value := [] }

namespace KeyValue

/-- The number in the leading bytes; absent where the source panics, for a value that is short. -/
def uintAt (kv : KeyValue) (width : Nat) : Option Nat :=
  if width ≤ kv.value.length then some (leNat (kv.value.take width)) else none

/-- The value of an unsigned integer, and zero for every other type. -/
def getUintValue (kv : KeyValue) : Option UInt64 :=
  match kv.valueType with
  | .uint8 => (kv.uintAt 1).map UInt64.ofNat
  | .uint16 => (kv.uintAt 2).map UInt64.ofNat
  | .uint32 => (kv.uintAt 4).map UInt64.ofNat
  | .uint64 => (kv.uintAt 8).map UInt64.ofNat
  | _ => some 0

/-- The value of a signed integer, and zero for every other type. -/
def getIntValue (kv : KeyValue) : Option Int64 :=
  match kv.valueType with
  | .int8 => (kv.uintAt 1).map fun value => (Int8.ofNat value).toInt64
  | .int16 => (kv.uintAt 2).map fun value => (Int16.ofNat value).toInt64
  | .int32 => (kv.uintAt 4).map fun value => (Int32.ofNat value).toInt64
  | .int64 => (kv.uintAt 8).map fun value => (UInt64.ofNat value).toInt64
  | _ => some 0

end KeyValue

namespace SpyEvent

/--
Set one more attribute, or return an error when the array is full.

The result is absent where the source panics, for an index behind the array.
-/
def setUserAttribute (s : SpyEvent) (kv : KeyValue) : Option (Except String SpyEvent) :=
  if s.paramsCnt > UInt16.ofNat (spyEventFieldMax - 1) then
    some (.error ("exceeded the max user attrubute size:" ++ toString s.paramsCnt.toNat))
  else if room : s.paramsCnt.toNat < spyEventFieldMax then
    some (.ok
      { paramsCnt := s.paramsCnt + 1
        userAttributes := s.userAttributes.set s.paramsCnt.toNat kv room })
  else none

/-- Set one more attribute; the setters drop the error. -/
def putUserAttribute (s : SpyEvent) (kv : KeyValue) : Option SpyEvent :=
  (s.setUserAttribute kv).map fun
    | .ok next => next
    | .error _ => s

/-- Set an unsigned 32-bit attribute. -/
def setUserAttributeWithUint32 (s : SpyEvent) (key : String) (value : UInt32) : Option SpyEvent :=
  s.putUserAttribute { key := key, valueType := .uint32, value := lePut 4 value.toNat }

/-- Set a signed 32-bit attribute; the type that it is given is the unsigned one. -/
def setUserAttributeWithInt32 (s : SpyEvent) (key : String) (value : Int32) : Option SpyEvent :=
  s.putUserAttribute { key := key, valueType := .uint32, value := lePut 4 value.toUInt32.toNat }

/-- Set a byte buffer. -/
def setUserAttributeWithByteBuf (s : SpyEvent) (key : String) (value : Bytes) : Option SpyEvent :=
  s.putUserAttribute { key := key, valueType := .bytebuf, value := value }

/-- Set an unsigned 64-bit attribute. -/
def setUserAttributeWithUint64 (s : SpyEvent) (key : String) (value : UInt64) : Option SpyEvent :=
  s.putUserAttribute { key := key, valueType := .uint64, value := lePut 8 value.toNat }

/-- Set a signed 64-bit attribute. -/
def setUserAttributeWithInt64 (s : SpyEvent) (key : String) (value : Int64) : Option SpyEvent :=
  s.putUserAttribute { key := key, valueType := .int64, value := lePut 8 value.toUInt64.toNat }

/-- The first attribute under a key from a position on, among as many as were set. -/
def searchFrom (count : Nat) (key : String) : Nat → List KeyValue → Option KeyValue
  | _, [] => none
  | id, kv :: rest =>
    if id + 1 > count then none
    else if kv.key = key then some kv
    else searchFrom count key (id + 1) rest

/-- The first attribute under a key. -/
def getUserAttribute (s : SpyEvent) (key : String) : Option KeyValue :=
  if s.paramsCnt = 0 then none
  else searchFrom s.paramsCnt.toNat key 0 s.userAttributes.toList

/-- The first attribute under a key as an unsigned integer, and zero when there is none. -/
def getUintUserAttribute (s : SpyEvent) (key : String) : Option UInt64 :=
  match s.getUserAttribute key with
  | some kv => kv.getUintValue
  | none => some 0

/-- The first attribute under a key as a signed integer, and zero when there is none. -/
def getIntUserAttribute (s : SpyEvent) (key : String) : Option Int64 :=
  match s.getUserAttribute key with
  | some kv => kv.getIntValue
  | none => some 0

end SpyEvent

/-- A call of one of the setters. -/
inductive SetterCall where
  | uint32 (key : String) (value : UInt32)
  | int32 (key : String) (value : Int32)
  | uint64 (key : String) (value : UInt64)
  | int64 (key : String) (value : Int64)
  | byteBuf (key : String) (value : Bytes)
  deriving DecidableEq

/-- One call of a setter; absent where the source panics. -/
def SpyEvent.step (s : SpyEvent) : SetterCall → Option SpyEvent
  | .uint32 key value => s.setUserAttributeWithUint32 key value
  | .int32 key value => s.setUserAttributeWithInt32 key value
  | .uint64 key value => s.setUserAttributeWithUint64 key value
  | .int64 key value => s.setUserAttributeWithInt64 key value
  | .byteBuf key value => s.setUserAttributeWithByteBuf key value

end Spycat.AttributeArray
