import Spycat.Lib.LittleEndian
import Spycat.Util.Trie

/-! The event that tracers put on the receiver's channel, with its typed attributes. -/

namespace Spycat

open Lib

/-- How many attributes an event has room for. -/
def spyEventFieldMax : Nat := 20

/-- The type an attribute's bytes were written with. -/
inductive ValueType where
  | none | int8 | int16 | int32 | int64 | uint8 | uint16 | uint32 | uint64
  | charbuf | bytebuf | float | double | bool
  deriving DecidableEq, Repr

/-- How many bytes the integer getters read of a value of the type. -/
def ValueType.width : ValueType → Nat
  | .int8 | .uint8 => 1
  | .int16 | .uint16 => 2
  | .int32 | .uint32 => 4
  | .int64 | .uint64 => 8
  | _ => 0

/-- An attribute; the bytes of an integer are there, so that no getter runs past them. -/
structure KeyValue where
  key : String
  valueType : ValueType
  value : Bytes
  wide : valueType.width ≤ value.length

namespace KeyValue

/-- The number in the leading bytes; the byte order is little endian on every machine. -/
def uintBytes (kv : KeyValue) : UInt64 := UInt64.ofNat (leNat (kv.value.take kv.valueType.width))

/-- The value of an unsigned integer, and zero for every other type. -/
def getUintValue (kv : KeyValue) : UInt64 :=
  match kv.valueType with
  | .uint8 | .uint16 | .uint32 | .uint64 => kv.uintBytes
  | _ => 0

/-- The value of a signed integer, and zero for every other type. -/
def getIntValue (kv : KeyValue) : Int64 :=
  match kv.valueType with
  | .int8 => (Int8.ofNat kv.uintBytes.toNat).toInt64
  | .int16 => (Int16.ofNat kv.uintBytes.toNat).toInt64
  | .int32 => (Int32.ofNat kv.uintBytes.toNat).toInt64
  | .int64 => kv.uintBytes.toInt64
  | _ => 0

/-- An attribute as the 32-bit setters write it. -/
def ofUint32 (key : String) (value : UInt32) : KeyValue where
  key := key
  valueType := .uint32
  value := lePut 4 value.toNat
  wide := by simp [ValueType.width]

/-- An attribute as the setter for unsigned 64-bit integers writes it. -/
def ofUint64 (key : String) (value : UInt64) : KeyValue where
  key := key
  valueType := .uint64
  value := lePut 8 value.toNat
  wide := by simp [ValueType.width]

/-- An attribute as the setter for byte buffers writes it. -/
def ofByteBuf (key : String) (value : Bytes) : KeyValue where
  key := key
  valueType := .bytebuf
  value := value
  wide := by simp [ValueType.width]

/-- An unsigned 64-bit attribute reads back as the value that was set. -/
@[simp] theorem getUintValue_ofUint64 (key : String) (value : UInt64) :
    (ofUint64 key value).getUintValue = value := by
  -- The eight bytes that were put are read back.
  have room : value.toNat < 256 ^ 8 := value.toNat_lt
  have whole : (lePut 8 value.toNat).take 8 = lePut 8 value.toNat := by
    rw [List.take_of_length_le (by simp)]
  simp only [getUintValue, ofUint64, uintBytes, ValueType.width, whole, leNat_lePut,
    Nat.mod_eq_of_lt room, UInt64.ofNat_toNat]

@[simp] theorem key_ofUint32 (key : String) (value : UInt32) : (ofUint32 key value).key = key := rfl

@[simp] theorem key_ofByteBuf (key : String) (value : Bytes) : (ofByteBuf key value).key = key :=
  rfl

@[simp] theorem key_ofUint64 (key : String) (value : UInt64) : (ofUint64 key value).key = key := rfl

@[simp] theorem value_ofByteBuf (key : String) (value : Bytes) :
    (ofByteBuf key value).value = value := rfl

/-- An unsigned 32-bit attribute reads back as the value that was set. -/
@[simp] theorem getUintValue_ofUint32 (key : String) (value : UInt32) :
    (ofUint32 key value).getUintValue = value.toUInt64 := by
  -- Four bytes hold every value, and the number they make fits the wider type.
  have room : value.toNat < 256 ^ 4 := value.toNat_lt
  have whole : (lePut 4 value.toNat).take 4 = lePut 4 value.toNat := by
    rw [List.take_of_length_le (by simp)]
  simp only [getUintValue, ofUint32, uintBytes, ValueType.width, whole, leNat_lePut,
    Nat.mod_eq_of_lt room]
  apply UInt64.toNat.inj
  rw [UInt64.toNat_ofNat_of_lt' (by simp only [UInt64.size]; omega), UInt32.toNat_toUInt64]

end KeyValue

/-- The tracer and the event an event belongs to. -/
structure ClassInfo where
  name : String
  event : String
  deriving DecidableEq, Repr

/-- The task an event is about. -/
structure TaskInfo where
  pid : UInt32
  tid : UInt32
  comm : Bytes
  deriving DecidableEq, Repr

/-- An event; the attributes set so far are the first ones of the source's fixed array. -/
structure SpyEvent where
  name : String
  timeStamp : UInt64
  cls : ClassInfo
  task : TaskInfo
  userAttributes : List KeyValue
  bounded : userAttributes.length ≤ spyEventFieldMax

namespace SpyEvent

/-- How many attributes were set. -/
def paramsCnt (e : SpyEvent) : Nat := e.userAttributes.length

/-- Set one more attribute; absent when the event is full, where the source returns an error. -/
def setUserAttribute (e : SpyEvent) (kv : KeyValue) : Option SpyEvent :=
  if room : e.paramsCnt ≤ spyEventFieldMax - 1 then
    some { e with
      userAttributes := e.userAttributes ++ [kv]
      bounded := by
        have count : e.userAttributes.length ≤ spyEventFieldMax - 1 := room
        simp only [List.length_append, List.length_singleton, spyEventFieldMax] at count ⊢
        omega }
  else none

/-- Set an unsigned 32-bit attribute; a full event stays as it is. -/
def setUserAttributeWithUint32 (e : SpyEvent) (key : String) (value : UInt32) : SpyEvent :=
  (e.setUserAttribute (.ofUint32 key value)).getD e

/-- Set a byte buffer; a full event stays as it is. -/
def setUserAttributeWithByteBuf (e : SpyEvent) (key : String) (value : Bytes) : SpyEvent :=
  (e.setUserAttribute (.ofByteBuf key value)).getD e

/-- Set attributes one after the other; those that a full event has no room for are left out. -/
def setUserAttributes (e : SpyEvent) (kvs : List KeyValue) : SpyEvent :=
  kvs.foldl (fun e kv => (e.setUserAttribute kv).getD e) e

/-- There is room for no attributes. -/
theorem bounded_nil : ([] : List KeyValue).length ≤ spyEventFieldMax := Nat.zero_le _

/-- An event without attributes. -/
def bare (name : String) (timeStamp : UInt64) (cls : ClassInfo) (task : TaskInfo) : SpyEvent where
  name := name
  timeStamp := timeStamp
  cls := cls
  task := task
  userAttributes := []
  bounded := bounded_nil

/-- The first attribute under a key. -/
def getUserAttribute (e : SpyEvent) (key : String) : Option KeyValue :=
  e.userAttributes.find? fun kv => kv.key == key

/-- The first attribute under a key as an unsigned integer, and zero when there is none. -/
def getUintUserAttribute (e : SpyEvent) (key : String) : UInt64 :=
  ((e.getUserAttribute key).map (·.getUintValue)).getD 0

/-- The first attribute under a key as a signed integer, and zero when there is none. -/
def getIntUserAttribute (e : SpyEvent) (key : String) : Int64 :=
  ((e.getUserAttribute key).map (·.getIntValue)).getD 0

/-- Where there is room, attributes are set behind those that are there. -/
theorem setUserAttributes_eq {e : SpyEvent} {kvs : List KeyValue}
    (room : e.userAttributes.length + kvs.length ≤ spyEventFieldMax) :
    e.setUserAttributes kvs =
      { e with
        userAttributes := e.userAttributes ++ kvs
        bounded := by rw [List.length_append]; exact room } := by
  -- Each attribute leaves one place less for the ones behind it.
  induction kvs generalizing e with
  | nil => simp [setUserAttributes]
  | cons kv rest ih =>
    simp only [List.length_cons] at room
    have fits : e.paramsCnt ≤ spyEventFieldMax - 1 := by simp only [paramsCnt]; omega
    have set : (e.setUserAttribute kv).getD e =
        { e with
          userAttributes := e.userAttributes ++ [kv]
          bounded := by simp only [List.length_append, List.length_singleton]; omega } := by
      simp [setUserAttribute, fits]
    have more := @ih ((e.setUserAttribute kv).getD e)
    rw [set] at more
    have left : (e.userAttributes ++ [kv]).length + rest.length ≤ spyEventFieldMax := by
      simp only [List.length_append, List.length_singleton]
      omega
    simpa [setUserAttributes, set] using more left

/-- The attributes of an event that was bare. -/
theorem userAttributes_bare {name : String} {timeStamp : UInt64} {cls : ClassInfo} {task : TaskInfo}
    {kvs : List KeyValue} (room : kvs.length ≤ spyEventFieldMax) :
    ((bare name timeStamp cls task).setUserAttributes kvs).userAttributes = kvs := by
  -- A fresh event has no attributes, so there is room for all.
  rw [setUserAttributes_eq (by simpa [bare] using room)]
  simp [bare]

end SpyEvent

end Spycat
