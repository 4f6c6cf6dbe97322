import Spycat.Lib.LittleEndian

/-! Records in memory with aligned fields, and readers that take them apart field by field. -/

namespace Spycat.Lib

/-- An array of characters of a fixed size. -/
abbrev CharArray (size : Nat) := Vector UInt8 size

/-- The leading characters of a string, with zeros behind them up to the size. -/
def CharArray.ofBytes (size : Nat) (bytes : List UInt8) : CharArray size :=
  Vector.ofFn fun i => bytes.getD i 0

/-- As many characters as an array has are stored as they are. -/
theorem CharArray.toList_ofBytes {size : Nat} {bytes : List UInt8} (full : bytes.length = size) :
    (CharArray.ofBytes size bytes).toList = bytes := by
  -- No position is beyond the string.
  subst full
  apply List.ext_getElem
  · exact Vector.length_toList
  · intro i _ inside
    simp [CharArray.ofBytes]

/-- The bytes of a C string, which ends at the first NUL. -/
def goString (text : List UInt8) : List UInt8 := text.takeWhile (· ≠ 0)

@[simp] theorem goString_nil : goString [] = [] := rfl

/-- A string goes on behind every character but a NUL. -/
theorem goString_cons (first : UInt8) (rest : List UInt8) :
    goString (first :: rest) = if first = 0 then [] else first :: goString rest := by
  -- The text ends at the first byte that is zero.
  by_cases nul : first = 0 <;> simp [goString, nul]

/-- Memory behind a string does not matter where the string ends before it. -/
theorem goString_append {text : List UInt8} (ends : 0 ∈ text) (behind : List UInt8) :
    goString (text ++ behind) = goString text := by
  -- The induction follows the string up to its first NUL.
  induction text with
  | nil => cases ends
  | cons first rest ih =>
    rw [List.cons_append, goString_cons, goString_cons]
    by_cases nul : first = 0
    · rw [if_pos nul, if_pos nul]
    · have later : 0 ∈ rest := (List.mem_cons.mp ends).resolve_left (Ne.symm nul)
      rw [if_neg nul, if_neg nul, ih later]

/-- A string without an end runs on into the memory behind it. -/
theorem goString_append_open {text : List UInt8} (endless : 0 ∉ text) (behind : List UInt8) :
    goString (text ++ behind) = text ++ goString behind := by
  -- No character of the string stops the reading.
  induction text with
  | nil => rfl
  | cons first rest ih =>
    obtain ⟨other, later⟩ := not_or.mp (List.mem_cons.not.mp endless)
    rw [List.cons_append, goString_cons, if_neg (Ne.symm other), ih later, List.cons_append]

/-- A string is read as it is exactly where it ends, or the memory behind it is a NUL at once. -/
theorem goString_append_eq_iff (text : List UInt8) (next : UInt8) (behind : List UInt8) :
    goString (text ++ next :: behind) = goString text ↔ 0 ∈ text ∨ next = 0 := by
  -- Either the string has an end of its own, or it needs one behind it.
  by_cases ends : 0 ∈ text
  · simp [goString_append ends, ends]
  · -- Without an end of its own, the string is read up to the next NUL.
    have alone : goString text = text := by simpa using goString_append_open ends []
    rw [goString_append_open ends, alone, List.append_right_eq_self, goString_cons]
    by_cases nul : next = 0 <;> simp [nul, ends]

/-- A field of a record in memory: its alignment and its bytes. -/
structure CField where
  align : Nat
  bytes : List UInt8

namespace CField

/-! Fields of the types that records are made of. -/

def u32 (value : UInt32) : CField := ⟨4, lePut 4 value.toNat⟩
def s32 (value : Int32) : CField := u32 value.toUInt32
def u64 (value : UInt64) : CField := ⟨8, lePut 8 value.toNat⟩
def s64 (value : Int64) : CField := u64 value.toUInt64
def chars {size : Nat} (value : CharArray size) : CField := ⟨1, value.toList⟩
def bool (value : Bool) : CField := ⟨1, [if value then 1 else 0]⟩

/-- A record as a field of another one. -/
def struct (align : Nat) (bytes : List UInt8) : CField := ⟨align, bytes⟩

@[simp] theorem align_u32 (value : UInt32) : (u32 value).align = 4 := rfl

@[simp] theorem align_s32 (value : Int32) : (s32 value).align = 4 := rfl

@[simp] theorem align_u64 (value : UInt64) : (u64 value).align = 8 := rfl

@[simp] theorem align_s64 (value : Int64) : (s64 value).align = 8 := rfl

@[simp] theorem align_chars {size : Nat} (value : CharArray size) : (chars value).align = 1 := rfl

@[simp] theorem align_struct (align : Nat) (bytes : List UInt8) :
    (struct align bytes).align = align := rfl

@[simp] theorem length_u32 (value : UInt32) : (u32 value).bytes.length = 4 := lePut_length 4 _

@[simp] theorem length_s32 (value : Int32) : (s32 value).bytes.length = 4 := lePut_length 4 _

@[simp] theorem length_u64 (value : UInt64) : (u64 value).bytes.length = 8 := lePut_length 8 _

@[simp] theorem length_s64 (value : Int64) : (s64 value).bytes.length = 8 := lePut_length 8 _

@[simp] theorem length_chars {size : Nat} (value : CharArray size) :
    (chars value).bytes.length = size := value.length_toList

@[simp] theorem length_struct (align : Nat) (bytes : List UInt8) :
    (struct align bytes).bytes.length = bytes.length := rfl

end CField

/-- How many bytes are left out in front of a field that stands at an offset. -/
def padding (align offset : Nat) : Nat := (align - offset % align) % align

/-- The bytes of the fields from an offset on, each at a multiple of its alignment. -/
def cFields : Nat → List CField → List UInt8
  | _, [] => []
  | offset, field :: rest =>
    let skipped := padding field.align offset
    List.replicate skipped 0 ++ field.bytes ++
      cFields (offset + skipped + field.bytes.length) rest

/-- The bytes of a record, up to a multiple of its own alignment. -/
def cStruct (align : Nat) (fields : List CField) : List UInt8 :=
  let bytes := cFields 0 fields
  bytes ++ List.replicate (padding align bytes.length) 0

/--
From an offset on every field stands at a multiple of its alignment right behind the last one, and
the whole fills a record of an alignment up.
-/
def Packed (align : Nat) : Nat → List CField → Prop
  | offset, [] => offset % align = 0
  | offset, field :: rest =>
    offset % field.align = 0 ∧ Packed align (offset + field.bytes.length) rest

/-- Nothing is left out where an offset is aligned already. -/
theorem padding_aligned {align offset : Nat} (aligned : offset % align = 0) :
    padding align offset = 0 := by
  -- The next place that is aligned is the offset itself.
  simp [padding, aligned]

/-- Packed fields stand one behind the other, up to the end of the record. -/
theorem cFields_packed {align offset : Nat} {fields : List CField}
    (packed : Packed align offset fields) :
    cFields offset fields = fields.flatMap CField.bytes ∧
      (offset + (fields.flatMap CField.bytes).length) % align = 0 := by
  -- The offset moves on by the bytes of each field.
  induction fields generalizing offset with
  | nil => exact ⟨rfl, packed⟩
  | cons field rest ih =>
    obtain ⟨stands, full⟩ := ih packed.2
    constructor
    · simp only [cFields, padding_aligned packed.1, Nat.add_zero, stands, List.replicate_zero,
        List.nil_append, List.flatMap_cons]
    · rwa [List.flatMap_cons, List.length_append, ← Nat.add_assoc]

/-- A record of packed fields consists of their bytes. -/
theorem cStruct_packed {align : Nat} {fields : List CField} (packed : Packed align 0 fields) :
    cStruct align fields = fields.flatMap CField.bytes := by
  -- The fields end at a multiple of the alignment already.
  obtain ⟨stands, full⟩ := cFields_packed packed
  rw [Nat.zero_add] at full
  simp only [cStruct, stands, padding_aligned full, List.replicate_zero, List.append_nil]

/-- A reader of values of a fixed size, which looks at the leading bytes only. -/
structure Reader (α : Type) where
  size : Nat
  read : List UInt8 → α

namespace Reader

variable {α β : Type}

/-- Read nothing. -/
def done (value : α) : Reader α := ⟨0, fun _ => value⟩

/-- Read one more field behind those read so far. -/
def field (first : Reader (α → β)) (second : Reader α) : Reader β where
  size := first.size + second.size
  read := fun input => first.read input (second.read (input.drop first.size))

/-! Readers of numbers, lowest byte first, and of arrays of characters. -/

def uint32 : Reader UInt32 := ⟨4, fun input => UInt32.ofNat (leNat (input.take 4))⟩
def uint64 : Reader UInt64 := ⟨8, fun input => UInt64.ofNat (leNat (input.take 8))⟩
def int32 : Reader Int32 := ⟨4, fun input => (uint32.read input).toInt32⟩
def int64 : Reader Int64 := ⟨8, fun input => (uint64.read input).toInt64⟩
def chars (size : Nat) : Reader (CharArray size) := ⟨size, CharArray.ofBytes size⟩
def bool : Reader Bool := ⟨1, fun input => input.head?.getD 0 ≠ 0⟩

/-- Leave bytes out behind what was read. -/
def skip (first : Reader α) (count : Nat) : Reader α := ⟨first.size + count, first.read⟩

/-- Read a number of values of one kind. -/
def array (item : Reader α) (count : Nat) : Reader (Vector α count) where
  size := count * item.size
  read := fun input => Vector.ofFn fun i => item.read (input.drop (i * item.size))

/-- Read a whole value; absent for too few bytes. -/
def run (reader : Reader α) (input : List UInt8) : Option α :=
  if input.length < reader.size then none else some (reader.read input)

/-- A reader reads a value off the bytes that stand for it, whatever comes behind them. -/
structure Reads (reader : Reader α) (bytes : List UInt8) (value : α) : Prop where
  length : bytes.length = reader.size
  read : ∀ rest, reader.read (bytes ++ rest) = value

/-- Reading nothing takes no bytes, which is what no fields have. -/
theorem reads_done (value : α) :
    (done value).Reads (([] : List CField).flatMap CField.bytes) value := ⟨rfl, fun _ => rfl⟩

/-- A truth value is read back from its byte. -/
theorem reads_bool (value : Bool) : bool.Reads (CField.bool value).bytes value := by
  -- The byte is one or zero.
  constructor
  · rfl
  · intro rest
    cases value <;> rfl

/-- Bytes that are left out do not change what is read. -/
theorem Reads.skip {reader : Reader α} {bytes : List UInt8} {value : α}
    (reads : reader.Reads bytes value) (left : List UInt8) :
    (reader.skip left.length).Reads (bytes ++ left) value := by
  -- The bytes are counted as read, and then dropped.
  constructor
  · rw [List.length_append, reads.length]
    rfl
  · intro rest
    rw [List.append_assoc]
    exact reads.read _

/-- Fields are read one behind the other. -/
theorem Reads.field {first : Reader (α → β)} {second : Reader α} {front back : List UInt8}
    {build : α → β} {value : α} (reads : first.Reads front build)
    (more : second.Reads back value) :
    (first.field second).Reads (front ++ back) (build value) := by
  -- The second reader starts where the first one has stopped.
  constructor
  · simp only [Reader.field, List.length_append, reads.length, more.length]
  · intro rest
    have behind : (front ++ (back ++ rest)).drop first.size = back ++ rest := by
      rw [← reads.length, List.drop_left]
    simp only [Reader.field, List.append_assoc, reads.read, behind, more.read]

/-- One more field is read behind those of a record that were read so far. -/
theorem Reads.next {first : Reader (α → β)} {second : Reader α} {fields : List CField}
    {field : CField} {build : α → β} {value : α}
    (reads : first.Reads (fields.flatMap CField.bytes) build)
    (more : second.Reads field.bytes value) :
    (first.field second).Reads ((fields ++ [field]).flatMap CField.bytes) (build value) := by
  -- The field comes behind those that were read so far.
  rw [List.flatMap_append, List.flatMap_singleton]
  exact reads.field more

/-- A record of packed fields is read by reading its fields. -/
theorem Reads.cStruct {reader : Reader α} {align : Nat} {fields : List CField} {value : α}
    (reads : reader.Reads (fields.flatMap CField.bytes) value) (packed : Packed align 0 fields) :
    reader.Reads (Lib.cStruct align fields) value := by
  -- Without padding a structure is its fields, one behind the other.
  rw [cStruct_packed packed]
  exact reads

/-- A number is read back from its bytes. -/
theorem reads_uint32 (value : UInt32) : uint32.Reads (CField.u32 value).bytes value := by
  -- Four bytes hold every number of 32 bits, and what follows is not looked at.
  constructor
  · exact lePut_length 4 _
  · intro rest
    have room : value.toNat < 256 ^ 4 := value.toNat_lt
    have whole : (lePut 4 value.toNat ++ rest).take 4 = lePut 4 value.toNat :=
      List.take_left' (lePut_length 4 _)
    simp only [uint32, CField.u32, whole, leNat_lePut, Nat.mod_eq_of_lt room, UInt32.ofNat_toNat]

theorem reads_uint64 (value : UInt64) : uint64.Reads (CField.u64 value).bytes value := by
  -- Eight bytes hold every number of 64 bits, and what follows is not looked at.
  constructor
  · exact lePut_length 8 _
  · intro rest
    have room : value.toNat < 256 ^ 8 := value.toNat_lt
    have whole : (lePut 8 value.toNat ++ rest).take 8 = lePut 8 value.toNat :=
      List.take_left' (lePut_length 8 _)
    simp only [uint64, CField.u64, whole, leNat_lePut, Nat.mod_eq_of_lt room, UInt64.ofNat_toNat]

theorem reads_int32 (value : Int32) : int32.Reads (CField.s32 value).bytes value := by
  -- The bytes are those of the unsigned number.
  have unsigned := reads_uint32 value.toUInt32
  constructor
  · exact unsigned.length
  · intro rest
    simp only [int32, CField.s32, unsigned.read, Int32.toInt32_toUInt32]

theorem reads_int64 (value : Int64) : int64.Reads (CField.s64 value).bytes value := by
  -- The bytes are those of the unsigned number.
  have unsigned := reads_uint64 value.toUInt64
  constructor
  · exact unsigned.length
  · intro rest
    simp only [int64, CField.s64, unsigned.read, Int64.toInt64_toUInt64]

/-- An array of characters is read back from its characters. -/
theorem reads_chars {size : Nat} (value : CharArray size) :
    (chars size).Reads (CField.chars value).bytes value := by
  -- The characters are taken one for one.
  constructor
  · exact value.length_toList
  · intro rest
    ext i inside
    have stored : i < value.toList.length := by simpa using inside
    simp [chars, CField.chars, CharArray.ofBytes, List.getElem?_append_left stored, inside]

/-- A record that is part of another one is read from its bytes. -/
theorem reads_struct {reader : Reader α} {bytes : List UInt8} {value : α} (align : Nat)
    (reads : reader.Reads bytes value) : reader.Reads (CField.struct align bytes).bytes value :=
  -- A structure inside another one is its own bytes.
  reads

/-- Values of one width each stand behind as many bytes as the values before them take. -/
theorem flatMap_split {encode : α → List UInt8} {width : Nat}
    (wide : ∀ value, (encode value).length = width) (values : List α) {i : Nat} {value : α}
    (stored : values[i]? = some value) :
    ∃ before after, values.flatMap encode = before ++ (encode value ++ after) ∧
      before.length = i * width := by
  -- The induction follows the values up to the one that is looked for.
  induction values generalizing i with
  | nil => simp at stored
  | cons first others ih =>
    cases i with
    | zero =>
      rw [List.getElem?_cons_zero, Option.some.injEq] at stored
      subst stored
      exact ⟨[], others.flatMap encode, rfl, by simp⟩
    | succ i =>
      obtain ⟨before, after, split, length⟩ := ih (by simpa using stored)
      refine ⟨encode first ++ before, after, by simp [split], ?_⟩
      rw [List.length_append, wide, length, Nat.succ_mul, Nat.add_comm]

/-- Values whose bytes stand one behind the other are read back as an array. -/
theorem reads_array {item : Reader α} {encode : α → List UInt8}
    (reads : ∀ value, item.Reads (encode value) value) {count : Nat} (values : Vector α count) :
    (array item count).Reads (values.toList.flatMap encode) values := by
  -- The bytes of every value stand at a multiple of the width of one.
  have wide : ∀ value, (encode value).length = item.size := fun value => (reads value).length
  constructor
  · have total : ∀ list : List α, (list.flatMap encode).length = list.length * item.size := by
      intro list
      induction list with
      | nil => simp
      | cons first rest ih => simp [ih, wide, Nat.succ_mul, Nat.add_comm]
    simp [array, total]
  · intro rest
    ext i inside
    have stored : values.toList[i]? = some values[i] := by simp [inside]
    obtain ⟨before, after, split, length⟩ := flatMap_split wide values.toList stored
    simp only [array, Vector.getElem_ofFn, split, List.append_assoc]
    rw [← length, List.drop_left, (reads _).read]

/-- A value whose bytes were put is read back, with anything behind them. -/
theorem Reads.run {reader : Reader α} {bytes : List UInt8} {value : α}
    (reads : reader.Reads bytes value) (rest : List UInt8) :
    reader.run (bytes ++ rest) = some value := by
  -- The bytes alone are long enough.
  have long : ¬ (bytes ++ rest).length < reader.size := by
    rw [List.length_append, reads.length]
    omega
  rw [Reader.run, if_neg long, reads.read]

end Reader

end Spycat.Lib
