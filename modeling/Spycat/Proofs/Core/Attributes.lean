import Spycat.Core.AttributeArray
import Spycat.Lib.Run

/-! What is read back of an event's attributes is the first of those that were set. -/

namespace Spycat.AttributeArray

open Lib

/-- The attribute that a call sets. -/
def SetterCall.keyValue : SetterCall → KeyValue
  | .uint32 key value => { key := key, valueType := .uint32, value := lePut 4 value.toNat }
  | .int32 key value => { key := key, valueType := .uint32, value := lePut 4 value.toUInt32.toNat }
  | .uint64 key value => { key := key, valueType := .uint64, value := lePut 8 value.toNat }
  | .int64 key value => { key := key, valueType := .int64, value := lePut 8 value.toUInt64.toNat }
  | .byteBuf key value => { key := key, valueType := .bytebuf, value := value }

/-- Every setter puts its attribute. -/
theorem step_eq (s : SpyEvent) (call : SetterCall) :
    s.step call = s.putUserAttribute call.keyValue := by
  -- The setters differ in the type and the bytes of the value alone.
  cases call <;> rfl

/-- The first places of the array hold attributes, and there are no others. -/
structure Holds (s : SpyEvent) (kvs : List KeyValue) : Prop where
  fits : kvs.length ≤ spyEventFieldMax
  counted : s.paramsCnt.toNat = kvs.length
  first : s.userAttributes.toList.take kvs.length = kvs

variable {s : SpyEvent} {kvs : List KeyValue}

theorem holds_fresh : Holds .fresh [] where
  -- No attribute was set.
  fits := Nat.zero_le _
  counted := rfl
  first := rfl

/-- The last place is number 19. -/
theorem last_place : (UInt16.ofNat (spyEventFieldMax - 1)).toNat + 1 = spyEventFieldMax := rfl

/-- A full array stays as it is. -/
theorem put_full (full : s.paramsCnt.toNat = spyEventFieldMax) (kv : KeyValue) :
    s.putUserAttribute kv = some s := by
  -- The count is past the last place, so the setter is refused.
  have past : s.paramsCnt > UInt16.ofNat (spyEventFieldMax - 1) := by
    have last := last_place
    rw [gt_iff_lt, UInt16.lt_iff_toNat_lt]
    omega
  rw [SpyEvent.putUserAttribute, SpyEvent.setUserAttribute, if_pos past]
  rfl

/-- Where there is room, an attribute is put behind those that are there. -/
theorem Holds.put_room (holds : Holds s kvs) (room : kvs.length < spyEventFieldMax)
    (kv : KeyValue) :
    ∃ next, s.putUserAttribute kv = some next ∧ Holds next (kvs ++ [kv]) := by
  -- The attribute goes to the place behind the others.
  obtain ⟨_, counted, first⟩ := holds
  have within : s.paramsCnt.toNat < spyEventFieldMax := counted ▸ room
  have before : ¬ s.paramsCnt > UInt16.ofNat (spyEventFieldMax - 1) := by
    have last := last_place
    rw [gt_iff_lt, UInt16.lt_iff_toNat_lt]
    omega
  refine ⟨{ paramsCnt := s.paramsCnt + 1
            userAttributes := s.userAttributes.set s.paramsCnt.toNat kv within }, ?_, ?_, ?_, ?_⟩
  · rw [SpyEvent.putUserAttribute, SpyEvent.setUserAttribute, if_neg before, dif_pos within]
    rfl
  · rw [List.length_append]
    exact room
  · -- The count is far from the end of its range.
    have most : spyEventFieldMax = 20 := rfl
    rw [UInt16.toNat_add, List.length_append, counted]
    show (kvs.length + 1) % 2 ^ 16 = kvs.length + 1
    omega
  · have place : kvs.length < s.userAttributes.toList.length := by
      rw [Vector.length_toList]
      exact room
    rw [Vector.toList_set, List.length_append, List.length_singleton, counted, List.take_add_one,
      List.take_set_of_le (Nat.le_refl _), first, List.getElem?_set_self place]
    rfl

/-- Setting an attribute goes through, and counts while there is room. -/
theorem Holds.put_goes (holds : Holds s kvs) (kv : KeyValue) :
    ∃ next, s.putUserAttribute kv = some next ∧
      Holds next ((kvs ++ [kv]).take spyEventFieldMax) := by
  -- A full array keeps its attributes, which are the first ones anyway.
  rcases Nat.lt_or_ge kvs.length spyEventFieldMax with room | full
  · obtain ⟨next, put, after⟩ := holds.put_room room kv
    refine ⟨next, put, ?_⟩
    rw [List.take_of_length_le after.fits]
    exact after
  · have length : kvs.length = spyEventFieldMax := Nat.le_antisymm holds.fits full
    refine ⟨s, put_full (holds.counted.trans length) kv, ?_⟩
    rw [List.take_append_of_le_length full, List.take_of_length_le holds.fits]
    exact holds

/-- A search goes through the attributes that were set, up to the first one under the key. -/
theorem searchFrom_eq (list : List KeyValue) (id count : Nat) (key : String) :
    SpyEvent.searchFrom (id + count) key id list =
      (list.take count).find? fun kv => kv.key = key := by
  -- The search ends with the list, with the count, or at the key.
  induction list generalizing id count with
  | nil => simp [SpyEvent.searchFrom]
  | cons kv rest ih =>
    cases count with
    | zero => simp [SpyEvent.searchFrom]
    | succ count =>
      have more := ih (id + 1) count
      rw [show id + 1 + count = id + (count + 1) by omega] at more
      rw [SpyEvent.searchFrom, if_neg (by omega), List.take_succ_cons, List.find?_cons, more]
      by_cases same : kv.key = key <;> simp [same]

/-- The first attribute under a key is found. -/
theorem Holds.getUserAttribute (holds : Holds s kvs) (key : String) :
    s.getUserAttribute key = kvs.find? fun kv => kv.key = key := by
  -- The first places are the attributes that were set.
  have found := searchFrom_eq s.userAttributes.toList 0 kvs.length key
  rw [Nat.zero_add, holds.first] at found
  rw [SpyEvent.getUserAttribute, holds.counted, found]
  split
  · rename_i zero
    have counted := holds.counted
    rw [zero] at counted
    obtain rfl := List.length_eq_zero_iff.mp counted.symm
    rfl
  · rfl

/-- An attribute without the promise that its value has the width of its type. -/
def KeyValue.ofWide (kv : Spycat.KeyValue) : KeyValue where
  key := kv.key
  valueType := kv.valueType
  value := kv.value

/-- The array holds the attributes of an event. -/
def Represents (s : SpyEvent) (e : Spycat.SpyEvent) : Prop :=
  Holds s (e.userAttributes.map KeyValue.ofWide)

section Represents

variable {e : Spycat.SpyEvent}

/-- A value of the width of its type is read without a panic. -/
theorem KeyValue.getters_ofWide (kv : Spycat.KeyValue) :
    (ofWide kv).getUintValue = some kv.getUintValue ∧
      (ofWide kv).getIntValue = some kv.getIntValue := by
  obtain ⟨key, valueType, value, wide⟩ := kv
  -- The bytes that are read are those of the type's width.
  have read : ∀ width, valueType.width = width → KeyValue.uintAt
      { key := key, valueType := valueType, value := value } width =
        some (leNat (value.take width)) := by
    intro width same
    rw [KeyValue.uintAt, if_pos (same ▸ wide)]
  -- What is cut off of the wide number would have been cut off of the narrow one.
  have cut : ∀ number : Nat,
      Int8.ofNat (UInt64.ofNat number).toNat = Int8.ofNat number ∧
        Int16.ofNat (UInt64.ofNat number).toNat = Int16.ofNat number ∧
        Int32.ofNat (UInt64.ofNat number).toNat = Int32.ofNat number := by
    intro number
    rw [UInt64.toNat_ofNat', ← Int8.toBitVec_inj, ← Int16.toBitVec_inj, ← Int32.toBitVec_inj]
    simp only [Int8.toBitVec_ofNat', Int16.toBitVec_ofNat', Int32.toBitVec_ofNat',
      ← BitVec.toNat_inj, BitVec.toNat_ofNat]
    omega
  obtain ⟨narrow8, narrow16, narrow32⟩ := cut (leNat (value.take valueType.width))
  cases valueType <;>
    simp_all [getUintValue, getIntValue, ofWide, Spycat.KeyValue.getUintValue,
      Spycat.KeyValue.getIntValue, Spycat.KeyValue.uintBytes, ValueType.width]

/-- Setting an attribute in the array is setting it in the event. -/
theorem Represents.put (represents : Represents s e) (kv : Spycat.KeyValue) :
    ∃ next, s.putUserAttribute (.ofWide kv) = some next ∧
      Represents next ((e.setUserAttribute kv).getD e) := by
  -- Both have room, or both are full.
  by_cases room : e.paramsCnt ≤ spyEventFieldMax - 1
  · have fits : (e.userAttributes.map KeyValue.ofWide).length < spyEventFieldMax := by
      have most : spyEventFieldMax = 20 := rfl
      rw [List.length_map]
      unfold Spycat.SpyEvent.paramsCnt at room
      omega
    obtain ⟨next, put, holds⟩ := Holds.put_room represents fits (.ofWide kv)
    refine ⟨next, put, ?_⟩
    simpa [Represents, Spycat.SpyEvent.setUserAttribute, room] using holds
  · refine ⟨s, put_full ?_ _, ?_⟩
    · have bounded := e.bounded
      have counted := Holds.counted represents
      rw [List.length_map] at counted
      unfold Spycat.SpyEvent.paramsCnt at room
      omega
    · simpa [Spycat.SpyEvent.setUserAttribute, room] using represents

/-- Reading an attribute of the array is reading it of the event. -/
theorem Represents.getters (represents : Represents s e) (key : String) :
    s.getUserAttribute key = (e.getUserAttribute key).map KeyValue.ofWide ∧
      s.getUintUserAttribute key = some (e.getUintUserAttribute key) ∧
      s.getIntUserAttribute key = some (e.getIntUserAttribute key) := by
  -- The same attribute is found in both.
  have found : s.getUserAttribute key = (e.getUserAttribute key).map KeyValue.ofWide := by
    rw [Holds.getUserAttribute represents, List.find?_map]
    rfl
  refine ⟨found, ?_⟩
  unfold SpyEvent.getUintUserAttribute SpyEvent.getIntUserAttribute
    Spycat.SpyEvent.getUintUserAttribute Spycat.SpyEvent.getIntUserAttribute
  rw [found]
  cases e.getUserAttribute key with
  | none => exact ⟨rfl, rfl⟩
  | some kv => exact KeyValue.getters_ofWide kv

end Represents

/-- What a call says is read back by the getter of its kind. -/
def SetterCall.ReadBack (s : SpyEvent) : SetterCall → Prop
  | .uint32 key value => s.getUintUserAttribute key = some value.toUInt64
  | .int32 key value => s.getIntUserAttribute key = some value.toInt64
  | .uint64 key value => s.getUintUserAttribute key = some value
  | .int64 key value => s.getIntUserAttribute key = some value
  | .byteBuf key value => (s.getUserAttribute key).map KeyValue.value = some value

/-- The bytes of a number that fits are read back. -/
theorem uintAt_lePut (key : String) (valueType : ValueType) (width : Nat) {number : Nat}
    (fits : number < 256 ^ width) :
    KeyValue.uintAt { key := key, valueType := valueType, value := lePut width number } width =
      some number := by
  -- As many bytes were put as are read.
  rw [KeyValue.uintAt, lePut_length, if_pos (Nat.le_refl _), List.take_of_length_le (by simp),
    leNat_lePut, Nat.mod_eq_of_lt fits]

/-- A signed integer of 32 bits is zero where the wider one is. -/
theorem toInt64_eq_zero (value : Int32) : value.toInt64 = 0 ↔ value = 0 := by
  -- Widening keeps the integer.
  rw [← Int64.toInt_inj, Int32.toInt_toInt64, ← Int32.toInt_inj]
  rfl

/-- The attribute of a call is read back, unless it was a signed one of 32 bits other than zero. -/
theorem SetterCall.readBack_iff (call : SetterCall)
    (first : s.getUserAttribute call.keyValue.key = some call.keyValue) :
    call.ReadBack s ↔ ∀ key value, call = .int32 key value → value = 0 := by
  cases call with
  | uint32 key value =>
    have found : s.getUserAttribute key = some _ := first
    have read := uintAt_lePut key .uint32 4 value.toNat_lt
    simp [ReadBack, SpyEvent.getUintUserAttribute, found, keyValue, KeyValue.getUintValue, read]
  | int32 key value =>
    have found : s.getUserAttribute key = some _ := first
    -- The getter for signed integers takes the attribute for none of them, and reads zero.
    have zero : s.getIntUserAttribute key = some 0 := by
      rw [SpyEvent.getIntUserAttribute, found]
      rfl
    rw [ReadBack, zero, Option.some.injEq, eq_comm, toInt64_eq_zero]
    simp
  | uint64 key value =>
    have found : s.getUserAttribute key = some _ := first
    have read := uintAt_lePut key .uint64 8 value.toNat_lt
    simp [ReadBack, SpyEvent.getUintUserAttribute, found, keyValue, KeyValue.getUintValue, read]
  | int64 key value =>
    have found : s.getUserAttribute key = some _ := first
    have read := uintAt_lePut key .int64 8 value.toUInt64.toNat_lt
    have bits : Int64.ofNat value.toUInt64.toNat = value := by
      apply Int64.toBitVec_inj.mp
      simp
    simp [ReadBack, SpyEvent.getIntUserAttribute, found, keyValue, KeyValue.getIntValue, read, bits]
  | byteBuf key value =>
    have found : s.getUserAttribute key = some _ := first
    simp [ReadBack, found, keyValue]

/-- No getter panics on the attribute of a call. -/
theorem SetterCall.getters_go (call : SetterCall) :
    call.keyValue.getUintValue.isSome ∧ call.keyValue.getIntValue.isSome := by
  -- A number is stored with all the bytes that are read of it.
  cases call <;> simp [keyValue, KeyValue.getUintValue, KeyValue.getIntValue, KeyValue.uintAt]

/-- The attributes that calls leave: those of the first ones, as many as there are places. -/
def keptOf (calls : List SetterCall) : List KeyValue :=
  (calls.take spyEventFieldMax).map SetterCall.keyValue

/-- Calls go through, and leave the attributes of the first ones. -/
theorem run_holds (calls : List SetterCall) :
    ∃ s, run SpyEvent.step .fresh calls = some s ∧ Holds s (keptOf calls) := by
  refine run_progress (fun past s => Holds s (keptOf past)) holds_fresh ?_ calls
  intro past s call holds
  obtain ⟨next, put, after⟩ := holds.put_goes call.keyValue
  refine ⟨next, (step_eq s call).trans put, ?_⟩
  -- What is cut off of the past is cut off of it with one more call too.
  have kept : (keptOf past ++ [call.keyValue]).take spyEventFieldMax =
      keptOf (past ++ [call]) := by
    have left : spyEventFieldMax - min spyEventFieldMax past.length =
        spyEventFieldMax - past.length := by omega
    simp [keptOf, List.take_append, List.take_take, left]
  exact kept ▸ after

/-- A full array stays as it is, whatever is called. -/
theorem run_full (full : s.paramsCnt.toNat = spyEventFieldMax) (calls : List SetterCall) :
    run SpyEvent.step s calls = some s := by
  -- No call gets past the full array.
  induction calls with
  | nil => rfl
  | cons call rest ih => rw [run_cons, step_eq, put_full full, Option.bind_some, ih]

/-- Calls after the last place change nothing. -/
theorem run_take (calls : List SetterCall) :
    run SpyEvent.step .fresh (calls.take spyEventFieldMax) = run SpyEvent.step .fresh calls := by
  -- The first calls leave an array that the others find full, or there are no others.
  obtain ⟨s, ran, holds⟩ := run_holds (calls.take spyEventFieldMax)
  have split : run SpyEvent.step .fresh calls =
      run SpyEvent.step s (calls.drop spyEventFieldMax) := by
    rw [← List.take_append_drop spyEventFieldMax calls, run_append, ran, Option.bind_some,
      List.take_append_drop]
  rw [ran, split]
  rcases Nat.le_total calls.length spyEventFieldMax with few | many
  · rw [List.drop_of_length_le few]
    rfl
  · -- The first calls have filled the array.
    refine (run_full ?_ _).symm
    rw [holds.counted]
    simpa [keptOf] using many

/-- Every first attribute under a key is read back by the getter of the kind it was set with. -/
def ReadsBack (calls : List SetterCall) (s : SpyEvent) : Prop :=
  ∀ key call, (calls.take spyEventFieldMax).find? (·.keyValue.key = key) = some call →
    call.ReadBack s

/--
Setting attributes never panics and never exceeds the array, further calls change nothing, and no
getter panics; what was set first under a key is read back exactly where no signed integer of 32
bits other than zero was.
-/
theorem SpyEvent.setters_read_back (calls : List SetterCall) :
    ∃ s, run SpyEvent.step .fresh calls = some s ∧ s.paramsCnt.toNat ≤ spyEventFieldMax ∧
      run SpyEvent.step .fresh (calls.take spyEventFieldMax) = some s ∧
      (∀ key, (s.getUintUserAttribute key).isSome ∧ (s.getIntUserAttribute key).isSome) ∧
      (ReadsBack calls s ↔
        ∀ key value, (calls.take spyEventFieldMax).find? (·.keyValue.key = key) =
          some (.int32 key value) → value = 0) := by
  -- A getter finds the attribute of the first call with its key.
  obtain ⟨s, ran, holds⟩ := run_holds calls
  have found : ∀ key, s.getUserAttribute key =
      ((calls.take spyEventFieldMax).find? (·.keyValue.key = key)).map SetterCall.keyValue := by
    intro key
    rw [holds.getUserAttribute, keptOf, List.find?_map]
    rfl
  refine ⟨s, ran, holds.counted.trans_le holds.fits, (run_take calls).trans ran, ?_, ?_⟩
  · intro key
    rw [SpyEvent.getUintUserAttribute, SpyEvent.getIntUserAttribute, found]
    cases (calls.take spyEventFieldMax).find? (·.keyValue.key = key) with
    | none => exact ⟨rfl, rfl⟩
    | some call => exact call.getters_go
  · -- The first call under a key decides what is read under it.
    have each : ∀ key call,
        (calls.take spyEventFieldMax).find? (·.keyValue.key = key) = some call →
          (call.ReadBack s ↔ ∀ key value, call = .int32 key value → value = 0) := by
      intro key call first
      have named : call.keyValue.key = key := by simpa using List.find?_some first
      refine call.readBack_iff ?_
      rw [named, found, first]
      rfl
    constructor
    · intro right key value first
      exact (each key _ first).mp (right key _ first) key value rfl
    · intro zero key call first
      refine (each key call first).mpr fun other value same => ?_
      subst same
      have named := List.find?_some first
      obtain rfl : other = key := of_decide_eq_true named
      exact zero other value first

/-- A signed integer of 32 bits is read back as zero. -/
theorem SpyEvent.int32_lost :
    ((run SpyEvent.step .fresh [.int32 "a" (-5)]).bind (·.getIntUserAttribute "a")) = some 0 ∧
      (-5 : Int32).toInt64 ≠ 0 := by
  -- The setter stores the type of an unsigned number, and any such reads as a signed zero.
  decide +kernel

end Spycat.AttributeArray
