import Spycat.Ebpf.FutexsnoopSession
import Spycat.Lib.Words
import Spycat.Proofs.Detector.LabelSwitch

/-! The records of the futex tracer reach the detector's records as what they are. -/

namespace Spycat.Futexsnoop

open Lib Reader

/-- A record of a lock is read back from its bytes. -/
theorem LockRecord.read_reads (lock : LockRecord) : LockRecord.read.Reads lock.bytes lock := by
  -- The fields are read in the order in which they stand.
  have fields := (reads_done LockRecord.mk).next (reads_uint32 lock.userCnt)
    |>.next (reads_uint32 lock.maxUserCnt) |>.next (reads_uint64 lock.uaddr)
    |>.next (reads_chars lock.comm) |>.next (reads_uint64 lock.pidTgid)
    |>.next (reads_uint64 lock.ts)
  apply fields.cStruct
  simp [Packed]
  decide

/-- A record of waits is read back from its bytes. -/
theorem TaskLockStat.read_reads (task : TaskLockStat) :
    TaskLockStat.read.Reads task.bytes task := by
  -- The slots fill 96 bytes, and every field behind them stands where the last one ends.
  have slots := reads_array reads_uint32 task.slots
  have fields := (reads_done TaskLockStat.mk).next (reads_struct 4 slots)
    |>.next (reads_chars task.comm) |>.next (reads_uint64 task.pidTgid)
    |>.next (reads_uint64 task.uaddr) |>.next (reads_int32 task.userStackId)
    |>.next (reads_uint32 task.pad) |>.next (reads_uint64 task.contended)
    |>.next (reads_uint64 task.totalElapsed) |>.next (reads_uint64 task.minDur)
    |>.next (reads_uint64 task.maxDur) |>.next (reads_uint64 task.deltaDur)
    |>.next (reads_uint64 task.maxDurTs)
  apply fields.cStruct
  simp [Packed, slots.length]
  decide

/-- A record of a lock has 48 bytes. -/
theorem LockRecord.length_bytes (lock : LockRecord) : lock.bytes.length = 48 :=
  -- The reader takes exactly these bytes.
  lock.read_reads.length

/-- A record of waits has 184 bytes. -/
theorem TaskLockStat.length_bytes (task : TaskLockStat) : task.bytes.length = 184 :=
  -- The reader takes exactly these bytes.
  task.read_reads.length

/-- A record of the tracer in memory. -/
inductive MemoryRecord where
  | lock (r : LockRecord)
  | task (r : TaskLockStat)

/-- What a record says about a lock, zero where its kind says nothing. -/
structure LockNumbers where
  userCnt : Nat
  maxUserCnt : Nat
  lockAddr : Nat
  minDur : Nat
  maxDur : Nat
  deltaDur : Nat
  avgDur : Nat
  lockCnt : Nat

namespace MemoryRecord

/-- The bytes of a record. -/
def bytes : MemoryRecord → Bytes
  | .lock r => r.bytes
  | .task r => r.bytes

/-- The number of the thread that a record is about. -/
def pidTgid : MemoryRecord → UInt64
  | .lock r => r.pidTgid
  | .task r => r.pidTgid

/-- The name of that thread. -/
def comm : MemoryRecord → CharArray taskCommLen
  | .lock r => r.comm
  | .task r => r.comm

/-- The numbers in a record; the average wait is zero where there was none. -/
def numbers : MemoryRecord → LockNumbers
  | .lock r =>
    { userCnt := r.userCnt.toNat
      maxUserCnt := r.maxUserCnt.toNat
      lockAddr := r.uaddr.toNat
      minDur := 0
      maxDur := 0
      deltaDur := 0
      avgDur := 0
      lockCnt := 0 }
  | .task r =>
    { userCnt := 0
      maxUserCnt := 0
      lockAddr := r.uaddr.toNat
      minDur := r.minDur.toNat
      maxDur := r.maxDur.toNat
      deltaDur := r.deltaDur.toNat
      avgDur :=
        if r.contended = 0 then 0 else r.totalElapsed.toNat / r.contended.toNat
      lockCnt := r.contended.toNat }

/-- The text of the stack that a record names. -/
def stack (session : FutexSnoopSession) : MemoryRecord → Bytes
  | .lock _ => []
  | .task r =>
    session.symSession.framesText r.userStackId (taskOf r.pidTgid r.comm).pid true

/-- The event that stands for a record of its own kind. -/
def event (session : FutexSnoopSession) (now : UInt64) : MemoryRecord → SpyEvent
  | .lock r => FutexSnoopSession.lockEvent now r
  | .task r => FutexSnoopSession.taskEvent now r (stack session (.task r))

end MemoryRecord

/-- A record is told from one of the other kind by its length, and read as what it is. -/
theorem handleEvent_eq (session : FutexSnoopSession) (now : UInt64) (r : MemoryRecord)
    {rest : Bytes} (short : rest.length ≤ 7) :
    session.handleEvent now (r.bytes ++ rest) = some (r.event session now) := by
  -- A record of a lock is too short for a record of waits, whatever follows it.
  have lockSize : sizeLock = 48 := LockRecord.zero.length_bytes
  have taskSize : sizeTask = 184 := TaskLockStat.zero.length_bytes
  cases r with
  | lock lock =>
    have inside : sizeLock ≤ (lock.bytes ++ rest).length ∧
        (lock.bytes ++ rest).length < sizeTask := by
      rw [List.length_append, lock.length_bytes]
      omega
    simp only [FutexSnoopSession.handleEvent, MemoryRecord.bytes, if_pos inside,
      lock.read_reads.run rest, Option.getD_some, MemoryRecord.event]
  | task task =>
    have long : sizeTask ≤ (task.bytes ++ rest).length := by
      rw [List.length_append, task.length_bytes]
      omega
    have outside : ¬ (sizeLock ≤ (task.bytes ++ rest).length ∧
        (task.bytes ++ rest).length < sizeTask) := by omega
    simp only [FutexSnoopSession.handleEvent, MemoryRecord.bytes, if_neg outside, if_pos long,
      task.read_reads.run rest, Option.getD_some, StackSession.resolveStack_eq, Option.map_some,
      List.nil_append, MemoryRecord.event, MemoryRecord.stack]

/-- The labels that are stored for values, in the order of their attributes, and for their task. -/
def storedFor (task : TaskInfo) (values : LockValues) : List (String × AttributeValue) :=
  [(Model.userCnt, .int values.userCnt.toUInt64.toInt64),
    (Model.maxUserCnt, .int values.maxUserCnt.toUInt64.toInt64),
    (Model.lockAddr, .int values.lockAddr.toInt64),
    (Model.minDur, .int values.minDur.toInt64),
    (Model.maxDur, .int values.maxDur.toInt64),
    (Model.deltaDur, .int values.deltaDur.toInt64),
    (Model.avgDur, .int values.avgDur.toInt64),
    (Model.lockCnt, .int values.lockCnt.toInt64),
    (Model.stack, .string values.stack),
    (Model.pid, .int (Int64.ofNat task.pid.toNat)),
    (Model.tid, .int (Int64.ofNat task.tid.toNat)),
    (Model.comm, .string (withoutNul task.comm))]

/-- An event of the tracer carries its task and all of its attributes. -/
theorem event_eq (now : UInt64) (task : TaskInfo) (values : LockValues) :
    (bareEvent now task).setUserAttributes values.attributes =
      { bareEvent now task with
        userAttributes := values.attributes
        bounded := by simp [LockValues.attributes, spyEventFieldMax] } := by
  -- Nine attributes are fewer than an event has room for.
  have room : (bareEvent now task).userAttributes.length + values.attributes.length ≤
      spyEventFieldMax := by
    simp [bareEvent, SpyEvent.bare, LockValues.attributes, spyEventFieldMax]
  rw [SpyEvent.setUserAttributes_eq room]
  rfl

/-- The labels of an event of the tracer. -/
theorem formatFutexSnoopLabels_event (now : UInt64) (task : TaskInfo) (values : LockValues) :
    CpuDetector.formatFutexSnoopLabels
        ((bareEvent now task).setUserAttributes values.attributes) =
      storedLabels (storedFor task values) := by
  -- Each attribute is looked up among the cases, and read back as it was set.
  rw [event_eq, CpuDetector.formatFutexSnoopLabels, formatLabels_eq]
  simp only [LockValues.attributes, List.foldl_cons, List.foldl_nil, applyCase_int,
    applyCase_string, KeyValue.key_ofUint32, KeyValue.key_ofUint64, KeyValue.key_ofByteBuf,
    KeyValue.getUintValue_ofUint32, KeyValue.getUintValue_ofUint64, KeyValue.value_ofByteBuf,
    String.reduceEq, if_true, if_false]
  rfl

/-- The detector's record of an event holds what a record of the tracer says. -/
structure MemoryRecord.Shown (r : MemoryRecord) (session : FutexSnoopSession) (now : UInt64)
    (block : DataBlock) : Prop where
  name : block.name = Model.futexSnoop
  timestamp : block.timestamp = now
  metric : ∃ value, block.metrics = [newIntMetric Model.futexMaxUerCountName value] ∧
    value.toInt = r.numbers.maxUserCnt
  pid : HasNumber block.labels Model.pid (r.pidTgid.toNat / 2 ^ 32)
  tid : HasNumber block.labels Model.tid (r.pidTgid.toNat % 2 ^ 32)
  comm : HasString block.labels Model.comm (withoutNul r.comm.toList)
  userCnt : HasNumber block.labels Model.userCnt r.numbers.userCnt
  maxUserCnt : HasNumber block.labels Model.maxUserCnt r.numbers.maxUserCnt
  lockAddr : HasWord block.labels Model.lockAddr r.numbers.lockAddr
  minDur : HasWord block.labels Model.minDur r.numbers.minDur
  maxDur : HasWord block.labels Model.maxDur r.numbers.maxDur
  deltaDur : HasWord block.labels Model.deltaDur r.numbers.deltaDur
  avgDur : HasWord block.labels Model.avgDur r.numbers.avgDur
  lockCnt : HasWord block.labels Model.lockCnt r.numbers.lockCnt
  stack : HasString block.labels Model.stack (r.stack session)

/-- The values that a record of its own kind is sent as. -/
def MemoryRecord.values (session : FutexSnoopSession) : MemoryRecord → LockValues
  | .lock r => r.values
  | .task r => r.values (stack session (.task r))

/-- An event of either kind is made of the task and the values of its record. -/
theorem MemoryRecord.event_eq_values (r : MemoryRecord) (session : FutexSnoopSession)
    (now : UInt64) :
    r.event session now =
      (bareEvent now (taskOf r.pidTgid r.comm)).setUserAttributes
        (r.values session).attributes := by
  -- The two kinds of records set different attributes.
  cases r <;> rfl

/-- The numbers of a record are those of its values. -/
theorem MemoryRecord.numbers_eq (r : MemoryRecord) (session : FutexSnoopSession) :
    r.numbers =
      { userCnt := (r.values session).userCnt.toNat
        maxUserCnt := (r.values session).maxUserCnt.toNat
        lockAddr := (r.values session).lockAddr.toNat
        minDur := (r.values session).minDur.toNat
        maxDur := (r.values session).maxDur.toNat
        deltaDur := (r.values session).deltaDur.toNat
        avgDur := (r.values session).avgDur.toNat
        lockCnt := (r.values session).lockCnt.toNat } := by
  cases r with
  | lock r => rfl
  | task r =>
    -- Only the average is computed, and division by a count that is zero is left out.
    have avg : r.avg.toNat =
        if r.contended = 0 then 0 else r.totalElapsed.toNat / r.contended.toNat := by
      unfold TaskLockStat.avg
      split
      · rfl
      · exact UInt64.toNat_div ..
    simp [numbers, values, TaskLockStat.values, avg]

/-- The metric of an event of the tracer is its largest number of users. -/
theorem getUintUserAttribute_event (now : UInt64) (task : TaskInfo) (values : LockValues) :
    ((bareEvent now task).setUserAttributes values.attributes).getUintUserAttribute
      "max_user_cnt" = values.maxUserCnt.toUInt64 := by
  -- The first attribute under the key is the second one of all.
  rw [event_eq]
  simp [SpyEvent.getUintUserAttribute, SpyEvent.getUserAttribute, LockValues.attributes]

/-- The detector's record of an event of the tracer. -/
theorem futexsnoopHandler_event (now : UInt64) (task : TaskInfo) (values : LockValues) :
    CpuDetector.futexsnoopHandler ((bareEvent now task).setUserAttributes values.attributes) =
      newDataBlock Model.futexSnoop (storedLabels (storedFor task values)) now
        [newIntMetric Model.futexMaxUerCountName values.maxUserCnt.toUInt64.toInt64] := by
  -- The labels and the metric are read off the same attributes.
  rw [CpuDetector.futexsnoopHandler, CpuDetector.recordOf, formatFutexSnoopLabels_event,
    getUintUserAttribute_event, event_eq]
  rfl

/-- The detector's record of an event of either kind holds what its record says. -/
theorem futexsnoopHandler_shows (r : MemoryRecord) (session : FutexSnoopSession) (now : UInt64) :
    r.Shown session now (CpuDetector.futexsnoopHandler (r.event session now)) := by
  -- Every label was stored once, the first nine for attributes and the rest for the task.
  have upper : (taskOf r.pidTgid r.comm).pid.toNat = r.pidTgid.toNat / 2 ^ 32 :=
    toNat_upper r.pidTgid
  have lower : (taskOf r.pidTgid r.comm).tid.toNat = r.pidTgid.toNat % 2 ^ 32 :=
    UInt64.toNat_toUInt32 r.pidTgid
  have numbers := r.numbers_eq session
  rw [r.event_eq_values, futexsnoopHandler_event]
  exact
    { name := rfl
      timestamp := rfl
      metric := ⟨_, rfl, by rw [toInt_widened, numbers]⟩
      pid := upper ▸ hasNumber_narrow rfl
      tid := lower ▸ hasNumber_narrow rfl
      comm := (hasString_stored rfl).mpr rfl
      userCnt := numbers ▸ hasNumber_widened rfl
      maxUserCnt := numbers ▸ hasNumber_widened rfl
      lockAddr := numbers ▸ hasWord_stored rfl
      minDur := numbers ▸ hasWord_stored rfl
      maxDur := numbers ▸ hasWord_stored rfl
      deltaDur := numbers ▸ hasWord_stored rfl
      avgDur := numbers ▸ hasWord_stored rfl
      lockCnt := numbers ▸ hasWord_stored rfl
      stack := (hasString_stored rfl).mpr (by cases r <;> rfl) }

/-- The detector hands on a record of every event of the tracer, and stays as it is. -/
theorem processEvent_event (env : External) (c : CpuDetector) (r : MemoryRecord)
    (session : FutexSnoopSession) (now : UInt64) :
    c.processEvent env (r.event session now) =
      some (c, some (CpuDetector.futexsnoopHandler (r.event session now))) := by
  -- Only the name of the event is looked at.
  have name : (r.event session now).name = Model.futexSnoop := by
    rw [r.event_eq_values, event_eq]
    rfl
  simp [CpuDetector.processEvent, name, Model.futexSnoop, Model.offCpu, Model.onCpu, Model.irqOff]

/--
Every record of the tracer, with at most seven bytes behind it, is read as what it is, and the
detector's record holds exactly its values.
-/
theorem records_shown (env : External) (c : CpuDetector) (session : FutexSnoopSession)
    (now : UInt64) (r : MemoryRecord) (rest : Bytes) (short : rest.length ≤ 7) :
    session.handleEvent now (r.bytes ++ rest) = some (r.event session now) ∧
      c.processEvent env (r.event session now) =
        some (c, some (CpuDetector.futexsnoopHandler (r.event session now))) ∧
      r.Shown session now (CpuDetector.futexsnoopHandler (r.event session now)) :=
  -- The record is read, handled and shown, each as one lemma says.
  ⟨handleEvent_eq session now r short, processEvent_event env c r session now,
    futexsnoopHandler_shows r session now⟩

/-- A record that the kernel hands over, in memory. -/
def FutexRecord.inMemory : FutexRecord → MemoryRecord
  | .lock event =>
    .lock
      { userCnt := event.userCnt
        maxUserCnt := event.maxUserCnt
        uaddr := event.uaddr
        comm := .ofBytes taskCommLen event.comm
        pidTgid := event.pidTgid
        ts := event.ts }
  | .task event =>
    .task
      { slots := event.slots
        comm := .ofBytes taskCommLen event.comm
        pidTgid := event.pidTgid
        uaddr := event.uaddr
        userStackId := event.userStackId
        pad := 0
        contended := event.contended
        totalElapsed := event.totalElapsed
        minDur := event.minDur
        maxDur := event.maxDur
        deltaDur := event.deltaDur
        maxDurTs := event.maxDurTs }

/-- A thread that begins to wait on a lock. -/
def waits (pidTgid : UInt64) : EnterCtx where
  pidTgid := pidTgid
  comm := "worker".toUTF8.toList
  now := 1000
  uaddr := 4096
  op := 0

/-- The maps of a tracer that reports every lock with more than one user. -/
def watching : FutexMaps where
  start := ∅
  args :=
    { targPid := 0
      targTid := 0
      targLock := 0
      stack := false
      minDurMs := 0
      maxDurMs := 1000
      maxLockHoldUsers := 1 }
  lockMap := ∅
  histsMap := ∅

/-- The second thread that waits on a lock makes the tracer report it, and two users are shown. -/
theorem records_shown_second_user :
    ∃ event, ((watching.futexEnter (waits 5)).1.futexEnter (waits 6)).2 = some (.lock event) ∧
      event.maxUserCnt = 2 ∧
      ∀ (env : External) (c : CpuDetector) (session : FutexSnoopSession) (now : UInt64),
        ∃ own block, session.handleEvent now
            ((FutexRecord.lock event).inMemory.bytes ++ [0, 0, 0, 0]) = some own ∧
          c.processEvent env own = some (c, some block) ∧
          (FutexRecord.lock event).inMemory.Shown session now block := by
  -- The second thread that waits makes the record.
  refine ⟨_, rfl, rfl, fun env c session now => ?_⟩
  obtain ⟨handled, processed, shown⟩ := records_shown env c session now
    (FutexRecord.lock _).inMemory [0, 0, 0, 0] (by decide)
  exact ⟨_, _, handled, processed, shown⟩

end Spycat.Futexsnoop
