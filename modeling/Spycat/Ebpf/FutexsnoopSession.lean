import Spycat.Detector.CpuDetector
import Spycat.Ebpf.Futexsnoop
import Spycat.Ebpf.StackSession

/-! The user side of the futex tracer: two kinds of records are told apart by their lengths. -/

namespace Spycat.Futexsnoop

open Lib Bpf

/-- A record of a lock; the struct of the kernel and the one of the session name the same fields. -/
structure LockRecord where
  userCnt : UInt32
  maxUserCnt : UInt32
  uaddr : UInt64
  comm : CharArray taskCommLen
  pidTgid : UInt64
  ts : UInt64

/-- A record of the waits of a thread on a lock. -/
structure TaskLockStat where
  slots : Vector UInt32 maxSlots
  comm : CharArray taskCommLen
  pidTgid : UInt64
  uaddr : UInt64
  userStackId : Int32
  pad : UInt32
  contended : UInt64
  totalElapsed : UInt64
  minDur : UInt64
  maxDur : UInt64
  deltaDur : UInt64
  maxDurTs : UInt64

namespace LockRecord

/-- A record into which nothing was read. -/
def zero : LockRecord where
  userCnt := 0
  maxUserCnt := 0
  uaddr := 0
  comm := Vector.replicate taskCommLen 0
  pidTgid := 0
  ts := 0

/-- The bytes of a record. -/
def bytes (lock : LockRecord) : Bytes :=
  cStruct 8
    [.u32 lock.userCnt, .u32 lock.maxUserCnt, .u64 lock.uaddr, .chars lock.comm,
      .u64 lock.pidTgid, .u64 lock.ts]

/-- Read the fields of a record. -/
def read : Reader LockRecord :=
  ((((((Reader.done LockRecord.mk).field .uint32).field .uint32).field .uint64).field
    (.chars taskCommLen)).field .uint64).field .uint64

end LockRecord

namespace TaskLockStat

/-- A record into which nothing was read. -/
def zero : TaskLockStat where
  slots := Vector.replicate maxSlots 0
  comm := Vector.replicate taskCommLen 0
  pidTgid := 0
  uaddr := 0
  userStackId := 0
  pad := 0
  contended := 0
  totalElapsed := 0
  minDur := 0
  maxDur := 0
  deltaDur := 0
  maxDurTs := 0

/-- The bytes of a record. -/
def bytes (task : TaskLockStat) : Bytes :=
  cStruct 8
    [.struct 4 (task.slots.toList.flatMap fun slot => (CField.u32 slot).bytes),
      .chars task.comm, .u64 task.pidTgid, .u64 task.uaddr, .s32 task.userStackId, .u32 task.pad,
      .u64 task.contended, .u64 task.totalElapsed, .u64 task.minDur, .u64 task.maxDur,
      .u64 task.deltaDur, .u64 task.maxDurTs]

/-- Read the fields of a record. -/
def read : Reader TaskLockStat :=
  ((((((((((((Reader.done TaskLockStat.mk).field (.array .uint32 maxSlots)).field
    (.chars taskCommLen)).field .uint64).field .uint64).field .int32).field .uint32).field
      .uint64).field .uint64).field .uint64).field .uint64).field .uint64).field .uint64

end TaskLockStat

/-- What both kinds of records have in common in an event, zero where a kind lacks it. -/
structure LockValues where
  userCnt : UInt32
  maxUserCnt : UInt32
  lockAddr : UInt64
  minDur : UInt64
  maxDur : UInt64
  deltaDur : UInt64
  avgDur : UInt64
  lockCnt : UInt64
  stack : Bytes

/-- The values of a record of a lock. -/
def LockRecord.values (lock : LockRecord) : LockValues where
  userCnt := lock.userCnt
  maxUserCnt := lock.maxUserCnt
  lockAddr := lock.uaddr
  -- A lock has no waits of its own.
  minDur := 0
  maxDur := 0
  deltaDur := 0
  avgDur := 0
  lockCnt := 0
  stack := []

/-- The average wait of a record, zero where there was none. -/
def TaskLockStat.avg (task : TaskLockStat) : UInt64 :=
  -- The source looks at the count first, as it divides by it.
  if task.contended = 0 then 0 else task.totalElapsed / task.contended

/-- The values of a record of waits, with the text of its stack. -/
def TaskLockStat.values (task : TaskLockStat) (syms : Bytes) : LockValues where
  -- A thread has no users.
  userCnt := 0
  maxUserCnt := 0
  lockAddr := task.uaddr
  minDur := task.minDur
  maxDur := task.maxDur
  deltaDur := task.deltaDur
  avgDur := task.avg
  lockCnt := task.contended
  stack := syms

/-- The attributes that values are sent as. -/
def LockValues.attributes (values : LockValues) : List KeyValue :=
  [.ofUint32 "user_cnt" values.userCnt,
    .ofUint32 "max_user_cnt" values.maxUserCnt,
    .ofUint64 "lock_addr" values.lockAddr,
    .ofUint64 "min_dur" values.minDur,
    .ofUint64 "max_dur" values.maxDur,
    .ofUint64 "delta_dur" values.deltaDur,
    .ofUint64 "avg_dur" values.avgDur,
    .ofUint64 "lock_cnt" values.lockCnt,
    .ofByteBuf "stack" values.stack]

/-- The task of a record, whose process stands in the upper half of its number. -/
def taskOf (pidTgid : UInt64) (comm : CharArray taskCommLen) : TaskInfo where
  pid := (pidTgid >>> 32).toUInt32
  tid := pidTgid.toUInt32
  comm := comm.toList

/-- An event of the tracer before attributes are set. -/
def bareEvent (now : UInt64) (task : TaskInfo) : SpyEvent :=
  .bare Model.futexSnoop now { name := detectorCpuType, event := Model.futexSnoop } task

/-- The sizes of both structs of the session. -/
def sizeLock : Nat := LockRecord.zero.bytes.length
def sizeTask : Nat := TaskLockStat.zero.bytes.length

/-- A session, with the recorded stacks. -/
structure FutexSnoopSession where
  symSession : StackSession

namespace FutexSnoopSession

/-- The event for a record of a lock. -/
def lockEvent (now : UInt64) (lock : LockRecord) : SpyEvent :=
  (bareEvent now (taskOf lock.pidTgid lock.comm)).setUserAttributes lock.values.attributes

/-- The event for a record of waits. -/
def taskEvent (now : UInt64) (task : TaskLockStat) (syms : Bytes) : SpyEvent :=
  (bareEvent now (taskOf task.pidTgid task.comm)).setUserAttributes (task.values syms).attributes

/-- The event that is sent for a record; absent where the source panics. -/
def handleEvent (session : FutexSnoopSession) (now : UInt64) (data : Bytes) : Option SpyEvent :=
  let sizeData := data.length
  -- What the perf buffer puts behind a record counts towards its length.
  if sizeLock ≤ sizeData ∧ sizeData < sizeTask then
    some (lockEvent now ((LockRecord.read.run data).getD .zero))
  else if sizeTask ≤ sizeData then
    -- A record that is long enough is always read.
    let task := (TaskLockStat.read.run data).getD .zero
    (session.symSession.resolveStack [] task.userStackId (taskOf task.pidTgid task.comm).pid
      true).map (taskEvent now task)
  -- A record of neither size is sent without attributes.
  else some (bareEvent now { pid := 0, tid := 0, comm := [] })

end FutexSnoopSession

end Spycat.Futexsnoop
