import Spycat.Detector.CpuDetector
import Spycat.Ebpf.Offcpu
import Spycat.Ebpf.StackSession

/-! The user side of the off-CPU tracer: it takes records apart and makes events of them. -/

namespace Spycat.Offcpu

open Lib

/-! Readers of the records, whose fields the structs of the session name in the same order. -/

def readWaker : Reader WakerT :=
  ((((((((((((((Reader.done WakerT.mk).field .uint32).field .uint32).field .uint32).field
    .uint32).field (.chars taskCommLen)).field .int32).field .int32).field
      (.chars taskCommLen)).field .uint64).field .uint64).field .uint64).field .uint32).field
        .uint32).field .uint64

def readTarget : Reader TargetT :=
  ((((((((((((((Reader.done TargetT.mk).field .uint32).field .uint32).field .uint32).field
    .uint32).field (.chars taskCommLen)).field .int32).field .int32).field
      (.chars taskCommLen)).field .uint64).field .uint64).field .uint64).field .uint32).field
        .uint32).field .uint64

def readOffCpuEvent : Reader PerfEventT :=
  (((((((Reader.done PerfEventT.mk).field readWaker).field readTarget).field .uint64).field
    .uint64).field .uint64).field .uint32).field .uint32

def readSchedRecord : Reader SchedRecord :=
  ((((Reader.done SchedRecord.mk).field .uint32).field .uint32).field (.chars taskCommLen)).field
    .uint64

def readSchedCached : Reader SchedCached :=
  (((((Reader.done SchedCached.mk).field .uint32).field .uint32).field .uint32).field
    .uint32).field (.array readSchedRecord schedCacheSize)

/-- How many records of a cache one event stands for. -/
def schedCacheDumpStep : Nat := 10

/-- A session: the recorded stacks, and the copies of the scheduler caches. -/
structure OffcpuSession where
  symSession : StackSession
  mapSchedCacheDump : Assoc UInt32 SchedCached

namespace OffcpuSession

/-- The event for one record of a cache. -/
def schedCacheEvent (now : UInt64) (cpu : UInt32) (cache : SchedCached) (i : Fin schedCacheSize) :
    SpyEvent :=
  -- The task of the event has a thread and no process.
  let r := cache.records[i]
  (SpyEvent.bare Model.offCpu now { name := detectorCpuType, event := Model.offCpu }
    { pid := 0, tid := r.pid, comm := r.comm.toList }).setUserAttributes
      [.ofUint32 "cpu" cpu,
        .ofUint32 "cache_id" (UInt32.ofNat i),
        .ofUint64 "ts" r.ts,
        .ofUint32 "prio" r.prio]

/-- The events for every tenth record of the cache of a CPU; none where the cache was not copied. -/
def schedCacheDump (session : OffcpuSession) (now : UInt64) (cpu : UInt32) : List SpyEvent :=
  -- The map of copies is the kernel's, which the session looks into.
  match session.mapSchedCacheDump.lookup cpu with
  | none => []
  | some value =>
    -- A value that cannot be read leaves the cache without records.
    let cache := (readSchedCached.run value.bytes).getD .zero
    ((List.finRange schedCacheSize).filter fun i => i.val % schedCacheDumpStep = 0).map
      (schedCacheEvent now cpu cache)

/-- The event for a record, with the texts of both tasks' stacks. -/
def offcpuEvent (now : UInt64) (event : PerfEventT) (wStack tStack : Bytes) : SpyEvent :=
  (SpyEvent.bare Model.offCpu now { name := detectorCpuType, event := Model.offCpu }
    { pid := event.target.tgid
      tid := event.target.pid
      comm := event.target.comm.toList }).setUserAttributes
      -- Two of the durations are nanoseconds that were cut to 32 bits, each for both tasks.
      [.ofUint32 "w_tid" event.waker.pid,
        .ofUint32 "w_pid" event.waker.tgid,
        .ofUint32 "w_onrq_oncpu" (event.waker.oncpuNs - event.waker.onrqNs).toUInt32,
        .ofUint32 "w_offcpu_oncpu" (event.waker.oncpuNs - event.waker.offcpuNs).toUInt32,
        .ofByteBuf "w_comm" event.waker.comm.toList,
        .ofByteBuf "w_stack" wStack,
        .ofUint32 "t_tid" event.target.pid,
        .ofUint32 "t_pid" event.target.tgid,
        .ofUint32 "t_onrq_oncpu" (event.target.oncpuNs - event.target.onrqNs).toUInt32,
        .ofUint32 "t_offcpu_oncpu" (event.target.oncpuNs - event.target.offcpuNs).toUInt32,
        .ofByteBuf "t_comm" event.target.comm.toList,
        .ofUint64 "t_start_time" event.target.offcpuNs,
        .ofUint64 "ts" event.tsNs,
        .ofUint64 "dur_ms" event.durMs,
        .ofUint64 "rq_dur_ms" event.rqDurMs,
        .ofByteBuf "t_stack" tStack]

/-- The events that are sent for a record; absent where the source panics. -/
def handleEvent (session : OffcpuSession) (now : UInt64) (data : Bytes) :
    Option (List SpyEvent) :=
  -- A record that is too short leaves the event as it was.
  let event := (readOffCpuEvent.run data).getD .zero
  let dumped := if event.isSchedCacheDump = 1 then session.schedCacheDump now event.cpu else []
  (session.symSession.resolveStacks event.waker.kernStackId event.waker.userStackId
    event.waker.tgid).bind fun wStack =>
      (session.symSession.resolveStacks event.target.kernStackId event.target.userStackId
        event.target.tgid).map fun tStack => dumped ++ [offcpuEvent now event wStack tStack]

/-- The function that the scheduler ends a switch in. -/
def finishTaskSwitch : Bytes := "finish_task_switch".toUTF8.toList

/-- That function where the compiler has changed its arguments. -/
def finishTaskSwitchIsra : Bytes := "finish_task_switch.isra.0".toUTF8.toList

/-- The function that a program is attached to; the others know themselves where they belong. -/
def hookOf (kprobeExists : Bytes → Bool) (prog : String) : Option Bytes :=
  if prog = "sched_switch_hook" then
    some (if kprobeExists finishTaskSwitch then finishTaskSwitch else finishTaskSwitchIsra)
  else none

/-- Attach the programs one after the other, up to the first error. -/
def attachProgs (kprobeExists : Bytes → Bool)
    (attach : String → Option Bytes → Except String Unit) :
    List String → Except String (List (String × Option Bytes))
  | [] => .ok []
  | prog :: rest => do
    attach prog (hookOf kprobeExists prog)
    let attached ← attachProgs kprobeExists attach rest
    return (prog, hookOf kprobeExists prog) :: attached

end OffcpuSession

end Spycat.Offcpu
