import Mathlib.Logic.Function.Basic
import Spycat.Ebpf.BpfMap
import Spycat.Lib.Layout

/-! The kernel side of the off-CPU tracer: when tasks leave a CPU, and who wakes them up again. -/

namespace Spycat.Offcpu

open Lib Bpf

/-- How many tasks the tracer has room for. -/
def maxEntries : Nat := 10240

/-- How many CPUs the copies of the scheduler caches have room for. -/
def maxBackups : Nat := 1024

/-- How many characters the name of a task has. -/
def taskCommLen : Nat := 16

/-- How many records a scheduler cache has. -/
def schedCacheSize : Nat := 512

/-- The settings of the tracer; the largest number stands for every process and every thread. -/
structure UserArgs where
  pid : UInt32
  tgid : UInt32
  minOffcpuMs : UInt32
  maxOffcpuMs : UInt32
  rqDurMs : UInt32

/-- Who woke a task. -/
structure WakerT where
  pid : UInt32
  tgid : UInt32
  tPid : UInt32
  pad : UInt32
  tComm : CharArray taskCommLen
  userStackId : Int32
  kernStackId : Int32
  comm : CharArray taskCommLen
  oncpuNs : UInt64
  offcpuNs : UInt64
  onrqNs : UInt64
  offcpuId : UInt32
  oncpuId : UInt32
  runDelayNs : UInt64

/-- A task that was off the CPU. -/
structure TargetT where
  pid : UInt32
  tgid : UInt32
  wPid : UInt32
  pad : UInt32
  wComm : CharArray taskCommLen
  userStackId : Int32
  kernStackId : Int32
  comm : CharArray taskCommLen
  oncpuNs : UInt64
  offcpuNs : UInt64
  onrqNs : UInt64
  offcpuId : UInt32
  oncpuId : UInt32
  runDelayNs : UInt64

/-- No waker. -/
def WakerT.zero : WakerT where
  pid := 0
  tgid := 0
  tPid := 0
  pad := 0
  tComm := Vector.replicate taskCommLen 0
  userStackId := 0
  kernStackId := 0
  comm := Vector.replicate taskCommLen 0
  oncpuNs := 0
  offcpuNs := 0
  onrqNs := 0
  offcpuId := 0
  oncpuId := 0
  runDelayNs := 0

/-- No target. -/
def TargetT.zero : TargetT where
  pid := 0
  tgid := 0
  wPid := 0
  pad := 0
  wComm := Vector.replicate taskCommLen 0
  userStackId := 0
  kernStackId := 0
  comm := Vector.replicate taskCommLen 0
  oncpuNs := 0
  offcpuNs := 0
  onrqNs := 0
  offcpuId := 0
  oncpuId := 0
  runDelayNs := 0

/-- What is kept of a task from one event to the next. -/
structure TraceEventT where
  waker : WakerT
  target : TargetT

/-- The event that user space reads. -/
structure PerfEventT where
  waker : WakerT
  target : TargetT
  durMs : UInt64
  rqDurMs : UInt64
  tsNs : UInt64
  isSchedCacheDump : UInt32
  cpu : UInt32

/-- An event in which nothing was written yet. -/
def PerfEventT.zero : PerfEventT where
  waker := .zero
  target := .zero
  durMs := 0
  rqDurMs := 0
  tsNs := 0
  isSchedCacheDump := 0
  cpu := 0

/-- A task that gave up a CPU. -/
structure SchedRecord where
  pid : UInt32
  prio : UInt32
  comm : CharArray taskCommLen
  ts : UInt64

/-- The tasks that gave up a CPU last. -/
structure SchedCached where
  status : UInt32
  cpu : UInt32
  id : UInt32
  pad : UInt32
  records : Vector SchedRecord schedCacheSize

/-- A cache without records, which is recorded into. -/
def SchedCached.zero : SchedCached where
  status := 0
  cpu := 0
  id := 0
  pad := 0
  records :=
    Vector.replicate schedCacheSize
      { pid := 0, prio := 0, comm := Vector.replicate taskCommLen 0, ts := 0 }

/-! The bytes of these records in memory. -/

def WakerT.bytes (waker : WakerT) : List UInt8 :=
  cStruct 8
    [.u32 waker.pid, .u32 waker.tgid, .u32 waker.tPid, .u32 waker.pad, .chars waker.tComm,
      .s32 waker.userStackId, .s32 waker.kernStackId, .chars waker.comm, .u64 waker.oncpuNs,
      .u64 waker.offcpuNs, .u64 waker.onrqNs, .u32 waker.offcpuId, .u32 waker.oncpuId,
      .u64 waker.runDelayNs]

def TargetT.bytes (target : TargetT) : List UInt8 :=
  cStruct 8
    [.u32 target.pid, .u32 target.tgid, .u32 target.wPid, .u32 target.pad, .chars target.wComm,
      .s32 target.userStackId, .s32 target.kernStackId, .chars target.comm, .u64 target.oncpuNs,
      .u64 target.offcpuNs, .u64 target.onrqNs, .u32 target.offcpuId, .u32 target.oncpuId,
      .u64 target.runDelayNs]

def PerfEventT.bytes (event : PerfEventT) : List UInt8 :=
  cStruct 8
    [.struct 8 event.waker.bytes, .struct 8 event.target.bytes, .u64 event.durMs,
      .u64 event.rqDurMs, .u64 event.tsNs, .u32 event.isSchedCacheDump, .u32 event.cpu]

def SchedRecord.bytes (r : SchedRecord) : List UInt8 :=
  cStruct 8 [.u32 r.pid, .u32 r.prio, .chars r.comm, .u64 r.ts]

def SchedCached.bytes (cache : SchedCached) : List UInt8 :=
  cStruct 8
    [.u32 cache.status, .u32 cache.cpu, .u32 cache.id, .u32 cache.pad,
      .struct 8 (cache.records.toList.flatMap SchedRecord.bytes)]

/-- A task of the kernel, which a later task of the same number is not. -/
structure TaskStruct where
  address : UInt64
  pid : UInt32
  tgid : UInt32
  deriving DecidableEq

/-- What is found when a task is to be woken up. -/
structure WakeCtx where
  task : TaskStruct
  comm : CharArray taskCommLen
  taskState : Int32
  onRq : Int32
  state : Int32
  pidTgid : UInt64
  currentComm : CharArray taskCommLen
  kernStackId : Int32
  userStackId : Int32
  now : UInt64

/-- What is found when a task has taken the CPU over from another one. -/
structure SwitchCtx where
  prev : TaskStruct
  prevComm : CharArray taskCommLen
  prevPrio : UInt32
  prevRunDelay : UInt64
  cur : TaskStruct
  curComm : CharArray taskCommLen
  curRunDelay : UInt64
  kernStackId : Int32
  userStackId : Int32
  cpu : UInt32
  now : UInt64

/-- The task is in one of the states to be woken up from, and does not wait for a CPU yet. -/
def WakeCtx.wakes (ctx : WakeCtx) : Bool := !(ctx.taskState &&& ctx.state = 0 || ctx.onRq = 1)

/-- A task is one of those to be traced. -/
def UserArgs.isTargetTask (args : UserArgs) (task : TaskStruct) : Bool :=
  -- The settings are an array, so looking them up cannot fail.
  if args.tgid = 0xFFFFFFFF && args.pid = 0xFFFFFFFF then true
  -- One setting that names the task is enough, whatever the other one names.
  else if args.tgid ≠ 0xFFFFFFFF && args.tgid = task.tgid then true
  else args.pid ≠ 0xFFFFFFFF && args.pid = task.pid

namespace TraceEventT

/-- The record of a task that was just woken up. -/
def wokenUp (event : TraceEventT) (ctx : WakeCtx) : TraceEventT where
  -- The time of the wakeup stands in for when the waker left the CPU.
  waker :=
    { event.waker with
      pid := ctx.pidTgid.toUInt32
      tgid := (ctx.pidTgid >>> 32).toUInt32
      comm := ctx.currentComm
      kernStackId := ctx.kernStackId
      userStackId := ctx.userStackId
      offcpuNs := ctx.now }
  target := { event.target with onrqNs := ctx.now }

/-- The first record of a task, when that is woken up. -/
def ofWakeup (ctx : WakeCtx) : TraceEventT :=
  -- Neither time of the target is known yet, so both stay zero.
  let event : TraceEventT :=
    { waker := { WakerT.zero with tPid := ctx.task.pid, tComm := ctx.comm }
      target :=
        { TargetT.zero with pid := ctx.task.pid, tgid := ctx.task.tgid, comm := ctx.comm } }
  event.wokenUp ctx

/-- The first record of a task, when that gives up a CPU. -/
def ofSwitch (ctx : SwitchCtx) : TraceEventT where
  -- Nobody has woken the task up yet.
  waker := .zero
  target :=
    { TargetT.zero with
      offcpuNs := ctx.now
      offcpuId := ctx.cpu
      pid := ctx.prev.pid
      tgid := ctx.prev.tgid
      comm := ctx.prevComm
      runDelayNs := ctx.prevRunDelay }

/-- The record of a task that just gave up a CPU. -/
def switchedOut (event : TraceEventT) (ctx : SwitchCtx) : TraceEventT :=
  -- The waker of the last interval and its time stay in the record.
  { event with
    target :=
      { event.target with
        offcpuNs := ctx.now
        offcpuId := ctx.cpu
        runDelayNs := ctx.prevRunDelay } }

/-- The record of a task that just took a CPU. -/
def switchedIn (event : TraceEventT) (ctx : SwitchCtx) : TraceEventT :=
  { event with target := { event.target with oncpuId := ctx.cpu, oncpuNs := ctx.now } }

/-- For how many milliseconds the task was off the CPU, in a signed variable of 32 bits. -/
def delta (event : TraceEventT) (now : UInt64) : Int32 :=
  -- The difference wraps where the record is later than the clock.
  ((now - event.target.offcpuNs) / 1000000).toUInt32.toInt32

/-- For how many milliseconds the task waited for a CPU, in a variable of the same type. -/
def runqDur (event : TraceEventT) (runDelay : UInt64) : Int32 :=
  ((runDelay - event.target.runDelayNs) / 1000000).toUInt32.toInt32

end TraceEventT

/-- The maps of the tracer; the two functions are arrays with an element for each CPU. -/
structure OffcpuMaps where
  start : Assoc UInt32 TraceEventT
  schedCache : UInt32 → SchedCached
  perfEventCache : UInt32 → PerfEventT
  schedCacheBackup : Assoc UInt32 SchedCached
  args : UserArgs

/-- A time off the CPU is one of those to be reported; variables are compared as unsigned ones. -/
def UserArgs.reports (args : UserArgs) (ep : TraceEventT) (now : UInt64) : Bool :=
  args.minOffcpuMs ≤ (ep.delta now).toUInt32 && (ep.delta now).toUInt32 ≤ args.maxOffcpuMs &&
    -- There is no time where the task was not seen to give up a CPU.
    ep.target.offcpuNs ≠ 0

/-- A wait for a CPU is one of those whose cause is looked for. -/
def UserArgs.dumps (args : UserArgs) (ep : TraceEventT) (runDelay : UInt64) : Bool :=
  (ep.runqDur runDelay).toUInt32 > args.rqDurMs && args.rqDurMs ≠ 0

/-- A cache with one more task; the oldest one makes room. -/
def SchedCached.update (cache : SchedCached) (ctx : SwitchCtx) : SchedCached :=
  let id := cache.id % UInt32.ofNat schedCacheSize
  -- A cache that is being copied takes no tasks.
  if inside : id.toNat < schedCacheSize ∧ cache.status = 0 then
    { cache with
      cpu := ctx.cpu
      records :=
        cache.records.set id.toNat
          { pid := ctx.prev.pid, prio := ctx.prevPrio, comm := ctx.prevComm, ts := ctx.now }
          inside.1
      id := cache.id + 1 }
  else cache

namespace OffcpuMaps

/-- Note who wakes a task up. -/
def tryToWakeUpHook (maps : OffcpuMaps) (ctx : WakeCtx) : OffcpuMaps :=
  -- A task that is not to be woken up now leaves everything as it is.
  if !ctx.wakes then maps
  else if !maps.args.isTargetTask ctx.task then maps
  else
    match maps.start.lookup ctx.task.pid with
    | some ep => { maps with start := maps.start.insert ctx.task.pid (ep.wokenUp ctx) }
    -- The first record of a number is refused where the map is full.
    | none =>
      { maps with
        start := tryUpdateElem maxEntries maps.start ctx.task.pid (.ofWakeup ctx) .any }

/-- Put the task that gave up a CPU into the cache of that CPU. -/
def schedCacheUpdate (maps : OffcpuMaps) (ctx : SwitchCtx) : OffcpuMaps :=
  { maps with
    schedCache :=
      Function.update maps.schedCache ctx.cpu ((maps.schedCache ctx.cpu).update ctx) }

/-- Copy the cache of a CPU to where user space reads it; the copy is marked as closed. -/
def schedCacheDump (maps : OffcpuMaps) (cpu : UInt32) : OffcpuMaps :=
  let cache := maps.schedCache cpu
  { maps with
    schedCacheBackup :=
      tryUpdateElem maxBackups maps.schedCacheBackup cpu { cache with status := 1 } .any
    -- Recording goes on as soon as the copy is made.
    schedCache := Function.update maps.schedCache cpu { cache with status := 0 } }

/-- Note when the previous task gave up the CPU. -/
def notePrev (maps : OffcpuMaps) (ctx : SwitchCtx) : OffcpuMaps :=
  if maps.args.isTargetTask ctx.prev then
    match maps.start.lookup ctx.prev.pid with
    | none =>
      { maps with
        start := tryUpdateElem maxEntries maps.start ctx.prev.pid (.ofSwitch ctx) .any }
    -- A record that is there already keeps all that is not about this switch.
    | some ep => { maps with start := maps.start.insert ctx.prev.pid (ep.switchedOut ctx) }
  else maps

/-- The event for a task that took a CPU, written into what the last event of the CPU left. -/
def perfEvent (maps : OffcpuMaps) (ep : TraceEventT) (ctx : SwitchCtx) : PerfEventT :=
  -- The scratch record of the CPU is written over field by field, not cleared.
  let event : PerfEventT :=
    { maps.perfEventCache ctx.cpu with
      target :=
        { ep.target with
          kernStackId := ctx.kernStackId
          userStackId := ctx.userStackId
          comm := ctx.curComm }
      waker := ep.waker
      tsNs := ctx.now
      durMs := (ep.delta ctx.now).toInt64.toUInt64
      rqDurMs := (ep.runqDur ctx.curRunDelay).toInt64.toUInt64 }
  -- Both fields are only ever set, and nothing resets them for the next event.
  if maps.args.dumps ep ctx.curRunDelay then
    { event with isSchedCacheDump := 1, cpu := ctx.cpu }
  else event

/-- Report the current task's time off the CPU, if that is one of those to be reported. -/
def reportCur (maps : OffcpuMaps) (ctx : SwitchCtx) : OffcpuMaps × Option PerfEventT :=
  if !maps.args.isTargetTask ctx.cur then (maps, none)
  else
    match maps.start.lookup ctx.cur.pid with
    -- A task without a record was neither woken up nor seen to give up a CPU.
    | none => (maps, none)
    | some ep =>
      let ep := ep.switchedIn ctx
      -- The delay is kept for the next wait, whether this one is reported or not.
      let left := { ep with target := { ep.target with runDelayNs := ctx.curRunDelay } }
      let start := maps.start.insert ctx.cur.pid left
      if maps.args.reports ep ctx.now then
        let event := maps.perfEvent ep ctx
        let perfEventCache := Function.update maps.perfEventCache ctx.cpu event
        let maps :=
          if maps.args.dumps ep ctx.curRunDelay then maps.schedCacheDump ctx.cpu else maps
        ({ maps with start := start, perfEventCache := perfEventCache }, some event)
      else ({ maps with start := start }, none)

/-- A task has taken the CPU over from another one. -/
def schedSwitchHook (maps : OffcpuMaps) (ctx : SwitchCtx) : OffcpuMaps × Option PerfEventT :=
  -- The cache is kept only where waits for a CPU are looked into.
  let maps := if maps.args.rqDurMs ≠ 0 then maps.schedCacheUpdate ctx else maps
  (maps.notePrev ctx).reportCur ctx

end OffcpuMaps

/-- A hook that runs. -/
inductive OffcpuAction where
  | wake (ctx : WakeCtx)
  | switch (ctx : SwitchCtx)

/-- When a hook runs. -/
def OffcpuAction.now : OffcpuAction → UInt64
  | .wake ctx => ctx.now
  | .switch ctx => ctx.now

/-- An event with the switch it was emitted at, and what had happened before. -/
structure Emitted where
  event : PerfEventT
  ctx : SwitchCtx
  past : List OffcpuAction

/-- The maps, what has happened so far, the clock, and the events handed to user space. -/
structure OffcpuTracer where
  maps : OffcpuMaps
  past : List OffcpuAction
  clock : UInt64
  emitted : List Emitted

namespace OffcpuTracer

/-- The tracer before any hook has run. -/
def new (args : UserArgs) : OffcpuTracer where
  maps :=
    { start := ∅
      schedCache := fun _ => .zero
      perfEventCache := fun _ => .zero
      schedCacheBackup := ∅
      args := args }
  past := []
  clock := 0
  emitted := []

/-- A wakeup. -/
def wake (s : OffcpuTracer) (ctx : WakeCtx) : OffcpuTracer :=
  { s with
    maps := s.maps.tryToWakeUpHook ctx
    past := s.past ++ [.wake ctx]
    clock := ctx.now }

/-- A switch of tasks. -/
def switch (s : OffcpuTracer) (ctx : SwitchCtx) : OffcpuTracer :=
  let (maps, event) := s.maps.schedSwitchHook ctx
  -- What had happened before is kept beside the event, for what is said about it.
  let emitted := event.map fun event => { event := event, ctx := ctx, past := s.past : Emitted }
  { maps := maps
    past := s.past ++ [.switch ctx]
    clock := ctx.now
    emitted := s.emitted ++ emitted.toList }

/-- One hook that runs; absent where the clock would go back. -/
def step (s : OffcpuTracer) (action : OffcpuAction) : Option OffcpuTracer :=
  -- Hooks run at times that the clock of the kernel gives, which never goes back.
  if s.clock ≤ action.now then
    match action with
    | .wake ctx => some (s.wake ctx)
    | .switch ctx => some (s.switch ctx)
  else none

end OffcpuTracer

end Spycat.Offcpu
