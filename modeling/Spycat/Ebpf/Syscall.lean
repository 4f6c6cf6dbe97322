import Mathlib.Logic.Function.Basic
import Spycat.Ebpf.BpfMap
import Spycat.Lib.Layout

/-! The kernel side of the system call tracer: when calls begin, and how long they take. -/

namespace Spycat.Syscall

open Lib Bpf

/-- How many entries each map of the tracer holds. -/
def maxEntries : Nat := 10240

/-- How many characters the name of a task has. -/
def taskCommLen : Nat := 16

/-- The settings of the tracer; zero, and for a call the largest number, accept everything. -/
structure UserArgs where
  pid : UInt32
  tid : UInt32
  minSyscallMs : UInt32
  maxSyscallMs : UInt32
  stack : Bool
  syscallId : UInt32

/-- What is noted when a call begins, and completed when it ends. -/
structure SyscallEvent where
  pid : UInt32
  tid : UInt32
  tsNs : UInt64
  durUs : UInt64
  uStackId : Int64
  kStackId : Int64
  syscallId : UInt64
  comm : CharArray taskCommLen

/-- An event with nothing in it. -/
def SyscallEvent.zero : SyscallEvent where
  pid := 0
  tid := 0
  tsNs := 0
  durUs := 0
  uStackId := 0
  kStackId := 0
  syscallId := 0
  comm := Vector.replicate taskCommLen 0

/-- The bytes of an event in memory. -/
def SyscallEvent.bytes (event : SyscallEvent) : List UInt8 :=
  cStruct 8
    [.u32 event.pid, .u32 event.tid, .u64 event.tsNs, .u64 event.durUs, .s64 event.uStackId,
      .s64 event.kStackId, .u64 event.syscallId, .chars event.comm]

/-- The maps of the tracer. -/
structure SyscallMaps where
  start : Assoc UInt32 SyscallEvent
  args : UserArgs

/-- What a thread brings to the entry of a call. -/
structure EnterCtx where
  pidTgid : UInt64
  now : UInt64
  id : Int64

/-- What a thread brings to the exit of a call; the numbers of its stacks are found on demand. -/
structure ExitCtx where
  pidTgid : UInt64
  now : UInt64
  id : Int64
  comm : CharArray taskCommLen
  uStackId : Int64
  kStackId : Int64

/-- The thread that runs a handler. -/
def tidOf (pidTgid : UInt64) : UInt32 := pidTgid.toUInt32

/-- The process of the thread that runs a handler. -/
def pidOf (pidTgid : UInt64) : UInt32 := (pidTgid >>> 32).toUInt32

/-- A call passes the filters, which both handlers have. -/
def UserArgs.accepts (args : UserArgs) (pidTgid : UInt64) (syscallId : UInt32) : Bool :=
  -- The settings are an array, so looking them up cannot fail.
  !(args.pid ≠ 0 && args.pid ≠ pidOf pidTgid) && !(args.tid ≠ 0 && args.tid ≠ tidOf pidTgid) &&
    !(args.syscallId ≠ 0xFFFFFFFF && args.syscallId ≠ syscallId)

namespace SyscallMaps

/-- Note when a call begins. -/
def sysEnter (maps : SyscallMaps) (ctx : EnterCtx) : SyscallMaps :=
  let syscallId := ctx.id.toUInt64.toUInt32
  if maps.args.accepts ctx.pidTgid syscallId then
    -- The other fields are filled in when the call returns.
    let event : SyscallEvent :=
      { SyscallEvent.zero with
        tsNs := ctx.now
        pid := pidOf ctx.pidTgid
        tid := tidOf ctx.pidTgid }
    -- An entry under the same number is written over, and a full map refuses a new one.
    { maps with start := tryUpdateElem maxEntries maps.start (tidOf ctx.pidTgid) event .any }
  else maps

/-- Report a call that took long enough; the note of its begin stays where it is. -/
def sysExit (maps : SyscallMaps) (ctx : ExitCtx) : Option SyscallEvent :=
  -- There is no number when an interrupt happens.
  if ctx.id = -1 then none
  else
    let syscallId := ctx.id.toUInt64.toUInt32
    if maps.args.accepts ctx.pidTgid syscallId then
      match maps.start.lookup (tidOf ctx.pidTgid) with
      | none => none
      | some eventp =>
        -- The entry is read, and nothing in this handler deletes it.
        let dur := ctx.now - eventp.tsNs
        if dur / 1000000 ≥ maps.args.minSyscallMs.toUInt64 ∧
            dur / 1000000 ≤ maps.args.maxSyscallMs.toUInt64 then
          -- What is handed over is a copy of the entry with the rest filled in.
          some { eventp with
            durUs := dur / 1000
            uStackId := if maps.args.stack then ctx.uStackId else eventp.uStackId
            kStackId := if maps.args.stack then ctx.kStackId else eventp.kStackId
            syscallId := syscallId.toUInt64
            comm := ctx.comm }
        else none
    else none

end SyscallMaps

/-- Where a thread stands. -/
inductive ThreadState where
  /-- There is no thread of this number. -/
  | gone
  /-- The thread is in no call. -/
  | outside
  /-- The thread is in a call whose begin was left out by the filters, or happened elsewhere. -/
  | untraced
  /-- The thread is in a call whose begin passed the filters at a time. -/
  | traced (since : UInt64)
  deriving DecidableEq

/-- What threads do. -/
inductive SyscallAction where
  | enter (ctx : EnterCtx)
  | exit (ctx : ExitCtx)
  /-- A new thread begins, perhaps at the end of the call that created it. -/
  | born (tid : UInt32) (inCall : Bool)
  /-- A thread ends, perhaps in a call that never returns. -/
  | dies (tid : UInt32)

/-- An event with the call that it was emitted for. -/
structure Emitted where
  event : SyscallEvent
  call : ThreadState
  exited : UInt64

/-- The tracer, the threads, the clock they share, and the events handed to user space. -/
structure SyscallTracer where
  maps : SyscallMaps
  threads : UInt32 → ThreadState
  clock : UInt64
  emitted : List Emitted

namespace SyscallTracer

/-- The tracer before any thread has done anything. -/
def new (args : UserArgs) : SyscallTracer where
  maps := { start := ∅, args := args }
  threads := fun _ => .gone
  clock := 0
  emitted := []

/-- A thread moves to another place. -/
def move (s : SyscallTracer) (tid : UInt32) (state : ThreadState) : SyscallTracer :=
  { s with threads := Function.update s.threads tid state }

/-- The call that a thread is in once it has entered it. -/
def entered (s : SyscallTracer) (ctx : EnterCtx) : ThreadState :=
  if s.maps.args.accepts ctx.pidTgid ctx.id.toUInt64.toUInt32 then .traced ctx.now else .untraced

/-- A call begins, and its handler runs. -/
def enter (s : SyscallTracer) (ctx : EnterCtx) : SyscallTracer :=
  { s with maps := s.maps.sysEnter ctx, clock := ctx.now }

/-- A call ends, and its handler runs. -/
def exit (s : SyscallTracer) (ctx : ExitCtx) : SyscallTracer :=
  -- The call that the thread is in is kept beside the event.
  let emitted := (s.maps.sysExit ctx).map fun event =>
    { event := event, call := s.threads (tidOf ctx.pidTgid), exited := ctx.now : Emitted }
  { s with clock := ctx.now, emitted := s.emitted ++ emitted.toList }

/-- One step; absent where it is not possible. -/
def step (s : SyscallTracer) : SyscallAction → Option SyscallTracer
  | .enter ctx =>
    -- A thread is in one call at a time, and the clock never goes back.
    if s.threads (tidOf ctx.pidTgid) = .outside ∧ s.clock ≤ ctx.now then
      some ((s.enter ctx).move (tidOf ctx.pidTgid) (s.entered ctx))
    else none
  | .exit ctx =>
    -- A call may return that was already going on when its thread appeared.
    let call := s.threads (tidOf ctx.pidTgid)
    if call ≠ .gone ∧ call ≠ .outside ∧ s.clock ≤ ctx.now then
      some ((s.exit ctx).move (tidOf ctx.pidTgid) .outside)
    else none
  | .born tid inCall =>
    if s.threads tid = .gone then some (s.move tid (if inCall then .untraced else .outside))
    else none
  | .dies tid => if s.threads tid = .gone then none else some (s.move tid .gone)

end SyscallTracer

end Spycat.Syscall
