import Spycat.Detector.CpuDetector
import Spycat.Ebpf.StackSession
import Spycat.Ebpf.Syscall
import Spycat.Ebpf.SyscallTable

/-! The user side of the system call tracer: it takes records apart and makes events of them. -/

namespace Spycat.Syscall

open Lib

/-- The machines whose calls the session names. -/
inductive Arch where
  | amd64
  | arm
  | arm64
  | other
  deriving DecidableEq, Repr

/-- A record as the session declares it, where a call's number has 32 bits. -/
structure SyscallRecord where
  pid : UInt32
  tid : UInt32
  tsNs : UInt64
  durUs : UInt64
  uStackId : Int64
  kStackId : Int64
  syscallId : UInt32
  comm : CharArray taskCommLen

/-- A record into which nothing was read. -/
def SyscallRecord.zero : SyscallRecord where
  pid := 0
  tid := 0
  tsNs := 0
  durUs := 0
  uStackId := 0
  kStackId := 0
  syscallId := 0
  comm := Vector.replicate taskCommLen 0

/-- Read the fields of a record one behind the other. -/
def readSyscallRecord : Reader SyscallRecord :=
  -- The number of the call is read as four bytes, where the kernel wrote eight.
  ((((((((Reader.done SyscallRecord.mk).field .uint32).field .uint32).field .uint64).field
    .uint64).field .int64).field .int64).field .uint32).field (.chars taskCommLen)

/-- A session: the machine it runs on, and the recorded stacks. -/
structure SyscallSession where
  arch : Arch
  symSession : StackSession

/-- The name of a call in a table, and one made of its number where the table ends before it. -/
def nameIn (table : List String) (id : UInt32) : Bytes :=
  -- The number is an index into the table.
  match table[id.toNat]? with
  | none => ("unknown_" ++ toString id.toNat).toUTF8.toList
  | some name => name.toUTF8.toList

namespace SyscallSession

/-- The name of a call. -/
def syscallIdToName (session : SyscallSession) (id : UInt32) : Bytes :=
  match session.arch with
  | .amd64 => nameIn syscallTableX86 id
  | .arm | .arm64 => nameIn syscallTableArm id
  | .other => "unknown".toUTF8.toList

/-- The event for a record, with the text of its stacks. -/
def syscallEvent (session : SyscallSession) (now : UInt64) (event : SyscallRecord) (syms : Bytes) :
    SpyEvent :=
  -- The name is cut by no one here: all its characters, zeros too, go into the event.
  (SpyEvent.bare Model.syscall now { name := detectorCpuType, event := Model.syscall }
    { pid := event.pid, tid := event.tid, comm := event.comm.toList }).setUserAttributes
      [.ofUint64 "dur_us" event.durUs,
        .ofUint32 "pid" event.pid,
        .ofByteBuf "comm" event.comm.toList,
        .ofByteBuf "syscall" (session.syscallIdToName event.syscallId),
        .ofByteBuf "stack" syms]

/-- The event that is sent for a record; absent where the source panics. -/
def handleEvent (session : SyscallSession) (now : UInt64) (data : Bytes) : Option SpyEvent :=
  -- A record that is too short leaves the event as it was.
  let event := (readSyscallRecord.run data).getD .zero
  -- The kernel's stack comes first, and both numbers are cut to 32 bits.
  (session.symSession.resolveStacks event.kStackId.toInt32 event.uStackId.toInt32 event.pid).map
    fun syms => session.syscallEvent now event syms

end SyscallSession

end Spycat.Syscall
