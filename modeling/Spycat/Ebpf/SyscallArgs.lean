import Spycat.Ebpf.SyscallSession

/-! How the settings of the system call tracer get from its configuration to the kernel. -/

namespace Spycat.Syscall

open Lib

/-- The fields of a configuration that the kernel is told about. -/
structure SYSCALL where
  pid : Int64
  tid : Int64
  maxDurMs : UInt64
  minDurMs : UInt64
  syscall : Bytes
  stack : Bool

/-- The settings as the session keeps them, in the order of its struct. -/
structure SyscallArgs where
  pid : UInt32
  tid : UInt32
  minDurMs : UInt32
  maxDurMs : UInt32
  stack : Bool
  syscallId : UInt32

/-- The number of the first call in a table that has a name, and the largest one where none has. -/
def idIn (table : List String) (name : Bytes) : UInt32 :=
  match table.findIdx? fun known => known.toUTF8.toList = name with
  | some i => UInt32.ofNat i
  | none => 0xFFFFFFFF

/-- The number of a call. -/
def syscallNameToId : Arch → Bytes → UInt32
  | .amd64, name => idIn syscallTableX86 name
  | .arm, name | .arm64, name => idIn syscallTableArm name
  | .other, _ => 0xFFFFFFFF

/-- The settings of a new session. -/
def newSyscallSession (arch : Arch) (cfg : SYSCALL) : SyscallArgs where
  pid := cfg.pid.toUInt64.toUInt32
  tid := cfg.tid.toUInt64.toUInt32
  minDurMs := cfg.minDurMs.toUInt32
  maxDurMs := cfg.maxDurMs.toUInt32
  stack := cfg.stack
  syscallId := syscallNameToId arch cfg.syscall

namespace SyscallArgs

/-- The bytes of a record of the session. -/
def bytes (args : SyscallArgs) : Bytes :=
  cStruct 4
    [.u32 args.pid, .u32 args.tid, .u32 args.minDurMs, .u32 args.maxDurMs, .bool args.stack,
      .u32 args.syscallId]

/-- The record that is written for the kernel. -/
def initArgsMap (b : SyscallArgs) : SyscallArgs where
  pid := b.pid
  tid := b.tid
  minDurMs := b.minDurMs
  maxDurMs := b.maxDurMs
  stack := b.stack
  syscallId := b.syscallId

end SyscallArgs

/-- How the kernel reads its settings, with three bytes left out behind the flag. -/
def UserArgs.read : Reader UserArgs :=
  ((((((Reader.done UserArgs.mk).field .uint32).field .uint32).field .uint32).field
    .uint32).field .bool).skip 3 |>.field .uint32

/-- What the kernel reads after a session has started. -/
def kernelArgs (arch : Arch) (cfg : SYSCALL) : Option UserArgs :=
  UserArgs.read.run (newSyscallSession arch cfg).initArgsMap.bytes

end Spycat.Syscall
