import Spycat.Ebpf.Futexsnoop
import Spycat.Lib.Layout

/-! How the settings of the futex tracer get from its configuration to the kernel. -/

namespace Spycat.Futexsnoop

open Lib

/-- The fields of a configuration that the kernel is told about. -/
structure FUTEXSNOOP where
  pid : Int64
  tid : Int64
  maxDurMs : UInt64
  minDurMs : UInt64
  maxLockHoldUsers : UInt64
  targetLock : UInt64
  stack : Bool

/-- The settings as the session keeps them, in the order of its struct. -/
structure FutexSnoopArgs where
  tid : UInt32
  pid : UInt32
  targetLock : UInt64
  stack : Bool
  minDurMs : UInt32
  maxDurMs : UInt32
  maxLockHoldUsers : UInt32

/-- The settings of a new session. -/
def newFutexSnoopSession (cfg : FUTEXSNOOP) : FutexSnoopArgs where
  pid := cfg.pid.toUInt64.toUInt32
  tid := cfg.tid.toUInt64.toUInt32
  minDurMs := cfg.minDurMs.toUInt32
  maxDurMs := cfg.maxDurMs.toUInt32
  targetLock := cfg.targetLock
  stack := cfg.stack
  maxLockHoldUsers := cfg.maxLockHoldUsers.toUInt32

namespace FutexSnoopArgs

/-- The bytes of a record of the session. -/
def bytes (args : FutexSnoopArgs) : Bytes :=
  cStruct 8
    [.u32 args.tid, .u32 args.pid, .u64 args.targetLock, .bool args.stack, .u32 args.minDurMs,
      .u32 args.maxDurMs, .u32 args.maxLockHoldUsers]

/-- The record that is written for the kernel; the other fields keep their zero values. -/
def initArgsMap (b : FutexSnoopArgs) : FutexSnoopArgs where
  pid := b.pid
  tid := b.tid
  minDurMs := b.minDurMs
  maxDurMs := b.maxDurMs
  maxLockHoldUsers := b.maxLockHoldUsers
  targetLock := 0
  stack := false

end FutexSnoopArgs

/-- How the kernel reads its settings, with three bytes left out behind the flag. -/
def UserArgs.read : Reader UserArgs :=
  (((((((Reader.done UserArgs.mk).field .uint32).field .uint32).field .uint64).field
    .bool).skip 3).field .uint32).field .uint32 |>.field .uint32

/-- What the kernel reads after a session has started. -/
def kernelArgs (cfg : FUTEXSNOOP) : Option UserArgs :=
  UserArgs.read.run (newFutexSnoopSession cfg).initArgsMap.bytes

end Spycat.Futexsnoop
