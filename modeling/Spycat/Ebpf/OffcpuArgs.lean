import Spycat.Ebpf.Offcpu

/-! How the settings of the off-CPU tracer get from its configuration to the kernel. -/

namespace Spycat.Offcpu

open Lib

/-- The fields of a configuration that the kernel is told about. -/
structure OFFCPU where
  pid : Int64
  maxOffcpuMs : UInt64
  minOffcpuMs : UInt64
  rqDurMs : UInt64

/-- The settings as the session keeps them, in the order of its struct. -/
structure OffCpuArgs where
  pid : UInt32
  tgid : UInt32
  minOffcpuMs : UInt32
  maxOffcpuMs : UInt32
  rqDurMs : UInt32

/-- The settings of a new session; the number that is configured is the one of a process. -/
def newOffCpuBpfSession (cfg : OFFCPU) : OffCpuArgs where
  pid := 0xFFFFFFFF
  tgid := cfg.pid.toUInt64.toUInt32
  minOffcpuMs := cfg.minOffcpuMs.toUInt32
  maxOffcpuMs := cfg.maxOffcpuMs.toUInt32
  rqDurMs := cfg.rqDurMs.toUInt32

namespace OffCpuArgs

/-- The bytes of a record of the session. -/
def bytes (args : OffCpuArgs) : List UInt8 :=
  cStruct 4
    [.u32 args.pid, .u32 args.tgid, .u32 args.minOffcpuMs, .u32 args.maxOffcpuMs,
      .u32 args.rqDurMs]

/-- The record that is written for the kernel. -/
def initArgsMap (b : OffCpuArgs) : OffCpuArgs where
  pid := b.pid
  tgid := b.tgid
  minOffcpuMs := b.minOffcpuMs
  maxOffcpuMs := b.maxOffcpuMs
  rqDurMs := b.rqDurMs

end OffCpuArgs

/-- How the kernel reads its settings. -/
def UserArgs.read : Reader UserArgs :=
  (((((Reader.done UserArgs.mk).field .uint32).field .uint32).field .uint32).field
    .uint32).field .uint32

/-- What the kernel reads after a session has started. -/
def kernelArgs (cfg : OFFCPU) : Option UserArgs :=
  UserArgs.read.run (newOffCpuBpfSession cfg).initArgsMap.bytes

end Spycat.Offcpu
