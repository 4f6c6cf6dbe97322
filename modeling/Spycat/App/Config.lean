import Spycat.Core.DataBlock
import Spycat.Util.CopyStruct

/-! The configurations of the five tools, as the command line fills them in and as YAML does. -/

namespace Spycat

/-- The tools. -/
inductive Tool where
  | offCpu
  | onCpu
  | cacheStat
  | syscall
  | futexSnoop
  deriving DecidableEq, Repr

/-- The configuration of the futex tracer on the command line. -/
def futexsnoop : StructType :=
  [("LogLevel", .string), ("AppName", .string), ("Server", .string), ("Pid", .int), ("Tid", .int),
    ("MaxDurMs", .uint), ("MinDurMs", .uint), ("SymbolCacheSize", .int),
    ("MaxLockHoldUsers", .uint), ("TargetLock", .uint), ("Stack", .bool), ("BtfPath", .string),
    ("Exporter", .string), ("Status", .string)]

/-- The configuration of the futex tracer in YAML. -/
def futexsnoopYaml : StructType :=
  [("LogLevel", .string), ("AppName", .string), ("Server", .string), ("Pid", .int), ("Tid", .int),
    ("MaxDurMs", .uint), ("MinDurMs", .uint), ("SymbolCacheSize", .int),
    ("MaxLockHoldUsers", .uint), ("TargetLock", .bool), ("BtfPath", .string),
    ("Exporter", .string), ("Status", .string)]

/-- The configuration of the system call tracer on the command line. -/
def syscall : StructType :=
  [("LogLevel", .string), ("AppName", .string), ("Server", .string), ("Pid", .int), ("Tid", .int),
    ("MaxDurMs", .uint), ("MinDurMs", .uint), ("Syscall", .string), ("SymbolCacheSize", .int),
    ("Stack", .bool), ("BtfPath", .string), ("Exporter", .string), ("Status", .string)]

/-- The configuration of the system call tracer in YAML. -/
def syscallYaml : StructType :=
  [("LogLevel", .string), ("AppName", .string), ("Server", .string), ("Pid", .int), ("Tid", .int),
    ("MaxDurMs", .uint), ("MinDurMs", .uint), ("Syscall", .string), ("SymbolCacheSize", .int),
    ("Stack", .bool), ("BtfPath", .string), ("Exporter", .string), ("Status", .string)]

/-- The configuration of the off-CPU tracer on the command line. -/
def offcpu : StructType :=
  [("LogLevel", .string), ("AppName", .string), ("Server", .string), ("Pid", .int),
    ("MaxOffcpuMs", .uint), ("MinOffcpuMs", .uint), ("SymbolCacheSize", .int), ("RqDurMs", .uint),
    ("BtfPath", .string), ("Exporter", .string), ("Status", .string)]

/-- The configuration of the off-CPU tracer in YAML. -/
def offcpuYaml : StructType :=
  [("LogLevel", .string), ("AppName", .string), ("Server", .string), ("Pid", .int),
    ("MaxOffcpuMs", .uint), ("MinOffcpuMs", .uint), ("SymbolCacheSize", .int), ("RqDurMs", .uint),
    ("BtfPath", .string), ("Exporter", .string), ("Status", .string)]

/-- The configuration of the on-CPU profiler on the command line. -/
def oncpu : StructType :=
  [("LogLevel", .string), ("AppName", .string), ("SampleRate", .uint), ("Server", .string),
    ("UploadThreads", .int), ("UploadTimeout", .duration), ("UploadRate", .duration),
    ("Cpu", .string), ("SymbolCacheSize", .int), ("BtfPath", .string), ("Exporter", .string),
    ("Status", .string)]

/-- The configuration of the on-CPU profiler in YAML. -/
def oncpuYaml : StructType :=
  [("LogLevel", .string), ("AppName", .string), ("SampleRate", .uint), ("Server", .string),
    ("UploadThreads", .int), ("UploadTimeout", .duration), ("UploadRate", .duration),
    ("Cpu", .string), ("SymbolCacheSize", .int), ("BtfPath", .string), ("Exporter", .string),
    ("Status", .string)]

/-- The configuration of the page cache tracer on the command line. -/
def cachestat : StructType :=
  [("LogLevel", .string), ("AppName", .string), ("Server", .string), ("UploadRate", .duration),
    ("Pid", .int), ("CacheType", .int), ("Cpu", .int), ("BtfPath", .string), ("Exporter", .string),
    ("Status", .string)]

/-- The configuration of the page cache tracer in YAML. -/
def cachestatYaml : StructType :=
  [("LogLevel", .string), ("AppName", .string), ("Server", .string), ("UploadRate", .duration),
    ("Pid", .int), ("CacheType", .int), ("Cpu", .int), ("BtfPath", .string), ("Exporter", .string),
    ("Status", .string)]

namespace Tool

/-- The name of a tool, which is that of its events. -/
def name : Tool → String
  | .offCpu => Model.offCpu
  | .onCpu => Model.onCpu
  | .cacheStat => Model.cacheStat
  | .syscall => Model.syscall
  | .futexSnoop => Model.futexSnoop

/-- The struct that the tool is started with. -/
def command : Tool → StructType
  | .offCpu => offcpu
  | .onCpu => oncpu
  | .cacheStat => cachestat
  | .syscall => Spycat.syscall
  | .futexSnoop => futexsnoop

/-- The struct that YAML is read into. -/
def yaml : Tool → StructType
  | .offCpu => offcpuYaml
  | .onCpu => oncpuYaml
  | .cacheStat => cachestatYaml
  | .syscall => syscallYaml
  | .futexSnoop => futexsnoopYaml

end Tool

end Spycat
