import Spycat.Ebpf.Cachestat

/-! The page cache tracer as a whole: hooks that run while a session reads their map in rounds. -/

namespace Spycat.Cachestat

open Lib Bpf

/-- The fields of a configuration that the kernel is told about. -/
structure CACHESTAT where
  pid : Int64
  cacheType : Int64
  cpu : Int64

/-- The settings as the session keeps them, in the order of its struct. -/
structure CacheStatArgs where
  pid : UInt32
  cacheType : UInt32
  cpu : UInt32
  pad : UInt32

/-- The settings of a new session. -/
def newCacheStatBpfSession (cfg : CACHESTAT) : CacheStatArgs where
  pid := cfg.pid.toUInt64.toUInt32
  cacheType := cfg.cacheType.toUInt64.toUInt32
  cpu := cfg.cpu.toUInt64.toUInt32
  pad := 0

namespace CacheStatArgs

/-- The bytes of a record of the session. -/
def bytes (args : CacheStatArgs) : Bytes :=
  cStruct 4 [.u32 args.pid, .u32 args.cacheType, .u32 args.cpu, .u32 args.pad]

/-- The record that is written for the kernel. -/
def initArgsMap (b : CacheStatArgs) : CacheStatArgs where
  pid := b.pid
  cacheType := b.cacheType
  cpu := b.cpu
  pad := 0

end CacheStatArgs

/-- How the kernel reads its settings; it leaves the padding behind them alone. -/
def UserArgs.read : Reader UserArgs :=
  (((Reader.done UserArgs.mk).field .uint32).field .uint32).field .uint32

/-- What the kernel reads after a session has started. -/
def kernelArgs (cfg : CACHESTAT) : Option UserArgs :=
  UserArgs.read.run (newCacheStatBpfSession cfg).initArgsMap.bytes

/-- An entry of the map as a round read it. -/
abbrev Entry := CacheKey × CacheInfo

/-- Where a session stands in its round. -/
inductive Phase where
  /-- Between two rounds. -/
  | idle
  /-- In the batch call, which has read some entries and does not end before those that are due. -/
  | batch (due : List CacheKey) (read : List Entry)
  /-- The iterator stands behind the entries that were read. -/
  | iterate (due : List CacheKey) (read : List Entry)
  /-- The iterator has given a key whose value is read next. -/
  | getValue (due : List CacheKey) (read : List Entry) (key : CacheKey)
  /-- Events were sent for some entries, and others are still to do. -/
  | send (done todo : List Entry)

/-- The hooks and a session, with the map that they share and the events that were sent. -/
structure CacheStatTracer where
  args : UserArgs
  cachestatMap : CachestatMap
  phase : Phase
  sent : List SpyEvent

/-- One step of the kernel or of the session, with what the step finds in its environment. -/
inductive CacheStatAction where
  /-- A hook runs. -/
  | hit (hit : Hit)
  /-- The ticker starts a round. -/
  | reset
  /-- The batch call reads one entry. -/
  | takeKey (key : CacheKey)
  /-- The iterator gives a key. -/
  | next (key : CacheKey)
  /-- A value is read, unless that fails. -/
  | getValue (failed : Bool)
  /-- An event is sent at a time, for an entry that has some memory behind it. -/
  | send (behind : Bytes) (now : UInt64)
  /-- A loop or a call ends. -/
  | proceed

namespace CacheStatTracer

/-- A tracer whose hooks have just been attached. -/
def new (args : UserArgs) : CacheStatTracer where
  args := args
  cachestatMap := ∅
  phase := .idle
  sent := []

/-- The end of a loop or a call; absent where it is not over. -/
def proceed (s : CacheStatTracer) : Option Phase :=
  match s.phase with
  | .batch due read =>
    -- A batch that failed, is not supported or found nothing gives way to the iterator.
    if read = [] then some (.iterate s.cachestatMap.keys [])
    else if due ⊆ read.map (·.1) then some (.send [] read) else none
  | .iterate due read =>
    -- Nothing is deleted, so the iterator passes every key that was there when it started.
    if due ⊆ read.map (·.1) then some (.send [] read) else none
  | .send _ [] => some .idle
  | _ => none

/-- One step; absent where it is not possible. -/
def step (s : CacheStatTracer) : CacheStatAction → Option CacheStatTracer
  | .hit hit => some { s with cachestatMap := hit.step s.args s.cachestatMap }
  | .reset =>
    match s.phase with
    | .idle => some { s with phase := .batch s.cachestatMap.keys [] }
    | _ => none
  | .takeKey key =>
    match s.phase, s.cachestatMap.lookup key with
    | .batch due read, some info =>
      if key ∈ read.map (·.1) then none
      else some { s with phase := .batch due (read ++ [(key, info)]) }
    | _, _ => none
  | .next key =>
    match s.phase, s.cachestatMap.lookup key with
    | .iterate due read, some _ =>
      if key ∈ read.map (·.1) then none else some { s with phase := .getValue due read key }
    | _, _ => none
  | .getValue failed =>
    match s.phase with
    | .getValue due read key =>
      match s.cachestatMap.lookup key, failed with
      | some info, false => some { s with phase := .iterate due (read ++ [(key, info)]) }
      -- The round ends with the error.
      | _, _ => some { s with phase := .idle }
    | _ => none
  | .send behind now =>
    match s.phase with
    | .send done (entry :: todo) =>
      let value : MapValue := { info := entry.2, behind := behind }
      some { s with sent := s.sent ++ [value.event now], phase := .send (done ++ [entry]) todo }
    | _ => none
  | .proceed => s.proceed.map fun phase => { s with phase := phase }

end CacheStatTracer

end Spycat.Cachestat
