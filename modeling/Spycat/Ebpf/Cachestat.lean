import Spycat.Ebpf.BpfMap
import Spycat.Ebpf.CachestatSession

/-! The kernel side of the page cache tracer, which adds up what processes read and write. -/

namespace Spycat.Cachestat

open Lib Bpf

/-- How many entries the map of the tracer holds. -/
def cachestatMapSize : Nat := 10240

/-- The settings of the tracer. -/
structure UserArgs where
  pid : UInt32
  cacheType : UInt32
  cpu : UInt32

/-- The type of settings that leaves writes out. -/
def readCache : UInt32 := 1

/-- The type of settings that leaves reads out. -/
def writeCache : UInt32 := 2

/-- What entries are kept by: a process, and where the name of the file is. -/
structure CacheKey where
  pid : UInt64
  file : UInt64
  deriving DecidableEq

/-- What a task brings to a read or a write. -/
structure HookCtx where
  pidTgid : UInt64
  cpu : UInt32
  comm : CharArray taskCommLen
  /-- Where the name of the file is. -/
  name : UInt64
  /-- What is read from there. -/
  file : CharArray cacheFileSize
  count : UInt64

/-- The entries that are kept. -/
abbrev CachestatMap := Assoc CacheKey CacheInfo

/-- The key of a read or a write. -/
def HookCtx.key (ctx : HookCtx) : CacheKey where
  pid := ctx.pidTgid >>> 32
  file := ctx.name

/-- The number of bytes as a number with a sign in 32 bits, which is then added as a wide one. -/
def HookCtx.counted (ctx : HookCtx) : UInt64 := ctx.count.toUInt32.toInt32.toInt64.toUInt64

/-- The name that stands for a file without one. -/
def unknownFile : CharArray cacheFileSize := (Vector.replicate cacheFileSize 0).set 0 63 (by decide)

/-- The entry that a hit makes, with nothing read or written yet. -/
def HookCtx.fresh (ctx : HookCtx) : CacheInfo where
  pid := ctx.key.pid.toUInt32
  cpu := ctx.cpu
  comm := ctx.comm
  file := if ctx.name ≠ 0 then ctx.file else unknownFile
  readSize := 0
  writeSize := 0
  cnt := 1

/-- The settings let a hit pass, unless their type leaves hits of its kind out. -/
def UserArgs.accepts (args : UserArgs) (excluding : UInt32) (ctx : HookCtx) : Bool :=
  -- The settings are an array, so looking them up cannot fail.
  !(args.pid ≠ 0xFFFFFFFF && args.pid.toUInt64 ≠ ctx.key.pid) &&
    !(args.cpu ≠ 0xFFFFFFFF && args.cpu ≠ ctx.cpu) && args.cacheType ≠ excluding

/-- An entry with a hit taken into the size of its kind. -/
def CacheInfo.takeIn (size : CacheInfo → UInt64) (setSize : CacheInfo → UInt64 → CacheInfo)
    (ctx : HookCtx) (info : CacheInfo) : CacheInfo :=
  let info := setSize { info with cpu := ctx.cpu } (size info + ctx.counted)
  { info with cnt := info.cnt + 1 }

/-- Take a hit into the entry of its key, or make an entry of it. -/
def vfsHook (excluding : UInt32) (size : CacheInfo → UInt64)
    (setSize : CacheInfo → UInt64 → CacheInfo) (args : UserArgs) (cachestatMap : CachestatMap)
    (ctx : HookCtx) : CachestatMap :=
  if args.accepts excluding ctx then
    match cachestatMap.lookup ctx.key with
    | some info => cachestatMap.insert ctx.key (info.takeIn size setSize ctx)
    | none =>
      tryUpdateElem cachestatMapSize cachestatMap ctx.key (setSize ctx.fresh ctx.counted) .any
  else cachestatMap

/-- The hook of a write. -/
def vfsWriteHook : UserArgs → CachestatMap → HookCtx → CachestatMap :=
  vfsHook readCache (·.writeSize) fun info size => { info with writeSize := size }

/-- The hook of a read. -/
def vfsReadHook : UserArgs → CachestatMap → HookCtx → CachestatMap :=
  vfsHook writeCache (·.readSize) fun info size => { info with readSize := size }

/-- A hook that runs. -/
inductive Hit where
  | write (ctx : HookCtx)
  | read (ctx : HookCtx)

/-- Run the hook of a hit. -/
def Hit.step (args : UserArgs) (cachestatMap : CachestatMap) : Hit → CachestatMap
  | .write ctx => vfsWriteHook args cachestatMap ctx
  | .read ctx => vfsReadHook args cachestatMap ctx

/-- The entries after hits, one after the other, from the time that the hooks are attached. -/
def entriesAfter (args : UserArgs) (hits : List Hit) : CachestatMap :=
  hits.foldl (Hit.step args) ∅

end Spycat.Cachestat
