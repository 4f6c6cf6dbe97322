import Spycat.Ebpf.BpfMap
import Spycat.Util.Trie

/-! The kernel side of the on-CPU profiler, which counts samples by process and stacks. -/

namespace Spycat.Oncpu

open Lib Bpf

/-- How many entries each map of the profiler holds. -/
def profileMapsSize : Nat := 16384

/-- What samples are counted by. -/
structure ProfileKey where
  pid : UInt32
  kernStack : Int64
  userStack : Int64
  comm : Bytes
  deriving DecidableEq

/-- The filters of the profiler. -/
structure ProfileBssArgs where
  tgidFilter : UInt32
  spaceFilter : Int32

/-- A recorded stack, with the hash it was filed under. -/
structure StackBucket where
  hash : UInt32
  frames : Bytes
  deriving DecidableEq

/-- What the profiler finds when a sample is due; a task can lack a stack of either kind. -/
structure PerfEventData where
  pidTgid : UInt64
  comm : Bytes
  kernFrames : Option Bytes
  userFrames : Option Bytes

/-- The maps that the profiler shares with its user space. -/
structure ProfileMaps where
  args : ProfileBssArgs
  mapCounts : Assoc ProfileKey UInt32
  mapStacks : Assoc UInt32 StackBucket

/-- Record a stack and give its number; a negative number says that there is none. -/
def bpfGetStackid (stackHash : Bytes → UInt32) (mapStacks : Assoc UInt32 StackBucket) :
    Option Bytes → Int64 × Assoc UInt32 StackBucket
  | none => (-14, mapStacks)
  | some frames =>
    let hash := stackHash frames
    let id := UInt32.ofNat (hash.toNat % profileMapsSize)
    match mapStacks.lookup id with
    | some bucket =>
      -- Stacks are compared by their hashes alone, and another stack keeps its bucket.
      if bucket.hash = hash then (id.toUInt64.toInt64, mapStacks) else (-17, mapStacks)
    | none => (id.toUInt64.toInt64, mapStacks.insert id { hash := hash, frames := frames })

/-- A sample passes the filters. -/
def ProfileBssArgs.accepts (args : ProfileBssArgs) (ctx : PerfEventData) : Bool :=
  let tgid := (ctx.pidTgid >>> 32).toUInt32
  let pid := ctx.pidTgid.toUInt32
  -- The idle task is left out unless the filter asks for the kernel.
  !(args.tgidFilter ≠ 0 && tgid ≠ args.tgidFilter) && !(pid = 0 && args.spaceFilter = 0)

namespace ProfileMaps

/-- The key of a sample, and the stacks with the ones of the sample recorded. -/
def profileKey (stackHash : Bytes → UInt32) (maps : ProfileMaps) (ctx : PerfEventData) :
    ProfileKey × Assoc UInt32 StackBucket :=
  -- The kernel's stack is recorded first.
  let (kernStack, mapStacks) := bpfGetStackid stackHash maps.mapStacks ctx.kernFrames
  let (userStack, mapStacks) := bpfGetStackid stackHash mapStacks ctx.userFrames
  ({ pid := (ctx.pidTgid >>> 32).toUInt32
     kernStack := kernStack
     userStack := userStack
     comm := ctx.comm }, mapStacks)

/-- Count one sample of a key. -/
def countSample (maps : ProfileMaps) (key : ProfileKey) : ProfileMaps :=
  match maps.mapCounts.lookup key with
  | some val => { maps with mapCounts := maps.mapCounts.insert key (val + 1) }
  | none => { maps with mapCounts := tryUpdateElem profileMapsSize maps.mapCounts key 1 .noExist }

/-- Take a sample, unless the filters say otherwise. -/
def doPerfEvent (stackHash : Bytes → UInt32) (maps : ProfileMaps) (ctx : PerfEventData) :
    ProfileMaps :=
  if maps.args.accepts ctx then
    let (key, mapStacks) := maps.profileKey stackHash ctx
    countSample { maps with mapStacks := mapStacks } key
  else maps

end ProfileMaps

end Spycat.Oncpu
