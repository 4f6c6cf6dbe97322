import Mathlib.Data.Nat.Bits
import Spycat.Ebpf.BpfMap
import Spycat.Util.Trie

/-! The kernel side of the futex tracer: who waits on a lock, and how long waits take. -/

namespace Spycat.Futexsnoop

open Lib Bpf

/-- How many entries each map of the tracer holds. -/
def maxEntries : Nat := 10240

/-- How many slots a history has. -/
def maxSlots : Nat := 24

/-- How many characters the name of a task has room for. -/
def taskCommLen : Nat := 16

/-- The machines that the update of a history is written for; all but one share a variant. -/
inductive TargetArch where
  | amd64
  | other
  deriving DecidableEq, Repr

/-- A wait that has begun. -/
structure ValT where
  ts : UInt64
  uaddr : UInt64

/-- The settings of the tracer; zero accepts everything. -/
structure UserArgs where
  targPid : UInt32
  targTid : UInt32
  targLock : UInt64
  stack : Bool
  minDurMs : UInt32
  maxDurMs : UInt32
  maxLockHoldUsers : UInt32

/-- How many threads wait on a lock, and for a record also which thread raised it when. -/
structure LockStat where
  userCnt : UInt32
  maxUserCnt : UInt32
  uaddr : UInt64
  comm : Bytes
  pidTgid : UInt64
  ts : UInt64

/-- What the waits of a thread are filed under. -/
structure HistKey where
  pidTgid : UInt64
  uaddr : UInt64
  userStackId : Int32
  deriving DecidableEq

/-- The waits of a thread on a lock. -/
structure Hist where
  slots : Vector UInt32 maxSlots
  comm : Bytes
  pidTgid : UInt64
  uaddr : UInt64
  userStackId : Int32
  contended : UInt64
  totalElapsed : UInt64
  minDur : UInt64
  maxDur : UInt64
  deltaDur : UInt64
  maxDurTs : UInt64

/-- A history without waits. -/
def Hist.initial : Hist where
  slots := Vector.replicate maxSlots 0
  comm := []
  pidTgid := 0
  uaddr := 0
  userStackId := 0
  contended := 0
  totalElapsed := 0
  minDur := 0
  maxDur := 0
  deltaDur := 0
  maxDurTs := 0

/-- The maps of the tracer. -/
structure FutexMaps where
  start : Assoc UInt64 ValT
  args : UserArgs
  lockMap : Assoc UInt64 LockStat
  histsMap : Assoc HistKey Hist

/-- What a thread brings to the entry of the call. -/
structure EnterCtx where
  pidTgid : UInt64
  comm : Bytes
  now : UInt64
  uaddr : UInt64
  op : UInt64

/-- What a thread brings to the exit of the call; the number of its stack is found on demand. -/
structure ExitCtx where
  pidTgid : UInt64
  comm : Bytes
  now : UInt64
  ret : Int64
  userStackId : Int32

/-- The floor of the logarithm of a 32-bit value, by halving the range of bits. -/
def log2 (v : UInt32) : UInt32 :=
  let r := (if v > 0xFFFF then 1 else 0 : UInt32) <<< 4
  let v := v >>> r
  let shift := (if v > 0xFF then 1 else 0 : UInt32) <<< 3
  let v := v >>> shift
  let r := r ||| shift
  let shift := (if v > 0xF then 1 else 0 : UInt32) <<< 2
  let v := v >>> shift
  let r := r ||| shift
  let shift := (if v > 0x3 then 1 else 0 : UInt32) <<< 1
  let v := v >>> shift
  let r := r ||| shift
  r ||| (v >>> 1)

/-- The floor of the logarithm of a 64-bit value, from its upper half unless that is zero. -/
def log2l (v : UInt64) : UInt64 :=
  let hi := (v >>> 32).toUInt32
  if hi ≠ 0 then (log2 hi + 32).toUInt64 else (log2 v.toUInt32).toUInt64

/-- The slot of a duration; the last one takes all that are longer. -/
def slotOf (delta : UInt64) : Fin maxSlots :=
  let slot := log2l delta
  if inside : slot.toNat < maxSlots then ⟨slot.toNat, inside⟩ else ⟨maxSlots - 1, by decide⟩

namespace Hist

/-- The shortest and the longest wait with another one taken in. -/
def updateDurs (arch : TargetArch) (h : Hist) (delta : UInt64) (ts : UInt64) : Hist :=
  -- Zero stands for no shortest wait yet.
  let minDur := if h.minDur = 0 ∨ h.minDur > delta then delta else h.minDur
  match arch with
  | .amd64 =>
    if h.maxDur < delta then { h with minDur := minDur, maxDur := delta, maxDurTs := ts }
    else { h with minDur := minDur }
  | .other =>
    -- This variant stores the old maximum back.
    let max := h.maxDur
    if max < delta then { h with minDur := minDur, maxDur := max, maxDurTs := ts }
    else { h with minDur := minDur }

/-- A history with another wait counted. -/
def record (arch : TargetArch) (h : Hist) (delta : UInt64) (ts : UInt64) (comm : Bytes) : Hist :=
  let slot := slotOf delta
  let counted : Hist :=
    { h with
      slots := h.slots.set slot (h.slots[slot] + 1)
      contended := h.contended + 1
      totalElapsed := h.totalElapsed + delta }
  { counted.updateDurs arch delta ts with comm := comm }

end Hist

/-- A record that the tracer hands to user space. -/
inductive FutexRecord where
  | lock (event : LockStat)
  | task (event : Hist)

namespace FutexMaps

/-- The operation, without its flags, is a wait. -/
def isWait (op : UInt64) : Bool :=
  -- The flags are the private one and the one for the real-time clock.
  op.toUInt32 &&& ~~~(128 ||| 256) = 0

/-- The wait passes the filters. -/
def accepts (args : UserArgs) (ctx : EnterCtx) : Bool :=
  -- The settings are an array, so looking them up cannot fail.
  let tid := ctx.pidTgid.toUInt32
  let pid := (ctx.pidTgid >>> 32).toUInt32
  isWait ctx.op && !(args.targPid ≠ 0 && args.targPid ≠ pid) &&
    !(args.targTid ≠ 0 && args.targTid ≠ tid) && !(args.targLock ≠ 0 && args.targLock ≠ ctx.uaddr)

/-- The lock with one more thread that waits on it. -/
def lockEnter (lock : LockStat) : LockStat :=
  let userCnt := lock.userCnt + 1
  { lock with
    userCnt := userCnt
    maxUserCnt := if userCnt > lock.maxUserCnt then userCnt else lock.maxUserCnt }

/-- Note the wait of a thread, and report the lock when it has had too many users. -/
def futexEnter (maps : FutexMaps) (ctx : EnterCtx) : FutexMaps × Option FutexRecord :=
  if accepts maps.args ctx then
    let v : ValT := { ts := ctx.now, uaddr := ctx.uaddr }
    let maps := { maps with start := tryUpdateElem maxEntries maps.start ctx.pidTgid v .any }
    match maps.lockMap.lookup ctx.uaddr with
    | some lock =>
      let lock := lockEnter lock
      let event :=
        if lock.maxUserCnt > maps.args.maxLockHoldUsers then
          some (.lock { lock with pidTgid := ctx.pidTgid, ts := ctx.now, comm := ctx.comm })
        else none
      ({ maps with lockMap := maps.lockMap.insert ctx.uaddr lock }, event)
    | none =>
      -- The first wait on a lock is never reported.
      let lock : LockStat :=
        { userCnt := 1
          maxUserCnt := 1
          uaddr := ctx.uaddr
          comm := []
          pidTgid := 0
          ts := 0 }
      ({ maps with lockMap := tryUpdateElem maxEntries maps.lockMap ctx.uaddr lock .any }, none)
  else (maps, none)

/-- The locks with one thread less that waits on one of them. -/
def lockExit (lockMap : Assoc UInt64 LockStat) (uaddr : UInt64) : Assoc UInt64 LockStat :=
  match lockMap.lookup uaddr with
  | some lock => lockMap.insert uaddr { lock with userCnt := lock.userCnt - 1 }
  | none => lockMap

/-- The value under a key, stored first where there is none; absent where that is refused. -/
def lookupOrTryInit (map : Assoc HistKey Hist) (key : HistKey) (init : Hist) :
    Option (Assoc HistKey Hist × Hist) :=
  match map.lookup key with
  | some val => some (map, val)
  | none => (updateElem maxEntries map key init .noExist).map fun map => (map, init)

/-- Take a wait into the history of its thread, and report it when it was long enough. -/
def recordWait (arch : TargetArch) (maps : FutexMaps) (ctx : ExitCtx) (uaddr : UInt64)
    (delta : UInt64) : FutexMaps × Option FutexRecord :=
  let hkey : HistKey :=
    { pidTgid := ctx.pidTgid
      uaddr := uaddr
      userStackId := if maps.args.stack then ctx.userStackId else 0 }
  match lookupOrTryInit maps.histsMap hkey .initial with
  | none => (maps, none)
  | some (histsMap, hist) =>
    -- From here on durations are in microseconds.
    let delta := delta / 1000
    let hist := hist.record arch delta ctx.now ctx.comm
    let avg := hist.totalElapsed / hist.contended
    if delta > maps.args.minDurMs.toUInt64 ∧ delta < maps.args.maxDurMs.toUInt64 ∧ delta > avg then
      let hist := { hist with
        uaddr := hkey.uaddr
        pidTgid := hkey.pidTgid
        userStackId := hkey.userStackId
        deltaDur := delta }
      ({ maps with histsMap := histsMap.insert hkey hist }, some (.task hist))
    else ({ maps with histsMap := histsMap.insert hkey hist }, none)

/-- End the wait of a thread; whatever comes of it, the thread no longer waits. -/
def futexExit (arch : TargetArch) (maps : FutexMaps) (ctx : ExitCtx) :
    FutexMaps × Option FutexRecord :=
  match maps.start.lookup ctx.pidTgid with
  | none => (maps, none)
  | some vp =>
    let maps := { maps with lockMap := lockExit maps.lockMap vp.uaddr }
    let delta := ctx.now - vp.ts
    let (maps, event) :=
      -- A call that failed, and a clock that went back, leave no history.
      if ctx.ret.toInt32 < 0 then (maps, none)
      else if delta.toInt64 < 0 then (maps, none)
      else recordWait arch maps ctx vp.uaddr delta
    ({ maps with start := maps.start.erase ctx.pidTgid }, event)

end FutexMaps

/-- A handler that runs. -/
inductive FutexAction where
  | enter (ctx : EnterCtx)
  | exit (ctx : ExitCtx)

/-- The maps, the threads that are in the call, and the records handed to user space. -/
structure FutexTracer where
  maps : FutexMaps
  inside : UInt64 → Bool
  records : List FutexRecord

namespace FutexTracer

/-- The tracer as it is attached, with some threads already in the call. -/
def new (args : UserArgs) (inside : UInt64 → Bool) : FutexTracer where
  maps := { start := ∅, args := args, lockMap := ∅, histsMap := ∅ }
  inside := inside
  records := []

/-- One handler run; a thread enters the call only from outside and leaves it only from inside. -/
def step (arch : TargetArch) (s : FutexTracer) : FutexAction → Option FutexTracer
  | .enter ctx =>
    if s.inside ctx.pidTgid then none
    else
      let (maps, event) := s.maps.futexEnter ctx
      some
        { maps := maps
          inside := Function.update s.inside ctx.pidTgid true
          records := s.records ++ event.toList }
  | .exit ctx =>
    if s.inside ctx.pidTgid then
      let (maps, event) := s.maps.futexExit arch ctx
      some
        { maps := maps
          inside := Function.update s.inside ctx.pidTgid false
          records := s.records ++ event.toList }
    else none

end FutexTracer

end Spycat.Futexsnoop
