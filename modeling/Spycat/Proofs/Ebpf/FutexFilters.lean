import Spycat.Ebpf.FutexsnoopArgs
import Spycat.Lib.Words
import Spycat.Proofs.Ebpf.FutexUsers

/-! Which configurations of the futex tracer make the kernel filter waits as configured. -/

namespace Spycat.Futexsnoop

open Lib Bpf Reader

/-- The waits that a configuration asks for; zero and minus one ask for all processes or threads. -/
def FUTEXSNOOP.Accepts (cfg : FUTEXSNOOP) (pid tid : UInt32) (uaddr : UInt64) : Prop :=
  (cfg.pid = 0 ∨ cfg.pid = -1 ∨ cfg.pid.toInt = pid.toNat) ∧
    (cfg.tid = 0 ∨ cfg.tid = -1 ∨ cfg.tid.toInt = tid.toNat) ∧
    (cfg.targetLock = 0 ∨ cfg.targetLock = uaddr)

/-- The settings that a record of the session stands for, field by field. -/
def FutexSnoopArgs.meant (args : FutexSnoopArgs) : UserArgs where
  targPid := args.pid
  targTid := args.tid
  targLock := args.targetLock
  stack := args.stack
  minDurMs := args.minDurMs
  maxDurMs := args.maxDurMs
  maxLockHoldUsers := args.maxLockHoldUsers

/-- The wait that a thread enters is stored, unless the map has no room for it. -/
def noted (maps : FutexMaps) (ctx : EnterCtx) : Assoc UInt64 ValT :=
  tryUpdateElem maxEntries maps.start ctx.pidTgid { ts := ctx.now, uaddr := ctx.uaddr } .any

/-- The kernel does with its settings what a configuration asks for. -/
structure Obeyed (cfg : FUTEXSNOOP) (args : UserArgs) : Prop where
  /-- Exactly the waits that are asked for are stored. -/
  enter : ∀ (maps : FutexMaps) (ctx : EnterCtx), maps.args = args → FutexMaps.isWait ctx.op →
    (cfg.Accepts (ctx.pidTgid >>> 32).toUInt32 ctx.pidTgid.toUInt32 ctx.uaddr →
      (maps.futexEnter ctx).1.start = noted maps ctx) ∧
    (¬ cfg.Accepts (ctx.pidTgid >>> 32).toUInt32 ctx.pidTgid.toUInt32 ctx.uaddr →
      (maps.futexEnter ctx).1.start = maps.start)
  /-- Histories are kept apart by the user's stacks exactly if these are asked for. -/
  stack : ∀ (arch : TargetArch) (maps : FutexMaps) (ctx : ExitCtx) (key : HistKey),
    maps.args = args → ((maps.futexExit arch ctx).1.histsMap.lookup key).isSome →
      (maps.histsMap.lookup key).isSome ∨
        key.userStackId = if cfg.stack then ctx.userStackId else 0
  /-- The settings are those that the session has written. -/
  written : args = (newFutexSnoopSession cfg).initArgsMap.meant

/-- One and the same process and thread number, no lock and no stacks are asked for. -/
structure Plain (cfg : FUTEXSNOOP) : Prop where
  same : cfg.pid = cfg.tid
  low : 0 ≤ cfg.pid.toInt
  high : cfg.pid.toInt < 2 ^ 32
  targetLock : cfg.targetLock = 0
  stack : cfg.stack = false

/-- What the kernel reads: the numbers of the process and of the thread have changed places. -/
def readArgs (cfg : FUTEXSNOOP) : UserArgs where
  targPid := cfg.tid.toUInt64.toUInt32
  targTid := cfg.pid.toUInt64.toUInt32
  targLock := 0
  stack := false
  minDurMs := cfg.minDurMs.toUInt32
  maxDurMs := cfg.maxDurMs.toUInt32
  maxLockHoldUsers := cfg.maxLockHoldUsers.toUInt32

/-- The kernel's reader takes the bytes of a record apart with the first two fields exchanged. -/
theorem read_bytes (args : FutexSnoopArgs) :
    UserArgs.read.run args.bytes =
      some { args.meant with targPid := args.tid, targTid := args.pid } := by
  -- Both structs leave three bytes out behind the flag.
  have fields := (reads_done UserArgs.mk).next (reads_uint32 args.tid)
    |>.next (reads_uint32 args.pid) |>.next (reads_uint64 args.targetLock)
    |>.next (reads_bool args.stack)
  have more := ((((fields.skip [0, 0, 0]).field (reads_uint32 args.minDurMs)).field
    (reads_uint32 args.maxDurMs)).field (reads_uint32 args.maxLockHoldUsers)).run []
  have layout : args.bytes =
      ((([CField.u32 args.tid, .u32 args.pid, .u64 args.targetLock, .bool args.stack] :
        List CField).flatMap CField.bytes ++ [0, 0, 0]) ++ (CField.u32 args.minDurMs).bytes ++
          (CField.u32 args.maxDurMs).bytes ++ (CField.u32 args.maxLockHoldUsers).bytes) ++ [] := by
    simp [FutexSnoopArgs.bytes, cStruct, cFields, padding, CField.u32, CField.u64, CField.bool]
  rw [layout]
  exact more

/-- So the kernel reads these settings. -/
theorem kernelArgs_eq (cfg : FUTEXSNOOP) : kernelArgs cfg = some (readArgs cfg) :=
  -- What was written into the bytes is read back.
  read_bytes _

/-- A wait is stored exactly if it passes the filters of the kernel. -/
theorem start_futexEnter (maps : FutexMaps) (ctx : EnterCtx) :
    (maps.futexEnter ctx).1.start =
      if FutexMaps.accepts maps.args ctx then noted maps ctx else maps.start := by
  -- What is done with the lock does not touch the waits.
  unfold FutexMaps.futexEnter
  split
  · dsimp only
    split <;> rfl
  · rfl

/-- A filter lets a wait pass if its setting is unset or the wait's own. -/
theorem passes_iff {unset own : Prop} {_ : Decidable (¬unset)} {_ : Decidable (¬own)} :
    (!(decide (¬unset) && decide (¬own))) = true ↔ unset ∨ own := by
  -- The filter refuses what is neither.
  rw [Bool.not_eq_true', Bool.and_eq_false_iff, decide_eq_false_iff_not, decide_eq_false_iff_not,
    not_not, not_not]

/-- The filters that the kernel has read ask for the thread as the process, and the other way. -/
theorem accepts_readArgs {cfg : FUTEXSNOOP} {ctx : EnterCtx} (wait : FutexMaps.isWait ctx.op) :
    FutexMaps.accepts (readArgs cfg) ctx ↔
      (cfg.tid.toUInt64.toUInt32 = 0 ∨
        cfg.tid.toUInt64.toUInt32 = (ctx.pidTgid >>> 32).toUInt32) ∧
      (cfg.pid.toUInt64.toUInt32 = 0 ∨ cfg.pid.toUInt64.toUInt32 = ctx.pidTgid.toUInt32) := by
  -- No filter may refuse the wait, and the one for the lock is unset.
  simp only [FutexMaps.accepts, readArgs, Bool.and_eq_true]
  constructor
  · intro ⟨⟨⟨_, process⟩, thread⟩, _⟩
    exact ⟨passes_iff.mp process, passes_iff.mp thread⟩
  · intro ⟨process, thread⟩
    exact ⟨⟨⟨wait, passes_iff.mpr process⟩, passes_iff.mpr thread⟩, passes_iff.mpr (.inl rfl)⟩

/-- What a wait of a thread is filed under. -/
def filedUnder (args : UserArgs) (ctx : ExitCtx) (uaddr : UInt64) : HistKey where
  pidTgid := ctx.pidTgid
  uaddr := uaddr
  userStackId := if args.stack then ctx.userStackId else 0

/-- A wait that is recorded is filed under its key, unless it is a new one without room. -/
theorem histsMap_recordWait (arch : TargetArch) (maps : FutexMaps) (ctx : ExitCtx)
    (uaddr delta : UInt64) :
    ((maps.recordWait arch ctx uaddr delta).1.histsMap = maps.histsMap ∧
        maxEntries ≤ maps.histsMap.size) ∨
      ∃ hist, (maps.recordWait arch ctx uaddr delta).1.histsMap =
        maps.histsMap.insert (filedUnder maps.args ctx uaddr) hist := by
  -- The history under the key is looked up, and made first where there is none.
  unfold FutexMaps.recordWait
  cases stored : FutexMaps.lookupOrTryInit maps.histsMap (filedUnder maps.args ctx uaddr)
      .initial with
  | none =>
    left
    simp only [filedUnder] at stored
    simp only [stored, true_and]
    cases found : maps.histsMap.lookup (filedUnder maps.args ctx uaddr) with
    | some old =>
      simp only [filedUnder] at found
      simp [FutexMaps.lookupOrTryInit, found] at stored
    | none =>
      simp only [filedUnder] at found
      by_contra room
      simp [FutexMaps.lookupOrTryInit, found, updateElem, Nat.not_le.mp room] at stored
  | some pair =>
    right
    obtain ⟨map, old⟩ := pair
    -- Where it was made first, it is overwritten under the same key.
    have overwritten : ∀ hist, map.insert (filedUnder maps.args ctx uaddr) hist =
        maps.histsMap.insert (filedUnder maps.args ctx uaddr) hist := by
      intro hist
      unfold FutexMaps.lookupOrTryInit at stored
      split at stored
      · obtain ⟨rfl, rfl⟩ := Prod.mk.inj (Option.some.inj stored)
        rfl
      · rename_i absent
        obtain ⟨made, updated, same⟩ := Option.map_eq_some_iff.mp stored
        obtain ⟨rfl, rfl⟩ := Prod.mk.inj same
        simp only [updateElem, absent] at updated
        split at updated
        · obtain rfl := Option.some.inj updated
          exact AList.insert_insert _
        · cases updated
    simp only [filedUnder] at stored overwritten ⊢
    simp only [stored]
    split <;> exact ⟨_, overwritten _⟩

/-- No key is new in the histories after a wait but the one that the wait is filed under. -/
theorem histsMap_futexExit (arch : TargetArch) (maps : FutexMaps) (ctx : ExitCtx) (key : HistKey)
    (present : ((maps.futexExit arch ctx).1.histsMap.lookup key).isSome) :
    (maps.histsMap.lookup key).isSome ∨
      key.userStackId = if maps.args.stack then ctx.userStackId else 0 := by
  -- A thread that is not known to wait leaves the histories alone.
  cases found : maps.start.lookup ctx.pidTgid with
  | none =>
    left
    rwa [futexExit_absent arch found] at present
  | some vp =>
    simp only [FutexMaps.futexExit, found] at present
    split at present
    · exact .inl present
    · split at present
      · exact .inl present
      · -- The wait is recorded, with the lock it was on already counted off.
        rcases histsMap_recordWait arch
            { maps with lockMap := FutexMaps.lockExit maps.lockMap vp.uaddr } ctx vp.uaddr
            (ctx.now - vp.ts) with ⟨same, _⟩ | ⟨hist, stored⟩
        · left
          simpa only [same] using present
        · simp only [stored] at present
          by_cases same : key = filedUnder maps.args ctx vp.uaddr
          · right
            rw [same]
            rfl
          · left
            rwa [AList.lookup_insert_ne same] at present

/-- A wait that has ended well is filed where there is room. -/
theorem futexExit_files (arch : TargetArch) {maps : FutexMaps} {ctx : ExitCtx} {vp : ValT}
    (found : maps.start.lookup ctx.pidTgid = some vp) (succeeded : ¬ ctx.ret.toInt32 < 0)
    (forwards : ¬ (ctx.now - vp.ts).toInt64 < 0) (room : maps.histsMap.size < maxEntries) :
    ((maps.futexExit arch ctx).1.histsMap.lookup (filedUnder maps.args ctx vp.uaddr)).isSome := by
  -- The wait is recorded, and that finds room.
  simp only [FutexMaps.futexExit, found, succeeded, forwards, if_false]
  rcases histsMap_recordWait arch
      { maps with lockMap := FutexMaps.lockExit maps.lockMap vp.uaddr } ctx vp.uaddr
      (ctx.now - vp.ts) with ⟨_, full⟩ | ⟨hist, stored⟩
  · exact absurd room (Nat.not_lt.mpr full)
  · rw [stored, AList.lookup_insert]
    rfl

/-- The maps of a tracer that has just been attached. -/
def emptyMaps (args : UserArgs) : FutexMaps where
  start := ∅
  args := args
  lockMap := ∅
  histsMap := ∅

/-- The first wait of all finds room. -/
theorem noted_empty (args : UserArgs) (ctx : EnterCtx) :
    ((noted (emptyMaps args) ctx).lookup ctx.pidTgid).isSome := by
  -- The map of the waits is empty, so one more fits.
  have room : (∅ : Assoc UInt64 ValT).size < maxEntries := by decide
  rw [noted, emptyMaps, tryUpdateElem_new _ _ rfl room, AList.lookup_insert]
  rfl

section Obeyed

variable {cfg : FUTEXSNOOP} {args : UserArgs} (obeyed : Obeyed cfg args)

include obeyed

/-- A kernel that obeys its settings accepts exactly the waits that are asked for. -/
theorem Obeyed.accepts_iff {ctx : EnterCtx} (wait : FutexMaps.isWait ctx.op) :
    cfg.Accepts (ctx.pidTgid >>> 32).toUInt32 ctx.pidTgid.toUInt32 ctx.uaddr ↔
      FutexMaps.accepts args ctx := by
  -- Waits are told apart by what they do to maps that have just been made.
  obtain ⟨wanted, others⟩ := obeyed.enter (emptyMaps args) ctx rfl wait
  rw [start_futexEnter] at wanted others
  have stored := noted_empty args ctx
  constructor
  · intro asked
    by_contra refused
    have lost : (emptyMaps args).start = noted (emptyMaps args) ctx := by
      simpa [emptyMaps, refused] using wanted asked
    rw [← lost] at stored
    cases stored
  · intro accepted
    by_contra unasked
    have kept : noted (emptyMaps args) ctx = (emptyMaps args).start := by
      simpa [emptyMaps, accepted] using others unasked
    rw [kept] at stored
    cases stored

/-- A kernel that keeps no stacks obeys only if none are asked for. -/
theorem Obeyed.stack_eq (unset : args.stack = false) : cfg.stack = false := by
  -- The first wait of all is filed under the number zero, whatever number its stack has.
  by_contra asked
  let maps : FutexMaps :=
    { emptyMaps args with start := (∅ : Assoc UInt64 ValT).insert 1 { ts := 0, uaddr := 0 } }
  let ctx : ExitCtx := { pidTgid := 1, comm := [], now := 0, ret := 0, userStackId := 1 }
  have found : maps.start.lookup ctx.pidTgid = some (⟨0, 0⟩ : ValT) := AList.lookup_insert _
  have succeeded : ¬ (0 : Int64).toInt32 < 0 := by decide
  have forwards : ¬ ((0 : UInt64) - 0).toInt64 < 0 := by decide
  have room : (∅ : Assoc HistKey Hist).size < maxEntries := by decide
  have filed := futexExit_files .amd64 found succeeded forwards room
  rcases obeyed.stack .amd64 maps ctx _ rfl filed with old | named
  · cases old
  · simp [filedUnder, maps, emptyMaps, unset, asked, ctx] at named

end Obeyed

/-- What is asked for and what is accepted, in numbers. -/
theorem accepts_numbers {cfg : FUTEXSNOOP} (obeyed : Obeyed cfg (readArgs cfg))
    (pid tid : UInt32) (uaddr : UInt64) :
    ((cfg.pid.toInt = 0 ∨ cfg.pid.toInt = -1 ∨ cfg.pid.toInt = pid.toNat) ∧
        (cfg.tid.toInt = 0 ∨ cfg.tid.toInt = -1 ∨ cfg.tid.toInt = tid.toNat) ∧
        (cfg.targetLock = 0 ∨ cfg.targetLock = uaddr)) ↔
      (cfg.tid.toUInt64.toUInt32.toNat = 0 ∨ cfg.tid.toUInt64.toUInt32.toNat = pid.toNat) ∧
        (cfg.pid.toUInt64.toUInt32.toNat = 0 ∨ cfg.pid.toUInt64.toUInt32.toNat = tid.toNat) := by
  -- A thread with these numbers waits on the address.
  let ctx : EnterCtx :=
    { pidTgid := ofHalves pid tid, comm := [], now := 0, uaddr := uaddr, op := 0 }
  have wait : FutexMaps.isWait ctx.op := by
    show FutexMaps.isWait 0 = true
    decide
  have same := (obeyed.accepts_iff wait).trans (accepts_readArgs wait)
  rw [show (ctx.pidTgid >>> 32).toUInt32 = pid from upper_ofHalves pid tid,
    show ctx.pidTgid.toUInt32 = tid from lower_ofHalves pid tid] at same
  simp only [FUTEXSNOOP.Accepts, ← Int64.toInt_inj, ← UInt32.toNat_inj] at same
  exact same

/-- Only a configuration of that kind is obeyed. -/
theorem Obeyed.plain {cfg : FUTEXSNOOP} (obeyed : Obeyed cfg (readArgs cfg)) : Plain cfg := by
  have accepts := accepts_numbers obeyed
  have exchanged : cfg.tid.toUInt64.toUInt32 = cfg.pid.toUInt64.toUInt32 :=
    congrArg UserArgs.targPid obeyed.written
  have process := toNat_narrow cfg.pid
  have thread := toNat_narrow cfg.tid
  generalize cfg.pid.toUInt64.toUInt32 = number at *
  rw [exchanged] at thread accepts
  -- The thread with both numbers equal to the setting is accepted on every address.
  have own := accepts number number (cfg.targetLock + 1)
  -- Nothing is accepted that differs in one of them, unless the setting is zero.
  have foreign := accepts 0 number cfg.targetLock
  have sibling := accepts number 0 cfg.targetLock
  have unlocked : cfg.targetLock = 0 := by
    rcases (own.mpr ⟨.inr rfl, .inr rfl⟩).2.2 with zero | next
    · exact zero
    · exact absurd next (by simp)
  have zero : (0 : UInt32).toNat = 0 := rfl
  simp only [unlocked, true_or, and_true, zero, or_true, true_and, iff_true] at own foreign sibling
  have numbers : cfg.pid.toInt = cfg.tid.toInt ∧ 0 ≤ cfg.pid.toInt ∧ cfg.pid.toInt < 2 ^ 32 := by
    have range := number.toNat_lt
    omega
  exact ⟨Int64.toInt_inj.mp numbers.1, numbers.2.1, numbers.2.2, unlocked, obeyed.stack_eq rfl⟩

/-- A configuration of that kind is obeyed. -/
theorem Plain.obeyed {cfg : FUTEXSNOOP} (plain : Plain cfg) : Obeyed cfg (readArgs cfg) := by
  -- With one number for both, it does not matter that they are exchanged.
  obtain ⟨same, low, high, unlocked, unset⟩ := plain
  have number := toNat_narrow cfg.pid
  have positive : (0 : Int64).toInt = 0 := rfl
  have negative : (-1 : Int64).toInt = -1 := rfl
  have asked : ∀ pid tid uaddr, cfg.Accepts pid tid uaddr ↔
      (cfg.tid.toUInt64.toUInt32 = 0 ∨ cfg.tid.toUInt64.toUInt32 = pid) ∧
        (cfg.pid.toUInt64.toUInt32 = 0 ∨ cfg.pid.toUInt64.toUInt32 = tid) := by
    intro pid tid uaddr
    have zero : (0 : UInt32).toNat = 0 := rfl
    simp only [FUTEXSNOOP.Accepts, ← same, unlocked, true_or, and_true, ← Int64.toInt_inj,
      ← UInt32.toNat_inj, positive, negative, zero]
    omega
  constructor
  · intro maps ctx settings wait
    have accepted := (asked (ctx.pidTgid >>> 32).toUInt32 ctx.pidTgid.toUInt32 ctx.uaddr).trans
      (accepts_readArgs wait).symm
    rw [start_futexEnter, settings, accepted]
    exact ⟨fun passes => if_pos passes, fun refused => if_neg refused⟩
  · intro arch maps ctx key settings present
    have filed := histsMap_futexExit arch maps ctx key present
    rwa [settings, show (readArgs cfg).stack = cfg.stack from unset.symm] at filed
  · rw [readArgs, FutexSnoopArgs.meant, FutexSnoopArgs.initArgsMap, newFutexSnoopSession, same]

/--
The kernel filters waits and keeps stacks as configured exactly for configurations that name one
number for the process and the thread, no lock, and no stacks.
-/
theorem kernelArgs_obeyed_iff (cfg : FUTEXSNOOP) :
    (∃ args, kernelArgs cfg = some args ∧ Obeyed cfg args) ↔ Plain cfg := by
  -- The settings that the kernel reads are known, so only their meaning is in question.
  rw [kernelArgs_eq]
  constructor
  · rintro ⟨args, read, obeyed⟩
    obtain rfl := Option.some.inj read
    exact obeyed.plain
  · exact fun plain => ⟨_, rfl, plain.obeyed⟩

/-- A configuration that asks for the waits of one process. -/
def oneProcess : FUTEXSNOOP where
  pid := 100
  tid := 0
  maxDurMs := 1000000
  minDurMs := 1000
  maxLockHoldUsers := 100
  targetLock := 0
  stack := false

/-- The first thread of the process is left out, and a thread of another one is not. -/
theorem one_process_exchanged :
    ∃ args, kernelArgs oneProcess = some args ∧ ¬ Obeyed oneProcess args ∧
      oneProcess.Accepts 100 101 4096 ∧
      FutexMaps.accepts args
        { pidTgid := ofHalves 100 101, comm := [], now := 0, uaddr := 4096, op := 0 } = false ∧
      ¬ oneProcess.Accepts 7 100 4096 ∧
      FutexMaps.accepts args
        { pidTgid := ofHalves 7 100, comm := [], now := 0, uaddr := 4096, op := 0 } = true := by
  -- The number of the process is compared with that of the thread.
  refine ⟨_, kernelArgs_eq oneProcess, fun obeyed => ?_, ?_, by decide, ?_, by decide⟩
  · exact absurd obeyed.plain.same (by decide)
  · exact ⟨by decide, by decide, by decide⟩
  · exact fun asked => absurd asked.1 (by decide)

end Spycat.Futexsnoop
