import Spycat.Proofs.Ebpf.FutexFilters
import Spycat.Proofs.Ebpf.FutexSlots

/-! The history under a key is made of the waits that were recorded for it, one after the other. -/

namespace Spycat.Futexsnoop

open Lib Bpf

/-- A wait as it is recorded: how many microseconds it took, when it ended, and whose it was. -/
structure Wait where
  duration : UInt64
  ts : UInt64
  comm : Bytes
  deriving DecidableEq

namespace Hist

/-- A history with waits counted one after the other. -/
def recordAll (arch : TargetArch) (h : Hist) (waits : List Wait) : Hist :=
  waits.foldl (fun h wait => h.record arch wait.duration wait.ts wait.comm) h

/-- A history without the fields that are filled in for a report. -/
def figures (h : Hist) : Hist :=
  { h with pidTgid := 0, uaddr := 0, userStackId := 0, deltaDur := 0 }

/-- Counting a wait does not look at the fields of a report. -/
theorem figures_record (arch : TargetArch) (h : Hist) (delta ts : UInt64) (comm : Bytes) :
    (h.record arch delta ts comm).figures = h.figures.record arch delta ts comm := by
  -- Both variants compare with the longest wait, which stays among the figures.
  cases arch <;> by_cases longer : h.maxDur < delta <;>
    simp [record, updateDurs, figures, longer]

end Hist

/-- A history is found under a key, or made where there is room. -/
def FutexMaps.HasRoom (maps : FutexMaps) (key : HistKey) : Prop :=
  (maps.histsMap.lookup key).isSome ∨ maps.histsMap.size < maxEntries

instance (maps : FutexMaps) (key : HistKey) : Decidable (maps.HasRoom key) :=
  inferInstanceAs (Decidable (_ ∨ _))

/-- The wait that the end of a call records, and the key that it is filed under. -/
def FutexMaps.waitOf (maps : FutexMaps) (ctx : ExitCtx) : Option (HistKey × Wait) :=
  (maps.start.lookup ctx.pidTgid).bind fun vp =>
    if ctx.ret.toInt32 < 0 ∨ (ctx.now - vp.ts).toInt64 < 0 then none
    else
      let key := filedUnder maps.args ctx vp.uaddr
      if maps.HasRoom key then
        some (key, { duration := (ctx.now - vp.ts) / 1000, ts := ctx.now, comm := ctx.comm })
      else none

/-- The wait that a handler records. -/
def FutexTracer.waitOf (s : FutexTracer) : FutexAction → Option (HistKey × Wait)
  | .enter _ => none
  | .exit ctx => s.maps.waitOf ctx

/-- The waits that a run records under a key. -/
def recordedUnder (arch : TargetArch) (first : FutexTracer) (key : HistKey)
    (actions : List FutexAction) : List Wait :=
  (observed (FutexTracer.step arch) FutexTracer.waitOf first actions).filterMap fun filed =>
    if filed.1 = key then some filed.2 else none

/-- The history of waits: none before the first one. -/
inductive HistoryOf (arch : TargetArch) : List Wait → Option Hist → Prop
  | nothing : HistoryOf arch [] none
  | recorded {waits : List Wait} {h : Hist} (some_ : waits ≠ [])
      (same : h.figures = Hist.initial.recordAll arch waits) : HistoryOf arch waits (some h)

/-- The history that a wait is taken into: the one under its key, or one without waits. -/
def FutexMaps.historyUnder (maps : FutexMaps) (key : HistKey) : Hist :=
  (maps.histsMap.lookup key).getD .initial

/-- The lookup finds the history under a key; a history that it makes is stored under the key. -/
theorem lookupOrTryInit_found {maps : FutexMaps} {key : HistKey} (room : maps.HasRoom key) :
    ∃ map, FutexMaps.lookupOrTryInit maps.histsMap key .initial =
        some (map, maps.historyUnder key) ∧
      ∀ hist, map.insert key hist = maps.histsMap.insert key hist := by
  -- A history that is made has nothing in it, and is overwritten at once.
  cases found : maps.histsMap.lookup key with
  | some old =>
    exact ⟨maps.histsMap, by simp [FutexMaps.lookupOrTryInit, FutexMaps.historyUnder, found],
      fun _ => rfl⟩
  | none =>
    have fits : maps.histsMap.size < maxEntries := room.resolve_left (by simp [found])
    exact ⟨maps.histsMap.insert key .initial,
      by simp [FutexMaps.lookupOrTryInit, FutexMaps.historyUnder, found, updateElem, fits],
      fun hist => AList.insert_insert _⟩

/-- Without room there is neither a history nor a new one. -/
theorem lookupOrTryInit_full {maps : FutexMaps} {key : HistKey} (full : ¬ maps.HasRoom key) :
    FutexMaps.lookupOrTryInit maps.histsMap key .initial = none := by
  -- A new history is refused where the map is full.
  obtain ⟨absent, many⟩ := not_or.mp full
  have absent : maps.histsMap.lookup key = none := by simpa using absent
  simp [FutexMaps.lookupOrTryInit, absent, updateElem, many]

/-- A wait is reported that is between the bounds of the settings and longer than the average. -/
def UserArgs.Reports (args : UserArgs) (delta avg : UInt64) : Prop :=
  delta > args.minDurMs.toUInt64 ∧ delta < args.maxDurMs.toUInt64 ∧ delta > avg

/-- Where there is room, a wait is taken into the history under its key and may be reported. -/
theorem recordWait_files (arch : TargetArch) (maps : FutexMaps) (ctx : ExitCtx)
    (uaddr delta : UInt64) (room : maps.HasRoom (filedUnder maps.args ctx uaddr)) :
    ∃ hist : Hist,
      hist.figures = (maps.historyUnder (filedUnder maps.args ctx uaddr)).figures.record arch
        (delta / 1000) ctx.now ctx.comm ∧
      (maps.recordWait arch ctx uaddr delta).1.histsMap =
        maps.histsMap.insert (filedUnder maps.args ctx uaddr) hist ∧
      ((∃ event, (maps.recordWait arch ctx uaddr delta).2 = some (.task event)) ↔
        maps.args.Reports (delta / 1000) (hist.totalElapsed / hist.contended)) := by
  obtain ⟨map, looked, overwritten⟩ := lookupOrTryInit_found room
  simp only [filedUnder] at looked overwritten ⊢
  simp only [FutexMaps.recordWait, looked]
  -- The number of the stack is one or the other, and nothing else depends on it.
  generalize (if maps.args.stack = true then ctx.userStackId else 0) = stackId at overwritten ⊢
  split
  · rename_i reports
    refine ⟨_, ?_, overwritten _, ?_⟩
    · rw [← Hist.figures_record]
      rfl
    · simpa [UserArgs.Reports] using reports
  · rename_i silent
    refine ⟨_, (Hist.figures_record arch _ _ _ _), overwritten _, ?_⟩
    simpa [UserArgs.Reports] using silent

/-- Where there is no room, nothing changes. -/
theorem recordWait_full (arch : TargetArch) (maps : FutexMaps) (ctx : ExitCtx)
    (uaddr delta : UInt64) (full : ¬ maps.HasRoom (filedUnder maps.args ctx uaddr)) :
    maps.recordWait arch ctx uaddr delta = (maps, none) := by
  -- The source gives up where it finds no history.
  have looked := lookupOrTryInit_full full
  simp only [filedUnder] at looked
  simp only [FutexMaps.recordWait, looked]

section Exit

variable {maps : FutexMaps} {ctx : ExitCtx}

/-- What it means that a wait is recorded. -/
theorem waitOf_eq_some {key : HistKey} {wait : Wait}
    (recorded : maps.waitOf ctx = some (key, wait)) :
    ∃ vp, maps.start.lookup ctx.pidTgid = some vp ∧ ¬ ctx.ret.toInt32 < 0 ∧
      ¬ (ctx.now - vp.ts).toInt64 < 0 ∧ key = filedUnder maps.args ctx vp.uaddr ∧
      wait = { duration := (ctx.now - vp.ts) / 1000, ts := ctx.now, comm := ctx.comm } ∧
      maps.HasRoom key := by
  -- Each check of the source leaves one condition behind.
  obtain ⟨vp, found, ended⟩ := Option.bind_eq_some_iff.mp recorded
  split at ended
  · cases ended
  · rename_i well
    obtain ⟨succeeded, forwards⟩ := not_or.mp well
    simp only at ended
    split at ended
    · rename_i room
      obtain ⟨rfl, rfl⟩ := Prod.mk.inj (Option.some.inj ended)
      exact ⟨vp, found, succeeded, forwards, rfl, rfl, room⟩
    · cases ended

/-- A wait that is recorded goes into the history under its key, and may be reported. -/
theorem futexExit_records (arch : TargetArch) {key : HistKey} {wait : Wait}
    (recorded : maps.waitOf ctx = some (key, wait)) :
    ∃ hist : Hist,
      hist.figures =
        (maps.historyUnder key).figures.record arch wait.duration wait.ts wait.comm ∧
      (maps.futexExit arch ctx).1.histsMap = maps.histsMap.insert key hist ∧
      ((∃ event, (maps.futexExit arch ctx).2 = some (.task event)) ↔
        maps.args.Reports wait.duration (hist.totalElapsed / hist.contended)) := by
  -- What is done with the lock does not touch the histories.
  obtain ⟨vp, found, succeeded, forwards, rfl, rfl, room⟩ := waitOf_eq_some recorded
  obtain ⟨hist, figures, stored, reports⟩ := recordWait_files arch
    { maps with lockMap := FutexMaps.lockExit maps.lockMap vp.uaddr } ctx vp.uaddr
    (ctx.now - vp.ts) room
  refine ⟨hist, figures, ?_, ?_⟩
  · simpa only [FutexMaps.futexExit, found, succeeded, forwards, if_false] using stored
  · simpa only [FutexMaps.futexExit, found, succeeded, forwards, if_false] using reports

/-- A call that records no wait leaves the histories alone and reports nothing. -/
theorem futexExit_silent (arch : TargetArch) (silent : maps.waitOf ctx = none) :
    (maps.futexExit arch ctx).1.histsMap = maps.histsMap ∧ (maps.futexExit arch ctx).2 = none := by
  -- There is no wait, or it failed, or the clock went back, or there is no room.
  cases found : maps.start.lookup ctx.pidTgid with
  | none =>
    rw [futexExit_absent arch found]
    exact ⟨rfl, rfl⟩
  | some vp =>
    simp only [FutexMaps.waitOf, found, Option.bind_some] at silent
    simp only [FutexMaps.futexExit, found]
    by_cases failed : ctx.ret.toInt32 < 0
    · simp only [failed, if_true, and_self]
    · by_cases back : (ctx.now - vp.ts).toInt64 < 0
      · simp only [failed, back, if_true, if_false, and_self]
      · simp only [failed, back, or_self, if_false, ite_eq_right_iff, reduceCtorEq] at silent ⊢
        rw [recordWait_full arch { maps with lockMap := FutexMaps.lockExit maps.lockMap vp.uaddr }
          ctx vp.uaddr (ctx.now - vp.ts) silent]
        exact ⟨rfl, rfl⟩

/-- The beginning of a call leaves the histories and the settings alone, and reports no wait. -/
theorem futexEnter_keeps (maps : FutexMaps) (ctx : EnterCtx) :
    (maps.futexEnter ctx).1.histsMap = maps.histsMap ∧ (maps.futexEnter ctx).1.args = maps.args ∧
      ∀ event, (maps.futexEnter ctx).2 ≠ some (.task event) := by
  -- A beginning that is accepted writes the waits and the locks alone.
  by_cases accepted : FutexMaps.accepts maps.args ctx
  · cases found : maps.lockMap.lookup ctx.uaddr with
    | none => simp [FutexMaps.futexEnter, accepted, found]
    | some lock =>
      simp only [FutexMaps.futexEnter, accepted, if_true, found, true_and]
      intro event
      split <;> simp
  · simp [FutexMaps.futexEnter, accepted]

end Exit

/-- The settings stay, and every history is that of the waits that were recorded for it. -/
structure Filed (arch : TargetArch) (first : FutexTracer) (past : List FutexAction)
    (s : FutexTracer) : Prop where
  reached : run (FutexTracer.step arch) first past = some s
  settings : s.maps.args = first.maps.args
  histories : ∀ key, HistoryOf arch (recordedUnder arch first key past) (s.maps.histsMap.lookup key)

section Steps

variable {arch : TargetArch} {first : FutexTracer} {past : List FutexAction} {s s' : FutexTracer}

/-- One more wait is taken into the history of the others. -/
theorem HistoryOf.next {waits : List Wait} {wait : Wait} {maps : FutexMaps} {key : HistKey}
    (history : HistoryOf arch waits (maps.histsMap.lookup key)) {hist : Hist}
    (figures : hist.figures =
      (maps.historyUnder key).figures.record arch wait.duration wait.ts wait.comm) :
    HistoryOf arch (waits ++ [wait]) (some hist) := by
  -- The history so far is the one that the next wait is taken into.
  have before : (maps.historyUnder key).figures = Hist.initial.recordAll arch waits := by
    unfold FutexMaps.historyUnder
    generalize maps.histsMap.lookup key = stored at history ⊢
    cases history with
    | nothing => rfl
    | recorded some_ same => exact same
  refine .recorded (by simp) (figures.trans ?_)
  rw [before, Hist.recordAll, Hist.recordAll, List.foldl_append]
  rfl

/-- The waits of a run with one more step. -/
theorem recordedUnder_append (reached : run (FutexTracer.step arch) first past = some s)
    (action : FutexAction) (key : HistKey) :
    recordedUnder arch first key (past ++ [action]) =
      recordedUnder arch first key past ++ ((s.waitOf action).bind fun filed =>
        if filed.1 = key then some filed.2 else none).toList := by
  -- The last step records one wait more, under one key, or none.
  rw [recordedUnder, observed_append _ reached, List.filterMap_append]
  congr 1
  cases s.waitOf action with
  | none => rfl
  | some filed => by_cases same : filed.1 = key <;> simp [same]

/-- Every handler keeps the histories those of the waits. -/
theorem Filed.step (filed : Filed arch first past s) {action : FutexAction}
    (stepped : s.step arch action = some s') : Filed arch first (past ++ [action]) s' := by
  -- Only the end of a call can change a history, and only the one of its wait.
  obtain ⟨reached, settings, histories⟩ := filed
  have further : run (FutexTracer.step arch) first (past ++ [action]) = some s' := by
    simp [run_append, reached, stepped]
  cases action with
  | enter ctx =>
    have kept := futexEnter_keeps s.maps ctx
    obtain ⟨-, rfl⟩ := FutexTracer.step_enter stepped
    refine ⟨further, kept.2.1.trans settings, fun key => ?_⟩
    rw [recordedUnder_append reached, kept.1]
    simpa [FutexTracer.waitOf] using histories key
  | exit ctx =>
    obtain rfl := FutexTracer.step_exit stepped
    refine ⟨further, ?_, fun key => ?_⟩
    · cases found : s.maps.start.lookup ctx.pidTgid with
      | none =>
        rw [futexExit_absent arch found]
        exact settings
      | some vp => exact (futexExit_present arch found).1.trans settings
    · rw [recordedUnder_append reached]
      show HistoryOf arch _ ((s.maps.futexExit arch ctx).1.histsMap.lookup key)
      simp only [FutexTracer.waitOf]
      cases recorded : s.maps.waitOf ctx with
      | none =>
        rw [(futexExit_silent arch recorded).1]
        simpa using histories key
      | some filed =>
        obtain ⟨own, wait⟩ := filed
        obtain ⟨hist, figures, stored, _⟩ := futexExit_records arch recorded
        rw [stored]
        by_cases same : own = key
        · subst same
          simpa using (histories own).next figures
        · rw [AList.lookup_insert_ne (Ne.symm same)]
          simpa [same] using histories key

theorem run_filed {actions : List FutexAction} (args : UserArgs) (inside : UInt64 → Bool)
    (ran : run (FutexTracer.step arch) (.new args inside) actions = some s) :
    Filed arch (.new args inside) actions s :=
  -- Before the first step there are neither waits nor histories.
  run_history (Filed arch (.new args inside)) ⟨rfl, rfl, fun _ => .nothing⟩
    (fun _ _ _ _ filed stepped => filed.step stepped) ran

end Steps

/-- Settings that accept every wait and report none. -/
def everyWait : UserArgs where
  targPid := 0
  targTid := 0
  targLock := 0
  stack := false
  minDurMs := 0
  maxDurMs := 0
  maxLockHoldUsers := 0

/-- A thread begins to wait on a lock. -/
def enterAt (now : UInt64) : FutexAction :=
  .enter { pidTgid := 1, comm := [], now := now, uaddr := 7, op := 0 }

/-- Its wait ends well. -/
def exitAt (now : UInt64) : FutexAction :=
  .exit { pidTgid := 1, comm := [], now := now, ret := 0, userStackId := 0 }

/-- A tracer that accepts every wait. -/
def openTracer : FutexTracer := .new everyWait fun _ => false

/-- Waits of a thread on a lock, of no time and of five microseconds. -/
def shortWaits : List FutexAction := [enterAt 0, exitAt 0, enterAt 0, exitAt 5000]

/-- Both are recorded. -/
theorem recordedUnder_shortWaits :
    recordedUnder .other openTracer ⟨1, 7, 0⟩ shortWaits = [⟨0, 0, []⟩, ⟨5, 5000, []⟩] := by
  -- The run is evaluated.
  decide +kernel

end Spycat.Futexsnoop
