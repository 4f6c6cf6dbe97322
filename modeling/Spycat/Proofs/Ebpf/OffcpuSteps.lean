import Spycat.Ebpf.Offcpu

/-! What the hooks of the off-CPU tracer do to its maps, and when they emit an event. -/

namespace Spycat.Offcpu

open Lib Bpf

/-- The record of a task that took a CPU, as it is left for the next event. -/
def TraceEventT.leftBehind (ep : TraceEventT) (ctx : SwitchCtx) : TraceEventT :=
  let ep := ep.switchedIn ctx
  { ep with target := { ep.target with runDelayNs := ctx.curRunDelay } }

namespace OffcpuMaps

variable {maps : OffcpuMaps}

/-- A task that is not woken up, or not traced, leaves the maps as they are. -/
theorem tryToWakeUpHook_refused {ctx : WakeCtx}
    (refused : (ctx.wakes && maps.args.isTargetTask ctx.task) = false) :
    maps.tryToWakeUpHook ctx = maps := by
  -- Either the first or the second check of the source returns.
  unfold tryToWakeUpHook
  cases wakes : ctx.wakes with
  | false => simp
  | true => simp only [wakes, Bool.true_and] at refused; simp [refused]

/-- The wakeup of a traced task is recorded under its number. -/
theorem tryToWakeUpHook_start {ctx : WakeCtx}
    (accepted : (ctx.wakes && maps.args.isTargetTask ctx.task) = true) :
    Upserted maxEntries maps.start ctx.task.pid (.ofWakeup ctx) (·.wokenUp ctx)
      (maps.tryToWakeUpHook ctx).start := by
  -- The two branches of the source are the two outcomes of the lookup.
  obtain ⟨wakes, target⟩ := Bool.and_eq_true_iff.mp accepted
  have recorded :=
    upserted maxEntries maps.start ctx.task.pid (.ofWakeup ctx) (fun ep => ep.wokenUp ctx)
  simp only [tryToWakeUpHook, wakes, target, Bool.not_true, Bool.false_eq_true, if_false]
  cases found : maps.start.lookup ctx.task.pid with
  | none => simpa only [found] using recorded
  | some ep => simpa only [found] using recorded

/-- A wakeup writes the records of tasks and nothing else. -/
theorem tryToWakeUpHook_frame (ctx : WakeCtx) :
    ∃ start, maps.tryToWakeUpHook ctx = { maps with start := start } := by
  unfold tryToWakeUpHook
  split
  · exact ⟨maps.start, rfl⟩
  · split
    · exact ⟨maps.start, rfl⟩
    · -- Whether there is a record already, only that map is written.
      split
      · exact ⟨_, rfl⟩
      · exact ⟨_, rfl⟩

@[simp] theorem tryToWakeUpHook_args (ctx : WakeCtx) :
    (maps.tryToWakeUpHook ctx).args = maps.args := by
  -- The hook only stores a record.
  obtain ⟨start, frame⟩ := maps.tryToWakeUpHook_frame ctx
  rw [frame]

@[simp] theorem tryToWakeUpHook_perfEventCache (ctx : WakeCtx) :
    (maps.tryToWakeUpHook ctx).perfEventCache = maps.perfEventCache := by
  -- The hook only stores a record.
  obtain ⟨start, frame⟩ := maps.tryToWakeUpHook_frame ctx
  rw [frame]

@[simp] theorem tryToWakeUpHook_schedCacheBackup (ctx : WakeCtx) :
    (maps.tryToWakeUpHook ctx).schedCacheBackup = maps.schedCacheBackup := by
  -- The hook only stores a record.
  obtain ⟨start, frame⟩ := maps.tryToWakeUpHook_frame ctx
  rw [frame]

/-- A task that is not traced gives up a CPU without a note. -/
theorem notePrev_refused {ctx : SwitchCtx} (refused : maps.args.isTargetTask ctx.prev = false) :
    maps.notePrev ctx = maps := by
  -- The first check of the hook refuses the task.
  simp [notePrev, refused]

/-- That a traced task gives up a CPU is recorded under its number. -/
theorem notePrev_start {ctx : SwitchCtx} (accepted : maps.args.isTargetTask ctx.prev = true) :
    Upserted maxEntries maps.start ctx.prev.pid (.ofSwitch ctx) (·.switchedOut ctx)
      (maps.notePrev ctx).start := by
  -- The two branches of the source are the two outcomes of the lookup.
  have recorded :=
    upserted maxEntries maps.start ctx.prev.pid (.ofSwitch ctx) (fun ep => ep.switchedOut ctx)
  simp only [notePrev, accepted, if_true]
  cases found : maps.start.lookup ctx.prev.pid with
  | none => simpa only [found] using recorded
  | some ep => simpa only [found] using recorded

/-- Noting the previous task writes the records of tasks and nothing else. -/
theorem notePrev_frame (ctx : SwitchCtx) :
    ∃ start, maps.notePrev ctx = { maps with start := start } := by
  -- A task that is not traced is not noted.
  unfold notePrev
  split
  · -- Whether there is a record already, only that map is written.
    split
    · exact ⟨_, rfl⟩
    · exact ⟨_, rfl⟩
  · exact ⟨maps.start, rfl⟩

/-- The maps of a switch once the cache is updated and the previous task noted. -/
def noted (maps : OffcpuMaps) (ctx : SwitchCtx) : OffcpuMaps :=
  (if maps.args.rqDurMs ≠ 0 then maps.schedCacheUpdate ctx else maps).notePrev ctx

theorem schedSwitchHook_eq (ctx : SwitchCtx) :
    maps.schedSwitchHook ctx = (maps.noted ctx).reportCur ctx := rfl

/-- Before the current task is looked at, a switch writes the caches and the records only. -/
theorem noted_frame (ctx : SwitchCtx) :
    ∃ start schedCache,
      maps.noted ctx = { maps with start := start, schedCache := schedCache } := by
  -- The cache is written first, and noting the task leaves it alone.
  unfold noted
  split
  · obtain ⟨start, frame⟩ := (maps.schedCacheUpdate ctx).notePrev_frame ctx
    exact ⟨start, (maps.schedCacheUpdate ctx).schedCache, frame⟩
  · obtain ⟨start, frame⟩ := maps.notePrev_frame ctx
    exact ⟨start, maps.schedCache, frame⟩

@[simp] theorem noted_args (ctx : SwitchCtx) : (maps.noted ctx).args = maps.args := by
  -- The first half of the hook stores a record and writes into the cache.
  obtain ⟨start, schedCache, frame⟩ := maps.noted_frame ctx
  rw [frame]

@[simp] theorem noted_perfEventCache (ctx : SwitchCtx) :
    (maps.noted ctx).perfEventCache = maps.perfEventCache := by
  -- The first half of the hook stores a record and writes into the cache.
  obtain ⟨start, schedCache, frame⟩ := maps.noted_frame ctx
  rw [frame]

@[simp] theorem noted_schedCacheBackup (ctx : SwitchCtx) :
    (maps.noted ctx).schedCacheBackup = maps.schedCacheBackup := by
  -- The first half of the hook stores a record and writes into the cache.
  obtain ⟨start, schedCache, frame⟩ := maps.noted_frame ctx
  rw [frame]

/-- The records of tasks do not depend on the caches. -/
@[simp] theorem noted_start (ctx : SwitchCtx) :
    (maps.noted ctx).start = (maps.notePrev ctx).start := by
  unfold noted
  split
  · -- Updating a cache leaves the records and the settings as they are.
    have settings : (maps.schedCacheUpdate ctx).args = maps.args := rfl
    have records : (maps.schedCacheUpdate ctx).start = maps.start := rfl
    simp only [notePrev, settings, records]
    split
    · split <;> rfl
    · rfl
  · rfl

/-- The current task is traced, and its record says that its time off the CPU is reported. -/
structure Reported (maps : OffcpuMaps) (ctx : SwitchCtx) (ep : TraceEventT) : Prop where
  target : maps.args.isTargetTask ctx.cur = true
  found : (maps.notePrev ctx).start.lookup ctx.cur.pid = some ep
  reports : maps.args.reports ep ctx.now = true

/-- A number has one record. -/
theorem Reported.unique {ctx : SwitchCtx} {ep ep' : TraceEventT} (first : maps.Reported ctx ep)
    (second : maps.Reported ctx ep') : ep = ep' :=
  -- There is one record for the task.
  Option.some.inj (first.found.symm.trans second.found)

/-- What becomes of the maps when the current task's record is completed, and what is emitted. -/
inductive Switched (maps : OffcpuMaps) (ctx : SwitchCtx) : OffcpuMaps × Option PerfEventT → Prop
  | unknown (silent : ∀ ep, ¬ maps.Reported ctx ep) : Switched maps ctx (maps.noted ctx, none)
  | silent {ep : TraceEventT} (found : (maps.notePrev ctx).start.lookup ctx.cur.pid = some ep)
      (silent : ∀ ep, ¬ maps.Reported ctx ep) :
      Switched maps ctx
        ({ maps.noted ctx with
            start := (maps.noted ctx).start.insert ctx.cur.pid (ep.leftBehind ctx) }, none)
  | reported {ep : TraceEventT} (reported : maps.Reported ctx ep) :
      Switched maps ctx
        ({ (if (maps.noted ctx).args.dumps ep ctx.curRunDelay then
              (maps.noted ctx).schedCacheDump ctx.cpu
            else maps.noted ctx) with
            start := (maps.noted ctx).start.insert ctx.cur.pid (ep.leftBehind ctx)
            perfEventCache :=
              Function.update (maps.noted ctx).perfEventCache ctx.cpu
                ((maps.noted ctx).perfEvent (ep.switchedIn ctx) ctx) },
          some ((maps.noted ctx).perfEvent (ep.switchedIn ctx) ctx))

/-- The fields of an event that come from the record. -/
@[simp] theorem perfEvent_waker (ep : TraceEventT) (ctx : SwitchCtx) :
    (maps.perfEvent ep ctx).waker = ep.waker := by
  -- The mark of a dump is no part of the waker.
  unfold perfEvent
  split <;> rfl

@[simp] theorem perfEvent_durMs (ep : TraceEventT) (ctx : SwitchCtx) :
    (maps.perfEvent ep ctx).durMs = (ep.delta ctx.now).toInt64.toUInt64 := by
  -- The mark of a dump is no part of the duration.
  unfold perfEvent
  split <;> rfl

@[simp] theorem perfEvent_target (ep : TraceEventT) (ctx : SwitchCtx) :
    (maps.perfEvent ep ctx).target =
      { ep.target with
        kernStackId := ctx.kernStackId
        userStackId := ctx.userStackId
        comm := ctx.curComm } := by
  -- Marking the event does not change its target.
  unfold perfEvent
  split <;> rfl

/-- Every switch is one of these. -/
theorem schedSwitchHook_switched (ctx : SwitchCtx) :
    maps.Switched ctx (maps.schedSwitchHook ctx) := by
  -- The cases are the returns of the source, from the first one on.
  rw [schedSwitchHook_eq, reportCur]
  cases target : (maps.noted ctx).args.isTargetTask ctx.cur with
  | false =>
    refine .unknown fun ep reported => ?_
    rw [noted_args, reported.target] at target
    cases target
  | true =>
    simp only [Bool.not_true, Bool.false_eq_true, if_false]
    cases found : (maps.noted ctx).start.lookup ctx.cur.pid with
    | none =>
      refine .unknown fun ep reported => ?_
      rw [noted_start, reported.found] at found
      cases found
    | some ep =>
      have noted : (maps.notePrev ctx).start.lookup ctx.cur.pid = some ep := by
        rw [← noted_start, found]
      cases reports : (maps.noted ctx).args.reports (ep.switchedIn ctx) ctx.now with
      | false =>
        simp only [reports, Bool.false_eq_true, if_false]
        refine .silent noted fun other reported => ?_
        obtain rfl : ep = other := Option.some.inj (noted.symm.trans reported.found)
        have refused : maps.args.reports ep ctx.now = false := by
          rw [← noted_args ctx]
          exact reports
        rw [reported.reports] at refused
        cases refused
      | true =>
        simp only [reports, if_true]
        rw [noted_args] at target reports
        exact .reported ⟨target, noted, reports⟩

/-- An event is emitted for a task whose time off the CPU is to be reported, and for no other. -/
theorem schedSwitchHook_event {ctx : SwitchCtx} {ep : TraceEventT} (event : PerfEventT)
    (target : maps.args.isTargetTask ctx.cur = true)
    (found : (maps.notePrev ctx).start.lookup ctx.cur.pid = some ep) :
    (maps.schedSwitchHook ctx).2 = some event ↔
      maps.args.reports ep ctx.now = true ∧
        (maps.noted ctx).perfEvent (ep.switchedIn ctx) ctx = event := by
  -- A record is found, so only the settings decide.
  have switched : maps.Switched ctx (maps.schedSwitchHook ctx) := schedSwitchHook_switched ctx
  generalize maps.schedSwitchHook ctx = result at switched
  cases switched with
  | unknown silent | silent _ silent =>
    refine iff_of_false nofun fun ⟨reports, _⟩ => silent ep ⟨target, found, reports⟩
  | @reported other reported =>
    obtain rfl : ep = other := Option.some.inj (found.symm.trans reported.found)
    simp only [Option.some.injEq, reported.reports, true_and]

/-- The settings stay. -/
@[simp] theorem schedSwitchHook_args (ctx : SwitchCtx) :
    (maps.schedSwitchHook ctx).1.args = maps.args := by
  -- Each way through the hook writes other maps.
  have switched : maps.Switched ctx (maps.schedSwitchHook ctx) := schedSwitchHook_switched ctx
  generalize maps.schedSwitchHook ctx = result at switched
  cases switched with
  | unknown | silent => exact noted_args ctx
  | reported =>
    simp only
    split
    · exact noted_args ctx
    · exact noted_args ctx

end OffcpuMaps

namespace OffcpuTracer

variable {s s' : OffcpuTracer}

/-- What a switch that reports nothing leaves, and what one that reports something adds. -/
inductive Adds (s : OffcpuTracer) (ctx : SwitchCtx) (s' : OffcpuTracer) : Prop
  | nothing (silent : ∀ ep, ¬ s.maps.Reported ctx ep) (emitted : s'.emitted = s.emitted)
      (scratch : s'.maps.perfEventCache = s.maps.perfEventCache)
      (backup : s'.maps.schedCacheBackup = s.maps.schedCacheBackup)
  | event (ep : TraceEventT) (reported : s.maps.Reported ctx ep)
      (emitted : s'.emitted = s.emitted ++
        [{ event := (s.maps.noted ctx).perfEvent (ep.switchedIn ctx) ctx
           ctx := ctx
           past := s.past }])
      (scratch : s'.maps.perfEventCache =
        Function.update s.maps.perfEventCache ctx.cpu
          ((s.maps.noted ctx).perfEvent (ep.switchedIn ctx) ctx))
      (backup :
        if s.maps.args.dumps ep ctx.curRunDelay then
          ∃ cache, s'.maps.schedCacheBackup =
            tryUpdateElem maxBackups s.maps.schedCacheBackup ctx.cpu cache .any
        else s'.maps.schedCacheBackup = s.maps.schedCacheBackup)

/-- Every switch does one of these. -/
theorem switch_adds (s : OffcpuTracer) (ctx : SwitchCtx) : s.Adds ctx (s.switch ctx) := by
  -- The hook either reports nothing or the one event that its record gives.
  have switched : s.maps.Switched ctx (s.maps.schedSwitchHook ctx) :=
    OffcpuMaps.schedSwitchHook_switched ctx
  unfold switch
  generalize s.maps.schedSwitchHook ctx = result at switched
  cases switched with
  | unknown silent =>
    apply Adds.nothing silent
    · exact List.append_nil _
    · exact OffcpuMaps.noted_perfEventCache ctx
    · exact OffcpuMaps.noted_schedCacheBackup ctx
  | silent found silent =>
    apply Adds.nothing silent
    · exact List.append_nil _
    · exact OffcpuMaps.noted_perfEventCache ctx
    · exact OffcpuMaps.noted_schedCacheBackup ctx
  | @reported ep reported =>
    apply Adds.event ep reported
    · rfl
    · simp only [OffcpuMaps.noted_perfEventCache]
    · simp only [OffcpuMaps.noted_args]
      split
      · exact ⟨_, by simp only [OffcpuMaps.schedCacheDump, OffcpuMaps.noted_schedCacheBackup]; rfl⟩
      · exact OffcpuMaps.noted_schedCacheBackup ctx

@[simp] theorem switch_args (ctx : SwitchCtx) : (s.switch ctx).maps.args = s.maps.args :=
  -- The hook never writes the settings.
  OffcpuMaps.schedSwitchHook_args ctx

@[simp] theorem wake_args (ctx : WakeCtx) : (s.wake ctx).maps.args = s.maps.args :=
  -- The hook never writes the settings.
  OffcpuMaps.tryToWakeUpHook_args ctx

/-- What a step does. -/
inductive Moves (s : OffcpuTracer) : OffcpuAction → OffcpuTracer → Prop
  | wake {ctx : WakeCtx} (later : s.clock ≤ ctx.now) : Moves s (.wake ctx) (s.wake ctx)
  | switch {ctx : SwitchCtx} (later : s.clock ≤ ctx.now) : Moves s (.switch ctx) (s.switch ctx)

/-- Every step is one of these. -/
theorem step_moves {action : OffcpuAction} (stepped : s.step action = some s') :
    s.Moves action s' := by
  -- A hook runs only when the clock has not gone back.
  simp only [step] at stepped
  split at stepped
  · rename_i later
    cases action with
    | wake ctx => exact Option.some.inj stepped ▸ .wake later
    | switch ctx => exact Option.some.inj stepped ▸ .switch later
  · cases stepped

/-- Settings that trace every task, and report every time off the CPU up to a second. -/
def openArgs (rqDurMs : UInt32) : UserArgs where
  pid := 0xFFFFFFFF
  tgid := 0xFFFFFFFF
  minOffcpuMs := 0
  maxOffcpuMs := 1000
  rqDurMs := rqDurMs

/-- The task of a number, alone in its process. -/
def taskOf (pid : UInt32) : TaskStruct where
  address := pid.toUInt64
  pid := pid
  tgid := pid

/-- A task wakes another one up at a time. -/
def wakeAt (now : UInt64) (waker : UInt32) (task : TaskStruct) : OffcpuAction :=
  .wake
    { task := task
      comm := Vector.replicate taskCommLen 0
      taskState := 1
      onRq := 0
      state := 3
      pidTgid := waker.toUInt64 <<< 32 ||| waker.toUInt64
      currentComm := Vector.replicate taskCommLen 0
      kernStackId := 0
      userStackId := 0
      now := now }

/-- What is found when a task takes the CPU over from another one, with its waits so far. -/
def switchCtx (now : UInt64) (prev cur : TaskStruct) (curRunDelay : UInt64) : SwitchCtx where
  prev := prev
  prevComm := Vector.replicate taskCommLen 0
  prevPrio := 120
  prevRunDelay := 0
  cur := cur
  curComm := Vector.replicate taskCommLen 0
  curRunDelay := curRunDelay
  kernStackId := 0
  userStackId := 0
  cpu := 0
  now := now

/-- A task takes the CPU over from another one at a time. -/
def switchAt (now : UInt64) (prev cur : TaskStruct) (curRunDelay : UInt64) : OffcpuAction :=
  .switch (switchCtx now prev cur curRunDelay)

end OffcpuTracer

end Spycat.Offcpu
