import Spycat.Ebpf.OffcpuArgs
import Spycat.Lib.Run
import Spycat.Proofs.Ebpf.OffcpuDumps

/-! The filter of the off-CPU tracer against a tracer of all tasks whose events are filtered. -/

namespace Spycat.Offcpu

open Lib Bpf Reader

/-- The settings that a configuration stands for. -/
def OFFCPU.meant (cfg : OFFCPU) : UserArgs where
  pid := 0xFFFFFFFF
  tgid := cfg.pid.toUInt64.toUInt32
  minOffcpuMs := cfg.minOffcpuMs.toUInt32
  maxOffcpuMs := cfg.maxOffcpuMs.toUInt32
  rqDurMs := cfg.rqDurMs.toUInt32

/-- The kernel reads the settings as they were configured. -/
theorem kernelArgs_eq (cfg : OFFCPU) : kernelArgs cfg = some cfg.meant := by
  -- Both structs have the same five fields in the same order.
  have fields := (reads_done UserArgs.mk).next (reads_uint32 0xFFFFFFFF)
    |>.next (reads_uint32 cfg.meant.tgid) |>.next (reads_uint32 cfg.meant.minOffcpuMs)
    |>.next (reads_uint32 cfg.meant.maxOffcpuMs) |>.next (reads_uint32 cfg.meant.rqDurMs)
  have packed : UserArgs.read.Reads (newOffCpuBpfSession cfg).initArgsMap.bytes cfg.meant := by
    apply fields.cStruct
    simp [Packed]
  have read := packed.run []
  rw [List.append_nil] at read
  exact read

/-! The records of a tracer with room for all of them, as a function of the task's number. -/

/-- The records after a wakeup, where the tasks to be traced are given. -/
def wakeRecords (traced : TaskStruct → Bool) (records : UInt32 → Option TraceEventT)
    (ctx : WakeCtx) : UInt32 → Option TraceEventT :=
  if ctx.wakes && traced ctx.task then
    Function.update records ctx.task.pid
      (some ((records ctx.task.pid).elim (.ofWakeup ctx) (·.wokenUp ctx)))
  else records

/-- The records after the previous task of a switch was noted. -/
def noteRecords (traced : TaskStruct → Bool) (records : UInt32 → Option TraceEventT)
    (ctx : SwitchCtx) : UInt32 → Option TraceEventT :=
  if traced ctx.prev then
    Function.update records ctx.prev.pid
      (some ((records ctx.prev.pid).elim (.ofSwitch ctx) (·.switchedOut ctx)))
  else records

/-- The records after the current task of a switch was looked at. -/
def takeRecords (traced : TaskStruct → Bool) (records : UInt32 → Option TraceEventT)
    (ctx : SwitchCtx) : UInt32 → Option TraceEventT :=
  if traced ctx.cur then
    Function.update records ctx.cur.pid ((records ctx.cur.pid).map (·.leftBehind ctx))
  else records

/-- The event for a record, without the marks that the last event of the CPU may have left. -/
def plainEvent (ep : TraceEventT) (ctx : SwitchCtx) : PerfEventT where
  waker := ep.waker
  target :=
    { ep.target with
      kernStackId := ctx.kernStackId
      userStackId := ctx.userStackId
      comm := ctx.curComm }
  durMs := (ep.delta ctx.now).toInt64.toUInt64
  rqDurMs := (ep.runqDur ctx.curRunDelay).toInt64.toUInt64
  tsNs := ctx.now
  isSchedCacheDump := 0
  cpu := 0

/-- An event without its marks. -/
def PerfEventT.unmarked (event : PerfEventT) : PerfEventT :=
  { event with isSchedCacheDump := 0, cpu := 0 }

/-- The event of a switch, from the records that there are once the previous task is noted. -/
def switchEvent (args : UserArgs) (traced : TaskStruct → Bool)
    (records : UInt32 → Option TraceEventT) (ctx : SwitchCtx) : Option PerfEventT :=
  if traced ctx.cur then
    ((records ctx.cur.pid).filter fun ep => args.reports ep ctx.now).map fun ep =>
      plainEvent (ep.switchedIn ctx) ctx
  else none

/-- An observer of the hooks: a record for each number, and the events with their switches. -/
structure Observer where
  records : UInt32 → Option TraceEventT
  events : List (SwitchCtx × PerfEventT)

/-- What an observer makes of a hook, if it traces some of the tasks. -/
def Observer.see (args : UserArgs) (traced : TaskStruct → Bool) (o : Observer) :
    OffcpuAction → Observer
  | .wake ctx => { o with records := wakeRecords traced o.records ctx }
  | .switch ctx =>
    let noted := noteRecords traced o.records ctx
    { records := takeRecords traced noted ctx
      events := o.events ++
        ((switchEvent args traced noted ctx).map fun event => (ctx, event)).toList }

namespace OffcpuMaps

variable {maps : OffcpuMaps}

/-- The records of the maps, as a function of the task's number. -/
def records (maps : OffcpuMaps) : UInt32 → Option TraceEventT := fun pid => maps.start.lookup pid

/-- A key whose value is changed or stored has the new value, where there is room. -/
theorem upserted_records {start start' : Assoc UInt32 TraceEventT} {key : UInt32}
    {fresh : TraceEventT} {change : TraceEventT → TraceEventT}
    (upserted : Upserted maxEntries start key fresh change start')
    (room : start.size < maxEntries) :
    (fun pid => start'.lookup pid) =
      Function.update (fun pid => start.lookup pid) key
        (some ((start.lookup key).elim fresh change)) := by
  -- The key is looked at apart from the others.
  funext pid
  by_cases same : pid = key
  · subst same
    rw [Function.update_self]
    cases upserted with
    | changed present => rw [AList.lookup_insert, present, Option.elim_some]
    | added absent => rw [AList.lookup_insert, absent, Option.elim_none]
    | refused absent full => omega
  · rw [Function.update_of_ne same]
    exact upserted.other same

/-- A wakeup does to the records what the observer does. -/
theorem tryToWakeUpHook_records (ctx : WakeCtx) (room : maps.start.size < maxEntries) :
    (maps.tryToWakeUpHook ctx).records =
      wakeRecords maps.args.isTargetTask maps.records ctx := by
  -- The hook refuses the task, or it stores a record, for which there is room.
  unfold wakeRecords
  split
  · rename_i accepted
    exact upserted_records (tryToWakeUpHook_start accepted) room
  · rename_i refused
    rw [tryToWakeUpHook_refused (by simpa using refused)]

/-- Noting the previous task does to the records what the observer does. -/
theorem notePrev_records (ctx : SwitchCtx) (room : maps.start.size < maxEntries) :
    (maps.notePrev ctx).records = noteRecords maps.args.isTargetTask maps.records ctx := by
  -- The hook refuses the task, or it stores a record, for which there is room.
  unfold noteRecords
  split
  · rename_i accepted
    exact upserted_records (notePrev_start accepted) room
  · rename_i refused
    rw [notePrev_refused (by simpa using refused)]

/-- The marks apart, an event is that of its record. -/
theorem unmarked_perfEvent (ep : TraceEventT) (ctx : SwitchCtx) :
    (maps.perfEvent ep ctx).unmarked = plainEvent ep ctx := by
  -- The marks are the only fields that are not written each time.
  unfold perfEvent
  split <;> rfl

/-- Looking at the current task does to the records what the observer does, and reports the same. -/
theorem reportCur_records (ctx : SwitchCtx) :
    (maps.reportCur ctx).1.records = takeRecords maps.args.isTargetTask maps.records ctx ∧
      (maps.reportCur ctx).2.map PerfEventT.unmarked =
        switchEvent maps.args maps.args.isTargetTask maps.records ctx := by
  unfold reportCur takeRecords switchEvent
  cases target : maps.args.isTargetTask ctx.cur with
  | false => exact ⟨rfl, rfl⟩
  | true =>
    simp only [Bool.not_true, Bool.false_eq_true, if_false, if_true]
    cases found : maps.start.lookup ctx.cur.pid with
    | none =>
      -- A task without a record is left without one.
      have absent : maps.records ctx.cur.pid = none := found
      simp only [absent, Option.map_none, Option.filter_none, and_true]
      rw [← absent, Function.update_eq_self]
    | some ep =>
      have present : maps.records ctx.cur.pid = some ep := found
      have left : ∀ (rest : OffcpuMaps), rest.start = maps.start.insert ctx.cur.pid
          (ep.leftBehind ctx) → rest.records =
            Function.update maps.records ctx.cur.pid (some (ep.leftBehind ctx)) := by
        intro rest stored
        funext pid
        by_cases same : pid = ctx.cur.pid
        · subst same
          rw [Function.update_self, records, stored, AList.lookup_insert]
        · rw [Function.update_of_ne same, records, stored, AList.lookup_insert_ne same]
          rfl
      have same : maps.args.reports (ep.switchedIn ctx) ctx.now =
          maps.args.reports ep ctx.now := rfl
      simp only [present, Option.map_some, same]
      cases reports : maps.args.reports ep ctx.now with
      | true =>
        simp only [if_true, Option.filter_some, reports, Option.map_some, unmarked_perfEvent,
          and_true]
        exact left _ rfl
      | false =>
        simp only [Bool.false_eq_true, if_false, Option.filter_some, reports, Option.map_none,
          and_true]
        exact left _ rfl

/-- A switch does to the records what the observer does, and reports the same. -/
theorem schedSwitchHook_records (ctx : SwitchCtx) (room : maps.start.size < maxEntries) :
    (maps.schedSwitchHook ctx).1.records =
        takeRecords maps.args.isTargetTask
          (noteRecords maps.args.isTargetTask maps.records ctx) ctx ∧
      (maps.schedSwitchHook ctx).2.map PerfEventT.unmarked =
        switchEvent maps.args maps.args.isTargetTask
          (noteRecords maps.args.isTargetTask maps.records ctx) ctx := by
  -- The caches play no part in it.
  have noted : (maps.noted ctx).records =
      noteRecords maps.args.isTargetTask maps.records ctx := by
    rw [← notePrev_records ctx room]
    funext pid
    rw [records, noted_start]
    rfl
  have reported := @reportCur_records (maps.noted ctx) ctx
  rw [noted_args, noted] at reported
  rw [schedSwitchHook_eq]
  exact reported

/-- No hook takes a record away. -/
theorem schedSwitchHook_size (ctx : SwitchCtx) :
    maps.start.size ≤ (maps.schedSwitchHook ctx).1.start.size := by
  -- The previous task may be new, and the current one has its record already.
  have grown : maps.start.size ≤ (maps.notePrev ctx).start.size := by
    cases target : maps.args.isTargetTask ctx.prev with
    | false => rw [notePrev_refused target]
    | true => exact (notePrev_start target).size_le
  have switched : maps.Switched ctx (maps.schedSwitchHook ctx) := schedSwitchHook_switched ctx
  generalize maps.schedSwitchHook ctx = result at switched
  cases switched with
  | unknown => exact grown.trans (noted_start ctx ▸ le_refl _)
  | silent | reported =>
    exact (grown.trans (noted_start ctx ▸ le_refl _)).trans (Assoc.size_le_insert ..)

end OffcpuMaps

namespace OffcpuTracer

variable {s s' : OffcpuTracer} {o : Observer}

/-- An observer sees what a tracer records and reports. -/
structure Seen (s : OffcpuTracer) (o : Observer) : Prop where
  records : s.maps.records = o.records
  events : s.emitted.map (fun x => (x.ctx, x.event.unmarked)) = o.events

/-- No step takes a record away. -/
theorem Moves.size_le {action : OffcpuAction} (moves : s.Moves action s') :
    s.maps.start.size ≤ s'.maps.start.size := by
  -- No hook deletes a record.
  cases moves with
  | @wake ctx =>
    cases accepted : ctx.wakes && s.maps.args.isTargetTask ctx.task with
    | false =>
      have same := OffcpuMaps.tryToWakeUpHook_refused accepted
      exact (congrArg (fun maps : OffcpuMaps => maps.start.size) same).ge
    | true => exact (OffcpuMaps.tryToWakeUpHook_start accepted).size_le
  | switch => exact OffcpuMaps.schedSwitchHook_size _

/-- Where there is room, a step shows the observer what it does. -/
theorem Seen.step (seen : s.Seen o) (room : s.maps.start.size < maxEntries)
    {action : OffcpuAction} (moves : s.Moves action s') :
    s'.Seen (o.see s.maps.args s.maps.args.isTargetTask action) := by
  cases moves with
  | @wake ctx =>
    refine ⟨?_, seen.events⟩
    exact (OffcpuMaps.tryToWakeUpHook_records ctx room).trans (by rw [seen.records]; rfl)
  | @switch ctx =>
    have hook := @OffcpuMaps.schedSwitchHook_records s.maps ctx room
    rw [seen.records] at hook
    refine ⟨hook.1, ?_⟩
    -- The one event that may be new is the one that the observer sees.
    simp only [switch, List.map_append, seen.events, Observer.see, ← hook.2]
    cases (s.maps.schedSwitchHook ctx).2 <;> rfl

end OffcpuTracer

/-- The tasks of an action belong to the processes that they are said to belong to. -/
def OffcpuAction.Owned (owner : UInt32 → UInt32) : OffcpuAction → Prop
  | .wake ctx => owner ctx.task.pid = ctx.task.tgid
  | .switch ctx => owner ctx.prev.pid = ctx.prev.tgid ∧ owner ctx.cur.pid = ctx.cur.tgid

/-- A task belongs to a process. -/
def ofProcess (tgid : UInt32) (task : TaskStruct) : Bool := task.tgid = tgid

/-- What an observer saw of one process. -/
def Observer.only (owner : UInt32 → UInt32) (tgid : UInt32) (o : Observer) : Observer where
  records := fun pid => if owner pid = tgid then o.records pid else none
  events := o.events.filter fun seen => ofProcess tgid seen.1.cur

/-- A change of one record is seen by the observer of its process alone. -/
theorem only_update {owner : UInt32 → UInt32} {tgid : UInt32} (task : TaskStruct)
    (owned : owner task.pid = task.tgid) (records : UInt32 → Option TraceEventT)
    (value : Option TraceEventT) :
    (fun pid => if owner pid = tgid then Function.update records task.pid value pid else none) =
      if ofProcess tgid task then
        Function.update (fun pid => if owner pid = tgid then records pid else none) task.pid value
      else fun pid => if owner pid = tgid then records pid else none := by
  -- The number that is changed belongs to the process, or it does not.
  funext pid
  by_cases same : pid = task.pid
  · subst same
    by_cases mine : task.tgid = tgid
    · simp [ofProcess, mine, owned]
    · simp [ofProcess, mine, owned]
  · by_cases mine : task.tgid = tgid
    · simp [ofProcess, mine, Function.update_of_ne same]
    · simp [ofProcess, mine, Function.update_of_ne same]

/-- What is changed of the records of a process is what is changed for its own observer. -/
theorem only_see {owner : UInt32 → UInt32} {tgid : UInt32} {action : OffcpuAction}
    (owned : action.Owned owner) (args : UserArgs) (o : Observer) :
    (o.only owner tgid).see args (ofProcess tgid) action =
      (o.see args (fun _ => true) action).only owner tgid := by
  cases action with
  | wake ctx =>
    -- Both observers look the record of the task up in what they have.
    have change := @only_update owner tgid ctx.task owned o.records
      (some ((o.records ctx.task.pid).elim (.ofWakeup ctx) (·.wokenUp ctx)))
    simp only [Observer.see, Observer.only, wakeRecords, Bool.and_true, Observer.mk.injEq,
      and_true]
    cases wakes : ctx.wakes with
    | false => simp
    | true =>
      simp only [Bool.true_and, if_true, change]
      split
      · rename_i mine
        have same : owner ctx.task.pid = tgid := owned.trans (of_decide_eq_true mine)
        simp only [same, if_true]
      · rfl
  | switch ctx =>
    obtain ⟨ownPrev, ownCur⟩ := owned
    have note := @only_update owner tgid ctx.prev ownPrev o.records
      (some ((o.records ctx.prev.pid).elim (.ofSwitch ctx) (·.switchedOut ctx)))
    -- The records once the previous task is noted are those of the process again.
    have noted : noteRecords (ofProcess tgid) (o.only owner tgid).records ctx =
        fun pid => if owner pid = tgid then noteRecords (fun _ => true) o.records ctx pid
          else none := by
      simp only [noteRecords, Observer.only, if_true, note]
      split
      · rename_i mine
        have same : owner ctx.prev.pid = tgid := ownPrev.trans (of_decide_eq_true mine)
        simp only [same, if_true]
      · rfl
    have take := @only_update owner tgid ctx.cur ownCur
      (noteRecords (fun _ => true) o.records ctx)
      ((noteRecords (fun _ => true) o.records ctx ctx.cur.pid).map (·.leftBehind ctx))
    simp only [Observer.see, noted]
    simp only [Observer.only, Observer.mk.injEq, takeRecords, switchEvent, take, if_true]
    cases mine : ofProcess tgid ctx.cur with
    | false =>
      refine ⟨by simp, ?_⟩
      simp only [Bool.false_eq_true, if_false, List.filter_append]
      cases Option.filter (fun ep => args.reports ep ctx.now)
        (noteRecords (fun _ => true) o.records ctx ctx.cur.pid) <;> simp [mine]
    | true =>
      have same : owner ctx.cur.pid = tgid := ownCur.trans (of_decide_eq_true mine)
      refine ⟨by simp [same], ?_⟩
      simp only [same, if_true, List.filter_append]
      cases Option.filter (fun ep => args.reports ep ctx.now)
        (noteRecords (fun _ => true) o.records ctx ctx.cur.pid) <;> simp [mine]

namespace OffcpuTracer

variable {s s' : OffcpuTracer}

/-- The tracer of all tasks, the tracer of one process and what both are seen to do. -/
structure Paired (owner : UInt32 → UInt32) (argsAll argsOne : UserArgs)
    (actions : List OffcpuAction) (all one : OffcpuTracer) : Prop where
  ran : run step (new argsOne) actions = some one
  clock : one.clock = all.clock
  settingsAll : all.maps.args = argsAll
  settingsOne : one.maps.args = argsOne
  seen : all.maps.start.size < maxEntries →
    ∃ o, all.Seen o ∧ one.Seen (o.only owner argsOne.tgid)

/-- The tracer of one process has no more records than the one of all tasks. -/
theorem Seen.size_le {o : Observer} {owner : UInt32 → UInt32} {tgid : UInt32}
    {all one : OffcpuTracer} (seen : all.Seen o) (mine : one.Seen (o.only owner tgid)) :
    one.maps.start.size ≤ all.maps.start.size := by
  -- What is recorded of one process is recorded among all.
  apply Assoc.size_le_of_keys
  intro pid present
  have left := congrFun mine.records pid
  have whole := congrFun seen.records pid
  simp only [OffcpuMaps.records, Observer.only] at left whole
  rw [whole]
  rw [left] at present
  split at present
  · exact present
  · cases present

/-- Both tracers take the same step. -/
theorem Paired.step {owner : UInt32 → UInt32} {argsAll argsOne : UserArgs}
    {past : List OffcpuAction} {action : OffcpuAction} {all all' one : OffcpuTracer}
    (paired : Paired owner argsAll argsOne past all one) (owned : action.Owned owner)
    (everything : argsAll.isTargetTask = fun _ => true)
    (process : argsOne.isTargetTask = ofProcess argsOne.tgid)
    (thresholds : argsAll.reports = argsOne.reports)
    (stepped : all.step action = some all') :
    ∃ one', Paired owner argsAll argsOne (past ++ [action]) all' one' := by
  -- The clock alone decides whether a step is taken.
  have later : all.clock ≤ action.now := by
    simp only [OffcpuTracer.step] at stepped
    split at stepped
    · assumption
    · cases stepped
  obtain ⟨one', steppedOne⟩ : ∃ one', one.step action = some one' := by
    simp only [OffcpuTracer.step, paired.clock, if_pos later]
    cases action with
    | wake ctx => exact ⟨_, rfl⟩
    | switch ctx => exact ⟨_, rfl⟩
  have movesAll := step_moves stepped
  have movesOne := step_moves steppedOne
  refine ⟨one', by simp [run_append, paired.ran, steppedOne], ?_, ?_, ?_, ?_⟩
  · cases movesAll <;> cases movesOne <;> rfl
  · rw [← paired.settingsAll]
    cases movesAll
    · exact wake_args _
    · exact switch_args _
  · rw [← paired.settingsOne]
    cases movesOne
    · exact wake_args _
    · exact switch_args _
  · intro room
    have roomAll : all.maps.start.size < maxEntries := movesAll.size_le.trans_lt room
    obtain ⟨o, seen, mine⟩ := paired.seen roomAll
    have roomOne := (seen.size_le mine).trans_lt roomAll
    have nextAll := seen.step roomAll movesAll
    have nextOne := mine.step roomOne movesOne
    rw [paired.settingsAll, everything] at nextAll
    rw [paired.settingsOne, process] at nextOne
    refine ⟨_, nextAll, ?_⟩
    rw [← only_see owned]
    -- Both have the same thresholds, which are all that the observer is told.
    have same : ∀ observer : Observer, observer.see argsAll (ofProcess argsOne.tgid) action =
        observer.see argsOne (ofProcess argsOne.tgid) action := by
      intro observer
      cases action with
      | wake ctx => rfl
      | switch ctx => simp only [Observer.see, switchEvent, thresholds]
    rw [same]
    exact nextOne

/-- Where no waits are looked into, nothing is marked. -/
structure Unmarked (s : OffcpuTracer) : Prop where
  settings : s.maps.args.rqDurMs = 0
  pending : ∀ cpu, (s.maps.perfEventCache cpu).unmarked = s.maps.perfEventCache cpu
  emitted : ∀ x ∈ s.emitted, x.event.unmarked = x.event

/-- Every step leaves everything unmarked. -/
theorem Unmarked.step {action : OffcpuAction} (unmarked : s.Unmarked)
    (moves : s.Moves action s') : s'.Unmarked := by
  obtain ⟨settings, pending, emitted⟩ := unmarked
  cases moves with
  | @wake ctx =>
    have scratch : (s.wake ctx).maps.perfEventCache = s.maps.perfEventCache :=
      OffcpuMaps.tryToWakeUpHook_perfEventCache ctx
    exact ⟨by rw [wake_args, settings], fun cpu => by rw [scratch, pending], emitted⟩
  | @switch ctx later =>
    have adds := switch_adds s ctx
    -- The hook never marks its event, and the scratch record it writes on has no mark.
    have fresh : ∀ ep, ((s.maps.noted ctx).perfEvent ep ctx).unmarked =
        (s.maps.noted ctx).perfEvent ep ctx := by
      intro ep
      have quiet : (s.maps.noted ctx).args.dumps ep ctx.curRunDelay = false := by
        simp [UserArgs.dumps, settings]
      have kept := pending ctx.cpu
      simp only [PerfEventT.unmarked] at kept
      simp only [OffcpuMaps.perfEvent, quiet, Bool.false_eq_true, if_false,
        OffcpuMaps.noted_perfEventCache]
      rw [← kept]
      rfl
    refine ⟨by rw [switch_args, settings], ?_, ?_⟩
    · cases adds with
      | nothing _ _ scratch => exact fun cpu => by rw [scratch, pending]
      | event ep _ _ scratch =>
        intro cpu
        rw [scratch]
        by_cases same : cpu = ctx.cpu
        · subst same
          rw [Function.update_self, fresh]
        · rw [Function.update_of_ne same, pending]
    · cases adds with
      | nothing _ same => rwa [same]
      | event ep _ added =>
        intro x member
        rw [added] at member
        rcases List.mem_append.mp member with before | new
        · exact emitted x before
        · obtain rfl := List.mem_singleton.mp new
          exact fresh _

end OffcpuTracer

end Spycat.Offcpu
