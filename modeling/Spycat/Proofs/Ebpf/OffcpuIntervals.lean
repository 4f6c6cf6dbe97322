import Spycat.Lib.Run
import Spycat.Lib.Trail
import Spycat.Proofs.Ebpf.OffcpuSteps

/-! Which events describe one time off the CPU, from the switch that begins it to its end. -/

namespace Spycat.Offcpu

open Lib Bpf

/-- A task that gives up a CPU at a time. -/
structure SwitchOut where
  task : TaskStruct
  now : UInt64

/-- What happens to tasks: each switch-out is a mark, and each wakeup a note. -/
abbrev Happening := Entry SwitchOut WakeCtx

namespace Happening

/-- The task that something happens to. -/
def task : Happening → TaskStruct
  | .mark out => out.task
  | .note ctx => ctx.task

/-- When something happens. -/
def time : Happening → UInt64
  | .mark out => out.now
  | .note ctx => ctx.now

end Happening

/-- What a hook sees happen; a task that is not woken up is left out. -/
def OffcpuAction.happening : OffcpuAction → Option Happening
  | .wake ctx => if ctx.wakes then some (.note ctx) else none
  | .switch ctx => some (.mark { task := ctx.prev, now := ctx.now })

/-- What happened to the tasks of a kind. -/
def happenings (kind : TaskStruct → Bool) (past : List OffcpuAction) : List Happening :=
  (past.filterMap OffcpuAction.happening).filter fun entry => kind entry.task

/-- The tasks that are recorded under a number. -/
def recordedUnder (args : UserArgs) (pid : UInt32) (task : TaskStruct) : Bool :=
  task.pid = pid && args.isTargetTask task

/-- The waker is the one of a wakeup, or there is none. -/
def WokenBy (waker : WakerT) (target : TargetT) : Option WakeCtx → Prop
  | some ctx =>
    waker.pid = ctx.pidTgid.toUInt32 ∧ waker.tgid = (ctx.pidTgid >>> 32).toUInt32 ∧
      waker.comm = ctx.currentComm ∧ waker.kernStackId = ctx.kernStackId ∧
        waker.userStackId = ctx.userStackId ∧ waker.offcpuNs = ctx.now ∧ target.onrqNs = ctx.now
  | none => waker = .zero ∧ target.onrqNs = 0

/-- Of the target, only the time of the wakeup matters. -/
theorem WokenBy.onrq {waker : WakerT} {target other : TargetT} {last : Option WakeCtx}
    (woken : WokenBy waker target last) (same : other.onrqNs = target.onrqNs) :
    WokenBy waker other last := by
  -- Both cases compare the waker and that time with the wakeup, or with zero.
  cases last with
  | none => exact ⟨woken.1, same.trans woken.2⟩
  | some ctx =>
    obtain ⟨pid, tgid, comm, kern, user, noted, onrq⟩ := woken
    exact ⟨pid, tgid, comm, kern, user, noted, same.trans onrq⟩

/-- What happened to the task of an event, up to the switch that the event was emitted at. -/
def Emitted.interval (x : Emitted) : Trail SwitchOut WakeCtx :=
  .of (happenings (· = x.ctx.cur) (x.past ++ [.switch x.ctx]))

/--
An event describes the time off the CPU that ends at its switch.

It names the task and both switches, and a wakeup in between unless there was none.
-/
structure Emitted.Describes (x : Emitted) : Prop where
  pid : x.event.target.pid = x.ctx.cur.pid
  tgid : x.event.target.tgid = x.ctx.cur.tgid
  switchedIn : x.event.target.oncpuNs = x.ctx.now
  switchedOut : ∃ out, x.interval.mark = some out ∧ x.event.target.offcpuNs = out.now
  woken :
    (∃ ctx ∈ x.interval.since, WokenBy x.event.waker x.event.target (some ctx) ∧
      x.event.target.offcpuNs ≤ x.event.target.onrqNs ∧
        x.event.target.onrqNs ≤ x.event.target.oncpuNs) ∨
      (x.interval.since = [] ∧ WokenBy x.event.waker x.event.target none)

/-- What the record of a number says about what happened to the tasks recorded under it. -/
structure TraceEventT.Matches (ep : TraceEventT) (pid : UInt32) (entries : List Happening) :
    Prop where
  pid : ep.target.pid = pid
  tgid : ∃ first, entries.head? = some first ∧ ep.target.tgid = first.task.tgid
  switchedOut : ep.target.offcpuNs = ((Trail.of entries).mark.map (·.now)).getD 0
  woken : WokenBy ep.waker ep.target (Trail.of entries).lastNote

namespace TraceEventT.Matches

variable {ep : TraceEventT} {pid : UInt32} {entries : List Happening}

/-- The first entry stays the first one. -/
theorem head_append {entry : Happening} {tgid : UInt32}
    (known : ∃ first, entries.head? = some first ∧ tgid = first.task.tgid) :
    ∃ first, (entries ++ [entry]).head? = some first ∧ tgid = first.task.tgid := by
  -- What comes behind leaves the first entry where it is.
  obtain ⟨first, head, same⟩ := known
  exact ⟨first, by simp [List.head?_append, head], same⟩

/-- A wakeup is taken into a record. -/
theorem wokenUp (matching : ep.Matches pid entries) (ctx : WakeCtx) :
    (ep.wokenUp ctx).Matches pid (entries ++ [.note ctx]) where
  pid := matching.pid
  tgid := head_append matching.tgid
  switchedOut := by
    rw [Trail.of_append, Trail.mark_note]
    exact matching.switchedOut
  -- The wakeup is now the last one, and its waker is in the record.
  woken := by
    rw [Trail.of_append, Trail.lastNote_note]
    exact ⟨rfl, rfl, rfl, rfl, rfl, rfl, rfl⟩

/-- A switch-out is taken into a record. -/
theorem switchedOut_append (matching : ep.Matches pid entries) (ctx : SwitchCtx) :
    (ep.switchedOut ctx).Matches pid
      (entries ++ [.mark { task := ctx.prev, now := ctx.now }]) where
  pid := matching.pid
  tgid := head_append matching.tgid
  switchedOut := by simp [TraceEventT.switchedOut]
  -- The last wakeup stays the last one, inside the interval or before it.
  woken := by
    rw [Trail.of_append, Trail.lastNote_mark]
    exact matching.woken.onrq rfl

/-- The first record of a task that is woken up. -/
theorem ofWakeup (ctx : WakeCtx) : (TraceEventT.ofWakeup ctx).Matches ctx.task.pid [.note ctx] where
  -- The record has the fields of the wakeup, and no switch before it.
  pid := rfl
  tgid := ⟨_, rfl, rfl⟩
  switchedOut := rfl
  woken := ⟨rfl, rfl, rfl, rfl, rfl, rfl, rfl⟩

/-- The first record of a task that gives up a CPU. -/
theorem ofSwitch (ctx : SwitchCtx) :
    (TraceEventT.ofSwitch ctx).Matches ctx.prev.pid
      [.mark { task := ctx.prev, now := ctx.now }] where
  -- The record has the fields of the switch, and no wakeup since.
  pid := rfl
  tgid := ⟨_, rfl, rfl⟩
  switchedOut := rfl
  woken := ⟨rfl, rfl⟩

/-- Completing a record when its task takes a CPU leaves what it says. -/
theorem leftBehind (matching : ep.Matches pid entries) (ctx : SwitchCtx) :
    (ep.leftBehind ctx).Matches pid entries where
  -- What is changed is none of the fields that are compared.
  pid := matching.pid
  tgid := matching.tgid
  switchedOut := matching.switchedOut
  woken := matching.woken.onrq rfl

end TraceEventT.Matches

/-- Every record matches what happened; a task is without one only for lack of room. -/
def Records (args : UserArgs) (start : Assoc UInt32 TraceEventT) (past : List OffcpuAction) :
    Prop :=
  ∀ pid,
    (∀ ep, start.lookup pid = some ep → ep.Matches pid (happenings (recordedUnder args pid) past)) ∧
      (start.lookup pid = none →
        happenings (recordedUnder args pid) past = [] ∨ maxEntries ≤ start.size)

section Records

variable {args : UserArgs} {start start' : Assoc UInt32 TraceEventT} {past : List OffcpuAction}

/-- One more hook adds what it saw, if that is about a task of the kind. -/
theorem happenings_append (kind : TaskStruct → Bool) (past : List OffcpuAction)
    (action : OffcpuAction) :
    happenings kind (past ++ [action]) =
      happenings kind past ++
        action.happening.toList.filter fun entry => kind entry.task := by
  -- A hook sees at most one thing.
  cases seen : action.happening with
  | none => simp [happenings, seen]
  | some entry => simp [happenings, seen]

/-- A hook that sees nothing of a kind adds nothing. -/
theorem happenings_other {kind : TaskStruct → Bool} {action : OffcpuAction}
    (other : ∀ entry, action.happening = some entry → kind entry.task = false) :
    happenings kind (past ++ [action]) = happenings kind past := by
  -- What it saw, if anything, is left out.
  rw [happenings_append]
  cases seen : action.happening with
  | none => simp
  | some entry => simp [other entry seen]

/-- A hook that sees something of a kind adds that. -/
theorem happenings_own {kind : TaskStruct → Bool} {action : OffcpuAction} {entry : Happening}
    (seen : action.happening = some entry) (own : kind entry.task = true) :
    happenings kind (past ++ [action]) = happenings kind past ++ [entry] := by
  -- The last action adds its own entry.
  rw [happenings_append, seen]
  simp [own]

/-- What a hook saw is taken into the record of its task. -/
theorem Records.upserted (records : Records args start past) {action : OffcpuAction}
    {entry : Happening} (seen : action.happening = some entry)
    (target : args.isTargetTask entry.task = true) {fresh : TraceEventT}
    {change : TraceEventT → TraceEventT} (first : fresh.Matches entry.task.pid [entry])
    (next : ∀ ep entries, ep.Matches entry.task.pid entries →
      (change ep).Matches entry.task.pid (entries ++ [entry]))
    (upserted : Upserted maxEntries start entry.task.pid fresh change start') :
    Records args start' (past ++ [action]) := by
  -- Records of other numbers stay, and so does what happened under them.
  intro pid
  by_cases same : pid = entry.task.pid
  · subst same
    have own : recordedUnder args entry.task.pid entry.task = true := by
      simp [recordedUnder, target]
    rw [happenings_own seen own]
    obtain ⟨matching, missing⟩ := records entry.task.pid
    -- The map changes in one of three ways, of which the last is a refusal.
    cases upserted with
    | changed present =>
      refine ⟨fun ep found => ?_, fun absent => ?_⟩
      · rw [AList.lookup_insert, Option.some.injEq] at found
        exact found ▸ next _ _ (matching _ present)
      · rw [AList.lookup_insert] at absent
        cases absent
    | added absent room =>
      refine ⟨fun ep found => ?_, fun absent => ?_⟩
      · rw [AList.lookup_insert, Option.some.injEq] at found
        rcases missing absent with nothing | full
        · rw [nothing]
          exact found ▸ first
        · omega
      · rw [AList.lookup_insert] at absent
        cases absent
    | refused absent full =>
      refine ⟨fun ep found => ?_, fun _ => .inr full⟩
      rw [absent] at found
      cases found
  -- Another number sees nothing of this hook.
  · have other : ∀ seenEntry, action.happening = some seenEntry →
        recordedUnder args pid seenEntry.task = false := by
      intro seenEntry saw
      obtain rfl : entry = seenEntry := Option.some.inj (seen.symm.trans saw)
      simp [recordedUnder, Ne.symm same]
    rw [happenings_other other, upserted.other same]
    refine ⟨(records pid).1, fun absent => ?_⟩
    rcases (records pid).2 absent with nothing | full
    · exact .inl nothing
    · exact .inr (full.trans upserted.size_le)

/-- A hook that sees nothing of a traced task leaves the records right. -/
theorem Records.unseen (records : Records args start past) {action : OffcpuAction}
    (unseen : ∀ entry, action.happening = some entry → args.isTargetTask entry.task = false) :
    Records args start (past ++ [action]) := by
  -- Under no number is there one more entry.
  intro pid
  have other : ∀ entry, action.happening = some entry →
      recordedUnder args pid entry.task = false := by
    intro entry saw
    simp [recordedUnder, unseen entry saw]
  rw [happenings_other other]
  exact records pid

/-- Completing the record of a task leaves the records right. -/
theorem Records.insert_left (records : Records args start past) {pid : UInt32} {ep : TraceEventT}
    (found : start.lookup pid = some ep) (ctx : SwitchCtx) :
    Records args (start.insert pid (ep.leftBehind ctx)) past := by
  -- Only the record of the current task is written, and it says what it said.
  intro other
  by_cases same : other = pid
  · subst same
    refine ⟨fun ep' found' => ?_, fun absent => ?_⟩
    · rw [AList.lookup_insert, Option.some.injEq] at found'
      exact found' ▸ ((records other).1 ep found).leftBehind ctx
    · rw [AList.lookup_insert] at absent
      cases absent
  · rw [AList.lookup_insert_ne same, Assoc.size_insert _ found]
    exact records other

/-- A wakeup keeps the records right. -/
theorem Records.wake {maps : OffcpuMaps} (records : Records maps.args maps.start past)
    (ctx : WakeCtx) : Records maps.args (maps.tryToWakeUpHook ctx).start (past ++ [.wake ctx]) := by
  -- A wakeup that the hook refuses is none that is recorded.
  cases accepted : ctx.wakes && maps.args.isTargetTask ctx.task with
  | false =>
    rw [OffcpuMaps.tryToWakeUpHook_refused accepted]
    refine records.unseen fun entry saw => ?_
    cases wakes : ctx.wakes with
    | false => simp [OffcpuAction.happening, wakes] at saw
    | true =>
      simp only [OffcpuAction.happening, wakes, if_true, Option.some.injEq] at saw
      subst saw
      rw [wakes, Bool.true_and] at accepted
      exact accepted
  | true =>
    obtain ⟨wakes, target⟩ := Bool.and_eq_true_iff.mp accepted
    have seen : (OffcpuAction.wake ctx).happening = some (.note ctx) := by
      simp [OffcpuAction.happening, wakes]
    exact records.upserted seen target (.ofWakeup ctx)
      (fun ep entries matching => matching.wokenUp ctx)
      (OffcpuMaps.tryToWakeUpHook_start accepted)

/-- Noting the previous task keeps the records right. -/
theorem Records.notePrev {maps : OffcpuMaps} (records : Records maps.args maps.start past)
    (ctx : SwitchCtx) : Records maps.args (maps.notePrev ctx).start (past ++ [.switch ctx]) := by
  -- The switch-out of a traced task is recorded under its number.
  cases target : maps.args.isTargetTask ctx.prev with
  | false =>
    rw [OffcpuMaps.notePrev_refused target]
    refine records.unseen fun entry saw => ?_
    simp only [OffcpuAction.happening, Option.some.injEq] at saw
    subst saw
    exact target
  | true =>
    exact records.upserted rfl target (.ofSwitch ctx)
      (fun ep entries matching => matching.switchedOut_append ctx)
      (OffcpuMaps.notePrev_start target)

/-- A whole switch keeps the records right. -/
theorem Records.switch {maps : OffcpuMaps} (records : Records maps.args maps.start past)
    (ctx : SwitchCtx) :
    Records maps.args (maps.schedSwitchHook ctx).1.start (past ++ [.switch ctx]) := by
  -- The record of the current task is completed behind the note of the previous one.
  have noted := records.notePrev ctx
  have switched : maps.Switched ctx (maps.schedSwitchHook ctx) :=
    OffcpuMaps.schedSwitchHook_switched ctx
  generalize maps.schedSwitchHook ctx = result at switched
  cases switched with
  | unknown => simpa using noted
  | silent found => simpa using noted.insert_left found ctx
  | reported reported => simpa using noted.insert_left reported.found ctx

end Records

section Times

variable {s : OffcpuTracer} {past : List OffcpuAction}

/-- What happened is in the order of time. -/
def InOrder (past : List OffcpuAction) : Prop :=
  past.Pairwise fun first second => first.now ≤ second.now

/-- What a hook sees happens when the hook runs. -/
theorem happening_time {action : OffcpuAction} {entry : Happening}
    (seen : action.happening = some entry) : entry.time = action.now := by
  -- A wakeup is seen only where the task is woken up.
  cases action with
  | wake ctx =>
    simp only [OffcpuAction.happening] at seen
    split at seen
    · cases seen
      rfl
    · cases seen
  | switch ctx =>
    cases seen
    rfl

/-- What happened to the tasks of a kind is in the order of time. -/
theorem InOrder.happenings (ordered : InOrder past) (kind : TaskStruct → Bool) :
    (happenings kind past).Pairwise fun first second => first.time ≤ second.time := by
  -- Leaving entries out keeps the order of the others.
  apply List.Pairwise.filter
  refine List.Pairwise.filterMap _ ?_ ordered
  intro first second earlier entry seen other saw
  rw [happening_time seen, happening_time saw]
  exact earlier

/-- Every entry about a kind of tasks was seen by a hook. -/
theorem mem_happenings {kind : TaskStruct → Bool} {entry : Happening}
    (member : entry ∈ happenings kind past) :
    ∃ action ∈ past, action.happening = some entry ∧ kind entry.task = true := by
  -- An entry got past both filters.
  obtain ⟨seen, own⟩ := List.mem_filter.mp member
  obtain ⟨action, happened, saw⟩ := List.mem_filterMap.mp seen
  exact ⟨action, happened, saw, own⟩

end Times

/-- What happened to one task is a part of what happened under its number. -/
theorem happenings_part {args : UserArgs} {task : TaskStruct}
    (target : args.isTargetTask task = true) (past : List OffcpuAction) :
    happenings (· = task) past =
      (happenings (recordedUnder args task.pid) past).filter fun entry => entry.task = task := by
  -- A traced task is recorded under its own number.
  simp only [happenings, List.filter_filter]
  apply List.filter_congr
  intro entry _
  by_cases same : entry.task = task
  · simp [same, recordedUnder, target]
  · simp [same]

namespace OffcpuTracer

variable {s s' : OffcpuTracer}

/--
Where a task's time off the CPU is reported, what is recorded under its number is about that time.

The number was first recorded for the task's process, the last switch-out under it is the task's
own, and the last wakeup under it, if there ever was one, came after that and was the task's own.
-/
def OwnInterval (s : OffcpuTracer) : OffcpuAction → Prop
  | .wake _ => True
  | .switch ctx =>
    ∀ ep, s.maps.Reported ctx ep →
      let entries := happenings (recordedUnder s.maps.args ctx.cur.pid) (s.past ++ [.switch ctx])
      (∃ first, entries.head? = some first ∧ first.task.tgid = ctx.cur.tgid) ∧
        (∃ out, (Trail.of entries).mark = some out ∧ out.task = ctx.cur) ∧
          (((Trail.of entries).earlier = [] ∧ (Trail.of entries).since = []) ∨
            ∃ woken, (Trail.of entries).since.getLast? = some woken ∧ woken.task = ctx.cur)

/-- The records match what happened, which is in the order of time and in the past. -/
structure Recorded (s : OffcpuTracer) : Prop where
  records : Records s.maps.args s.maps.start s.past
  ordered : InOrder s.past
  before : ∀ action ∈ s.past, action.now ≤ s.clock

/-- Nothing is recorded at first. -/
theorem recorded_new (args : UserArgs) : (new args).Recorded where
  -- There are no records and no times yet.
  records := fun _ => ⟨fun _ found => (nomatch found), fun _ => .inl rfl⟩
  ordered := .nil
  before := nofun

/-- The order of time is kept by a hook that runs no earlier than the clock says. -/
theorem Recorded.inOrder (recorded : s.Recorded) {action : OffcpuAction}
    (later : s.clock ≤ action.now) : InOrder (s.past ++ [action]) := by
  -- The clock has passed all that happened before.
  refine List.pairwise_append.mpr ⟨recorded.ordered, List.pairwise_singleton .., ?_⟩
  intro first member second last
  obtain rfl := List.mem_singleton.mp last
  exact UInt64.le_trans (recorded.before first member) later

/-- What has happened is no later than a hook that runs next. -/
theorem Recorded.before_next (recorded : s.Recorded) (action : OffcpuAction)
    (later : s.clock ≤ action.now) : ∀ other ∈ s.past ++ [action], other.now ≤ action.now := by
  -- The clock stands between what happened and the next hook.
  intro other member
  rcases List.mem_append.mp member with earlier | last
  · exact UInt64.le_trans (recorded.before other earlier) later
  · exact (List.mem_singleton.mp last) ▸ UInt64.le_refl _

/-- A step keeps the records right. -/
theorem Recorded.step {action : OffcpuAction} (recorded : s.Recorded)
    (moves : s.Moves action s') : s'.Recorded := by
  -- Both hooks append themselves to the past, and the clock follows them.
  cases moves with
  | wake later =>
    rename_i ctx
    refine ⟨?_, recorded.inOrder later, recorded.before_next _ later⟩
    rw [wake_args]
    exact recorded.records.wake ctx
  | switch later =>
    rename_i ctx
    refine ⟨?_, recorded.inOrder later, recorded.before_next _ later⟩
    rw [switch_args]
    exact recorded.records.switch ctx

/-- An event describes its time off the CPU where what is recorded is about that time. -/
theorem Recorded.describes (recorded : s.Recorded) {ctx : SwitchCtx} {ep : TraceEventT}
    (later : s.clock ≤ ctx.now) (own : s.OwnInterval (.switch ctx))
    (reported : s.maps.Reported ctx ep) :
    Emitted.Describes
      { event := (s.maps.noted ctx).perfEvent (ep.switchedIn ctx) ctx, ctx := ctx, past := s.past }
    := by
  -- The record matches what happened under the number, and that is the task's own where it counts.
  obtain ⟨⟨first, head, process⟩, ⟨out, marked, ownOut⟩, woken⟩ := own ep reported
  have matching := (recorded.records.notePrev ctx ctx.cur.pid).1 ep reported.found
  have part := happenings_part reported.target (s.past ++ [.switch ctx])
  have mine := Trail.of_filter (fun entry : Happening => decide (entry.task = ctx.cur)) marked
    (decide_eq_true ownOut)
  have left : ep.target.offcpuNs = out.now := by simpa [marked] using matching.switchedOut
  refine ⟨?_, ?_, ?_, ⟨out, ?_, ?_⟩, ?_⟩
  · rw [OffcpuMaps.perfEvent_target]
    exact matching.pid
  · obtain ⟨other, headed, same⟩ := matching.tgid
    obtain rfl : first = other := Option.some.inj (head.symm.trans headed)
    rw [OffcpuMaps.perfEvent_target, ← process]
    exact same
  · rw [OffcpuMaps.perfEvent_target]
    rfl
  · rw [Emitted.interval, part]
    exact mine.1
  · rw [OffcpuMaps.perfEvent_target]
    exact left
  · rw [Emitted.interval, part, OffcpuMaps.perfEvent_target, OffcpuMaps.perfEvent_waker]
    rcases woken with ⟨before, after⟩ | ⟨woken, last, ownWakeup⟩
    · -- No wakeup was ever recorded under the number.
      have silent : (Trail.of (happenings (recordedUnder s.maps.args ctx.cur.pid)
          (s.past ++ [.switch ctx]))).lastNote = none := by
        simp [Trail.lastNote, before, after]
      have unwoken := matching.woken
      rw [silent] at unwoken
      exact .inr ⟨(Trail.since_filter_nil before after).2, unwoken⟩
    · -- The last wakeup came after the last switch-out, and both are the task's own.
      have member := List.mem_of_getLast? last
      have wokenBy := matching.woken
      rw [Trail.lastNote_since last] at wokenBy
      obtain ⟨_, _, _, _, _, _, onrq⟩ := id wokenBy
      have inOrder : InOrder (s.past ++ [.switch ctx]) := recorded.inOrder later
      have ordered := inOrder.happenings (recordedUnder s.maps.args ctx.cur.pid)
      have afterOut : out.now ≤ woken.now :=
        Trail.mark_le_since Happening.time ordered marked member
      obtain ⟨action, happened, saw, _⟩ := mem_happenings (Trail.since_mem member)
      have beforeIn : woken.now ≤ ctx.now := by
        have inPast := recorded.before_next (.switch ctx) later action happened
        rw [← happening_time saw] at inPast
        exact inPast
      refine .inl ⟨woken, ?_, wokenBy, ?_, ?_⟩
      · rw [mine.2]
        exact List.mem_filter.mpr ⟨member, decide_eq_true ownWakeup⟩
      · show ep.target.offcpuNs ≤ ep.target.onrqNs
        rw [left, onrq]
        exact afterOut
      · show ep.target.onrqNs ≤ ctx.now
        rw [onrq]
        exact beforeIn

/--
The events of a run describe the times off the CPU that they are about, where every reported one is
about what is recorded under the number of its task.
-/
theorem intervals_described (args : UserArgs) (actions : List OffcpuAction) (s : OffcpuTracer)
    (ran : run step (new args) actions = some s)
    (own : Allowed step OwnInterval (new args) actions) : ∀ x ∈ s.emitted, x.Describes := by
  -- The records stay right along every run, and each step adds events that are right.
  refine (run_history_allowed
    (fun _ state => state.Recorded ∧ ∀ x ∈ state.emitted, x.Describes)
    ⟨recorded_new args, nofun⟩ ?_ own ran).2
  rintro past state action next ⟨recorded, described⟩ own stepped
  have moves := step_moves stepped
  refine ⟨recorded.step moves, ?_⟩
  cases moves with
  | wake => exact described
  | switch later =>
    rename_i ctx
    cases switch_adds state ctx with
    | nothing _ same =>
      rw [same]
      exact described
    | event ep reported emitted =>
      rw [emitted]
      intro x member
      rcases List.mem_append.mp member with before | new
      · exact described x before
      · rw [List.mem_singleton.mp new]
        exact recorded.describes later own reported

/-- A task sleeps until another one wakes it up. -/
def oneSleep : List OffcpuAction :=
  [switchAt 1000000 (taskOf 5) (taskOf 6) 0, wakeAt 2000000 6 (taskOf 5),
    switchAt 3000000 (taskOf 6) (taskOf 5) 0]

/-- A task that sleeps once is reported with its own waker. -/
theorem intervals_described_one_sleep :
    ∃ s, run step (new (openArgs 0)) oneSleep = some s ∧ s.emitted.length = 1 ∧
      ∀ x ∈ s.emitted, x.Describes := by
  -- Only the last hook finds a record, which is about this one sleep.
  refine ⟨_, rfl, by decide +kernel, intervals_described (openArgs 0) oneSleep _ rfl
    ⟨fun ep reported => ?_, fun first taken => ?_⟩⟩
  · exact nomatch reported.found
  obtain rfl := Option.some.inj taken
  refine ⟨trivial, fun second taken => ?_⟩
  obtain rfl := Option.some.inj taken
  exact ⟨fun ep reported => ⟨⟨_, rfl, rfl⟩, ⟨_, rfl, rfl⟩, .inr ⟨_, rfl, rfl⟩⟩, fun _ _ => trivial⟩

/-- The same task loses the CPU later on without going to sleep. -/
def preempted : List OffcpuAction :=
  oneSleep ++
    [switchAt 10000000 (taskOf 5) (taskOf 6) 0, switchAt 12000000 (taskOf 6) (taskOf 5) 0]

/-- A task that lost the CPU is reported with whoever had woken it up long before. -/
theorem preempted_keeps_waker :
    ∃ s, run step (new (openArgs 0)) preempted = some s ∧
      ∃ x ∈ s.emitted, ¬ x.Describes ∧ x.event.target.pid = 5 ∧ x.event.waker.pid = 6 ∧
        x.event.target.onrqNs < x.event.target.offcpuNs := by
  -- The wakeup came before the last switch-out, so it is not inside the interval.
  refine ⟨_, rfl, _, List.mem_of_getLast? rfl, fun describes => ?_, rfl, rfl, by decide +kernel⟩
  rcases describes.woken with ⟨ctx, _, _, ordered, _⟩ | ⟨_, unwoken⟩
  · revert ordered
    decide +kernel
  · exact absurd unwoken.2 (by decide +kernel)

end OffcpuTracer

end Spycat.Offcpu
