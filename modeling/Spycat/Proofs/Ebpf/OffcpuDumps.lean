import Spycat.Lib.Run
import Spycat.Proofs.Ebpf.OffcpuBytes
import Spycat.Proofs.Ebpf.OffcpuSteps

/-! Which events say that the cache of their CPU was copied, and what user space makes of that. -/

namespace Spycat.Offcpu

open Lib Bpf

/-- For how many milliseconds a task waited for a CPU, in full. -/
def runqMs (runDelayNs : UInt64) (runDelay : UInt64) : Nat :=
  ((runDelay - runDelayNs) / 1000000).toNat

/-- A wait for a CPU is longer than the settings allow, if they look for such waits. -/
def UserArgs.Exceeded (args : UserArgs) (waited : Nat) : Prop :=
  args.rqDurMs ≠ 0 ∧ args.rqDurMs.toNat < waited

instance (args : UserArgs) (waited : Nat) : Decidable (args.Exceeded waited) :=
  inferInstanceAs (Decidable (_ ∧ _))

/--
For how long the task of an event waited for a CPU.

The wait is measured against the record that is kept under the task's number, which may be that of
an earlier task with the same number.
-/
def Emitted.waited (x : Emitted) : Nat := runqMs x.event.target.runDelayNs x.ctx.curRunDelay

/-- The hook looks for waits that are too long in their lower 32 bits. -/
theorem dumps_iff (args : UserArgs) (ep : TraceEventT) (runDelay : UInt64) :
    args.dumps ep runDelay = true ↔
      args.Exceeded (runqMs ep.target.runDelayNs runDelay % 2 ^ 32) := by
  -- The signed variable is compared as the unsigned one it was made from.
  simp only [UserArgs.dumps, TraceEventT.runqDur, UserArgs.Exceeded, runqMs,
    UInt32.toUInt32_toInt32, Bool.and_eq_true, decide_eq_true_eq, gt_iff_lt, UInt32.lt_iff_toNat_lt,
    UInt64.toNat_toUInt32]
  exact and_comm

/-- An event is marked where the hook dumps, or where the last one of the CPU was. -/
theorem perfEvent_flag (maps : OffcpuMaps) (ep : TraceEventT) (ctx : SwitchCtx) :
    (maps.perfEvent ep ctx).isSchedCacheDump = 1 ↔
      maps.args.dumps ep ctx.curRunDelay = true ∨
        (maps.perfEventCache ctx.cpu).isSchedCacheDump = 1 := by
  -- The scratch record keeps its flag unless the hook sets it.
  cases dumps : maps.args.dumps ep ctx.curRunDelay with
  | false => simp [OffcpuMaps.perfEvent, dumps]
  | true => simp [OffcpuMaps.perfEvent, dumps]

namespace OffcpuTracer

variable {s s' : OffcpuTracer}

/-- The marked events are those whose tasks waited too long. -/
def FlagsRight (s : OffcpuTracer) : Prop :=
  ∀ x ∈ s.emitted, x.event.isSchedCacheDump = 1 ↔ s.maps.args.Exceeded x.waited

/--
Where a wait is reported that is too long, it is so in its lower 32 bits or the last event of the
CPU was marked, and where another one is reported the last event was not marked.
-/
def FlagFresh (s : OffcpuTracer) : OffcpuAction → Prop
  | .wake _ => True
  | .switch ctx =>
    ∀ ep, s.maps.Reported ctx ep →
      let waited := runqMs ep.target.runDelayNs ctx.curRunDelay
      let marked := (s.maps.perfEventCache ctx.cpu).isSchedCacheDump = 1
      if s.maps.args.Exceeded waited then s.maps.args.Exceeded (waited % 2 ^ 32) ∨ marked
      else ¬ marked

/-- An event is marked rightly exactly where the mark of the CPU is fresh. -/
theorem flag_right_iff {args : UserArgs} {waited : Nat} {marked : Prop} :
    (args.Exceeded (waited % 2 ^ 32) ∨ marked ↔ args.Exceeded waited) ↔
      if args.Exceeded waited then args.Exceeded (waited % 2 ^ 32) ∨ marked else ¬ marked := by
  -- The lower bits never make a wait longer.
  have lower : args.Exceeded (waited % 2 ^ 32) → args.Exceeded waited := by
    rintro ⟨looked, longer⟩
    exact ⟨looked, longer.trans_le (Nat.mod_le _ _)⟩
  split
  · rename_i exceeded
    exact ⟨fun right => right.mpr exceeded, fun fresh => ⟨fun _ => exceeded, fun _ => fresh⟩⟩
  · rename_i short
    constructor
    · exact fun right marked => short (right.mp (.inr marked))
    · exact fun fresh => ⟨fun either => either.elim lower fun marked => absurd marked fresh,
        fun exceeded => absurd exceeded short⟩

/-- A step keeps the marks right exactly where the mark of its CPU is fresh. -/
theorem flagsRight_step {action : OffcpuAction} (right : s.FlagsRight)
    (moves : s.Moves action s') : s'.FlagsRight ↔ s.FlagFresh action := by
  -- Only a switch that reports adds an event, and the flag of that one is looked at.
  cases moves with
  | wake =>
    refine iff_of_true ?_ trivial
    simp only [FlagsRight, wake_args]
    exact right
  | @switch ctx later =>
    cases switch_adds s ctx with
    | nothing silent same =>
      refine iff_of_true ?_ fun ep reported => absurd reported (silent ep)
      simp only [FlagsRight, same, switch_args]
      exact right
    | event ep reported emitted =>
      have marked := perfEvent_flag (s.maps.noted ctx) (ep.switchedIn ctx) ctx
      rw [dumps_iff, OffcpuMaps.noted_args, OffcpuMaps.noted_perfEventCache] at marked
      simp only [FlagsRight, emitted, switch_args, List.forall_mem_append,
        List.forall_mem_singleton]
      rw [marked, Emitted.waited, OffcpuMaps.perfEvent_target]
      -- The events before are right already, so the new one decides.
      refine Iff.trans (and_iff_right right) (Iff.trans flag_right_iff ?_)
      constructor
      · intro fresh other reported'
        rw [← reported.unique reported']
        exact fresh
      · exact fun fresh => fresh ep reported

/-- The cache of a CPU was copied, unless there was no room for one more copy. -/
def Copied (s : OffcpuTracer) (cpu : UInt32) : Prop :=
  (s.maps.schedCacheBackup.lookup cpu).isSome ∨ maxBackups ≤ s.maps.schedCacheBackup.size

/-- Every mark names its CPU, whose cache was copied. -/
structure MarksCopied (s : OffcpuTracer) : Prop where
  pending : ∀ cpu, (s.maps.perfEventCache cpu).isSchedCacheDump = 1 →
    (s.maps.perfEventCache cpu).cpu = cpu ∧ s.Copied cpu
  emitted : ∀ x ∈ s.emitted, x.event.isSchedCacheDump = 1 →
    x.event.cpu = x.ctx.cpu ∧ s.Copied x.ctx.cpu

/-- No copy goes away. -/
theorem Adds.copied {ctx : SwitchCtx} {cpu : UInt32} (adds : s.Adds ctx s')
    (copied : s.Copied cpu) : s'.Copied cpu := by
  -- A switch makes one more copy or none, and an update removes no other.
  unfold Copied at copied ⊢
  cases adds with
  | nothing _ _ _ backup =>
    rw [backup]
    exact copied
  | event ep _ _ _ backup =>
    split at backup
    · obtain ⟨cache, stored⟩ := backup
      rw [stored]
      exact tryUpdateElem_keeps _ _ _ copied
    · rw [backup]
      exact copied

/-- An event that is marked names its CPU, whose cache was copied at this or an earlier switch. -/
theorem MarksCopied.event (marks : s.MarksCopied) {ctx : SwitchCtx} {ep : TraceEventT}
    (marked : ((s.maps.noted ctx).perfEvent (ep.switchedIn ctx) ctx).isSchedCacheDump = 1)
    (backup :
      if s.maps.args.dumps ep ctx.curRunDelay then
        ∃ cache, s'.maps.schedCacheBackup =
          tryUpdateElem maxBackups s.maps.schedCacheBackup ctx.cpu cache .any
      else s'.maps.schedCacheBackup = s.maps.schedCacheBackup) :
    ((s.maps.noted ctx).perfEvent (ep.switchedIn ctx) ctx).cpu = ctx.cpu ∧ s'.Copied ctx.cpu := by
  -- Where the hook does not dump, the mark is the one that the last event of the CPU left.
  have same : (s.maps.noted ctx).args.dumps (ep.switchedIn ctx) ctx.curRunDelay =
      s.maps.args.dumps ep ctx.curRunDelay := by
    rw [OffcpuMaps.noted_args]
    rfl
  unfold Copied
  cases dumps : s.maps.args.dumps ep ctx.curRunDelay with
  | true =>
    rw [dumps] at same
    simp only [dumps, if_true] at backup
    obtain ⟨cache, stored⟩ := backup
    constructor
    · rw [OffcpuMaps.perfEvent, if_pos same]
    · rw [stored]
      exact tryUpdateElem_present _ _
  | false =>
    rw [dumps] at same
    simp only [dumps, Bool.false_eq_true, if_false] at backup
    simp only [OffcpuMaps.perfEvent, same, Bool.false_eq_true, if_false,
      OffcpuMaps.noted_perfEventCache] at marked ⊢
    rw [backup]
    exact marks.pending ctx.cpu marked

/-- Every step keeps that marked caches were copied. -/
theorem MarksCopied.step {action : OffcpuAction} (marks : s.MarksCopied)
    (moves : s.Moves action s') : s'.MarksCopied := by
  -- Wakeups touch neither the scratch records nor the copies.
  cases moves with
  | @wake ctx =>
    have scratch : (s.wake ctx).maps.perfEventCache = s.maps.perfEventCache :=
      OffcpuMaps.tryToWakeUpHook_perfEventCache ctx
    have backup : (s.wake ctx).maps.schedCacheBackup = s.maps.schedCacheBackup :=
      OffcpuMaps.tryToWakeUpHook_schedCacheBackup ctx
    constructor
    · simp only [Copied, scratch, backup]
      exact marks.pending
    · simp only [Copied, backup]
      exact marks.emitted
  | @switch ctx later =>
    have adds := switch_adds s ctx
    -- What was emitted before still names a copy, as none goes away.
    have kept : ∀ x ∈ s.emitted, x.event.isSchedCacheDump = 1 →
        x.event.cpu = x.ctx.cpu ∧ (s.switch ctx).Copied x.ctx.cpu :=
      fun x member marked => (marks.emitted x member marked).imp_right adds.copied
    cases adds with
    | nothing silent emitted scratch backup =>
      constructor
      · rw [scratch]
        exact fun cpu marked => (marks.pending cpu marked).imp_right (switch_adds s ctx).copied
      · rw [emitted]
        exact kept
    | event ep reported emitted scratch backup =>
      constructor
      · rw [scratch]
        intro cpu marked
        -- Only the scratch record of the CPU that switches is written.
        by_cases same : cpu = ctx.cpu
        · subst same
          rw [Function.update_self] at marked ⊢
          exact marks.event marked backup
        · rw [Function.update_of_ne same] at marked ⊢
          exact (marks.pending cpu marked).imp_right (switch_adds s ctx).copied
      · rw [emitted]
        intro x member marked
        rcases List.mem_append.mp member with before | new
        · exact kept x before marked
        · obtain rfl := List.mem_singleton.mp new
          exact marks.event marked backup

/--
What user space sends for an event: its CPU's cache first, if the event is marked, and then the
event itself; the cache is sent by every tenth of its records, if there was room for the copy.
-/
def Resends (s : OffcpuTracer) (x : Emitted) : Prop :=
  ∀ (symSession : StackSession) (now : UInt64) (rest : List UInt8),
    let session : OffcpuSession :=
      { symSession := symSession, mapSchedCacheDump := s.maps.schedCacheBackup }
    session.handleEvent now (x.event.bytes ++ rest) =
        some ((if x.event.isSchedCacheDump = 1 then session.schedCacheDump now x.ctx.cpu else []) ++
          [session.ownEvent now x.event]) ∧
      (x.event.isSchedCacheDump = 1 → s.maps.schedCacheBackup.size < maxBackups →
        ∃ cache, session.schedCacheDump now x.ctx.cpu =
          OffcpuSession.dumped.map (OffcpuSession.schedCacheEvent now x.ctx.cpu cache))

/-- Every event is taken up by user space as it is marked. -/
theorem MarksCopied.resends (marks : s.MarksCopied) {x : Emitted} (member : x ∈ s.emitted) :
    s.Resends x := by
  -- The flag names the CPU whose copy is read, and the copy is still there.
  intro symSession now rest session
  constructor
  · rw [OffcpuSession.handleEvent_eq]
    by_cases marked : x.event.isSchedCacheDump = 1
    · rw [(marks.emitted x member marked).1]
    · simp only [marked, if_false]
  · intro marked room
    rcases (marks.emitted x member marked).2 with copied | full
    · obtain ⟨cache, found⟩ := Option.isSome_iff_exists.mp copied
      exact ⟨cache, OffcpuSession.schedCacheDump_eq found now⟩
    -- There was room, so the copy was made.
    · omega

/--
The marked events are those whose tasks waited too long in exactly the runs in which the mark of a
CPU is fresh wherever an event is reported; user space goes by the marks in every run.
-/
theorem dumps_resent (args : UserArgs) (actions : List OffcpuAction) (s : OffcpuTracer)
    (ran : run step (new args) actions = some s) :
    ((∀ state, Visited step (new args) actions state → state.FlagsRight) ↔
      Allowed step FlagFresh (new args) actions) ∧
    ∀ x ∈ s.emitted, s.Resends x := by
  -- The flags are an equivalence along the run, and the copies an invariant of it.
  constructor
  · refine always_iff_allowed (fun _ => True) trivial nofun (fun _ _ _ _ _ => trivial) ?_ ran
    exact fun state action next _ right stepped => flagsRight_step right (step_moves stepped)
  · have fresh : (new args).MarksCopied := by
      refine ⟨fun cpu marked => ?_, nofun⟩
      exact absurd (show (0 : UInt32) = 1 from marked) (by decide)
    have marks : s.MarksCopied := run_invariant MarksCopied fresh
      (fun state action next marks stepped => marks.step (step_moves stepped)) ran
    exact fun x member => marks.resends member

/-- A task waits for five milliseconds for the CPU. -/
def oneWait : List OffcpuAction :=
  [switchAt 1000000 (taskOf 5) (taskOf 6) 0, wakeAt 2000000 6 (taskOf 5),
    switchAt 9000000 (taskOf 6) (taskOf 5) 5000000]

/-- An event that is marked for a wait of its own is the only one for which a cache is sent. -/
theorem dumps_resent_one_wait :
    ∃ s, run step (new (openArgs 1)) oneWait = some s ∧ s.emitted.length = 1 ∧ s.FlagsRight ∧
      ∀ x ∈ s.emitted, s.Resends x := by
  -- Only the last of the three hooks reports, and the wait is longer than a millisecond.
  have resent := dumps_resent (openArgs 1) oneWait _ rfl
  refine ⟨_, rfl, by decide +kernel, resent.1.mpr ?_ _ (visited_finish rfl), resent.2⟩
  refine ⟨fun ep reported => (nomatch reported.found), fun first taken => ?_⟩
  obtain rfl := Option.some.inj taken
  refine ⟨trivial, fun second taken => ?_⟩
  obtain rfl := Option.some.inj taken
  refine ⟨fun ep reported => ?_, fun _ _ => trivial⟩
  obtain rfl := Option.some.inj reported.found
  decide +kernel

/-- Another task takes the CPU over at once, without having waited for it. -/
def nextTask : List OffcpuAction := oneWait ++ [switchAt 10000000 (taskOf 5) (taskOf 6) 0]

/-- The mark stays for the next event of the CPU, and the cache is sent once more. -/
theorem mark_stays :
    ∃ s, run step (new (openArgs 1)) nextTask = some s ∧ ∃ x ∈ s.emitted,
      x.event.isSchedCacheDump = 1 ∧ x.waited = 0 ∧ ¬ s.maps.args.Exceeded x.waited ∧
        ∀ symSession now,
          (OffcpuSession.handleEvent ⟨symSession, s.maps.schedCacheBackup⟩ now x.event.bytes).map
            List.length = some 53 := by
  -- The second event is the last one that was emitted, and its task did not wait.
  refine ⟨_, rfl, _, List.mem_of_getLast? rfl, rfl, rfl, by decide +kernel, ?_⟩
  intro symSession now
  exact OffcpuSession.handleEvent_length rfl rfl now

end OffcpuTracer

end Spycat.Offcpu
