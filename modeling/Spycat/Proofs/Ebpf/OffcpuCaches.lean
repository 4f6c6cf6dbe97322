import Spycat.Lib.Ring
import Spycat.Lib.Run
import Spycat.Proofs.Ebpf.OffcpuDumps
import Spycat.Proofs.Ebpf.OffcpuLabels
import Spycat.Proofs.Ebpf.OffcpuSteps

/-! What the scheduler caches hold after any run, and what user space is told of their copies. -/

namespace Spycat.Offcpu

open Lib Bpf

/-- A record in which nothing was written yet. -/
def SchedRecord.zero : SchedRecord where
  pid := 0
  prio := 0
  comm := Vector.replicate taskCommLen 0
  ts := 0

/-- The record of the task that a switch takes off its CPU. -/
def SwitchCtx.record (ctx : SwitchCtx) : SchedRecord where
  pid := ctx.prev.pid
  prio := ctx.prevPrio
  comm := ctx.prevComm
  ts := ctx.now

/-- The task that an action takes off a CPU, if it is one of that CPU. -/
def OffcpuAction.takenOff (cpu : UInt32) : OffcpuAction → Option SchedRecord
  | .wake _ => none
  | .switch ctx => if ctx.cpu = cpu then some ctx.record else none

/-- The tasks that gave up a CPU in the course of some actions, from the first one on. -/
def gaveUp (cpu : UInt32) (actions : List OffcpuAction) : List SchedRecord :=
  actions.filterMap (·.takenOff cpu)

/-- The cache of a CPU that a history of tasks gave up. -/
def SchedCached.after (cpu : UInt32) (history : List SchedRecord) : SchedCached where
  status := 0
  cpu := if history = [] then 0 else cpu
  id := UInt32.ofNat history.length
  pad := 0
  records := ringOf schedCacheSize .zero history

/-- A cache without a history is the one that is there at first. -/
theorem SchedCached.after_nil (cpu : UInt32) : SchedCached.after cpu [] = .zero := by
  -- The ring is blank all around.
  simp only [SchedCached.after, ringOf_nil, if_true, List.length_nil]
  rfl

/-- The counter of a cache names the slot of the next record, also after it has wrapped. -/
theorem slot_eq (count : Nat) :
    (UInt32.ofNat count % UInt32.ofNat schedCacheSize).toNat = count % schedCacheSize := by
  -- The size of the ring divides the number that the counter wraps at.
  have divides : schedCacheSize ∣ 4294967296 := by decide
  rw [UInt32.toNat_mod, UInt32.toNat_ofNat', UInt32.toNat_ofNat']
  exact Nat.mod_mod_of_dvd count divides

/-- An open cache takes one more record, into the slot that its counter names. -/
theorem SchedCached.update_open {cache : SchedCached} {ctx : SwitchCtx} {slot : Nat}
    (open_ : cache.status = 0)
    (named : (cache.id % UInt32.ofNat schedCacheSize).toNat = slot)
    (inside : slot < schedCacheSize) :
    cache.update ctx =
      { cache with
        cpu := ctx.cpu
        records := cache.records.set slot ctx.record inside
        id := cache.id + 1 } := by
  -- Neither check of the source fails.
  subst named
  exact dif_pos ⟨inside, open_⟩

/-- One more switch makes the history of its CPU one task longer. -/
theorem SchedCached.after_update {cpu : UInt32} {history : List SchedRecord} {ctx : SwitchCtx}
    (own : ctx.cpu = cpu) :
    (SchedCached.after cpu history).update ctx = .after cpu (history ++ [ctx.record]) := by
  -- The slot is the one that the ring puts its next value into.
  have bound : history.length % schedCacheSize < schedCacheSize := Nat.mod_lt _ (by decide)
  have grown : UInt32.ofNat history.length + 1 = UInt32.ofNat (history.length + 1) := by
    rw [UInt32.ofNat_add]
    rfl
  rw [SchedCached.update_open rfl (slot_eq history.length) bound]
  simp only [SchedCached.after, grown, own, ringOf_append ctx.record bound,
    List.length_append, List.length_singleton, List.append_eq_nil_iff, List.cons_ne_self,
    and_false, if_false]

namespace OffcpuMaps

variable {maps : OffcpuMaps}

@[simp] theorem tryToWakeUpHook_schedCache (ctx : WakeCtx) :
    (maps.tryToWakeUpHook ctx).schedCache = maps.schedCache := by
  -- The hook only stores a record.
  obtain ⟨start, frame⟩ := maps.tryToWakeUpHook_frame ctx
  rw [frame]

/-- The caches after the first half of a switch. -/
theorem noted_schedCache (ctx : SwitchCtx) :
    (maps.noted ctx).schedCache =
      if maps.args.rqDurMs ≠ 0 then
        Function.update maps.schedCache ctx.cpu ((maps.schedCache ctx.cpu).update ctx)
      else maps.schedCache := by
  -- Noting the previous task leaves the caches alone.
  unfold noted
  split
  · obtain ⟨start, frame⟩ := (maps.schedCacheUpdate ctx).notePrev_frame ctx
    rw [frame]
    rfl
  · obtain ⟨start, frame⟩ := maps.notePrev_frame ctx
    rw [frame]

/-- A switch copies the cache of its CPU. -/
def Dumps (maps : OffcpuMaps) (ctx : SwitchCtx) : Prop :=
  ∃ ep, maps.Reported ctx ep ∧ maps.args.dumps ep ctx.curRunDelay = true

/-- What a switch makes of the caches and the copies of them. -/
theorem schedSwitchHook_caches (ctx : SwitchCtx)
    (open_ : ((maps.noted ctx).schedCache ctx.cpu).status = 0) :
    (maps.schedSwitchHook ctx).1.schedCache = (maps.noted ctx).schedCache ∧
      (maps.Dumps ctx ∧ (maps.schedSwitchHook ctx).1.schedCacheBackup =
          tryUpdateElem maxBackups maps.schedCacheBackup ctx.cpu
            { (maps.noted ctx).schedCache ctx.cpu with status := 1 } .any ∨
        ¬ maps.Dumps ctx ∧
          (maps.schedSwitchHook ctx).1.schedCacheBackup = maps.schedCacheBackup) := by
  -- Only a report copies the cache, which is open again afterwards.
  have switched : maps.Switched ctx (maps.schedSwitchHook ctx) := schedSwitchHook_switched ctx
  generalize maps.schedSwitchHook ctx = result at switched
  cases switched with
  | unknown silent =>
    exact ⟨rfl, .inr ⟨fun ⟨ep, reported, _⟩ => silent ep reported, noted_schedCacheBackup ctx⟩⟩
  | silent found silent =>
    exact ⟨rfl, .inr ⟨fun ⟨ep, reported, _⟩ => silent ep reported, noted_schedCacheBackup ctx⟩⟩
  | @reported ep reported =>
    have settings : (maps.noted ctx).args.dumps ep ctx.curRunDelay =
        maps.args.dumps ep ctx.curRunDelay := by rw [noted_args]
    cases dumps : maps.args.dumps ep ctx.curRunDelay with
    | true =>
      simp only [settings, dumps, if_true, schedCacheDump, noted_schedCacheBackup]
      refine ⟨?_, .inl ⟨⟨ep, reported, dumps⟩, trivial⟩⟩
      -- What is written back is the cache as it was.
      have same : { (maps.noted ctx).schedCache ctx.cpu with status := 0 } =
          (maps.noted ctx).schedCache ctx.cpu := by
        rw [← open_]
      rw [same, Function.update_eq_self]
    | false =>
      simp only [settings, dumps, Bool.false_eq_true, if_false, noted_schedCacheBackup, true_and]
      refine .inr ⟨fun ⟨other, reported', dumped⟩ => ?_, trivial⟩
      rw [← reported.unique reported', dumps] at dumped
      cases dumped

end OffcpuMaps

namespace OffcpuTracer

variable {s s' : OffcpuTracer} {args : UserArgs} {cpu : UInt32}

/-- The tasks that gave up a CPU and were recorded; none are where no waits are looked into. -/
def recorded (args : UserArgs) (cpu : UInt32) (actions : List OffcpuAction) : List SchedRecord :=
  if args.rqDurMs ≠ 0 then gaveUp cpu actions else []

/-- A switch right behind some actions copies the cache of its CPU. -/
def CopiesAt (args : UserArgs) (past : List OffcpuAction) (ctx : SwitchCtx) : Prop :=
  ∃ s, run step (new args) past = some s ∧ s.maps.Dumps ctx

/-- The last time that the cache of a CPU was copied in the course of some actions. -/
structure LastCopy (args : UserArgs) (cpu : UInt32) (actions past : List OffcpuAction)
    (ctx : SwitchCtx) : Prop where
  within : past ++ [.switch ctx] <+: actions
  own : ctx.cpu = cpu
  copies : CopiesAt args past ctx
  last : ∀ later other, later ++ [.switch other] <+: actions → past.length < later.length →
    other.cpu = cpu → ¬ CopiesAt args later other

/-- The cache of a CPU was never copied in the course of some actions. -/
def NeverCopied (args : UserArgs) (cpu : UInt32) (actions : List OffcpuAction) : Prop :=
  ∀ past ctx, past ++ [.switch ctx] <+: actions → ctx.cpu = cpu → ¬ CopiesAt args past ctx

/-- The copy of a CPU's cache is its last one; there is none where none was made or had room. -/
structure CopyKept (args : UserArgs) (cpu : UInt32) (actions : List OffcpuAction)
    (copies : Assoc UInt32 SchedCached) : Prop where
  copied : ∀ cache, copies.lookup cpu = some cache →
    ∃ past ctx, LastCopy args cpu actions past ctx ∧
      cache = { SchedCached.after cpu (recorded args cpu (past ++ [.switch ctx])) with status := 1 }
  absent : copies.lookup cpu = none →
    NeverCopied args cpu actions ∨ maxBackups ≤ copies.size

/-- The caches hold what was recorded, and the copies what was recorded when they were made. -/
structure CachesKept (args : UserArgs) (actions : List OffcpuAction) (s : OffcpuTracer) :
    Prop where
  caches : ∀ cpu, s.maps.schedCache cpu = .after cpu (recorded args cpu actions)
  copies : ∀ cpu, CopyKept args cpu actions s.maps.schedCacheBackup

/-- An action copies the cache of a CPU. -/
def CopiesOf (s : OffcpuTracer) (cpu : UInt32) : OffcpuAction → Prop
  | .wake _ => False
  | .switch ctx => ctx.cpu = cpu ∧ s.maps.Dumps ctx

/-- A switch that is among some actions and one more is one of the former or the latter. -/
theorem switch_within {past before : List OffcpuAction} {ctx : SwitchCtx} {action : OffcpuAction}
    (within : before ++ [.switch ctx] <+: past ++ [action]) :
    before = past ∧ action = .switch ctx ∨ before ++ [.switch ctx] <+: past := by
  -- The switch is the last of the actions, or among those before.
  rcases List.prefix_concat_iff.mp within with whole | earlier
  · obtain ⟨same, last⟩ := List.append_inj' whole rfl
    exact .inl ⟨same, (List.singleton_inj.mp last).symm⟩
  · exact .inr earlier

/-- A copy stays the last one past an action that makes none. -/
theorem LastCopy.extend {past before : List OffcpuAction} {ctx : SwitchCtx} {action : OffcpuAction}
    (copy : LastCopy args cpu past before ctx) (ran : run step (new args) past = some s)
    (none : ¬ s.CopiesOf cpu action) : LastCopy args cpu (past ++ [action]) before ctx := by
  -- The action itself is the only one to be looked at.
  refine ⟨copy.within.trans (List.prefix_append ..), copy.own, copy.copies, ?_⟩
  intro later other within behind own
  rcases switch_within within with ⟨rfl, rfl⟩ | earlier
  · intro ⟨state, reached, dumps⟩
    obtain rfl := Option.some.inj (ran.symm.trans reached)
    exact none ⟨own, dumps⟩
  · exact copy.last later other earlier behind own

/-- A cache stays uncopied past an action that makes no copy. -/
theorem NeverCopied.extend {past : List OffcpuAction} {action : OffcpuAction}
    (never : NeverCopied args cpu past) (ran : run step (new args) past = some s)
    (none : ¬ s.CopiesOf cpu action) : NeverCopied args cpu (past ++ [action]) := by
  -- As above, with no copy to begin with.
  intro before ctx within own
  rcases switch_within within with ⟨rfl, rfl⟩ | earlier
  · intro ⟨state, reached, dumps⟩
    obtain rfl := Option.some.inj (ran.symm.trans reached)
    exact none ⟨own, dumps⟩
  · exact never before ctx earlier own

/-- A switch that copies is the last one to do so. -/
theorem LastCopy.now {past : List OffcpuAction} {ctx : SwitchCtx}
    (ran : run step (new args) past = some s) (dumps : s.maps.Dumps ctx) :
    LastCopy args ctx.cpu (past ++ [.switch ctx]) past ctx := by
  refine ⟨List.prefix_refl _, rfl, ⟨s, ran, dumps⟩, fun later other within behind _ => ?_⟩
  -- No switch stands behind the last one.
  have short := within.length_le
  simp only [List.length_append, List.length_singleton] at short
  omega

/-- The history of a CPU grows by the task that an action takes off it. -/
theorem recorded_append (actions : List OffcpuAction) (action : OffcpuAction) :
    recorded args cpu (actions ++ [action]) =
      recorded args cpu actions ++
        if args.rqDurMs ≠ 0 then (action.takenOff cpu).toList else [] := by
  -- Only a switch on the CPU takes a task off it.
  unfold recorded gaveUp
  split
  · rw [List.filterMap_append]
    cases taken : action.takenOff cpu <;> simp [taken]
  · rfl

/-- Before it copies anything, a switch has recorded the task that it takes off. -/
theorem noted_recorded {past : List OffcpuAction}
    (caches : ∀ cpu, s.maps.schedCache cpu = .after cpu (recorded s.maps.args cpu past))
    (ctx : SwitchCtx) (cpu : UInt32) :
    (s.maps.noted ctx).schedCache cpu =
      .after cpu (recorded s.maps.args cpu (past ++ [.switch ctx])) := by
  -- The cache of another CPU is not touched, and none is where no waits are looked into.
  rw [OffcpuMaps.noted_schedCache, recorded_append, OffcpuAction.takenOff]
  split
  · by_cases own : ctx.cpu = cpu
    · subst own
      rw [Function.update_self, caches, if_pos rfl]
      exact SchedCached.after_update rfl
    · rw [Function.update_of_ne (Ne.symm own), caches, if_neg own]
      simp
  · rw [caches, List.append_nil]

/-- A CPU whose cache an action does not copy keeps its copy, or stays without one. -/
theorem CopyKept.other {past : List OffcpuAction} {action : OffcpuAction}
    {copies copies' : Assoc UInt32 SchedCached} (kept : CopyKept args cpu past copies)
    (ran : run step (new args) past = some s) (none : ¬ s.CopiesOf cpu action)
    (same : copies'.lookup cpu = copies.lookup cpu) (grown : copies.size ≤ copies'.size) :
    CopyKept args cpu (past ++ [action]) copies' := by
  -- What copies nothing leaves the last copy as it was, and the map no emptier.
  constructor
  · intro cache found
    obtain ⟨before, ctx, copy, held⟩ := kept.copied cache (same ▸ found)
    exact ⟨before, ctx, copy.extend ran none, held⟩
  · intro absent
    rcases kept.absent (same ▸ absent) with never | full
    · exact .inl (never.extend ran none)
    · exact .inr (full.trans grown)

/-- A switch that copies the cache of its CPU keeps what the copies of all CPUs are. -/
theorem CopyKept.dump {past : List OffcpuAction} {ctx : SwitchCtx}
    {copies : Assoc UInt32 SchedCached} (kept : ∀ cpu, CopyKept args cpu past copies)
    (ran : run step (new args) past = some s) (dumps : s.maps.Dumps ctx) (cpu : UInt32) :
    CopyKept args cpu (past ++ [.switch ctx])
      (tryUpdateElem maxBackups copies ctx.cpu
        { SchedCached.after ctx.cpu (recorded args ctx.cpu (past ++ [.switch ctx])) with
          status := 1 } .any) := by
  rcases tryUpdateElem_cases maxBackups copies ctx.cpu
    { SchedCached.after ctx.cpu (recorded args ctx.cpu (past ++ [.switch ctx])) with
      status := 1 } with stored | ⟨new, full, refused⟩
  · rw [stored]
    by_cases own : cpu = ctx.cpu
    · subst own
      constructor
      · intro cache found
        rw [AList.lookup_insert] at found
        exact ⟨past, ctx, .now ran dumps, (Option.some.inj found).symm⟩
      · intro absent
        rw [AList.lookup_insert] at absent
        cases absent
    · refine (kept cpu).other ran (fun copied => own copied.1.symm)
        (AList.lookup_insert_ne own) (Assoc.size_le_insert ..)
  · -- A new CPU without room stays without a copy, and the others are not touched.
    rw [refused]
    by_cases own : cpu = ctx.cpu
    · subst own
      exact ⟨fun cache found => (nomatch new.symm.trans found), fun _ => .inr full⟩
    · exact (kept cpu).other ran (fun copied => own copied.1.symm) rfl (le_refl _)

/-- Every step keeps what the caches and their copies hold. -/
theorem CachesKept.step {past : List OffcpuAction} {action : OffcpuAction}
    (kept : s.CachesKept s.maps.args past) (ran : run step (new s.maps.args) past = some s)
    (moves : s.Moves action s') : s'.CachesKept s.maps.args (past ++ [action]) := by
  cases moves with
  | @wake ctx =>
    -- A wakeup touches neither.
    have caches : (s.wake ctx).maps.schedCache = s.maps.schedCache :=
      OffcpuMaps.tryToWakeUpHook_schedCache ctx
    have backup : (s.wake ctx).maps.schedCacheBackup = s.maps.schedCacheBackup :=
      OffcpuMaps.tryToWakeUpHook_schedCacheBackup ctx
    constructor
    · intro cpu
      rw [caches, kept.caches, recorded_append]
      simp [OffcpuAction.takenOff]
    · intro cpu
      rw [backup]
      exact (kept.copies cpu).other ran (fun copied => copied) rfl (le_refl _)
  | @switch ctx later =>
    have noted := noted_recorded kept.caches ctx
    have open_ : ((s.maps.noted ctx).schedCache ctx.cpu).status = 0 := by
      rw [noted]
      rfl
    obtain ⟨caches, dumped⟩ := s.maps.schedSwitchHook_caches ctx open_
    constructor
    · intro cpu
      exact (congrFun caches cpu).trans (noted cpu)
    · intro cpu
      rcases dumped with ⟨dumps, backup⟩ | ⟨none, backup⟩
      · rw [noted] at backup
        exact backup ▸ CopyKept.dump kept.copies ran dumps cpu
      · exact (kept.copies cpu).other ran (fun copied => none copied.2)
          (congrArg (AList.lookup cpu) backup) (congrArg Assoc.size backup).ge

/-- A run keeps what the caches and their copies hold. -/
theorem cachesKept_run {actions : List OffcpuAction}
    (ran : run step (new args) actions = some s) :
    s.maps.args = args ∧ s.CachesKept args actions := by
  -- The run so far is part of what is carried along, as copies are told by where they were made.
  have carried : run step (new args) actions = some s ∧ s.maps.args = args ∧
      s.CachesKept args actions := by
    refine run_history (fun past state => run step (new args) past = some state ∧
      state.maps.args = args ∧ state.CachesKept args past) ?_ ?_ ran
    · refine ⟨rfl, rfl, fun cpu => ?_, fun cpu => ⟨fun cache found => (nomatch found), fun _ => ?_⟩⟩
      · have nothing : recorded args cpu [] = [] := by
          unfold recorded gaveUp
          split <;> rfl
        rw [nothing, SchedCached.after_nil]
        rfl
      · refine .inl fun past ctx within => ?_
        have short := within.length_le
        simp at short
    · intro past state action next ⟨reached, settings, kept⟩ stepped
      subst settings
      have moves := step_moves stepped
      refine ⟨by simp [run_append, reached, stepped], ?_, kept.step reached moves⟩
      cases moves with
      | wake => exact wake_args _
      | switch => exact switch_args _
  exact carried.2

end OffcpuTracer

/-- There are slots. -/
theorem schedCacheSize_pos : 0 < schedCacheSize := Nat.zero_lt_succ 511

/-- A cache holds the last tasks of a history, in the order in which they gave up its CPU. -/
structure SchedCached.Holds (cache : SchedCached) (cpu : UInt32) (history : List SchedRecord) :
    Prop where
  next : cache.id = UInt32.ofNat history.length
  named : history ≠ [] → cache.cpu = cpu
  recent : unroll cache.records schedCacheSize_pos history.length =
    history.drop (history.length - schedCacheSize)
  blank : ∀ slot (inside : slot < schedCacheSize), history.length ≤ slot →
    cache.records[slot] = .zero

/-- The cache of a CPU holds the last tasks of its history, whether it is a copy or not. -/
theorem SchedCached.after_holds (cpu : UInt32) (history : List SchedRecord) (status : UInt32) :
    SchedCached.Holds { SchedCached.after cpu history with status := status } cpu history := by
  -- The ring is unrolled to them, and blank where it was not filled yet.
  constructor
  · rfl
  · exact fun some_ => if_neg some_
  · have ring := unroll_ringOf SchedRecord.zero history schedCacheSize_pos
    exact ring
  · exact fun slot inside unwritten => ringOf_blank unwritten inside

namespace OffcpuTracer

/--
After any run the cache of each CPU holds the last records of the tasks that gave it up, and its
copy holds those that there were when it was last copied.

No task is recorded where `rq_dur_ms` is zero, which is the default: all caches are blank then.
-/
theorem caches_recent (args : UserArgs) (actions : List OffcpuAction) (s : OffcpuTracer)
    (ran : run step (new args) actions = some s) (cpu : UInt32) :
    (s.maps.schedCache cpu).Holds cpu (recorded args cpu actions) ∧
      (∀ cache, s.maps.schedCacheBackup.lookup cpu = some cache →
        ∃ past ctx, LastCopy args cpu actions past ctx ∧ cache.status = 1 ∧
          cache.Holds cpu (recorded args cpu (past ++ [.switch ctx]))) ∧
      (s.maps.schedCacheBackup.lookup cpu = none →
        NeverCopied args cpu actions ∨ maxBackups ≤ s.maps.schedCacheBackup.size) := by
  -- The run has put all of them into the ring, over those that were there before.
  obtain ⟨_, kept⟩ := cachesKept_run ran
  refine ⟨?_, ?_, (kept.copies cpu).absent⟩
  · rw [kept.caches cpu]
    exact SchedCached.after_holds cpu _ 0
  · intro cache found
    obtain ⟨past, ctx, copy, rfl⟩ := (kept.copies cpu).copied cache found
    exact ⟨past, ctx, copy, rfl, SchedCached.after_holds cpu _ 1⟩

/-- After one wait that was too long, the cache holds the two tasks that gave up the CPU. -/
theorem caches_recent_one_wait :
    ∃ s, run step (new (openArgs 1)) oneWait = some s ∧
      (s.maps.schedCache 0).Holds 0
        [(switchCtx 1000000 (taskOf 5) (taskOf 6) 0).record,
          (switchCtx 9000000 (taskOf 6) (taskOf 5) 5000000).record] :=
  -- The run has two switches on the CPU.
  ⟨_, rfl, (caches_recent (openArgs 1) oneWait _ rfl 0).1⟩

end OffcpuTracer

end Spycat.Offcpu
