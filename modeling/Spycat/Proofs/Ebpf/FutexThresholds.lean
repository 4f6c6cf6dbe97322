import Spycat.Proofs.Ebpf.FutexTallies

/-! Which waits are reported, against the bounds that the configuration gives in milliseconds. -/

namespace Spycat.Futexsnoop

open Lib

/-- A wait is between the bounds of a configuration, which are in milliseconds. -/
def FUTEXSNOOP.Asks (cfg : FUTEXSNOOP) (nanos : UInt64) : Prop :=
  cfg.minDurMs.toNat * 1000000 < nanos.toNat ∧ nanos.toNat < cfg.maxDurMs.toNat * 1000000

/-- A wait is between the lower halves of the bounds, taken as microseconds. -/
def FUTEXSNOOP.AsksInMicros (cfg : FUTEXSNOOP) (nanos : UInt64) : Prop :=
  cfg.minDurMs.toNat % 2 ^ 32 < nanos.toNat / 1000 ∧
    nanos.toNat / 1000 < cfg.maxDurMs.toNat % 2 ^ 32

/-- How long waits take together, in microseconds. -/
def elapsedIn (waits : List Wait) : Nat := (waits.map (·.duration.toNat)).sum

/-- The average that the counters of waits give, each as wide as it is. -/
def runningAverage (waits : List Wait) : Nat :=
  (elapsedIn waits % 2 ^ 64) / (waits.length % 2 ^ 64)

/-- As long as no counter has wrapped, longer than that means longer than the mean of the waits. -/
theorem runningAverage_lt_iff {waits : List Wait} (some_ : waits ≠ [])
    (elapsed : elapsedIn waits < 2 ^ 64) (number : waits.length < 2 ^ 64) (duration : Nat) :
    runningAverage waits < duration ↔ elapsedIn waits < duration * waits.length := by
  -- Neither number is cut.
  have positive : 0 < waits.length := List.length_pos_iff.mpr some_
  rw [runningAverage, Nat.mod_eq_of_lt elapsed, Nat.mod_eq_of_lt number,
    Nat.div_lt_iff_lt_mul positive]

/-- The first wait of a key is its own average. -/
theorem runningAverage_singleton (wait : Wait) : runningAverage [wait] = wait.duration.toNat := by
  -- A duration fits into the counter.
  have small := wait.duration.toNat_lt
  simp [runningAverage, elapsedIn, Nat.mod_eq_of_lt small]

/-- The settings that the kernel reads ask for what the bounds mean in microseconds. -/
theorem reports_readArgs (cfg : FUTEXSNOOP) (nanos avg : UInt64) :
    (readArgs cfg).Reports (nanos / 1000) avg ↔
      cfg.AsksInMicros nanos ∧ avg.toNat < nanos.toNat / 1000 := by
  -- The bounds were cut to 32 bits on their way to the kernel.
  simp only [UserArgs.Reports, readArgs, FUTEXSNOOP.AsksInMicros, gt_iff_lt, UInt64.lt_iff_toNat_lt,
    UInt64.toNat_div, UInt32.toNat_toUInt64, UInt64.toNat_toUInt32, UInt64.reduceToNat, and_assoc]

/-- A clock that seems to go back has gone further than any bound in microseconds. -/
theorem not_asksInMicros_of_back (cfg : FUTEXSNOOP) {nanos : UInt64} (back : nanos.toInt64 < 0) :
    ¬ cfg.AsksInMicros nanos := by
  -- A number with its sign bit is more than 2^32 thousands.
  intro ⟨_, below⟩
  have large : 2 ^ 63 ≤ nanos.toNat := by
    have negative : nanos.toBitVec.toInt < 0 := Int64.lt_iff_toInt_lt.mp back
    have half : 2 ^ 64 ≤ 2 * nanos.toNat := BitVec.toInt_neg_iff.mp negative
    omega
  omega

section Reached

variable {arch : TargetArch} {args : UserArgs} {inside : UInt64 → Bool}
  {actions : List FutexAction} {s : FutexTracer}

/-- A history that takes one more wait in gives the average of all of its waits. -/
theorem average_of_figures {waits : List Wait} {hist : Hist}
    (history : HistoryOf arch waits (some hist)) :
    (hist.totalElapsed / hist.contended).toNat = runningAverage waits := by
  -- The average is taken from the counters, which are tallied.
  cases history with
  | recorded _ figures =>
    have tallied := tallied_of_figures (figures ▸ tallied_recordAll arch waits)
    rw [UInt64.toNat_div, tallied.elapsed, tallied.contended]
    rfl

/-- Under a key without a history there were no waits. -/
theorem recordedUnder_absent (ran : run (FutexTracer.step arch) (.new args inside) actions = some s)
    {key : HistKey} (absent : s.maps.histsMap.lookup key = none) :
    recordedUnder arch (.new args inside) key actions = [] := by
  -- A first wait would have left a history.
  have history := (run_filed args inside ran).histories key
  rw [absent] at history
  generalize recordedUnder arch (.new args inside) key actions = waits at history ⊢
  cases history with
  | nothing => rfl

/-- A wait is reported exactly if it is between the bounds in microseconds and above the average. -/
theorem reported_iff {cfg : FUTEXSNOOP}
    (ran : run (FutexTracer.step arch) (.new (readArgs cfg) inside) actions = some s)
    {ctx : ExitCtx} {vp : ValT} (begun : s.maps.start.lookup ctx.pidTgid = some vp)
    (succeeded : ¬ ctx.ret.toInt32 < 0) :
    (∃ event, (s.maps.futexExit arch ctx).2 = some (.task event)) ↔
      cfg.AsksInMicros (ctx.now - vp.ts) ∧
        runningAverage
          (recordedUnder arch (.new (readArgs cfg) inside)
            (filedUnder (readArgs cfg) ctx vp.uaddr) actions ++
              [⟨(ctx.now - vp.ts) / 1000, ctx.now, ctx.comm⟩]) <
          (ctx.now - vp.ts).toNat / 1000 := by
  -- The history under the key has taken in what was recorded so far.
  have filed := run_filed (readArgs cfg) inside ran
  have settings : s.maps.args = readArgs cfg := filed.settings
  rw [← settings]
  by_cases back : (ctx.now - vp.ts).toInt64 < 0
  · -- The clock has gone back, and no wait that is asked for is that long.
    have silent : s.maps.waitOf ctx = none := by
      simp only [FutexMaps.waitOf, begun, Option.bind_some, back, or_true, if_true]
    rw [(futexExit_silent arch silent).2]
    simp [not_asksInMicros_of_back cfg back]
  by_cases room : s.maps.HasRoom (filedUnder s.maps.args ctx vp.uaddr)
  · have recorded : s.maps.waitOf ctx = some (filedUnder s.maps.args ctx vp.uaddr,
        ⟨(ctx.now - vp.ts) / 1000, ctx.now, ctx.comm⟩) := by
      simp only [FutexMaps.waitOf, begun, Option.bind_some, back, succeeded, or_self, if_false,
        room, if_true]
    obtain ⟨hist, figures, _, reports⟩ := futexExit_records arch recorded
    have history := (filed.histories (filedUnder s.maps.args ctx vp.uaddr)).next figures
    rw [reports, settings, reports_readArgs, average_of_figures history, settings]
  · -- Without room the wait would be the first one of its key, which is its own average.
    have silent : s.maps.waitOf ctx = none := by
      simp only [FutexMaps.waitOf, begun, Option.bind_some, back, succeeded, or_self, if_false,
        room]
    have absent : s.maps.histsMap.lookup (filedUnder s.maps.args ctx vp.uaddr) = none := by
      simpa using (not_or.mp room).1
    rw [(futexExit_silent arch silent).2]
    rw [settings] at absent ⊢
    rw [recordedUnder_absent ran absent]
    simp [runningAverage_singleton]

end Reached

/--
A wait is reported exactly if it is between the bounds of the configuration, in milliseconds, and
above the average of its key, if and only if it is not above the average, or between both pairs of
bounds or neither: the handler compares microseconds with the lower halves of the bounds.

Until the counters of the key wrap, the average is the mean of its waits in microseconds.
-/
theorem futexExit_thresholds (arch : TargetArch) (cfg : FUTEXSNOOP) (args : UserArgs)
    (read : kernelArgs cfg = some args) (inside : UInt64 → Bool) (actions : List FutexAction)
    (s : FutexTracer) (ran : run (FutexTracer.step arch) (.new args inside) actions = some s)
    (ctx : ExitCtx) (vp : ValT) (begun : s.maps.start.lookup ctx.pidTgid = some vp)
    (succeeded : ¬ ctx.ret.toInt32 < 0) :
    let nanos := ctx.now - vp.ts
    let waits := recordedUnder arch (.new args inside) (filedUnder args ctx vp.uaddr) actions ++
      [⟨nanos / 1000, ctx.now, ctx.comm⟩]
    (((∃ event, (s.maps.futexExit arch ctx).2 = some (.task event)) ↔
        cfg.Asks nanos ∧ runningAverage waits < nanos.toNat / 1000) ↔
      nanos.toNat / 1000 ≤ runningAverage waits ∨ (cfg.Asks nanos ↔ cfg.AsksInMicros nanos)) ∧
    (elapsedIn waits < 2 ^ 64 → waits.length < 2 ^ 64 →
      (runningAverage waits < nanos.toNat / 1000 ↔
        elapsedIn waits < nanos.toNat / 1000 * waits.length)) := by
  -- Both sides ask for a wait above the average, and differ in the bounds alone.
  obtain rfl : readArgs cfg = args := Option.some.inj ((kernelArgs_eq cfg).symm.trans read)
  intro nanos waits
  refine ⟨?_, fun elapsed number => runningAverage_lt_iff (by simp [waits]) elapsed number _⟩
  rw [reported_iff ran begun succeeded]
  by_cases above : runningAverage waits < nanos.toNat / 1000
  · simp only [waits, nanos] at above
    simp only [waits, nanos, above, and_true, Nat.not_le.mpr above, false_or]
    exact iff_comm
  · simp only [waits, nanos] at above
    simp only [waits, nanos, above, and_false, Nat.not_lt.mp above, true_or]

/-- A configuration that asks for waits between one and a hundred milliseconds. -/
def millisecondsConfig : FUTEXSNOOP where
  pid := 0
  tid := 0
  maxDurMs := 100
  minDurMs := 1
  maxLockHoldUsers := 0
  targetLock := 0
  stack := false

/-- A tracer that is configured so. -/
def millisecondsTracer : FutexTracer := .new (readArgs millisecondsConfig) fun _ => false

/-- A thread that has waited for no time begins to wait again. -/
def waitedOnce : List FutexAction := [enterAt 0, exitAt 0, enterAt 0]

/-- The end of a wait that began at zero. -/
def endsAt (now : UInt64) : ExitCtx where
  pidTgid := 1
  comm := []
  now := now
  ret := 0
  userStackId := 0

/-- The second wait begins at zero, after one of no time. -/
theorem waitedOnce_state :
    ∃ s, run (FutexTracer.step .other) millisecondsTracer waitedOnce = some s ∧
      s.maps.start.lookup 1 = some ⟨0, 7⟩ ∧
      recordedUnder .other millisecondsTracer ⟨1, 7, 0⟩ waitedOnce = [⟨0, 0, []⟩] :=
  -- The run is evaluated.
  ⟨_, rfl, rfl, by decide +kernel⟩

/-- A wait of no time is rightly not reported. -/
theorem futexExit_thresholds_instant :
    ∃ s, run (FutexTracer.step .other) millisecondsTracer waitedOnce = some s ∧
      ¬ ∃ event, (s.maps.futexExit .other (endsAt 0)).2 = some (.task event) := by
  -- A wait of no time is not above any average.
  obtain ⟨s, ran, begun, waits⟩ := waitedOnce_state
  refine ⟨s, ran, ?_⟩
  have agrees := (futexExit_thresholds .other millisecondsConfig _ (kernelArgs_eq _) _ waitedOnce s
    ran (endsAt 0) ⟨0, 7⟩ begun (by decide)).1
  rw [agrees.mpr (.inl (Nat.zero_le _))]
  exact fun ⟨⟨above, _⟩, _⟩ => absurd above (by decide)

/-- Fifty microseconds are reported, which are not asked for; five milliseconds are, and are not. -/
theorem futexExit_thresholds_micros :
    ∃ s, run (FutexTracer.step .other) millisecondsTracer waitedOnce = some s ∧
      recordedUnder .other millisecondsTracer ⟨1, 7, 0⟩ waitedOnce = [⟨0, 0, []⟩] ∧
      ((∃ event, (s.maps.futexExit .other (endsAt 50000)).2 = some (.task event)) ∧
        ¬ millisecondsConfig.Asks 50000) ∧
      ((s.maps.futexExit .other (endsAt 5000000)).2 = none ∧ millisecondsConfig.Asks 5000000 ∧
        runningAverage [⟨0, 0, []⟩, ⟨5000, 5000000, []⟩] < 5000) := by
  -- The tracer is run up to the second wait, and its end is tried out twice.
  refine ⟨_, rfl, by decide +kernel, ⟨⟨_, rfl⟩, ?_⟩, rfl, ?_, by decide⟩
  · exact fun ⟨above, _⟩ => absurd above (by decide)
  · exact ⟨by decide, by decide⟩

end Spycat.Futexsnoop
