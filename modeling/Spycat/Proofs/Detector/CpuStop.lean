import Spycat.Detector.CpuStop
import Spycat.Proofs.Detector.CpuInit

/-! Stopping the CPU detector panics, with an upstream or without one. -/

namespace Spycat

open Lib

namespace CpuDetector

variable {env : External} {c : CpuDetector} {t : Trie}

/-- Processing an event never panics on the one trie, and leaves the upstream alone. -/
theorem Keeps.processEvent (keeps : c.Keeps t) (env : External) (e : SpyEvent) :
    ∃ c' block t', c.processEvent env e = some (c', block) ∧ c'.upstream = c.upstream ∧
      c'.Keeps t' := by
  -- Only on-CPU events under another server go into the trie.
  by_cases oncpu : e.name = Model.onCpu
  · rw [processEvent_oncpu env c oncpu]
    by_cases other : c.server ≠ defaultServer
    · obtain ⟨t', rate, handled, represents, _⟩ := keeps.oncpuHandler other oncpu
      exact ⟨_, _, t', handled, rfl, rfl, represents⟩
    · -- Under the default server the trie is not touched.
      have recorded : ∃ block, c.oncpuHandler e =
          some ({ c with sampleRate := (oncpuScan c.sampleRate e).sampleRate }, block) := by
        simp only [CpuDetector.oncpuHandler, other, if_false]
        exact ⟨_, rfl⟩
      obtain ⟨block, recorded⟩ := recorded
      exact ⟨_, block, t, recorded, rfl, keeps.tries, keeps.represents⟩
  · obtain ⟨block, processed⟩ := processEvent_other env c oncpu
    exact ⟨c, block, t, processed, rfl, keeps⟩

/-- With an upstream, uploading the one trie never panics. -/
theorem Keeps.uploads (keeps : c.Keeps t) (present : c.upstream.isSome) (env : External)
    (order : RangeOrder String) (endTime : Time) :
    ∃ c' t', c.uploadTries env order endTime = some c' ∧ c'.upstream.isSome ∧ c'.Keeps t' := by
  -- The first tick takes its time down, and later ones hand the trie over.
  obtain ⟨up, present⟩ := Option.isSome_iff_exists.mp present
  by_cases first : c.startTimeTruncated = 0
  · refine ⟨{ c with startTimeTruncated := endTime }, t, ?_, ?_, keeps.tries, keeps.represents⟩
    · simp [CpuDetector.uploadTries, first]
    · simp [present]
  · rw [keeps.uploadTries first, present]
    split
    · exact ⟨_, Trie.new, rfl, by simp, rfl, _, Trie.new_represents⟩
    · exact ⟨_, Trie.new, rfl, rfl, rfl, _, Trie.new_represents⟩

/-- Whatever it is given, `Init` leaves one empty trie, and an uploader just with an upstream. -/
theorem initialized_keeps (env : External) (cfg : InitConfig) :
    (initialized env cfg).Keeps Trie.new ∧
      ((initialized env cfg).uploading = true ↔ (initialized env cfg).upstream.isSome) := by
  -- Every return of the source leaves the tries as they were made.
  have fresh : new.Keeps Trie.new := ⟨by simp [new, initializeTries], _, Trie.new_represents⟩
  cases cfg with
  | other => exact ⟨fresh, by simp [initialized, init, new, initializeTries]⟩
  | oncpu conf =>
    simp only [initialized, init]
    split
    · exact ⟨⟨fresh.tries, fresh.represents⟩, by simp [new, initializeTries]⟩
    · split
      · exact ⟨⟨fresh.tries, fresh.represents⟩, by simp [new, initializeTries]⟩
      · exact ⟨⟨fresh.tries, fresh.represents⟩, by simp⟩

end CpuDetector

namespace CpuGoroutines

variable {env : External} {s s' : CpuGoroutines}

/-- What holds between the goroutines: who may have closed what, and who has an upstream. -/
structure Ordered (s : CpuGoroutines) : Prop where
  trie : ∃ t, s.detector.Keeps t
  upstream : s.uploader.isSome → s.detector.upstream.isSome
  closed : s.stopChan = true ↔ s.stop ≠ none ∧ s.stop ≠ some .close
  done : s.done = true → s.stop = some .wait ∨ s.stop = some .returned
  calls : ∀ call, s.uploader = some (.stop call) → call = .close ∧ s.stopChan = true

/-- All that a step can do, and when. -/
inductive Moves (s : CpuGoroutines) : CpuGoroutineAction → CpuGoroutines → Prop
  | start : Moves s .start { s with consumer := some .select }
  | event (e : SpyEvent) {c : CpuDetector} {t : Trie} (same : c.upstream = s.detector.upstream)
      (keeps : c.Keeps t) : Moves s (.event e) { s with detector := c }
  | consumerReturns : Moves s .consumerReturns { s with consumer := some .returned }
  | tick (endTime : Time) (order : RangeOrder String) {c : CpuDetector} {t : Trie}
      (present : c.upstream.isSome) (keeps : c.Keeps t) :
      Moves s (.tick endTime order) { s with detector := c }
  | uploaderStops (runs : s.uploader = some .select) (closed : s.stopChan = true) :
      Moves s .uploaderStops { s with uploader := some (.stop .close) }
  | uploader : Moves s .uploader s.panic
  | stop (first : s.stop = none) : Moves s .stop { s with stop := some .close }
  | closes (called : s.stop = some .close) :
      Moves s .stopper { s with stopChan := true, stop := some .upstream }
  | misses (called : s.stop = some .upstream) (missing : s.detector.upstream = none) :
      Moves s .stopper s.panic
  | stops (called : s.stop = some .upstream) (present : s.detector.upstream.isSome) :
      Moves s .stopper { s with done := true, stop := some .wait }
  | waits (called : s.stop = some .wait) : Moves s .stopper { s with stop := some .returned }

/-- The channel is open when the manager's call closes it. -/
theorem Ordered.callStop_close (ordered : s.Ordered) (called : s.stop = some .close) :
    s.callStop .close = some ({ s with stopChan := true }, .upstream) := by
  -- Who closed it has gone past this statement.
  have open_ : ¬ s.stopChan = true := by
    intro closed
    exact (ordered.closed.mp closed).2 called
  exact if_neg open_

/-- With an upstream, its channel is open when the manager's call stops it. -/
theorem Ordered.callStop_upstream (ordered : s.Ordered) (called : s.stop = some .upstream) :
    s.callStop .upstream = s.detector.upstream.map fun _ => ({ s with done := true }, .wait) := by
  -- Who closed it waits already, or has returned.
  have open_ : ¬ s.done = true := by
    intro closed
    rcases ordered.done closed with late | late <;> simp [called] at late
  simp only [callStop, open_, Bool.false_eq_true, if_false]
  exact Option.map_eq_bind.symm

/-- The channel is closed already when the uploader closes it. -/
theorem Ordered.callStop_uploader (ordered : s.Ordered) {call : StopCall}
    (place : s.uploader = some (.stop call)) : s.callStop call = none := by
  -- The uploader calls because it has found the channel closed.
  obtain ⟨rfl, closed⟩ := ordered.calls call place
  exact if_pos closed

/-- Every step that is taken is one of these. -/
theorem moves_of_step (ordered : s.Ordered) (running : s.panicked = false)
    {action : CpuGoroutineAction} (stepped : s.step env action = some s') : Moves s action s' := by
  -- There is one case for each action and, for a goroutine, for each place it may be at.
  obtain ⟨t, keeps⟩ := ordered.trie
  have alive : ¬ s.panicked = true := by simp [running]
  unfold step at stepped
  rw [if_neg alive] at stepped
  cases action with
  | start =>
    simp only [Option.ite_none_right_eq_some, Option.some.injEq] at stepped
    exact stepped.2 ▸ .start
  | event e =>
    obtain ⟨c, block, t', processed, same, keeps⟩ := keeps.processEvent env e
    simp only [Option.ite_none_right_eq_some, Option.some.injEq, processed] at stepped
    exact stepped.2 ▸ .event e same keeps
  | consumerReturns =>
    simp only [Option.ite_none_right_eq_some, Option.some.injEq] at stepped
    exact stepped.2 ▸ .consumerReturns
  | tick endTime order =>
    simp only [Option.ite_none_right_eq_some, Option.some.injEq] at stepped
    obtain ⟨runs, stepped⟩ := stepped
    obtain ⟨c, t', uploaded, present, keeps⟩ :=
      keeps.uploads (ordered.upstream (by simp [runs])) env order endTime
    simp only [uploaded] at stepped
    exact stepped ▸ .tick endTime order present keeps
  | uploaderStops =>
    simp only [Option.ite_none_right_eq_some, Option.some.injEq] at stepped
    exact stepped.2 ▸ .uploaderStops stepped.1.1 stepped.1.2
  | uploader =>
    cases place : s.uploader with
    | none => simp [place] at stepped
    | some place' =>
      cases place' with
      | select => simp [place] at stepped
      | returned => simp [place] at stepped
      | stop call =>
        have panics := ordered.callStop_uploader place
        obtain ⟨rfl, -⟩ := ordered.calls call place
        simp only [place, panics, Option.some.injEq] at stepped
        exact stepped ▸ .uploader
  | stop =>
    simp only [Option.ite_none_right_eq_some, Option.some.injEq] at stepped
    exact stepped.2 ▸ .stop stepped.1
  | stopper =>
    cases called : s.stop with
    | none => simp [called] at stepped
    | some call =>
      cases call with
      | close =>
        simp only [called, ordered.callStop_close called, Option.some.injEq] at stepped
        exact stepped ▸ .closes called
      | upstream =>
        cases present : s.detector.upstream with
        | none =>
          simp only [called, ordered.callStop_upstream called, present, Option.map_none,
            Option.some.injEq] at stepped
          exact stepped ▸ .misses called present
        | some up =>
          simp only [called, ordered.callStop_upstream called, present, Option.map_some,
            Option.some.injEq] at stepped
          exact stepped ▸ .stops called (by simp [present])
      | wait =>
        simp only [called, callStop, Option.some.injEq] at stepped
        exact stepped ▸ .waits called
      | returned => simp [called] at stepped

/-- Every step keeps the goroutines ordered, a panic included. -/
theorem Ordered.moves (ordered : s.Ordered) {action : CpuGoroutineAction}
    (moves : Moves s action s') : s'.Ordered := by
  obtain ⟨trie, upstream, closed, done, calls⟩ := ordered
  cases moves with
  | start | consumerReturns | uploader | misses => exact ⟨trie, upstream, closed, done, calls⟩
  | event e same keeps => exact ⟨⟨_, keeps⟩, fun runs => same ▸ upstream runs, closed, done, calls⟩
  | tick endTime order present keeps => exact ⟨⟨_, keeps⟩, fun _ => present, closed, done, calls⟩
  | uploaderStops runs open_ =>
    refine ⟨trie, fun _ => upstream (by simp [runs]), closed, done, fun call place => ?_⟩
    cases Option.some.inj place
    exact ⟨rfl, open_⟩
  | stop first =>
    -- Nobody has closed a channel before.
    have open_ : ¬ s.stopChan = true := fun open_ => (closed.mp open_).1 first
    refine ⟨trie, upstream, by simpa using open_, fun late => ?_, calls⟩
    rcases done late with late | late <;> simp [first] at late
  | closes called =>
    refine ⟨trie, upstream, by simp, fun late => ?_, fun call place => ⟨(calls call place).1, rfl⟩⟩
    rcases done late with late | late <;> simp [called] at late
  | stops called present =>
    have closed : s.stopChan = true := closed.mpr (by simp [called])
    exact ⟨trie, upstream, by simp [closed], fun _ => .inl rfl, calls⟩
  | waits called =>
    have closed : s.stopChan = true := closed.mpr (by simp [called])
    exact ⟨trie, upstream, by simp [closed], fun _ => .inr rfl, calls⟩

/-- The goroutines that `Init` leaves behind are ordered. -/
theorem init_ordered (env : External) (cfg : InitConfig) : (init env cfg).Ordered := by
  -- Nothing was closed, and the uploader was started together with the upstream.
  obtain ⟨keeps, started⟩ := CpuDetector.initialized_keeps env cfg
  refine ⟨⟨_, keeps⟩, fun runs => started.mp ?_, by simp [init], by simp [init], ?_⟩
  · by_contra idle
    have none_ : (init env cfg).uploader = none := if_neg idle
    simp [none_] at runs
  · intro call place
    simp only [init, Option.ite_none_right_eq_some, Option.some.injEq] at place
    exact UploadWithTicker.noConfusion place.2

/-- The uploader does not call `Stop`, and the manager's call does not find an upstream missing. -/
def Harmless (s : CpuGoroutines) : CpuGoroutineAction → Prop
  | .uploader => False
  | .stopper => s.stop = some .upstream → s.detector.upstream.isSome
  | _ => True

/-- A step panics just when it is not harmless. -/
theorem Moves.running_iff {action : CpuGoroutineAction} (moves : Moves s action s')
    (running : s.panicked = false) : s'.panicked = false ↔ s.Harmless action := by
  -- Two of the moves are panics.
  cases moves with
  | start | consumerReturns | event | tick | uploaderStops | stop =>
    exact ⟨fun _ => trivial, fun _ => running⟩
  | uploader => simp [panic, Harmless]
  | misses called missing => simp [panic, Harmless, called, missing]
  | closes called | waits called => exact ⟨fun _ same => by simp [called] at same, fun _ => running⟩
  | stops called present => exact ⟨fun _ _ => present, fun _ => running⟩

/-- Nothing is possible after a panic. -/
theorem running_of_step {action : CpuGoroutineAction} (stepped : s.step env action = some s') :
    s.panicked = false := by
  -- The first check refuses every step.
  by_contra panicked
  simp [step, panicked] at stepped

/-- Without an upstream the call of `Stop` panics by itself. -/
theorem panics_missing (missing : s.detector.upstream = none) (running : s.panicked = false)
    (first : s.stop = none) (open_ : s.stopChan = false) :
    ∃ s', run (step env) s [.stop, .stopper, .stopper] = some s' ∧ s'.panicked = true := by
  -- Stop closes the channel, and then there is no upstream to be stopped.
  simp [step, callStop, running, first, open_, missing, panic]

/-- With an uploader its own call of `Stop` panics after the other one. -/
theorem panics_uploader (runs : s.uploader = some .select) (running : s.panicked = false)
    (first : s.stop = none) (open_ : s.stopChan = false) :
    ∃ s', run (step env) s [.stop, .stopper, .uploaderStops, .uploader] = some s' ∧
      s'.panicked = true := by
  -- Stop closes the channel, and the uploader, which notices, closes it once more.
  simp [step, callStop, running, first, open_, runs, panic]

/-- So some run with one call of `Stop` panics, whatever `Init` was given. -/
theorem init_panics (env : External) (cfg : InitConfig) :
    ∃ actions s, run (step env) (init env cfg) actions = some s ∧ s.panicked = true := by
  -- The uploader runs or the upstream is missing.
  by_cases started : (CpuDetector.initialized env cfg).uploading = true
  · exact ⟨_, panics_uploader (if_pos started) rfl rfl rfl⟩
  · have missing : (CpuDetector.initialized env cfg).upstream = none := by
      rw [(CpuDetector.initialized_keeps env cfg).2] at started
      simpa using started
    exact ⟨_, panics_missing missing rfl rfl rfl⟩

/--
Whatever `Init` was given, there is an interleaving with one call of `Stop` that panics.

A run goes without a panic exactly as long as the uploader, which finds the channel closed, makes no
statement of its own call of `Stop`, and the other call does not come to a missing upstream.
-/
theorem stop_panics (env : External) (cfg : InitConfig) :
    (¬ ∀ actions s, run (step env) (init env cfg) actions = some s → s.panicked = false) ∧
      ∀ actions s, run (step env) (init env cfg) actions = some s →
        ((∀ state, Visited (step env) (init env cfg) actions state → state.panicked = false) ↔
          Allowed (step env) Harmless (init env cfg) actions) := by
  -- The second part is kept by every step exactly where that is harmless.
  constructor
  · intro never
    obtain ⟨actions, s, ran, panicked⟩ := init_panics env cfg
    simp [never actions s ran] at panicked
  · intro actions s ran
    refine always_iff_allowed Ordered (init_ordered env cfg) ?_ ?_ ?_ ran
    · rfl
    · intro state action next ordered stepped
      exact ordered.moves (moves_of_step ordered (running_of_step stepped) stepped)
    · intro state action next ordered running stepped
      exact (moves_of_step ordered running stepped).running_iff running

/-- A detector for another tool has no upstream, and one that uploads closes its channel twice. -/
theorem stop_panics_twice :
    (∃ s, run (step CpuDetector.localExternal) (init CpuDetector.localExternal .other)
        [.start, .stop, .stopper, .stopper] = some s ∧ s.panicked = true) ∧
      ∃ s, run (step CpuDetector.localExternal)
          (init CpuDetector.localExternal (.oncpu ⟨defaultServer, 2, 5⟩))
          [.start, .stop, .stopper, .uploaderStops, .stopper, .uploader] = some s ∧
        s.panicked = true := by
  -- Both runs are evaluated.
  exact ⟨⟨_, rfl, rfl⟩, ⟨_, rfl, rfl⟩⟩

end CpuGoroutines

end Spycat
