import Spycat.Exporter.Batching

/-! What a batching exporter receives is flushed in batches, once and in order, until it quits. -/

namespace Spycat

open Lib

/-- The items that were queued, in their order. -/
def queuedItems {ι : Type} (actions : List (BatchingAction ι)) : List ι :=
  actions.filterMap fun
    | .consume data => some data
    | _ => none

theorem queuedItems_append {ι : Type} (first second : List (BatchingAction ι)) :
    queuedItems (first ++ second) = queuedItems first ++ queuedItems second :=
  List.filterMap_append ..

namespace BatchingExporter

variable {ι : Type} {kind : BatchingKind} {limit : Int} {past : List (BatchingAction ι)}
  {s s' : BatchingExporter ι}

/-- All that a step can do, and when. -/
inductive Moves (kind : BatchingKind) (s : BatchingExporter ι) :
    BatchingAction ι → BatchingExporter ι → Prop
  | consume (data : ι) : Moves kind s (.consume data) { s with datas := s.datas ++ [data] }
  | shutDown : Moves kind s .shutDown { s with quit := true }
  | quit (running : s.running = true) (asked : s.quit = true) :
      Moves kind s .quit (s.quitBranch kind)
  | newItem (running : s.running = true) {data : ι} {rest : List ι}
      (first : s.datas = data :: rest) :
      Moves kind s .newItem (({ s with datas := rest }).addItem data)
  | timer (running : s.running = true) : Moves kind s .timer s.maxWait

/-- Every step that is taken is one of these. -/
theorem moves_of_step {action : BatchingAction ι} (stepped : s.step kind action = some s') :
    Moves kind s action s' := by
  -- The conditions of each branch are read off its definition.
  cases action with
  | consume data =>
    simp only [step, Option.ite_none_right_eq_some, Option.some.injEq] at stepped
    exact stepped.2 ▸ .consume data
  | shutDown =>
    simp only [step, Option.ite_none_left_eq_some, Option.some.injEq] at stepped
    exact stepped.2 ▸ .shutDown
  | quit =>
    simp only [step, Option.ite_none_right_eq_some, Option.some.injEq] at stepped
    exact stepped.2 ▸ .quit stepped.1.1 stepped.1.2
  | newItem =>
    cases first : s.datas with
    | nil => simp [step, first] at stepped
    | cons data rest =>
      simp only [step, first, Option.ite_none_right_eq_some, Option.some.injEq] at stepped
      exact stepped.2 ▸ .newItem stepped.1 first
  | timer =>
    simp only [step, Option.ite_none_right_eq_some, Option.some.injEq] at stepped
    exact stepped.2 ▸ .timer stepped.1

/-- The counter is the batch's, and every item received was flushed or is in the batch. -/
structure Counted (limit : Int) (past : List (BatchingAction ι)) (s : BatchingExporter ι) :
    Prop where
  bound : s.batchEntriesNum = limit
  asked : s.running = false → s.quit = true
  queued : s.received ++ s.datas = queuedItems past
  counted : s.size = s.batch.length
  filled : [] ∉ s.flushed
  whole : s.flushed.flatten ++ (if s.running then s.batch else []) = s.received

/-- What holds of an exporter after every run: the batch has not outgrown its bound either. -/
structure Batched (limit : Int) (past : List (BatchingAction ι)) (s : BatchingExporter ι) :
    Prop extends Counted limit past s where
  small : 0 ≤ limit → s.size ≤ limit

/-- A size that counts the batch is positive only for a batch that is not empty. -/
theorem Counted.batch_ne (holds : Counted limit past s) (positive : s.size > 0) :
    s.batch ≠ [] := by
  -- The counter of an empty batch is zero.
  intro empty
  have counted := holds.counted
  rw [empty] at counted
  simp only [List.length_nil] at counted
  omega

/-- Flushing a batch with items and beginning the next one loses nothing. -/
theorem Counted.flush (holds : Counted limit past s) (running : s.running = true)
    (positive : s.size > 0) : Batched limit past s.flush.initAgain := by
  -- The batch moves behind the batches that were flushed before.
  have whole := holds.whole
  rw [running, if_pos rfl] at whole
  constructor
  case small => exact id
  constructor
  case bound => exact holds.bound
  case asked => exact holds.asked
  case queued => exact holds.queued
  case counted => rfl
  case filled => simpa [BatchingExporter.flush, initAgain] using
    ⟨holds.filled, fun empty => holds.batch_ne positive empty⟩
  case whole => simpa [BatchingExporter.flush, initAgain, running] using whole

/-- An item that is taken off the channel joins the batch. -/
theorem Batched.addItem (holds : Batched limit past s) (running : s.running = true) {data : ι}
    {rest : List ι} (first : s.datas = data :: rest) :
    Batched limit past (({ s with datas := rest }).addItem data) := by
  have whole := holds.whole
  rw [running, if_pos rfl] at whole
  -- Before the size is looked at, the batch may be one item too large.
  have joined : Counted limit past { s with
      datas := rest
      received := s.received ++ [data]
      batch := s.batch ++ [data]
      size := s.size + 1 } := by
    constructor
    case bound => exact holds.bound
    case asked => exact holds.asked
    case queued => simpa [first] using holds.queued
    case counted => simp [holds.counted]
    case filled => exact holds.filled
    case whole => simp [running, ← whole]
  have count := holds.counted
  rw [BatchingExporter.addItem]
  split
  · exact joined.flush running (by simp only; omega)
  · rename_i fits
    refine ⟨joined, fun _ => ?_⟩
    have bound := joined.bound
    simp only at fits bound ⊢
    omega

/-- The timer flushes a batch with items, and leaves an empty one alone. -/
theorem Batched.maxWait (holds : Batched limit past s) (running : s.running = true) :
    Batched limit past s.maxWait := by
  -- A batch without items is not flushed.
  rw [BatchingExporter.maxWait]
  split
  · rename_i positive
    exact holds.toCounted.flush running positive
  · exact holds

/-- The end of the loop flushes what is in the batch. -/
theorem Batched.finish (holds : Batched limit past s) (running : s.running = true)
    (asked : s.quit = true) : Batched limit past s.finish := by
  have whole := holds.whole
  rw [running, if_pos rfl] at whole
  have bound := holds.bound
  have queued := holds.queued
  have counted := holds.counted
  have filled := holds.filled
  have small := holds.small
  simp only [BatchingExporter.finish]
  split
  · rename_i positive
    have ne := holds.batch_ne positive
    refine ⟨⟨bound, fun _ => asked, queued, counted, ?_, ?_⟩, small⟩
    · simpa [BatchingExporter.flush] using ⟨filled, ne⟩
    · simpa [BatchingExporter.flush] using whole
  · rename_i nothing
    -- A size that is not positive belongs to an empty batch.
    have empty : s.batch = [] := List.length_eq_zero_iff.mp (by omega)
    rw [empty, List.append_nil] at whole
    exact ⟨⟨bound, fun _ => asked, queued, counted, filled, by simpa using whole⟩, small⟩

/-- Actions that queue nothing leave what was queued. -/
theorem Batched.later (holds : Batched limit past s) {action : BatchingAction ι}
    (nothing : queuedItems [action] = []) : Batched limit (past ++ [action]) s := by
  -- Only the list of what was queued gets longer, by nothing.
  obtain ⟨⟨bound, asked, queued, counted, filled, whole⟩, small⟩ := holds
  refine ⟨⟨bound, asked, ?_, counted, filled, whole⟩, small⟩
  rw [queuedItems_append, nothing, List.append_nil, queued]

/-- Every step keeps the count and the items. -/
theorem Batched.step (holds : Batched limit past s) {action : BatchingAction ι}
    (stepped : s.step kind action = some s') : Batched limit (past ++ [action]) s' := by
  -- Each branch of the loop keeps the invariant, and so do the two outside of it.
  cases moves_of_step stepped with
  | consume data =>
    obtain ⟨⟨bound, asked, queued, counted, filled, whole⟩, small⟩ := holds
    refine ⟨⟨bound, asked, ?_, counted, filled, whole⟩, small⟩
    simp only [queuedItems_append, ← queued, List.append_assoc]
    rfl
  | shutDown =>
    obtain ⟨⟨bound, asked, queued, counted, filled, whole⟩, small⟩ := holds
    have closed : Batched limit past { s with quit := true } :=
      ⟨⟨bound, fun _ => rfl, queued, counted, filled, whole⟩, small⟩
    exact closed.later rfl
  | quit running asked =>
    cases kind with
    | loki => exact (holds.finish running asked).later rfl
    | sqlite => exact holds.later rfl
  | newItem running first => exact (holds.addItem running first).later rfl
  | timer running => exact (holds.maxWait running).later rfl

/-- An exporter that has just started has nothing to account for. -/
theorem batched_new (limit : Int) : Batched limit [] (new limit : BatchingExporter ι) :=
  -- Nothing was received.
  ⟨⟨rfl, nofun, rfl, rfl, by simp [new], rfl⟩, id⟩

/-- The invariant holds after every run. -/
theorem batched_run {actions : List (BatchingAction ι)}
    (ran : run (step kind) (new limit) actions = some s) : Batched limit actions s :=
  -- Every step keeps the batches in order.
  run_history (Batched limit) (batched_new limit)
    (fun _ _ _ _ holds stepped => holds.step stepped) ran

/-- Once the loop was told to quit, it has ended, and it has flushed all that was queued. -/
def Delivers (past : List (BatchingAction ι)) (s : BatchingExporter ι) : Prop :=
  BatchingAction.quit ∈ past → s.running = false ∧ s.flushed.flatten = queuedItems past

/-- The quit branch is taken by the loop that leaves there, with nothing left in the channel. -/
def QuitsDrained (kind : BatchingKind) (s : BatchingExporter ι) : BatchingAction ι → Prop
  | .quit => kind = .loki ∧ s.datas = []
  | _ => True

/-- An exporter that was asked to quit and has quit does nothing any more. -/
theorem step_ended (ended : s.running = false) (asked : s.quit = true)
    (action : BatchingAction ι) : s.step kind action = none := by
  -- Every branch of the loop asks whether it still runs.
  cases action with
  | newItem => cases first : s.datas <;> simp [step, ended, first]
  | _ => simp [step, ended, asked]

/-- Only the quit branch ends the loop. -/
theorem step_running (running : s.running = true) {action : BatchingAction ι}
    (other : action ≠ .quit) (stepped : s.step kind action = some s') : s'.running = true := by
  -- Batches are flushed and begun without ending the loop.
  cases moves_of_step stepped with
  | consume | shutDown => exact running
  | quit => exact absurd rfl other
  | newItem =>
    rw [BatchingExporter.addItem]
    split <;> exact running
  | timer =>
    rw [BatchingExporter.maxWait]
    split <;> exact running

/-- A loop that runs was never told to quit, unless it is the one that does not listen. -/
def Listens (kind : BatchingKind) (past : List (BatchingAction ι)) (s : BatchingExporter ι) :
    Prop :=
  s.running = true → BatchingAction.quit ∉ past ∨ kind = .sqlite

/-- Taking the quit branch delivers everything exactly when it is drained and really left. -/
theorem Batched.quit_delivers (holds : Batched limit past s)
    (stepped : s.step kind .quit = some s') :
    Delivers (past ++ [.quit]) s' ↔ QuitsDrained kind s .quit := by
  have after := holds.step stepped
  have queued : queuedItems (past ++ [.quit]) = s.received ++ s.datas := by
    rw [queuedItems_append, holds.queued]
    exact List.append_nil _
  cases moves_of_step stepped with
  | quit running asked =>
    cases kind with
    | loki =>
      -- All that was received is flushed, so what is missing is what the channel holds.
      have whole := after.whole
      have same : (s.quitBranch .loki).received = s.received := by
        simp only [quitBranch, BatchingExporter.finish]
        split <;> rfl
      have stopped : (s.quitBranch .loki).running = false := rfl
      rw [same, stopped, if_neg (by decide), List.append_nil] at whole
      simp [Delivers, QuitsDrained, stopped, whole, queued]
    | sqlite => simp [Delivers, QuitsDrained, quitBranch, running]

/-- A step of any other branch delivers neither more nor less. -/
theorem Batched.other_delivers (holds : Batched limit past s) {action : BatchingAction ι}
    (other : action ≠ .quit) (stepped : s.step kind action = some s') :
    Delivers (past ++ [action]) s' ↔ Delivers past s := by
  have told : BatchingAction.quit ∈ past ++ [action] ↔ BatchingAction.quit ∈ past := by
    simp [Ne.symm other]
  by_cases quit : BatchingAction.quit ∈ past
  · -- A loop that has ended takes no step, and the other one never ends.
    cases running : s.running with
    | true =>
      have goes := step_running running other stepped
      simp [Delivers, quit, running, goes]
    | false =>
      rw [step_ended running (holds.asked running)] at stepped
      cases stepped
  · simp [Delivers, told, quit]

/-- A loop that listens leaves when it is told to. -/
theorem Listens.step (listens : Listens kind past s) (holds : Batched limit past s)
    {action : BatchingAction ι} (stepped : s.step kind action = some s') :
    Listens kind (past ++ [action]) s' := by
  -- The loop that is told to quit leaves, or is the one that does not listen.
  intro goes
  cases running : s.running with
  | false =>
    rw [step_ended running (holds.asked running)] at stepped
    cases stepped
  | true =>
    rcases listens running with quiet | deaf
    · by_cases quit : action = .quit
      · subst quit
        cases kind with
        | sqlite => exact .inr rfl
        | loki =>
          cases moves_of_step stepped with
          | quit => cases goes
      · exact .inl (by simpa [Ne.symm quit] using quiet)
    · exact .inr deaf

/--
The loop delivers what was queued before the shutdown exactly when it leaves by a drained branch.

The exporter into a log service leaves at once, whatever the channel still holds, and the exporter
into the local database never leaves.
-/
theorem shutDown_delivers (kind : BatchingKind) (limit : Int) (actions : List (BatchingAction ι))
    (s : BatchingExporter ι) (ran : run (step kind) (new limit) actions = some s) :
    Delivers actions s ↔ Allowed (step kind) (QuitsDrained kind) (new limit) actions := by
  -- Where the loop stands is carried along the run together with the items.
  have carried : run (step kind) (new limit) actions = some s ∧ Batched limit actions s ∧
      Listens kind actions s ∧
      (Delivers actions s ↔ Allowed (step kind) (QuitsDrained kind) (new limit) actions) := by
    refine run_history (fun past s => run (step kind) (new limit) past = some s ∧
      Batched limit past s ∧ Listens kind past s ∧
      (Delivers past s ↔ Allowed (step kind) (QuitsDrained kind) (new limit) past)) ?_ ?_ ran
    · exact ⟨rfl, batched_new limit, fun _ => .inl (by simp), by simp [Delivers, Allowed]⟩
    · rintro past s action s' ⟨reached, holds, listens, delivers⟩ stepped
      refine ⟨by simp [run_append, reached, stepped], holds.step stepped,
        listens.step holds stepped, ?_⟩
      have further : Allowed (step kind) (QuitsDrained kind) (new limit) (past ++ [action]) ↔
          Delivers past s ∧ QuitsDrained kind s action := by
        rw [allowed_append, ← delivers, reached]
        simp
      rw [further]
      by_cases quit : action = .quit
      · subst quit
        rw [holds.quit_delivers stepped]
        constructor
        · intro drained
          -- The loop was running, so it had not been told to quit before.
          have running : s.running = true := by
            cases running : s.running with
            | true => rfl
            | false => simp [step_ended running (holds.asked running)] at stepped
          have quiet := (listens running).resolve_right (by simp [drained.1])
          exact ⟨fun told => absurd told quiet, drained⟩
        · exact And.right
      · rw [holds.other_delivers quit stepped]
        have allowed : QuitsDrained kind s action := by
          cases action with
          | quit => exact absurd rfl quit
          | _ => trivial
        exact ⟨fun delivered => ⟨delivered, allowed⟩, And.left⟩
  exact carried.2.2.2

/-- An item that was taken off the channel before the quit branch is delivered. -/
theorem shutDown_delivers_received :
    ∃ s, run (step .loki) (new 5) [.consume 'a', .newItem, .shutDown, .quit] = some s ∧
      Delivers [.consume 'a', .newItem, .shutDown, .quit] s := by
  -- When the loop quits, its channel is empty.
  refine ⟨_, rfl, (shutDown_delivers .loki 5 [.consume 'a', .newItem, .shutDown, .quit] _ rfl).mpr
    ⟨trivial, fun _ taken => ?_⟩⟩
  obtain rfl := Option.some.inj taken
  refine ⟨trivial, fun _ taken => ?_⟩
  obtain rfl := Option.some.inj taken
  refine ⟨trivial, fun _ taken => ?_⟩
  obtain rfl := Option.some.inj taken
  exact ⟨⟨rfl, rfl⟩, fun _ _ => trivial⟩

/-- With an item in the channel neither exporter delivers, and one of them does not even end. -/
theorem shutDown_loses_queued :
    (∃ s, run (step .loki) (new 5) [.consume 'a', .shutDown, .quit] = some s ∧
      s.running = false ∧ s.flushed = [] ∧ ¬ Delivers [.consume 'a', .shutDown, .quit] s) ∧
    ∃ s, run (step .sqlite) (new 5) [.consume 'a', .newItem, .shutDown, .quit] = some s ∧
      s.running = true ∧ ¬ Delivers [.consume 'a', .newItem, .shutDown, .quit] s := by
  -- What is missing is the item that was queued first.
  constructor
  · refine ⟨_, rfl, rfl, rfl, fun delivers => ?_⟩
    have lost : ([] : List Char) = ['a'] := (delivers (by simp)).2
    cases lost
  · refine ⟨_, rfl, rfl, fun delivers => ?_⟩
    have ended : true = false := (delivers (by simp)).1
    cases ended

end BatchingExporter

end Spycat
