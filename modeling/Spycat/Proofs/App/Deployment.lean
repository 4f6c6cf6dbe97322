import Spycat.App.Deployment
import Spycat.Proofs.App.Conservation
import Spycat.Proofs.Exporter.SqliteFlush

/-! What becomes of events between the receiver's channel and the backend of a batching exporter. -/

namespace Spycat

open Lib

namespace Pipeline

variable {cfg : PipelineConfig} {p p' : Pipeline}

/-- A worker of the receiver that takes an event gives nothing to the exporter. -/
theorem receive_exported {i : Nat} (received : p.receive cfg i = some p') :
    p'.exported = p.exported := by
  -- Only the channel and the receivers are changed.
  unfold Pipeline.receive at received
  split at received
  · cases received
    rfl
  · cases received

/-- A worker of the receiver that sends its event on gives nothing to the exporter. -/
theorem consumeEvent_exported {i : Nat} (sent : p.consumeEvent i = some p') :
    p'.exported = p.exported := by
  -- Only the receivers and the detectors' queues are changed.
  unfold Pipeline.consumeEvent at sent
  split at sent
  · cases sent
    rfl
  · cases sent

/-- A worker of a detector that takes an event gives nothing to the exporter. -/
theorem take_exported {d : DetectorType} {j : Nat} (taken : p.take d j = some p') :
    p'.exported = p.exported := by
  -- Only a queue and a worker are changed.
  unfold Pipeline.take at taken
  split at taken
  · cases taken
    rfl
  · cases taken

/-- A worker of a detector that processes its event gives nothing to the exporter yet. -/
theorem processEvent_exported {d : DetectorType} {j : Nat}
    (processed : p.processEvent cfg d j = some p') : p'.exported = p.exported := by
  -- The worker holds the block that was made, and has not passed it on yet.
  unfold Pipeline.processEvent at processed
  split at processed
  · obtain ⟨_, _, rfl⟩ := Option.map_eq_some_iff.mp processed
    rfl
  · cases processed

/-- No step of the pipeline takes back a record that the exporter was given. -/
theorem exported_prefix {action : PipelineAction} (stepped : p.step cfg action = some p') :
    p.exported <+: p'.exported := by
  -- Only two steps give records to the exporter, and the others leave them alone.
  have kept : p'.exported = p.exported → p.exported <+: p'.exported :=
    fun same => same ▸ List.prefix_refl _
  cases action with
  | startReceiver =>
    cases stepped
    exact List.prefix_refl _
  | startDetector d =>
    cases stepped
    exact List.prefix_refl _
  | put e =>
    simp only [Pipeline.step] at stepped
    split at stepped
    · cases stepped
      exact List.prefix_refl _
    · cases stepped
  | putTo e i =>
    simp only [Pipeline.step] at stepped
    split at stepped
    · have same : p'.exported = (p.push e).exported := receive_exported stepped
      exact kept same
    · cases stepped
  | receive i => exact kept (receive_exported stepped)
  | consumeEvent i =>
    obtain ⟨d, _, stepped⟩ := Option.bind_eq_some_iff.mp stepped
    split at stepped
    · exact kept (consumeEvent_exported stepped)
    · cases stepped
  | consumeEventTo i j =>
    obtain ⟨d, _, stepped⟩ := Option.bind_eq_some_iff.mp stepped
    split at stepped
    · obtain ⟨between, sent, taken⟩ := Option.bind_eq_some_iff.mp stepped
      exact kept ((take_exported taken).trans (consumeEvent_exported sent))
    · cases stepped
  | sent i =>
    simp only [Pipeline.step] at stepped
    split at stepped
    · cases stepped
      exact List.prefix_refl _
    · cases stepped
  | take d j => exact kept (take_exported stepped)
  | processEvent d j => exact kept (processEvent_exported stepped)
  | consume d j =>
    simp only [Pipeline.step, Pipeline.consume] at stepped
    split at stepped
    · cases stepped
      exact List.prefix_append ..
    · cases stepped
  | uploadTries endTimeTruncated order =>
    obtain ⟨_, _, rfl⟩ := Option.map_eq_some_iff.mp stepped
    exact List.prefix_refl _
  | dump order =>
    obtain ⟨_, _, rfl⟩ := Option.map_eq_some_iff.mp stepped
    exact List.prefix_append ..

end Pipeline

namespace BatchingExporter

variable {ι : Type} {kind : BatchingKind} {limit : Int} {past : List (BatchingAction ι)}
  {s s' : BatchingExporter ι}

/-- No step of the loop takes back a batch that was flushed. -/
theorem flushed_prefix {action : BatchingAction ι} (stepped : s.step kind action = some s') :
    s.flushed <+: s'.flushed := by
  -- A batch that is flushed comes behind the others.
  cases moves_of_step stepped with
  | consume data => exact List.prefix_refl _
  | shutDown => exact List.prefix_refl _
  | quit running asked =>
    cases kind with
    | loki =>
      simp only [quitBranch, finish]
      split
      · exact List.prefix_append ..
      · exact List.prefix_refl _
    | sqlite => exact List.prefix_refl _
  | newItem running first =>
    simp only [addItem]
    split
    · exact List.prefix_append ..
    · exact List.prefix_refl _
  | timer running =>
    simp only [maxWait]
    split
    · exact List.prefix_append ..
    · exact List.prefix_refl _

/-- Items that are queued come behind the others, and nothing else changes. -/
theorem consume_run {items : List ι}
    (ran : run (step kind) s (items.map .consume) = some s') :
    s' = { s with datas := s.datas ++ items } := by
  -- One item is queued at a time.
  induction items generalizing s with
  | nil =>
    cases ran
    rw [List.append_nil]
  | cons item rest ih =>
    obtain ⟨next, queued, ran⟩ := Option.bind_eq_some_iff.mp ran
    cases moves_of_step queued with
    | consume data => rw [ih ran, List.append_assoc, List.singleton_append]

/-- What a run queues is accounted for behind what was queued before it. -/
theorem batched_further (holds : Batched limit past s) {actions : List (BatchingAction ι)}
    (ran : run (step kind) s actions = some s') : Batched limit (past ++ actions) s' := by
  -- The steps of the run come one after the other.
  induction actions generalizing past s with
  | nil =>
    cases ran
    rwa [List.append_nil]
  | cons action rest ih =>
    obtain ⟨next, stepped, ran⟩ := Option.bind_eq_some_iff.mp ran
    have further := ih (holds.step stepped) ran
    rwa [List.append_assoc] at further

/-- Neither an item nor the timer asks the loop to quit. -/
theorem loop_quit {action : BatchingAction ι} (inside : action = .newItem ∨ action = .timer)
    (stepped : s.step kind action = some s') : s'.quit = s.quit := by
  -- At most a batch is flushed.
  rcases inside with rfl | rfl
  · cases moves_of_step stepped with
    | newItem running first =>
      simp only [addItem]
      split <;> rfl
  · cases moves_of_step stepped with
    | timer running =>
      simp only [maxWait]
      split <;> rfl

/-- The items of a loop that no one asked to quit are those that were flushed and the batch. -/
theorem Batched.received (holds : Batched limit past s) (asked : s.quit = false) :
    s.flushed.flatten ++ s.batch = s.received := by
  -- Only a loop that was asked to quit has ended.
  have whole := holds.whole
  cases running : s.running with
  | true => rwa [running, if_pos rfl] at whole
  | false => exact absurd (holds.asked running) (by simp [asked])

end BatchingExporter

namespace Deployment

variable {ι κ : Type} {backend : Backend ι κ}

/-- The steps of the pipeline among those of a deployment. -/
def pipelineActions (actions : List (DeploymentAction κ)) : List PipelineAction :=
  actions.filterMap fun
    | .pipeline action _ => some action
    | _ => none

/-- What was queued for records, each at some time. -/
inductive Queued (backend : Backend ι κ) : List Exported → List ι → Prop
  | nil : Queued backend [] []
  | queue {records : List Exported} {items : List ι} {x : Exported} {item : ι} (now : Time)
      (queued : Queued backend records items)
      (made : backend.consume now x.block = some item) :
      Queued backend (records ++ [x]) (items ++ [item])
  | refuse {records : List Exported} {items : List ι} {x : Exported} (now : Time)
      (queued : Queued backend records items) (refused : backend.consume now x.block = none) :
      Queued backend (records ++ [x]) items

/-- More records are queued behind the others. -/
theorem Queued.more {records : List Exported} {items : List ι}
    (queued : Queued backend records items) (now : Time) (more : List Exported) :
    Queued backend (records ++ more)
      (items ++ more.filterMap fun x => backend.consume now x.block) := by
  -- The records come one after the other.
  induction more generalizing records items with
  | nil => simpa using queued
  | cons x rest ih =>
    cases made : backend.consume now x.block with
    | none =>
      have further := ih (queued.refuse now made)
      rw [List.append_assoc] at further
      simpa [made] using further
    | some item =>
      have further := ih (queued.queue now made)
      rw [List.append_assoc, List.append_assoc] at further
      simpa [made] using further

/-- Records, items and requests follow one another, and no event is lost in front of them. -/
structure Accounts (backend : Backend ι κ) (cfg : PipelineConfig) (limit : Int)
    (past : List (DeploymentAction κ)) (s : Deployment ι κ) : Prop where
  conserved : Conserved cfg (putEvents (pipelineActions past)) s.pipeline
  asked : s.exporter.quit = false
  batched : ∃ done, BatchingExporter.Batched limit done s.exporter
  queued : Queued backend s.pipeline.exported (s.exporter.received ++ s.exporter.datas)
  requested : ∃ requests, s.exporter.flushed.mapM backend.flush = some requests ∧
    s.requests.map (·.1) = requests.flatten

/-- A deployment that has not started has nothing to account for. -/
theorem accounts_new (backend : Backend ι κ) (cfg : PipelineConfig) (cpu : CpuDetector)
    (kindMap : KindMap) (limit : Int) :
    Accounts backend cfg limit [] (new cpu kindMap limit) where
  -- Nothing was exported, received, flushed or asked for.
  conserved := conserved_new cfg cpu kindMap
  asked := rfl
  batched := ⟨[], BatchingExporter.batched_new limit⟩
  queued := .nil
  requested := ⟨[], rfl, rfl⟩

section Steps

variable {env : External} {eventChSize : Nat} {eventChanSize : DetectorType → Nat}
  {cfg : PipelineConfig} {limit : Int} {past : List (DeploymentAction κ)} {s s' : Deployment ι κ}

/-- A step of the loop hands over what it flushes. -/
theorem Accounts.loop (accounts : Accounts backend cfg limit past s) {action : BatchingAction ι}
    (inside : action = .newItem ∨ action = .timer) {succeeds : κ → Bool}
    (stepped : s.loop backend action succeeds = some s') :
    Accounts backend cfg limit past s' := by
  obtain ⟨exporter, moved, rest⟩ := Option.bind_eq_some_iff.mp stepped
  obtain ⟨requests, flushed, rfl⟩ := Option.map_eq_some_iff.mp rest
  obtain ⟨done, batched⟩ := accounts.batched
  have after := batched.step moved
  -- Neither of the two steps queues anything.
  have quiet : queuedItems [action] = [] := by rcases inside with rfl | rfl <;> rfl
  have open_ := (BatchingExporter.loop_quit inside moved).trans accounts.asked
  obtain ⟨earlier, known, asked⟩ := accounts.requested
  refine ⟨accounts.conserved, open_, ⟨_, after⟩, ?_, ?_⟩
  · have same : exporter.received ++ exporter.datas = s.exporter.received ++ s.exporter.datas := by
      rw [after.queued, batched.queued, queuedItems_append, quiet, List.append_nil]
    show Queued backend s.pipeline.exported (exporter.received ++ exporter.datas)
    rw [same]
    exact accounts.queued
  · obtain ⟨more, longer⟩ := BatchingExporter.flushed_prefix moved
    rw [← longer, List.drop_left] at flushed
    refine ⟨earlier ++ requests, ?_, ?_⟩
    · show exporter.flushed.mapM backend.flush = _
      rw [← longer, List.mapM_append, known, flushed]
      rfl
    · simp [asked, Function.comp_def]

/-- A step of the pipeline queues what there is for the records that it gives to the exporter. -/
theorem Accounts.pipeline (created : createPipeline env eventChSize eventChanSize = some cfg)
    (accounts : Accounts backend cfg limit past s) {action : PipelineAction} {now : Time}
    (stepped : s.step backend cfg (.pipeline action now) = some s') :
    Accounts backend cfg limit (past ++ [.pipeline action now]) s' := by
  -- The records that the step has exported go into the exporter's channel at once.
  obtain ⟨pipeline, moved, rest⟩ := Option.bind_eq_some_iff.mp stepped
  obtain ⟨exporter, queued, rfl⟩ := Option.map_eq_some_iff.mp rest
  obtain ⟨more, longer⟩ := Pipeline.exported_prefix moved
  have records : given s.pipeline pipeline = more := by
    rw [given, ← longer, List.drop_left]
  rw [queue, records] at queued
  obtain ⟨done, batched⟩ := accounts.batched
  have after := BatchingExporter.batched_further batched queued
  obtain rfl := BatchingExporter.consume_run queued
  refine ⟨?_, accounts.asked, ⟨_, after⟩, ?_, accounts.requested⟩
  · have actions : pipelineActions (past ++ [.pipeline action now]) =
        pipelineActions past ++ [action] := by simp [pipelineActions]
    rw [actions]
    exact accounts.conserved.step created moved
  · show Queued backend pipeline.exported (s.exporter.received ++ (s.exporter.datas ++ _))
    rw [← longer, ← List.append_assoc]
    exact accounts.queued.more now more

/-- The loop leaves the pipeline alone. -/
theorem loop_pipeline {action : BatchingAction ι} {succeeds : κ → Bool}
    (stepped : s.loop backend action succeeds = some s') : s'.pipeline = s.pipeline := by
  -- The loop of the exporter only moves what is in the exporter.
  obtain ⟨exporter, _, rest⟩ := Option.bind_eq_some_iff.mp stepped
  obtain ⟨requests, _, rfl⟩ := Option.map_eq_some_iff.mp rest
  rfl

/-- A step of the loop is none of the pipeline. -/
theorem pipelineActions_quiet {action : DeploymentAction κ} (quiet : pipelineActions [action] = [])
    (past : List (DeploymentAction κ)) :
    pipelineActions (past ++ [action]) = pipelineActions past := by
  -- The actions of the pipeline are picked one by one.
  rw [pipelineActions, List.filterMap_append, ← pipelineActions, ← pipelineActions, quiet,
    List.append_nil]

/-- Every step is accounted for. -/
theorem Accounts.step (created : createPipeline env eventChSize eventChanSize = some cfg)
    (accounts : Accounts backend cfg limit past s) {action : DeploymentAction κ}
    (stepped : s.step backend cfg action = some s') :
    Accounts backend cfg limit (past ++ [action]) s' := by
  -- A step is one of the pipeline, or one of the exporter's loop.
  have quiet : pipelineActions [action] = [] → Accounts backend cfg limit past s' →
      Accounts backend cfg limit (past ++ [action]) s' := by
    intro none_ ⟨conserved, asked, batched, queued, requested⟩
    refine ⟨?_, asked, batched, queued, requested⟩
    rwa [pipelineActions_quiet none_]
  cases action with
  | pipeline action now => exact accounts.pipeline created stepped
  | newItem succeeds => exact quiet rfl (accounts.loop (.inl rfl) stepped)
  | timer succeeds => exact quiet rfl (accounts.loop (.inr rfl) stepped)

/-- All steps of a run are accounted for. -/
theorem accounts_run (created : createPipeline env eventChSize eventChanSize = some cfg)
    {cpu : CpuDetector} {kindMap : KindMap} {actions : List (DeploymentAction κ)}
    (ran : run (step backend cfg) (new cpu kindMap limit) actions = some s) :
    Accounts backend cfg limit actions s :=
  -- Every step keeps the accounts.
  run_history (Accounts backend cfg limit) (accounts_new ..)
    (fun _ _ _ _ accounts stepped => accounts.step created stepped) ran

end Steps

end Deployment

/-- The events that are on their way to the exporter, wherever they are. -/
def Pipeline.underway (p : Pipeline) : List SpyEvent :=
  p.eventCh ++ (contents ReceiverWorker.held p.receivers ++
    allDetectors.flatMap fun d =>
      mine d (p.eventChan d ++ contents DetectorWorker.held (p.workers d)))

/-- A detector's own events make records. -/
theorem tracked_own (d : DetectorType) (events : List SpyEvent) :
    tracked (mine d events) = mine d events := by
  -- An event that a detector owns is tracked.
  refine List.filter_eq_self.mpr fun e member => ?_
  have owned : Owned d e := of_decide_eq_true (List.mem_filter.mp member).2
  exact decide_eq_true owned.1

theorem tracked_append (first second : List SpyEvent) :
    tracked (first ++ second) = tracked first ++ tracked second := List.filter_append ..

/-- An event that makes a record is on its way, or was given to the exporter. -/
theorem Conserved.tracked {cfg : PipelineConfig} {puts : List SpyEvent} {p : Pipeline}
    (conserved : Conserved cfg puts p) :
    (Spycat.tracked puts).Perm
      (Spycat.tracked p.underway ++ Spycat.tracked (exportedEvents p.exported)) := by
  -- The lines of the detectors are added up place by place.
  have lines : ∀ d, (mine d puts : Multiset SpyEvent) = p.line d := fun d =>
    (Multiset.coe_eq_coe.mpr (conserved.lines d).perm).symm
  have ways : Spycat.tracked p.underway = Spycat.tracked p.eventCh ++
      (Spycat.tracked (contents ReceiverWorker.held p.receivers) ++
        allDetectors.flatMap fun d =>
          mine d (p.eventChan d ++ contents DetectorWorker.held (p.workers d))) := by
    simp only [Pipeline.underway, tracked_append, allDetectors, List.flatMap_cons,
      List.flatMap_nil, tracked_own, List.append_nil]
  rw [ways, ← Multiset.coe_eq_coe]
  simp only [← Multiset.coe_add, tracked_mine, lines, Pipeline.line, mine_contents, mine_append,
    allDetectors, List.map_cons, List.map_nil, List.sum_cons, List.sum_nil, List.flatMap_cons,
    List.flatMap_nil]
  abel

namespace Sqlite

/-- The tables by the names of the records whose rows they have. -/
def eventTables : List (String × String) :=
  [(Model.offCpu, "OFFCPU"), (Model.onCpu, "ONCPU"), (Model.syscall, "SYSCALL"),
    (Model.futexSnoop, "FUTEXSNOOP"), (Model.cacheStat, "CACHESTAT")]

/-- A record has a row in the table of its name, if there is such a table. -/
theorem consume_table {data : DataBlock} {table : String}
    (known : (data.name, table) ∈ eventTables) :
    ∃ item, consume data = some item ∧ item.tableName = table := by
  -- The names are compared one after the other.
  unfold consume
  simp only [eventTables, List.mem_cons, Prod.mk.injEq, List.not_mem_nil, or_false] at known
  rcases known with ⟨same, rfl⟩ | ⟨same, rfl⟩ | ⟨same, rfl⟩ | ⟨same, rfl⟩ | ⟨same, rfl⟩
  · rw [if_pos same]
    exact ⟨_, rfl, rfl⟩
  · rw [if_neg (by rw [same]; decide), if_pos same]
    exact ⟨_, rfl, rfl⟩
  · rw [if_neg (by rw [same]; decide), if_neg (by rw [same]; decide), if_pos same]
    exact ⟨_, rfl, rfl⟩
  · rw [if_neg (by rw [same]; decide), if_neg (by rw [same]; decide),
      if_neg (by rw [same]; decide), if_pos same]
    exact ⟨_, rfl, rfl⟩
  · rw [if_neg (by rw [same]; decide), if_neg (by rw [same]; decide),
      if_neg (by rw [same]; decide), if_neg (by rw [same]; decide), if_pos same]
    exact ⟨_, rfl, rfl⟩

end Sqlite

/-- The record of an on-CPU event has the name of these. -/
theorem oncpuHandler_named {cpu cpu' : CpuDetector} {e : SpyEvent} {block : DataBlock}
    (handled : cpu.oncpuHandler e = some (cpu', some block)) : block.name = Model.onCpu := by
  -- Where the sample goes into the trie, there is no record.
  simp only [CpuDetector.oncpuHandler] at handled
  split at handled
  · obtain ⟨_, _, same⟩ := Option.map_eq_some_iff.mp handled
    cases same
  · cases handled
    rfl

/-- A record that a detector makes has the name of its event, and there is a table of that name. -/
theorem made_named {env : External} {d : DetectorType} {e : SpyEvent} {block : DataBlock}
    (made : Made env d e block) :
    block.name = e.name ∧ ∃ table, (e.name, table) ∈ Sqlite.eventTables := by
  -- Each handler gives its record the name of the event, for which there is a table.
  obtain ⟨cpu, cpu', processed⟩ := made
  cases d with
  | cpu =>
    simp only [DetectorType.processEvent, CpuDetector.processEvent] at processed
    split_ifs at processed with off on irq futex sys
    · cases processed
      exact ⟨off.symm, "OFFCPU", by simp [off, Sqlite.eventTables]⟩
    · exact ⟨(oncpuHandler_named processed).trans on.symm, "ONCPU", by
        simp [on, Sqlite.eventTables]⟩
    · cases processed
    · cases processed
      exact ⟨futex.symm, "FUTEXSNOOP", by simp [futex, Sqlite.eventTables]⟩
    · cases processed
      exact ⟨sys.symm, "SYSCALL", by simp [sys, Sqlite.eventTables]⟩
    · cases processed
  | mem =>
    simp only [DetectorType.processEvent, MemDetector.processEvent] at processed
    split_ifs at processed with cache
    · cases processed
      exact ⟨cache.symm, "CACHESTAT", by simp [cache, Sqlite.eventTables]⟩
    · cases processed
  | io | net => cases processed

/-- What becomes of a row: the database has it, has refused it, or has not been asked for it yet. -/
inductive Fate where
  | stored
  | refused
  | waiting

namespace Deployment

/-- The rows of a table that the database was asked for, with what came of them. -/
def askedRows (table : String) (requests : List (Sqlite.CreateInBatches × Bool)) :
    List (Sqlite.Item × Fate) :=
  (requests.filter (·.1.table = table)).flatMap fun (call, success) =>
    call.rows.map fun row => (row, if success then .stored else .refused)

/-- All rows of a table, in their order. -/
def rows (table : String) (s : Deployment (Option Sqlite.Item) Sqlite.CreateInBatches) :
    List (Sqlite.Item × Fate) :=
  askedRows table s.requests ++
    (Sqlite.ofTable table ((s.exporter.batch ++ s.exporter.datas).filterMap id)).map fun row =>
      (row, .waiting)

/-- The rows that the database was asked for are those of the requests, in their order. -/
theorem askedRows_fst (table : String) (requests : List (Sqlite.CreateInBatches × Bool)) :
    (askedRows table requests).map (·.1) =
      ((requests.map (·.1)).filter (·.table = table)).flatMap (·.rows) := by
  -- What came of a request is forgotten.
  induction requests with
  | nil => rfl
  | cons request rest ih =>
    obtain ⟨call, success⟩ := request
    by_cases own : call.table = table
    · simp only [askedRows, List.filter_cons, own, decide_true, if_true, List.flatMap_cons,
        List.map_append, List.map_cons] at ih ⊢
      rw [ih]
      simp [Function.comp_def]
    · simp only [askedRows, List.filter_cons, own, decide_false, Bool.false_eq_true, if_false,
        List.map_cons] at ih ⊢
      exact ih

/-- The row of an event's record. -/
def RowOf (env : External) (e : SpyEvent) (row : Sqlite.Item) : Prop :=
  ∃ d block, Made env d e block ∧ Sqlite.consume block = some row

/-- Where every item is there, a flush asks for the rows of its items. -/
theorem flush_items {batch : List (Option Sqlite.Item)} (there : none ∉ batch) :
    Sqlite.backend.flush batch = some (Sqlite.flush (batch.filterMap id)) := by
  -- The induction is on the batch; only a missing row makes a flush panic.
  have all : batch.mapM id = some (batch.filterMap id) := by
    induction batch with
    | nil => rfl
    | cons item rest ih =>
      cases item with
      | none => simp at there
      | some row =>
        have further := ih fun member => there (List.mem_cons_of_mem _ member)
        simp [List.mapM_cons, further]
  exact congrArg (Option.map Sqlite.flush) all

/-- Where every item is there, each batch that was flushed asked for the rows of its items. -/
theorem flush_batches {batches : List (List (Option Sqlite.Item))}
    (there : none ∉ batches.flatten) :
    batches.mapM Sqlite.backend.flush =
      some (batches.map fun batch => Sqlite.flush (batch.filterMap id)) := by
  -- The induction is on the batches, none of which has a missing row.
  induction batches with
  | nil => rfl
  | cons batch rest ih =>
    rw [List.flatten_cons, List.mem_append, not_or] at there
    simp [List.mapM_cons, flush_items there.1, ih there.2]

/-- The rows that are asked for in a table are those of the batches, in their order. -/
theorem flushed_rows (table : String) (batches : List (List (Option Sqlite.Item))) :
    (((batches.map fun batch => Sqlite.flush (batch.filterMap id)).flatten).filter
        (·.table = table)).flatMap (·.rows) =
      Sqlite.ofTable table (batches.flatten.filterMap id) := by
  -- Each flush goes through the table once.
  induction batches with
  | nil => rfl
  | cons batch rest ih =>
    rw [List.map_cons, List.flatten_cons, List.filter_append, List.flatMap_append, ih,
      Sqlite.flush_table, List.flatten_cons, List.filterMap_append, Sqlite.ofTable, Sqlite.ofTable,
      Sqlite.ofTable, List.filter_append]

/-- What is queued for records are their rows, in their order. -/
theorem queued_rows {records : List Exported} {items : List (Option Sqlite.Item)}
    (queued : Queued Sqlite.backend records items) :
    items = records.map fun x => Sqlite.consume x.block := by
  -- Nothing is ever given back.
  induction queued with
  | nil => rfl
  | queue now queued made ih =>
    cases made
    rw [ih, List.map_append]
    rfl
  | refuse now queued refused ih => cases refused

/-- Where every item is there, the loop goes on whatever it does next. -/
theorem loop_goes {s : Deployment (Option Sqlite.Item) Sqlite.CreateInBatches}
    {limit : Int} {done : List (BatchingAction (Option Sqlite.Item))}
    (batched : BatchingExporter.Batched limit done s.exporter) (asked : s.exporter.quit = false)
    (there : none ∉ s.exporter.received ++ s.exporter.datas)
    {action : BatchingAction (Option Sqlite.Item)} (inside : action = .newItem ∨ action = .timer)
    (goes : (s.exporter.step .sqlite action).isSome)
    (succeeds : Sqlite.CreateInBatches → Bool) :
    (s.loop Sqlite.backend action succeeds).isSome := by
  obtain ⟨exporter, moved⟩ := Option.isSome_iff_exists.mp goes
  have after := batched.step moved
  have quiet : queuedItems [action] = [] := by rcases inside with rfl | rfl <;> rfl
  have open_ := (BatchingExporter.loop_quit inside moved).trans asked
  -- What is flushed now was received, and that is nothing but items that were queued.
  have same : exporter.received ++ exporter.datas = s.exporter.received ++ s.exporter.datas := by
    rw [after.queued, batched.queued, queuedItems_append, quiet, List.append_nil]
  have flushed : none ∉ (exporter.flushed.drop s.exporter.flushed.length).flatten := by
    intro missing
    apply there
    rw [← same, ← after.received open_]
    obtain ⟨batch, member, inside⟩ := List.mem_flatten.mp missing
    have within : none ∈ exporter.flushed.flatten :=
      List.mem_flatten.mpr ⟨batch, List.mem_of_mem_drop member, inside⟩
    exact List.mem_append_left _ (List.mem_append_left _ within)
  simp only [loop]
  rw [show s.exporter.step Sqlite.backend.kind action = some exporter from moved,
    Option.bind_some, flush_batches flushed]
  rfl

/-- A name has one table, and a table has one name. -/
theorem eventTables_unique : ∀ first ∈ Sqlite.eventTables, ∀ second ∈ Sqlite.eventTables,
    (first.1 = second.1 ↔ first.2 = second.2) := by decide

/-- The rows of a table are those of the records of its name. -/
theorem rows_of_events {env : External} {records : List Exported}
    (told : ∀ x ∈ records, ∃ e d, x.source = some e ∧ Made env d e x.block) {name table : String}
    (known : (name, table) ∈ Sqlite.eventTables) :
    List.Forall₂ (RowOf env) ((exportedEvents records).filter fun e => e.name = name)
      (Sqlite.ofTable table (records.filterMap fun x => Sqlite.consume x.block)) := by
  -- The records come one after the other.
  induction records with
  | nil => exact .nil
  | cons x rest ih =>
    obtain ⟨e, d, source, made⟩ := told x List.mem_cons_self
    obtain ⟨same, own, listed⟩ := made_named made
    obtain ⟨row, consumed, stands⟩ := Sqlite.consume_table (same ▸ listed)
    have further := ih fun y member => told y (List.mem_cons_of_mem _ member)
    have both : e.name = name ↔ own = table := eventTables_unique _ listed _ known
    simp only [exportedEvents, Sqlite.ofTable] at further ⊢
    simp only [List.filterMap_cons, source, consumed, List.filter_cons, stands]
    by_cases belongs : e.name = name
    · simp only [belongs, both.mp belongs, decide_true, if_true]
      exact .cons ⟨d, x.block, made, consumed⟩ further
    · have other : own ≠ table := fun equal => belongs (both.mpr equal)
      simp only [belongs, other, decide_false, Bool.false_eq_true, if_false]
      exact further

section Tables

variable {env : External} {eventChSize : Nat} {eventChanSize : DetectorType → Nat}
  {cfg : PipelineConfig} {limit : Int} {past : List (DeploymentAction Sqlite.CreateInBatches)}
  {s : Deployment (Option Sqlite.Item) Sqlite.CreateInBatches}

/-- Every record that the exporter was given is one that a detector makes of its event. -/
theorem Accounts.told (created : createPipeline env eventChSize eventChanSize = some cfg)
    (accounts : Accounts Sqlite.backend cfg limit past s) :
    ∀ x ∈ s.pipeline.exported, ∃ e d, x.source = some e ∧ Made env d e x.block := by
  -- What was exported was made by a detector, with the settings of the pipeline.
  intro x member
  obtain ⟨e, d, source, made, _⟩ := accounts.conserved.told x member
  have sameEnv : cfg.env = env := by
    obtain ⟨manager, _, rfl⟩ := Option.map_eq_some_iff.mp created
    rfl
  exact ⟨e, d, source, sameEnv ▸ made⟩

/-- Every record that was given has a row, so every item is there. -/
theorem Accounts.there (created : createPipeline env eventChSize eventChanSize = some cfg)
    (accounts : Accounts Sqlite.backend cfg limit past s) :
    none ∉ s.exporter.received ++ s.exporter.datas := by
  -- A record was made by a detector, and for these there is a row.
  rw [queued_rows accounts.queued]
  intro missing
  obtain ⟨x, member, nothing⟩ := List.mem_map.mp missing
  obtain ⟨e, d, _, made⟩ := accounts.told created x member
  obtain ⟨same, own, listed⟩ := made_named made
  obtain ⟨row, consumed, _⟩ := Sqlite.consume_table (same ▸ listed)
  cases nothing.symm.trans consumed

/-- The rows of a table are those of the records of its name that the exporter was given. -/
theorem Accounts.tableRows (created : createPipeline env eventChSize eventChanSize = some cfg)
    (accounts : Accounts Sqlite.backend cfg limit past s) {name table : String}
    (known : (name, table) ∈ Sqlite.eventTables) :
    List.Forall₂ (fun e row => RowOf env e row.1)
      ((exportedEvents s.pipeline.exported).filter fun e => e.name = name) (s.rows table) := by
  -- The rows of the table are those of all items, flushed or not.
  obtain ⟨done, batched⟩ := accounts.batched
  obtain ⟨requests, flushed, asked⟩ := accounts.requested
  have items := queued_rows accounts.queued
  have there := accounts.there created
  rw [← batched.received accounts.asked] at items there
  have inside : none ∉ s.exporter.flushed.flatten := fun missing =>
    there (List.mem_append_left _ (List.mem_append_left _ missing))
  rw [flush_batches inside, Option.some.injEq] at flushed
  have all : (s.rows table).map (·.1) = Sqlite.ofTable table
      (s.pipeline.exported.filterMap fun x => Sqlite.consume x.block) := by
    have given : s.pipeline.exported.filterMap (fun x => Sqlite.consume x.block) =
        (s.exporter.flushed.flatten ++ s.exporter.batch ++ s.exporter.datas).filterMap id := by
      rw [items, List.filterMap_map]
      rfl
    rw [rows, List.map_append, askedRows_fst, asked, ← flushed, flushed_rows, given,
      List.append_assoc, List.filterMap_append]
    simp [Sqlite.ofTable, Function.comp_def]
  have events := rows_of_events (accounts.told created) known
  rw [← all] at events
  exact List.forall₂_map_right_iff.mp events

end Tables

/--
Between the receiver's channel and the database no event is lost, doubled or put into another table.

An event that makes a record is on its way or was given to the exporter. An event that was given to
the exporter has one row, in the table of its name and in the order in which it was given: the
database has stored it, has refused it, or has not been asked for it yet. No flush panics. With one
worker each, the events of a detector keep their order.
-/
theorem rows_stored (env : External) (eventChSize : Nat) (eventChanSize : DetectorType → Nat)
    (cfg : PipelineConfig) (created : createPipeline env eventChSize eventChanSize = some cfg)
    (cpu : CpuDetector) (kindMap : KindMap) (limit : Int)
    (actions : List (DeploymentAction Sqlite.CreateInBatches))
    (s : Deployment (Option Sqlite.Item) Sqlite.CreateInBatches)
    (ran : run (step Sqlite.backend cfg) (new cpu kindMap limit) actions = some s) :
    (tracked (putEvents (pipelineActions actions))).Perm
        (tracked s.pipeline.underway ++ tracked (exportedEvents s.pipeline.exported)) ∧
      (∀ name table, (name, table) ∈ Sqlite.eventTables →
        List.Forall₂ (fun e row => RowOf env e row.1)
          ((exportedEvents s.pipeline.exported).filter fun e => e.name = name) (s.rows table)) ∧
      (∀ succeeds,
        ((s.exporter.step .sqlite .newItem).isSome →
          (s.step Sqlite.backend cfg (.newItem succeeds)).isSome) ∧
        ((s.exporter.step .sqlite .timer).isSome →
          (s.step Sqlite.backend cfg (.timer succeeds)).isSome)) ∧
      ∀ d, s.pipeline.Single d → mine d (exportedEvents s.pipeline.exported) <+:
        mine d (putEvents (pipelineActions actions)) := by
  -- All parts are read off what the run keeps.
  have accounts := accounts_run created ran
  obtain ⟨done, batched⟩ := accounts.batched
  have there := accounts.there created
  refine ⟨accounts.conserved.tracked, ?_, ?_, ?_⟩
  · exact fun name table known => accounts.tableRows created known
  · intro succeeds
    exact ⟨fun goes => loop_goes batched accounts.asked there (.inl rfl) goes succeeds,
      fun goes => loop_goes batched accounts.asked there (.inr rfl) goes succeeds⟩
  · intro d single
    rw [← (accounts.conserved.lines d).same single]
    exact List.prefix_append ..

/-- One event on its way into the database, where a batch is flushed once it has an item. -/
def oneRow : List (DeploymentAction Sqlite.CreateInBatches) :=
  oneEvent.map (fun action => .pipeline action 0) ++ [.newItem fun _ => true]

/-- An event that went all the way has its row in the table of system calls. -/
theorem rows_stored_one_row :
    ∃ cfg s, createPipeline quietExternal 1 (fun _ => 1) = some cfg ∧
      run (step Sqlite.backend cfg) (new .new ∅ 0) oneRow = some s ∧
      List.Forall₂ (fun e row => RowOf quietExternal e row.1)
        ((exportedEvents s.pipeline.exported).filter fun e => e.name = Model.syscall)
        (s.rows "SYSCALL") :=
  -- The one event makes one row of the table of system calls.
  ⟨_, _, rfl, rfl, (rows_stored quietExternal 1 (fun _ => 1) _ rfl .new ∅ 0 oneRow _ rfl).2.1
    Model.syscall "SYSCALL" (by decide)⟩

/-- What is queued for records are the lines that encode them, in their order. -/
theorem queued_lines {loki : Loki.Environment} {config : Loki.Config} {records : List Exported}
    {items : List Loki.LogEntry} (queued : Queued (Loki.backend loki config) records items) :
    items.map (·.line) = records.filterMap fun x => loki.marshalBlock x.block := by
  -- A record without an encoding is given back.
  induction queued with
  | nil => rfl
  | queue now queued made ih =>
    obtain ⟨line, encoded, rfl⟩ := Option.map_eq_some_iff.mp made
    simp [ih, encoded]
  | refuse now queued refused ih =>
    have nothing := Option.map_eq_none_iff.mp refused
    simp [ih, nothing]

/--
Between the receiver's channel and the log server no event is lost or doubled, as long as it can be
encoded and the server takes what it is sent.

An event that makes a record is on its way or was given to the exporter. The encodings of the
records that were given are the lines of the batches that were flushed, of the current batch, and of
the channel, in this order; each batch that can be encoded is posted once, whatever comes of it.
-/
theorem lines_posted (loki : Loki.Environment) (config : Loki.Config) (env : External)
    (eventChSize : Nat) (eventChanSize : DetectorType → Nat) (cfg : PipelineConfig)
    (created : createPipeline env eventChSize eventChanSize = some cfg) (cpu : CpuDetector)
    (kindMap : KindMap) (limit : Int) (actions : List (DeploymentAction Loki.Post))
    (s : Deployment Loki.LogEntry Loki.Post)
    (ran : run (step (Loki.backend loki config) cfg) (new cpu kindMap limit) actions = some s) :
    (tracked (putEvents (pipelineActions actions))).Perm
        (tracked s.pipeline.underway ++ tracked (exportedEvents s.pipeline.exported)) ∧
      s.requests.map (·.1) = s.exporter.flushed.flatMap (Loki.flush loki config) ∧
      [] ∉ s.exporter.flushed ∧
      (s.exporter.flushed.flatten ++ s.exporter.batch ++ s.exporter.datas).map (·.line) =
        s.pipeline.exported.filterMap fun x => loki.marshalBlock x.block := by
  have accounts := accounts_run created ran
  obtain ⟨done, batched⟩ := accounts.batched
  obtain ⟨requests, flushed, asked⟩ := accounts.requested
  refine ⟨accounts.conserved.tracked, ?_, batched.filled, ?_⟩
  · -- No flush panics, so its requests are those of the batch.
    have plain : ∀ batches : List (List Loki.LogEntry),
        batches.mapM (Loki.backend loki config).flush =
          some (batches.map (Loki.flush loki config)) := by
      intro batches
      induction batches with
      | nil => rfl
      | cons batch rest ih =>
        rw [List.mapM_cons, ih]
        rfl
    rw [plain, Option.some.injEq] at flushed
    rw [asked, ← flushed, List.flatMap_def]
  · rw [batched.received accounts.asked]
    exact queued_lines accounts.queued

/-- A log server whose lines and messages are the names of records. -/
def namesOnly : Loki.Environment where
  marshalBlock := fun data => some data.name.toUTF8.toList
  marshalMsg := fun msg => some (msg.streams.flatMap fun stream => stream.entries.flatMap (·.line))

/-- An event that went all the way is posted as one line. -/
theorem lines_posted_one_line :
    ∃ cfg s, createPipeline quietExternal 1 (fun _ => 1) = some cfg ∧
      run (step (Loki.backend namesOnly ⟨"/api/prom/push", ""⟩) cfg) (new .new ∅ 0)
        (oneEvent.map (fun action => .pipeline action 0) ++ [.newItem fun _ => false]) = some s ∧
      s.requests.map (·.1) =
        s.exporter.flushed.flatMap (Loki.flush namesOnly ⟨"/api/prom/push", ""⟩) ∧
      [] ∉ s.exporter.flushed := by
  -- The one line is flushed as a batch of its own.
  obtain ⟨_, posted, filled, _⟩ := lines_posted namesOnly ⟨"/api/prom/push", ""⟩
    quietExternal 1 (fun _ => 1) _ rfl .new ∅ 0
    (oneEvent.map (fun action => .pipeline action 0) ++ [.newItem fun _ => false]) _ rfl
  exact ⟨_, _, rfl, rfl, posted, filled⟩

end Deployment

end Spycat
