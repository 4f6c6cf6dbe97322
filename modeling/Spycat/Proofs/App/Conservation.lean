import Mathlib.Algebra.BigOperators.Group.List.Basic
import Mathlib.Algebra.Order.Group.Multiset
import Mathlib.Tactic.Abel
import Spycat.App.Pipeline
import Spycat.Lib.Pool

/-! The pipeline loses, duplicates and misroutes no event that makes a record. -/

namespace Spycat

open Lib

/-- The names of the events that always make a record. -/
def trackedNames : List String :=
  [Model.offCpu, Model.futexSnoop, Model.syscall, Model.cacheStat]

/-- An event that makes a record, sent by the name that it is processed by. -/
def Tracked (e : SpyEvent) : Prop := e.name = e.cls.event ∧ e.name ∈ trackedNames

/-- The event makes a record, and the detector owns it. -/
def Owned (d : DetectorType) (e : SpyEvent) : Prop := Tracked e ∧ e.name ∈ d.ownedEvents

instance : DecidablePred Tracked := fun _ => inferInstanceAs (Decidable (_ ∧ _))

instance (d : DetectorType) : DecidablePred (Owned d) := fun _ =>
  inferInstanceAs (Decidable (_ ∧ _))

/-- The record is one that a detector makes of an event. -/
def Made (env : External) (d : DetectorType) (e : SpyEvent) (block : DataBlock) : Prop :=
  ∃ cpu cpu', d.processEvent env cpu e = some (cpu', some block)

section Routing

variable {d : DetectorType} {e : SpyEvent} {env : External} {eventChSize : Nat}
  {eventChanSize : DetectorType → Nat} {cfg : PipelineConfig}

/-- An event is sent to its owner alone. -/
theorem owned_detectors (created : createPipeline env eventChSize eventChanSize = some cfg)
    (owned : Owned d e) : cfg.manager.getDetectors e.cls.event = [d] := by
  -- The table of the manager is computed once, for every name.
  have table : ∀ manager ∈ DetectorManager.new [.cpu, .io, .net, .mem], ∀ name ∈ trackedNames,
      name ∈ d.ownedEvents → manager.getDetectors name = [d] := by
    cases d <;> decide
  obtain ⟨manager, made, rfl⟩ := Option.map_eq_some_iff.mp created
  obtain ⟨⟨named, tracked⟩, owns⟩ := owned
  rw [← named]
  exact table manager made e.name tracked owns

/-- A detector that an event is sent to owns it. -/
theorem detectors_owned (created : createPipeline env eventChSize eventChanSize = some cfg)
    (tracked : Tracked e) (sent : d ∈ cfg.manager.getDetectors e.cls.event) : Owned d e := by
  -- The same table is read the other way round.
  have table : ∀ manager ∈ DetectorManager.new [.cpu, .io, .net, .mem], ∀ name ∈ trackedNames,
      d ∈ manager.getDetectors name → name ∈ d.ownedEvents := by
    cases d <;> decide
  obtain ⟨manager, made, rfl⟩ := Option.map_eq_some_iff.mp created
  rw [← tracked.1] at sent
  exact ⟨tracked, table manager made e.name tracked.2 sent⟩

/-- A detector that owns an event that makes a record is the one for its kind. -/
theorem owned_queues (owned : Owned d e) : d.queues := by
  -- Two detectors put events on a channel, and the other two own none.
  cases d with
  | cpu | mem => rfl
  | io | net => exact absurd owned.2 (by simp [DetectorType.ownedEvents])

/-- The owner of an event makes a record of it, which has its name. -/
theorem owned_processEvent (env : External) (owned : Owned d e) (cpu : CpuDetector) :
    ∃ block, d.processEvent env cpu e = some (cpu, some block) ∧ block.name = e.name := by
  obtain ⟨⟨_, tracked⟩, owns⟩ := owned
  cases d with
  | cpu =>
    -- Of the names the detector owns, three make a record whatever its state is.
    have table : ∀ name ∈ trackedNames, name ∈ CpuDetector.ownedEvents →
        name = Model.offCpu ∨ name = Model.futexSnoop ∨ name = Model.syscall := by decide
    rcases table e.name tracked owns with same | same | same
    · refine ⟨CpuDetector.offcpuHandler env e, ?_, same.symm⟩
      simp [DetectorType.processEvent, CpuDetector.processEvent, same]
    · refine ⟨CpuDetector.futexsnoopHandler e, ?_, same.symm⟩
      simp [DetectorType.processEvent, CpuDetector.processEvent, same, Model.futexSnoop,
        Model.offCpu, Model.onCpu, Model.irqOff]
    · refine ⟨CpuDetector.syscallHandler e, ?_, same.symm⟩
      simp [DetectorType.processEvent, CpuDetector.processEvent, same, Model.futexSnoop,
        Model.offCpu, Model.onCpu, Model.irqOff, Model.syscall]
  | mem =>
    have same : e.name = Model.cacheStat := by
      simpa [DetectorType.ownedEvents, MemDetector.ownedEvents] using owns
    refine ⟨MemDetector.cachestatHandler e, ?_, same.symm⟩
    simp [DetectorType.processEvent, MemDetector.processEvent, same]
  | io | net => exact absurd owns (by simp [DetectorType.ownedEvents])

/-- A record of an event has its name, and the processor hands it on. -/
theorem owned_made (owned : Owned d e) {block : DataBlock} (made : Made env d e block) :
    block.name = e.name ∧ DefaultProcessor.consume block = some block := by
  -- What an event is made into does not depend on the state of the detector.
  obtain ⟨cpu, cpu', processed⟩ := made
  obtain ⟨own, always, named⟩ := owned_processEvent env owned cpu
  obtain ⟨-, rfl⟩ : cpu = cpu' ∧ own = block := by simpa [always] using processed
  have passes : ∀ name ∈ trackedNames,
      name ∈ [Model.offCpu, Model.syscall, Model.futexSnoop, Model.onCpu, Model.cacheStat] := by
    decide
  exact ⟨named, if_pos (named ▸ passes e.name owned.1.2)⟩

end Routing

/-- The events that a detector owns, in their order. -/
def mine (d : DetectorType) (events : List SpyEvent) : List SpyEvent :=
  events.filter fun e => Owned d e

/-- What a worker of the receiver holds: its event once for every detector that is left. -/
def ReceiverWorker.held : ReceiverWorker → List SpyEvent
  | .idle => []
  | .sending e left => left.map fun _ => e

/-- What a worker of a detector holds. -/
def DetectorWorker.held : DetectorWorker → List SpyEvent
  | .idle => []
  | .holding e | .handing e _ => [e]

/-- The events that records the exporter was given were made of. -/
def exportedEvents (exported : List Exported) : List SpyEvent := exported.filterMap (·.source)

/-- The events put on the receiver's channel. -/
def putEvents (actions : List PipelineAction) : List SpyEvent :=
  actions.filterMap fun action =>
    match action with
    | .put e | .putTo e _ => some e
    | _ => none

/-- Where a detector's own events are, from the exporter back to the receiver's channel. -/
def Pipeline.line (p : Pipeline) (d : DetectorType) : List SpyEvent :=
  mine d (exportedEvents p.exported) ++
    (contents (fun w => mine d w.held) (p.workers d) ++
      (mine d (p.eventChan d) ++
        (contents (fun w => mine d w.held) p.receivers ++ mine d p.eventCh)))

/-- The receiver and a detector have one worker each, or none. -/
def Pipeline.Single (p : Pipeline) (d : DetectorType) : Prop :=
  p.receivers.length ≤ 1 ∧ (p.workers d).length ≤ 1

/-- Every event that was put in is in one place of its line, and events are where they belong. -/
structure Conserved (cfg : PipelineConfig) (puts : List SpyEvent) (p : Pipeline) : Prop where
  lines : ∀ d, Reordered (p.Single d) (p.line d) (mine d puts)
  left : ∀ e left, .sending e left ∈ p.receivers → left <:+ cfg.manager.getDetectors e.cls.event
  queued : ∀ d, ∀ e ∈ p.eventChan d ++ contents DetectorWorker.held (p.workers d),
    d ∈ cfg.manager.getDetectors e.cls.event
  made : ∀ d e block, .handing e block ∈ p.workers d → Made cfg.env d e block
  told : ∀ x ∈ p.exported, ∃ e d, x.source = some e ∧ Made cfg.env d e x.block ∧
    d ∈ cfg.manager.getDetectors e.cls.event
  unused : p.aggregator.aggregatorMap = ∅

@[simp] theorem mine_nil (d : DetectorType) : mine d [] = [] := rfl

@[simp] theorem mine_append (d : DetectorType) (first second : List SpyEvent) :
    mine d (first ++ second) = mine d first ++ mine d second := List.filter_append ..

theorem mine_cons (d : DetectorType) (e : SpyEvent) (rest : List SpyEvent) :
    mine d (e :: rest) = mine d [e] ++ mine d rest := mine_append d [e] rest

/-- Another detector's event is not mine. -/
theorem mine_other {d : DetectorType} {e : SpyEvent} (other : ¬ Owned d e)
    (events : List SpyEvent) (same : ∀ x ∈ events, x = e) : mine d events = [] :=
  -- All events of the list are this one, which is not picked.
  List.filter_eq_nil_iff.mpr fun x member => by simpa [same x member] using other

/-- A worker of a changed pool is an old one or the one that changed. -/
theorem mem_update_set {workers : DetectorType → List DetectorWorker} {target d : DetectorType}
    {j : Nat} {w w' : DetectorWorker}
    (member : w ∈ Function.update workers target ((workers target).set j w') d) :
    w ∈ workers d ∨ w = w' ∧ d = target := by
  -- Only one position of one pool differs.
  by_cases same : d = target
  · subst same
    rw [Function.update_self] at member
    exact (List.mem_or_eq_of_mem_set member).imp_right fun new => ⟨new, rfl⟩
  · rw [Function.update_of_ne same] at member
    exact .inl member

/-- A worker that is given nothing to hand on makes no record. -/
theorem Conserved.made_kept {cfg : PipelineConfig} {puts : List SpyEvent} {p : Pipeline}
    (conserved : Conserved cfg puts p) {target : DetectorType} {j : Nat} {w : DetectorWorker}
    (nothing : ∀ e block, w ≠ .handing e block) (d : DetectorType) (e : SpyEvent)
    (block : DataBlock)
    (member : .handing e block ∈ Function.update p.workers target ((p.workers target).set j w) d) :
    Made cfg.env d e block := by
  -- The record was there before.
  rcases mem_update_set member with old | ⟨new, _⟩
  · exact conserved.made d e block old
  · exact absurd new.symm (nothing e block)

section Operations

variable {env : External} {eventChSize : Nat} {eventChanSize : DetectorType → Nat}
  {cfg : PipelineConfig} {puts : List SpyEvent} {p p' : Pipeline}

/-- An event to be sent to all its detectors is held once by the line of its owner. -/
theorem mine_sending (created : createPipeline env eventChSize eventChanSize = some cfg)
    (d : DetectorType) (e : SpyEvent) :
    mine d (ReceiverWorker.sending e (cfg.manager.getDetectors e.cls.event)).held = mine d [e] := by
  -- There is one copy for the owner, and none for the line of another detector.
  by_cases owned : Owned d e
  · simp [ReceiverWorker.held, owned_detectors created owned]
  · have same : ∀ x ∈ (ReceiverWorker.sending e
        (cfg.manager.getDetectors e.cls.event)).held, x = e := by
      simp [ReceiverWorker.held]
    rw [mine_other owned _ same, mine_other owned [e] (by simp)]

/-- Where only one detector's events move, and none is new to it, events stay where they belong. -/
theorem Conserved.queued_moved (conserved : Conserved cfg puts p) (target : DetectorType)
    {chan : DetectorType → List SpyEvent} {workers : DetectorType → List DetectorWorker}
    (elsewhere : ∀ d, d ≠ target → chan d = p.eventChan d ∧ workers d = p.workers d)
    (known : chan target ++ contents DetectorWorker.held (workers target) ⊆
      p.eventChan target ++ contents DetectorWorker.held (p.workers target)) :
    ∀ d, ∀ e ∈ chan d ++ contents DetectorWorker.held (workers d),
      d ∈ cfg.manager.getDetectors e.cls.event := by
  -- The one detector gets nothing new, and the others are as they were.
  intro d e member
  by_cases same : d = target
  · subst same
    exact conserved.queued d e (known member)
  · obtain ⟨sameChan, sameWorkers⟩ := elsewhere d same
    rw [sameChan, sameWorkers] at member
    exact conserved.queued d e member

/-- A worker that goes on holding at most what it held leaves events where they belong. -/
theorem Conserved.queued_worker (conserved : Conserved cfg puts p) {target : DetectorType} {j : Nat}
    {w : DetectorWorker} (w' : DetectorWorker) (stands : (p.workers target)[j]? = some w)
    (less : w'.held ⊆ w.held) :
    ∀ d, ∀ e ∈ p.eventChan d ++ contents DetectorWorker.held
        (Function.update p.workers target ((p.workers target).set j w') d),
      d ∈ cfg.manager.getDetectors e.cls.event := by
  refine conserved.queued_moved target
    (fun d other => ⟨rfl, Function.update_of_ne other _ _⟩) ?_
  -- The channel stays, and the pool holds nothing new.
  rw [Function.update_self]
  exact List.append_subset.mpr ⟨List.subset_append_left _ _,
    fun _ held => List.mem_append_right _ (contents_subset _ _ stands less held)⟩

/-- An event put on the channel is behind all others. -/
theorem Conserved.push (conserved : Conserved cfg puts p) (e : SpyEvent) :
    Conserved cfg (puts ++ [e]) (p.push e) where
  -- The event is put in at the front, ahead of everything that is on its way.
  lines := fun d => by
    have moved := (conserved.lines d).ahead (mine d [e])
    simpa [Pipeline.line, Pipeline.push, Pipeline.Single] using moved
  left := conserved.left
  queued := conserved.queued
  made := conserved.made
  told := conserved.told
  unused := conserved.unused

/-- An event that a worker of the receiver takes stays in its place. -/
theorem Conserved.receive (created : createPipeline env eventChSize eventChanSize = some cfg)
    (conserved : Conserved cfg puts p) {i : Nat} (received : p.receive cfg i = some p') :
    Conserved cfg puts p' := by
  -- The first event of the channel becomes the last one that the workers hold.
  unfold Pipeline.receive at received
  split at received
  · rename_i e rest waiting stands
    obtain rfl := Option.some.inj received
    refine ⟨?_, ?_, conserved.queued, conserved.made, conserved.told, conserved.unused⟩
    · intro d
      have taken := contents_take (fun w : ReceiverWorker => mine d w.held)
        (.sending e (cfg.manager.getDetectors e.cls.event)) stands rfl (mine d rest)
      rw [mine_sending created, ← mine_cons, ← waiting] at taken
      have moved := ((taken.behind (mine d (p.eventChan d))).behind
        (contents (fun w => mine d w.held) (p.workers d))).behind
          (mine d (exportedEvents p.exported))
      exact .trans (moved.weaken fun single => by simpa using single.1)
        ((conserved.lines d).weaken fun single => by simpa [Pipeline.Single] using single)
    · intro e' left member
      rcases List.mem_or_eq_of_mem_set member with old | new
      · exact conserved.left e' left old
      · obtain ⟨rfl, rfl⟩ := ReceiverWorker.sending.inj new
        exact List.suffix_refl _
  · cases received

/-- The channels after an event was sent to a detector, which may drop it. -/
theorem mem_sent {target d : DetectorType} {e x : SpyEvent}
    (member : x ∈ (if target.queues then
      Function.update p.eventChan target (p.eventChan target ++ [e]) else p.eventChan) d) :
    x ∈ p.eventChan d ∨ x = e ∧ d = target := by
  -- Only the end of the one channel can be new.
  split at member
  · by_cases same : d = target
    · subst same
      rw [Function.update_self] at member
      rcases List.mem_append.mp member with old | new
      · exact .inl old
      · exact .inr ⟨by simpa using new, rfl⟩
    · rw [Function.update_of_ne same] at member
      exact .inl member
  · exact .inl member

/-- An event that a worker sends on moves from the worker to the channel of its owner. -/
theorem Conserved.sent_on (created : createPipeline env eventChSize eventChanSize = some cfg)
    (conserved : Conserved cfg puts p) {i : Nat} {e : SpyEvent} {target : DetectorType}
    {left : List DetectorType} (stands : p.receivers[i]? = some (.sending e (target :: left)))
    (d : DetectorType) :
    Reordered (p.receivers.length ≤ 1)
      (mine d ((if target.queues then
          Function.update p.eventChan target (p.eventChan target ++ [e]) else p.eventChan) d) ++
        contents (fun w => mine d w.held) (p.receivers.set i (.sending e left)))
      (mine d (p.eventChan d) ++ contents (fun w => mine d w.held) p.receivers) := by
  have remaining := conserved.left e (target :: left) (List.mem_of_getElem? stands)
  have inside : target ∈ cfg.manager.getDetectors e.cls.event := remaining.subset List.mem_cons_self
  by_cases mineToo : Owned d e
  · -- The owner is the only detector that the event is sent to.
    have alone := owned_detectors created mineToo
    obtain rfl : target = d := by simpa [alone] using inside
    obtain rfl : left = [] := by
      have bound := remaining.length_le
      simpa [alone] using bound
    have put := contents_put (fun w : ReceiverWorker => mine target w.held) (.sending e []) stands
      (mine target [e]) (by simp [ReceiverWorker.held]) (mine target (p.eventChan target))
    simpa [owned_queues mineToo] using put
  · -- Neither the worker nor the channel changes in the line of another detector.
    have kept : contents (fun w : ReceiverWorker => mine d w.held)
        (p.receivers.set i (.sending e left)) =
        contents (fun w : ReceiverWorker => mine d w.held) p.receivers := by
      refine contents_keep _ _ stands ?_
      rw [mine_other mineToo _ (by simp [ReceiverWorker.held]),
        mine_other mineToo _ (by simp [ReceiverWorker.held])]
    have unchanged : mine d ((if target.queues then
        Function.update p.eventChan target (p.eventChan target ++ [e])
        else p.eventChan) d) = mine d (p.eventChan d) := by
      split
      · by_cases same : d = target
        · subst same
          simp [mine_other mineToo [e] (by simp)]
        · simp [Function.update_of_ne same]
      · rfl
    exact .of_eq (by rw [kept, unchanged])

/-- An event that is sent on goes to its owner's channel. -/
theorem Conserved.consumeEvent (created : createPipeline env eventChSize eventChanSize = some cfg)
    (conserved : Conserved cfg puts p) {i : Nat} (sent : p.consumeEvent i = some p') :
    Conserved cfg puts p' := by
  -- The event leaves the worker for the channel of the next detector.
  unfold Pipeline.consumeEvent at sent
  split at sent
  · rename_i e target left stands
    obtain rfl := Option.some.inj sent
    have remaining := conserved.left e (target :: left) (List.mem_of_getElem? stands)
    refine ⟨?_, ?_, ?_, conserved.made, conserved.told, conserved.unused⟩
    · intro d
      have moved := (((conserved.sent_on created stands d).ahead (mine d p.eventCh)).behind
        (contents (fun w => mine d w.held) (p.workers d))).behind
          (mine d (exportedEvents p.exported))
      simp only [List.append_assoc] at moved
      exact .trans (moved.weaken fun single => by simpa using single.1)
        ((conserved.lines d).weaken fun single => by simpa [Pipeline.Single] using single)
    · intro e' left' member
      rcases List.mem_or_eq_of_mem_set member with old | new
      · exact conserved.left e' left' old
      · obtain ⟨rfl, rfl⟩ := ReceiverWorker.sending.inj new
        exact (List.suffix_cons target left').trans remaining
    · -- The one new event in a channel was sent there.
      intro d e' member
      rcases List.mem_append.mp member with waiting | held
      · rcases mem_sent waiting with old | ⟨rfl, rfl⟩
        · exact conserved.queued d e' (List.mem_append_left _ old)
        · exact remaining.subset List.mem_cons_self
      · exact conserved.queued d e' (List.mem_append_right _ held)
  · cases sent

/-- An event that a worker of a detector takes stays in its place. -/
theorem Conserved.take (conserved : Conserved cfg puts p) {target : DetectorType} {j : Nat}
    (taken : p.take target j = some p') : Conserved cfg puts p' := by
  -- The first event of the channel becomes the last one that its workers hold.
  unfold Pipeline.take at taken
  split at taken
  · rename_i e rest waiting stands
    obtain rfl := Option.some.inj taken
    refine ⟨?_, conserved.left, ?_, ?_, conserved.told, conserved.unused⟩
    · intro d
      by_cases same : d = target
      · subst same
        refine .trans ?_ ((conserved.lines d).weaken fun single => by
          simpa [Pipeline.Single] using single)
        refine Reordered.behind ?_ _
        simp only [← List.append_assoc, Function.update_self]
        refine (Reordered.ahead ?_ _).ahead _
        have moved := contents_take (fun w : DetectorWorker => mine d w.held) (.holding e)
          stands rfl (mine d rest)
        rw [waiting, mine_cons]
        exact moved.weaken fun single => by simpa using single.2
      · have before := conserved.lines d
        simpa [Pipeline.line, Pipeline.Single, Function.update_of_ne same] using before
    · apply conserved.queued_moved target
      · intro d other
        exact ⟨Function.update_of_ne other _ _, Function.update_of_ne other _ _⟩
      -- The channel and the workers hold what they held before.
      intro e' member
      have kept := contents_take DetectorWorker.held (.holding e) stands rfl rest
      simp only [Function.update_self] at member
      have inside : e' ∈ contents DetectorWorker.held (p.workers target) ++ (e :: rest) := by
        refine kept.perm.mem_iff.mp ?_
        simpa [or_comm] using member
      rw [waiting]
      simpa [or_comm, or_left_comm, or_assoc] using inside
    · exact conserved.made_kept (by simp)
  · cases taken

/-- An event that is processed stays with its worker when it makes a record. -/
theorem Conserved.processEvent (conserved : Conserved cfg puts p) {target : DetectorType} {j : Nat}
    (processed : p.processEvent cfg target j = some p') : Conserved cfg puts p' := by
  -- A tracked event becomes a record of its owner, so the worker keeps it.
  unfold Pipeline.processEvent at processed
  split at processed
  · rename_i e stands
    obtain ⟨⟨cpu, dataBlock⟩, done, rfl⟩ := Option.map_eq_some_iff.mp processed
    -- The worker holds the event as before, or nothing of an event that makes no record.
    have holds : ∀ x ∈ (DetectorWorker.processed e dataBlock).held, x = e := by
      cases dataBlock <;> simp [DetectorWorker.processed, DetectorWorker.held]
    refine ⟨?_, conserved.left, ?_, ?_, conserved.told, conserved.unused⟩
    · intro d
      by_cases same : d = target
      · subst same
        have kept := contents_keep (fun w : DetectorWorker => mine d w.held)
          (.processed e dataBlock) stands (by
          by_cases owned : Owned d e
          · obtain ⟨block, always, _⟩ := owned_processEvent cfg.env owned p.cpu
            obtain ⟨-, rfl⟩ : p.cpu = cpu ∧ some block = dataBlock := by
              simpa [always] using done
            rfl
          · rw [mine_other owned _ holds, mine_other owned _ (by simp [DetectorWorker.held])])
        have before := conserved.lines d
        simpa [Pipeline.line, Pipeline.Single, kept] using before
      · have before := conserved.lines d
        simpa [Pipeline.line, Pipeline.Single, Function.update_of_ne same] using before
    · apply conserved.queued_worker _ stands
      intro x member
      simp [holds x member, DetectorWorker.held]
    · intro d e' block member
      rcases mem_update_set member with old | ⟨new, rfl⟩
      · exact conserved.made d e' block old
      · cases dataBlock with
        | none => cases new
        | some made =>
          obtain ⟨rfl, rfl⟩ := DetectorWorker.handing.inj new
          exact ⟨p.cpu, cpu, done⟩
  · cases processed

/-- A record that is handed on takes its event to the exporter. -/
theorem Conserved.consume (created : createPipeline env eventChSize eventChanSize = some cfg)
    (conserved : Conserved cfg puts p) {target : DetectorType} {j : Nat}
    (consumed : p.consume target j = some p') : Conserved cfg puts p' := by
  -- The event leaves the worker together with its record.
  unfold Pipeline.consume at consumed
  split at consumed
  · rename_i e dataBlock stands
    obtain rfl := Option.some.inj consumed
    have made := conserved.made target e dataBlock (List.mem_of_getElem? stands)
    have sent : target ∈ cfg.manager.getDetectors e.cls.event :=
      conserved.queued target e (List.mem_append_right _
        (mem_contents DetectorWorker.held stands List.mem_cons_self))
    -- An event of the line is passed on with its record, and no other line has the event.
    have passes : ∀ d, mine d (exportedEvents (p.exported ++
        ((DefaultProcessor.consume dataBlock).map fun block =>
          { source := some e, block := block : Exported }).toList)) =
        mine d (exportedEvents p.exported) ++ mine d [e] := by
      intro d
      rw [exportedEvents, List.filterMap_append, mine_append]
      refine congrArg _ ?_
      by_cases owned : Owned d e
      · obtain rfl : target = d := by simpa [owned_detectors created owned] using sent
        rw [(owned_made owned made).2]
        rfl
      · rw [mine_other owned [e] (by simp), mine_other owned]
        intro x member
        cases passed : DefaultProcessor.consume dataBlock <;> simp_all
    refine ⟨?_, conserved.left, ?_, ?_, ?_, conserved.unused⟩
    · intro d
      by_cases same : d = target
      · subst same
        refine .trans ?_ ((conserved.lines d).weaken fun single => by
          simpa [Pipeline.Single] using single)
        simp only [Pipeline.line, passes, Function.update_self]
        simp only [← List.append_assoc]
        refine ((Reordered.ahead ?_ _).ahead _).ahead _
        have put := contents_put (fun w : DetectorWorker => mine d w.held) .idle stands
          (mine d [e]) (by simp [DetectorWorker.held]) (mine d (exportedEvents p.exported))
        exact put.weaken fun single => by simpa using single.2
      · have elsewhere : mine d [e] = [] := by
          refine mine_other (fun owned : Owned d e => same ?_) [e] (by simp)
          simpa [owned_detectors created owned, eq_comm] using sent
        have before := conserved.lines d
        simpa [Pipeline.line, Pipeline.Single, Function.update_of_ne same, passes, elsewhere]
          using before
    · exact conserved.queued_worker .idle stands (List.nil_subset _)
    · exact conserved.made_kept (by simp)
    · intro x member
      rcases List.mem_append.mp member with old | new
      · exact conserved.told x old
      · -- What the processor passes on is the record itself.
        obtain ⟨block, passed, rfl⟩ : ∃ block, DefaultProcessor.consume dataBlock = some block ∧
            { source := some e, block := block : Exported } = x := by simpa using new
        have same : dataBlock = block := by
          unfold DefaultProcessor.consume at passed
          split at passed
          · exact Option.some.inj passed
          · cases passed
        exact ⟨e, target, rfl, same ▸ made, sent⟩
  · cases consumed

/-- A worker that is started holds nothing yet. -/
theorem Conserved.startReceiver (conserved : Conserved cfg puts p) :
    Conserved cfg puts { p with receivers := p.receivers ++ [.idle] } where
  -- The new receiver holds nothing; with two of them the order is no longer promised.
  lines := fun d => by
    have free : mine d (ReceiverWorker.idle).held = [] := rfl
    have grown := contents_append (fun w : ReceiverWorker => mine d w.held) p.receivers free
    refine .trans (.of_eq ?_) ((conserved.lines d).weaken fun single => ⟨?_, single.2⟩)
    · simp only [Pipeline.line, grown]
    · have bound := single.1
      simp only [List.length_append] at bound
      omega
  left := fun e left member => by
    rcases List.mem_append.mp member with old | new
    · exact conserved.left e left old
    · simp at new
  queued := conserved.queued
  made := conserved.made
  told := conserved.told
  unused := conserved.unused

/-- A worker that is started holds nothing yet. -/
theorem Conserved.startDetector (conserved : Conserved cfg puts p) (target : DetectorType) :
    Conserved cfg puts
      { p with workers := Function.update p.workers target (p.workers target ++ [.idle]) } where
  lines := fun d => by
    by_cases same : d = target
    · subst same
      have grown := contents_append (fun w : DetectorWorker => mine d w.held) (p.workers d)
        (w := .idle) rfl
      refine .trans (.of_eq ?_) ((conserved.lines d).weaken fun single => ⟨single.1, ?_⟩)
      · simp only [Pipeline.line, Function.update_self, grown]
      · have bound := single.2
        simp only [Function.update_self, List.length_append] at bound
        omega
    · have before := conserved.lines d
      simpa [Pipeline.line, Pipeline.Single, Function.update_of_ne same] using before
  left := conserved.left
  queued := by
  -- A pool that grows by an idle worker holds the same.
    apply conserved.queued_moved target
    · exact fun d other => ⟨rfl, Function.update_of_ne other _ _⟩
    -- The new worker holds nothing.
    have grown := contents_append DetectorWorker.held (p.workers target) (w := .idle) rfl
    simp only [Function.update_self, grown]
    exact List.Subset.refl _
  made := fun d e block member => by
    by_cases same : d = target
    · subst same
      simp only [Function.update_self] at member
      exact conserved.made d e block (by simpa using member)
    · simp only [Function.update_of_ne same] at member
      exact conserved.made d e block member
  told := conserved.told
  unused := conserved.unused

/-- A worker that has sent its event to all detectors holds nothing any more. -/
theorem Conserved.sent (conserved : Conserved cfg puts p) {i : Nat} {e : SpyEvent}
    (stands : p.receivers[i]? = some (.sending e [])) :
    Conserved cfg puts { p with receivers := p.receivers.set i .idle } where
  -- The receiver has passed its event on to all detectors, and holds nothing more.
  lines := fun d => by
    have kept := contents_keep (fun w : ReceiverWorker => mine d w.held) .idle stands rfl
    have before := conserved.lines d
    simpa [Pipeline.line, Pipeline.Single, kept] using before
  left := fun e left member => by
    rcases List.mem_or_eq_of_mem_set member with old | new
    · exact conserved.left e left old
    · cases new
  queued := conserved.queued
  made := conserved.made
  told := conserved.told
  unused := conserved.unused

/-- Nothing is passed to the aggregator, so a dump reports nothing. -/
theorem Conserved.dump (conserved : Conserved cfg puts p) {order : DumpOrder}
    {aggregator : DefaultAggregator} {dumped : List Dumped}
    (reports : p.aggregator.dump order = some (aggregator, dumped)) :
    dumped = [] ∧ aggregator.aggregatorMap = ∅ := by
  -- There is no recorder to visit.
  obtain ⟨lists, visited, same⟩ := Option.map_eq_some_iff.mp reports
  obtain ⟨rfl, rfl⟩ := Prod.mk.inj same
  simp only [conserved.unused, Assoc.range_empty, List.mapM_nil] at visited
  obtain rfl : [] = lists := Option.some.inj visited
  exact ⟨rfl, by rw [conserved.unused]; rfl⟩

/-- A step keeps every event that was put in, the one that it puts in included. -/
theorem Conserved.step (created : createPipeline env eventChSize eventChanSize = some cfg)
    {past : List PipelineAction} (conserved : Conserved cfg (putEvents past) p)
    {action : PipelineAction} (stepped : p.step cfg action = some p') :
    Conserved cfg (putEvents (past ++ [action])) p' := by
  have puts : putEvents (past ++ [action]) = putEvents past ++ putEvents [action] :=
    List.filterMap_append ..
  rw [puts]
  -- Most steps put nothing in.
  have nothing : putEvents past ++ [] = putEvents past := List.append_nil _
  cases action with
  | startReceiver =>
    obtain rfl := Option.some.inj stepped
    exact nothing.symm ▸ conserved.startReceiver
  | startDetector d =>
    obtain rfl := Option.some.inj stepped
    exact nothing.symm ▸ conserved.startDetector d
  | put e =>
    simp only [Pipeline.step] at stepped
    split at stepped
    · obtain rfl := Option.some.inj stepped
      exact conserved.push e
    · cases stepped
  | putTo e i =>
    simp only [Pipeline.step] at stepped
    split at stepped
    · exact (conserved.push e).receive created stepped
    · cases stepped
  | receive i => exact nothing.symm ▸ conserved.receive created stepped
  | consumeEvent i =>
    obtain ⟨d, _, stepped⟩ := Option.bind_eq_some_iff.mp stepped
    split at stepped
    · exact nothing.symm ▸ conserved.consumeEvent created stepped
    · cases stepped
  | consumeEventTo i j =>
    obtain ⟨d, _, stepped⟩ := Option.bind_eq_some_iff.mp stepped
    split at stepped
    · obtain ⟨between, sent, taken⟩ := Option.bind_eq_some_iff.mp stepped
      exact nothing.symm ▸ (conserved.consumeEvent created sent).take taken
    · cases stepped
  | sent i =>
    simp only [Pipeline.step] at stepped
    split at stepped
    · rename_i e stands
      obtain rfl := Option.some.inj stepped
      exact nothing.symm ▸ conserved.sent stands
    · cases stepped
  | take d j => exact nothing.symm ▸ conserved.take stepped
  | processEvent d j => exact nothing.symm ▸ conserved.processEvent stepped
  | consume d j => exact nothing.symm ▸ conserved.consume created stepped
  | uploadTries endTimeTruncated order =>
    obtain ⟨cpu, _, rfl⟩ := Option.map_eq_some_iff.mp stepped
    obtain ⟨lines, left, queued, made, told, unused⟩ := conserved
    exact nothing.symm ▸ ⟨lines, left, queued, made, told, unused⟩
  | dump order =>
    obtain ⟨⟨aggregator, dumped⟩, reports, rfl⟩ := Option.map_eq_some_iff.mp stepped
    obtain ⟨rfl, unused⟩ := conserved.dump reports
    obtain ⟨lines, left, queued, made, told, _⟩ := conserved
    refine nothing.symm ▸ ⟨?_, left, queued, made, ?_, unused⟩
    · simpa [Pipeline.line, Pipeline.Single] using lines
    · simpa using told

/-- A pipeline that nothing was put into holds nothing. -/
theorem conserved_new (cfg : PipelineConfig) (cpu : CpuDetector) (kindMap : KindMap) :
    Conserved cfg [] (Pipeline.new cpu kindMap) where
  lines := fun d => .of_eq rfl
  left := by simp [Pipeline.new]
  queued := by simp [Pipeline.new, contents]
  made := by simp [Pipeline.new]
  told := by simp [Pipeline.new]
  unused := rfl

end Operations

/-- The events that make a record, in their order. -/
def tracked (events : List SpyEvent) : List SpyEvent := events.filter fun e => Tracked e

/-- All detectors of the application. -/
def allDetectors : List DetectorType := [.cpu, .io, .net, .mem]

/-- Every event that makes a record has exactly one owner. -/
theorem tracked_mine (events : List SpyEvent) :
    (tracked events : Multiset SpyEvent) =
      (allDetectors.map fun d => (mine d events : Multiset SpyEvent)).sum := by
  -- The names say which of the two detectors that own events it is.
  have table : ∀ name ∈ trackedNames,
      (name ∈ DetectorType.cpu.ownedEvents ∧ name ∉ DetectorType.mem.ownedEvents) ∨
      (name ∉ DetectorType.cpu.ownedEvents ∧ name ∈ DetectorType.mem.ownedEvents) := by decide
  induction events with
  | nil => rfl
  | cons e rest ih =>
    have io : ∀ events, mine .io events = [] := fun events =>
      List.filter_eq_nil_iff.mpr fun x _ => by simp [Owned, DetectorType.ownedEvents]
    have net : ∀ events, mine .net events = [] := fun events =>
      List.filter_eq_nil_iff.mpr fun x _ => by simp [Owned, DetectorType.ownedEvents]
    simp only [allDetectors, List.map_cons, List.map_nil, List.sum_cons, List.sum_nil, io, net,
      Multiset.coe_nil, zero_add, add_zero] at ih ⊢
    by_cases follows : Tracked e
    · rcases table e.name follows.2 with ⟨owner, other⟩ | ⟨other, owner⟩
      · simp only [tracked, mine, List.filter_cons, follows, Owned, owner, other, and_self,
          and_false, decide_true, decide_false, if_true, Bool.false_eq_true, if_false,
          ← Multiset.cons_coe] at ih ⊢
        rw [ih, Multiset.cons_add]
      · simp only [tracked, mine, List.filter_cons, follows, Owned, owner, other, and_self,
          and_false, decide_true, decide_false, if_true, Bool.false_eq_true, if_false,
          ← Multiset.cons_coe] at ih ⊢
        rw [ih, Multiset.add_cons]
    · simpa [tracked, mine, follows, Owned] using ih

/-- What the workers hold of a detector's events is the detector's part of what they hold. -/
theorem mine_contents {ω : Type} (d : DetectorType) (held : ω → List SpyEvent) (pool : List ω) :
    contents (fun w => mine d (held w)) pool = mine d (contents held pool) := by
  -- Picking events goes through what each worker holds.
  simp only [contents, mine, List.filter_flatMap]

/--
Every event put on the receiver's channel that makes a record is in exactly one place.

It waits in the receiver's channel, is held by a worker of the receiver, is in the channel or with a
worker of its owner, or was passed once to the exporter as a record of its name; and with one worker
each the exporter sees the events of a detector in the order in which they were put in.
-/
theorem Pipeline.conserves (env : External) (eventChSize : Nat)
    (eventChanSize : DetectorType → Nat) (cfg : PipelineConfig)
    (created : createPipeline env eventChSize eventChanSize = some cfg) (cpu : CpuDetector)
    (kindMap : KindMap) (actions : List PipelineAction) (p : Pipeline)
    (ran : run (Pipeline.step cfg) (Pipeline.new cpu kindMap) actions = some p) :
    (tracked (putEvents actions) : Multiset SpyEvent) =
        tracked p.eventCh + tracked (contents ReceiverWorker.held p.receivers) +
          (allDetectors.map fun d => (mine d (p.eventChan d) : Multiset SpyEvent) +
            mine d (contents DetectorWorker.held (p.workers d))).sum +
          tracked (exportedEvents p.exported) ∧
      (∀ d, ∀ e ∈ p.eventChan d ++ contents DetectorWorker.held (p.workers d),
        Tracked e → Owned d e) ∧
      (∀ x ∈ p.exported, ∃ e d, x.source = some e ∧ Made env d e x.block ∧
        (Tracked e → Owned d e ∧ x.block.name = e.name)) ∧
      ∀ d, p.Single d → mine d (exportedEvents p.exported) <+: mine d (putEvents actions) := by
  -- The invariant is carried along the run, and then read place by place.
  have conserved : Conserved cfg (putEvents actions) p := run_history
    (fun past p => Conserved cfg (putEvents past) p) (conserved_new cfg cpu kindMap)
    (fun past p action p' carried stepped => carried.step created stepped) ran
  have sameEnv : cfg.env = env := by
    obtain ⟨manager, _, rfl⟩ := Option.map_eq_some_iff.mp created
    rfl
  refine ⟨?_, ?_, ?_, ?_⟩
  · -- The lines of the detectors are added up place by place.
    have lines : ∀ d, (mine d (putEvents actions) : Multiset SpyEvent) = p.line d := fun d =>
      (Multiset.coe_eq_coe.mpr (conserved.lines d).perm).symm
    simp only [tracked_mine, lines, Pipeline.line, mine_contents, allDetectors, List.map_cons,
      List.map_nil, List.sum_cons, List.sum_nil, ← Multiset.coe_add]
    abel
  · intro d e member follows
    exact detectors_owned created follows (conserved.queued d e member)
  · intro x member
    obtain ⟨e, d, source, made, sent⟩ := conserved.told x member
    refine ⟨e, d, source, sameEnv ▸ made, ?_⟩
    intro follows
    have owned := detectors_owned created follows sent
    exact ⟨owned, (owned_made owned made).1⟩
  · -- With one worker each, what the exporter was given is the front of the line.
    intro d single
    rw [← (conserved.lines d).same single]
    exact List.prefix_append ..

/-- An environment that finds nothing. -/
def quietExternal : External where
  addSuffix := fun _ _ => ""
  bootTime := fun _ => []
  parseHost := fun _ => none

/-- A system call that took seven microseconds. -/
def syscallEvent : SpyEvent where
  name := Model.syscall
  timeStamp := 1
  cls := { name := "", event := Model.syscall }
  task := { pid := 1, tid := 1, comm := [97] }
  userAttributes := [.ofUint64 "dur_us" 7]
  bounded := by decide

/-- One event on its way to the exporter, with one worker each. -/
def oneEvent : List PipelineAction :=
  [.startReceiver, .startDetector .cpu, .put syscallEvent, .receive 0, .consumeEvent 0, .sent 0,
    .take .cpu 0, .processEvent .cpu 0, .consume .cpu 0]

/-- An event that went all the way was passed to the exporter and is nowhere else. -/
theorem Pipeline.conserves_one_event :
    ∃ cfg p, createPipeline quietExternal 1 (fun _ => 1) = some cfg ∧
      run (Pipeline.step cfg) (Pipeline.new .new ∅) oneEvent = some p ∧
      p.exported.length = 1 ∧
      mine .cpu (exportedEvents p.exported) <+: mine .cpu (putEvents oneEvent) :=
  -- There is one receiver and one worker, so the order is kept too.
  ⟨_, _, rfl, rfl, rfl, (Pipeline.conserves quietExternal 1 (fun _ => 1) _ rfl .new ∅ oneEvent _
    rfl).2.2.2 .cpu ⟨by decide, by decide⟩⟩

end Spycat
