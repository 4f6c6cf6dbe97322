import Spycat.Proofs.App.Deployment
import Spycat.Proofs.Detector.CpuInit
import Spycat.Proofs.Ebpf.OffcpuLabels
import Spycat.Proofs.Ebpf.OncpuLabels

/-! Samples of the on-CPU profiler, from the counts of the kernel to the rows of the database. -/

namespace Spycat

open Lib

/-- The events of the on-CPU profiler, in their order. -/
def profiled (events : List SpyEvent) : List SpyEvent :=
  events.filter fun e => e.name = Model.onCpu

/-- The events of the profiler are sent by the name that they are processed by. -/
def Routed (events : List SpyEvent) : Prop :=
  ∀ e ∈ events, e.name = Model.onCpu → e.cls.event = Model.onCpu

/-- Where the events of the profiler can be, from the receiver's channel to the exporter. -/
def Pipeline.inside (p : Pipeline) : List SpyEvent :=
  p.eventCh ++ (contents ReceiverWorker.held p.receivers ++
    (p.eventChan .cpu ++ contents DetectorWorker.held (p.workers .cpu)))

/-- The events of the profiler among others, in any order. -/
def profileBag (events : List SpyEvent) : Multiset SpyEvent := profiled events

@[simp] theorem profileBag_append (first second : List SpyEvent) :
    profileBag (first ++ second) = profileBag first + profileBag second := by
  -- Picking the events of the profiler goes through both lists.
  simp [profileBag, profiled]

/-- Events that are moved around are the same ones. -/
theorem profileBag_perm {first second : List SpyEvent} (moved : first.Perm second) :
    profileBag first = profileBag second := Multiset.coe_eq_coe.mpr (moved.filter _)

/-- Events of other tracers are none of the profiler. -/
theorem profileBag_other {events : List SpyEvent} (other : ∀ e ∈ events, e.name ≠ Model.onCpu) :
    profileBag events = 0 := by
  -- None of the events is picked.
  refine congrArg _ (List.filter_eq_nil_iff.mpr fun e member => ?_)
  simpa using other e member

/-- The events of the profiler that are inside or were exported. -/
def Pipeline.profile (p : Pipeline) : Multiset SpyEvent :=
  profileBag p.inside + profileBag (exportedEvents p.exported)

/-- Under the default server every event of the profiler that was put in is there. -/
structure SamplesKept (puts : List SpyEvent) (p : Pipeline) : Prop where
  server : p.cpu.server = defaultServer
  kept : p.profile = profileBag puts

/-- Events that move from some places to others are kept. -/
theorem SamplesKept.moved {puts : List SpyEvent} {p p' : Pipeline} (holds : SamplesKept puts p)
    (server : p'.cpu.server = p.cpu.server) (places rest : Multiset SpyEvent)
    {places' : Multiset SpyEvent} (before : p.profile = places + rest)
    (after : p'.profile = places' + rest) (same : places' = places) : SamplesKept puts p' :=
  -- The events that were moved are as many as before, and the rest stays.
  ⟨server.trans holds.server, by rw [after, same, ← before, holds.kept]⟩

/-- The events of the profiler that are inside or were exported are those that were put in. -/
theorem SamplesKept.perm {puts : List SpyEvent} {p : Pipeline} (holds : SamplesKept puts p) :
    (profiled p.inside ++ profiled (exportedEvents p.exported)).Perm (profiled puts) := by
  -- Two bags are equal exactly as their lists are permutations.
  have kept := holds.kept
  rw [Pipeline.profile, profileBag, profileBag, profileBag, Multiset.coe_add] at kept
  exact Multiset.coe_eq_coe.mp kept

/-- An event of the profiler that is inside was put in. -/
theorem SamplesKept.put_in {puts : List SpyEvent} {p : Pipeline} (holds : SamplesKept puts p)
    {e : SpyEvent} (member : e ∈ p.inside) (own : e.name = Model.onCpu) : e ∈ puts := by
  -- An event in the pipeline is among those that are kept, which are those put in.
  have inside : e ∈ profiled p.inside := List.mem_filter.mpr ⟨member, by simpa using own⟩
  have among := holds.perm.mem_iff.mp (List.mem_append_left _ inside)
  exact (List.mem_filter.mp among).1

section Operations

variable {env : External} {eventChSize : Nat} {eventChanSize : DetectorType → Nat}
  {cfg : PipelineConfig} {puts : List SpyEvent} {p p' : Pipeline}

/-- Events of the profiler are sent to the CPU detector alone. -/
theorem profiler_detectors (created : createPipeline env eventChSize eventChanSize = some cfg) :
    cfg.manager.getDetectors Model.onCpu = [.cpu] := by
  -- The table of the manager is computed once.
  have table : ∀ manager ∈ DetectorManager.new [.cpu, .io, .net, .mem],
      manager.getDetectors Model.onCpu = [.cpu] := by decide
  obtain ⟨manager, made, rfl⟩ := Option.map_eq_some_iff.mp created
  exact table manager made

/-- An event that a worker of the receiver takes stays inside. -/
theorem SamplesKept.receive (created : createPipeline env eventChSize eventChanSize = some cfg)
    (routed : Routed puts) (holds : SamplesKept puts p) {i : Nat}
    (received : p.receive cfg i = some p') : SamplesKept puts p' := by
  -- The worker holds the event once, as there is one detector for it.
  unfold Pipeline.receive at received
  split at received
  · rename_i e rest waiting stands
    obtain rfl := Option.some.inj received
    have once : profileBag (ReceiverWorker.sending e
        (cfg.manager.getDetectors e.cls.event)).held = profileBag [e] := by
      by_cases own : e.name = Model.onCpu
      · have put : e ∈ puts := holds.put_in (by simp [Pipeline.inside, waiting]) own
        rw [routed e put own, profiler_detectors created]
        rfl
      · rw [profileBag_other (by simp [ReceiverWorker.held, own]),
          profileBag_other (by simp [own])]
    have taken := profileBag_perm (contents_take ReceiverWorker.held
      (.sending e (cfg.manager.getDetectors e.cls.event)) stands rfl rest).perm
    rw [profileBag_append, profileBag_append, profileBag_append, once, ← profileBag_append [e],
      List.singleton_append, ← waiting] at taken
    refine holds.moved rfl _ (profileBag (p.eventChan .cpu) +
      profileBag (contents DetectorWorker.held (p.workers .cpu)) +
        profileBag (exportedEvents p.exported)) ?_ ?_ taken
    · simp only [Pipeline.profile, Pipeline.inside, profileBag_append]
      abel
    · simp only [Pipeline.profile, Pipeline.inside, profileBag_append]
      abel
  · cases received

/-- An event that a worker of the receiver sends on stays inside. -/
theorem SamplesKept.consumeEvent
    (created : createPipeline env eventChSize eventChanSize = some cfg)
    (routed : Routed puts) (conserved : Conserved cfg puts p) (holds : SamplesKept puts p) {i : Nat}
    (sent : p.consumeEvent i = some p') : SamplesKept puts p' := by
  -- The event leaves the worker for the channel of the detector.
  unfold Pipeline.consumeEvent at sent
  split at sent
  · rename_i e target left stands
    obtain rfl := Option.some.inj sent
    have put := profileBag_perm (contents_put ReceiverWorker.held (.sending e left) stands [e] rfl
      (p.eventChan .cpu)).perm
    rw [profileBag_append, profileBag_append, profileBag_append] at put
    have arrives : profileBag ((if target.queues then Function.update p.eventChan target
          (p.eventChan target ++ [e]) else p.eventChan) .cpu) =
        profileBag (p.eventChan .cpu) + profileBag [e] := by
      by_cases own : e.name = Model.onCpu
      · -- The one detector that it is sent to is the CPU detector.
        have member : e ∈ p.inside := List.mem_append_right _ (List.mem_append_left _
          (mem_contents ReceiverWorker.held stands (by simp [ReceiverWorker.held])))
        have listed := (conserved.left e (target :: left) (List.mem_of_getElem? stands)).subset
          List.mem_cons_self
        rw [routed e (holds.put_in member own) own, profiler_detectors created,
          List.mem_singleton] at listed
        subst listed
        rw [show DetectorType.cpu.queues = true from rfl, if_pos rfl, Function.update_self,
          profileBag_append]
      · have none_ : profileBag [e] = 0 := profileBag_other (by simp [own])
        rw [none_, add_zero]
        split
        · by_cases same : target = .cpu
          · subst same
            rw [Function.update_self, profileBag_append, none_, add_zero]
          · rw [Function.update_of_ne (Ne.symm same)]
        · rfl
    refine holds.moved rfl _ (profileBag p.eventCh +
      profileBag (contents DetectorWorker.held (p.workers .cpu)) +
        profileBag (exportedEvents p.exported)) ?_ ?_ put
    · simp only [Pipeline.profile, Pipeline.inside, profileBag_append]
      abel
    · simp only [Pipeline.profile, Pipeline.inside, profileBag_append, arrives]
      abel
  · cases sent

/-- An event that a worker of a detector takes stays inside. -/
theorem SamplesKept.take (holds : SamplesKept puts p) {target : DetectorType} {j : Nat}
    (taken : p.take target j = some p') : SamplesKept puts p' := by
  -- The first event of the channel becomes one that the worker holds.
  unfold Pipeline.take at taken
  split at taken
  · rename_i e rest waiting stands
    obtain rfl := Option.some.inj taken
    by_cases cpu : target = .cpu
    · subst cpu
      have moved := profileBag_perm (contents_take DetectorWorker.held (.holding e) stands rfl
        rest).perm
      have first : profileBag (DetectorWorker.holding e).held + profileBag rest =
          profileBag (p.eventChan .cpu) := by
        rw [waiting, ← profileBag_append]
        rfl
      rw [profileBag_append, profileBag_append, profileBag_append, first] at moved
      refine holds.moved rfl _ (profileBag p.eventCh +
        profileBag (contents ReceiverWorker.held p.receivers) +
          profileBag (exportedEvents p.exported)) ?_ ?_ moved
      · simp only [Pipeline.profile, Pipeline.inside, profileBag_append]
        abel
      · simp only [Pipeline.profile, Pipeline.inside, profileBag_append, Function.update_self]
        abel
    · refine ⟨holds.server, ?_⟩
      rw [← holds.kept]
      simp only [Pipeline.profile, Pipeline.inside, Function.update_of_ne (Ne.symm cpu)]
  · cases taken

/-- What a detector makes of an event of the profiler does not change the server. -/
theorem processEvent_keeps_server {d : DetectorType} {c c' : CpuDetector} {e : SpyEvent}
    {block : Option DataBlock} (processed : d.processEvent env c e = some (c', block)) :
    c'.server = c.server := by
  -- Only one detector has a state.
  cases d with
  | cpu => exact CpuDetector.processEvent_server processed
  | mem | io | net =>
    cases processed
    rfl

/-- Under the default server the CPU detector makes a record of an event of the profiler. -/
theorem profiler_recorded {c c' : CpuDetector} (server : c.server = defaultServer) {e : SpyEvent}
    (own : e.name = Model.onCpu) {block : Option DataBlock}
    (processed : c.processEvent env e = some (c', block)) : ∃ made, block = some made := by
  -- Under the default server the handler makes a record.
  rw [CpuDetector.processEvent_oncpu env c own] at processed
  exact Option.isSome_iff_exists.mp ((CpuDetector.oncpuHandler_frame processed).2.2.2.mpr server)

/-- An event of the profiler that is processed stays with its worker. -/
theorem SamplesKept.processEvent (holds : SamplesKept puts p) {target : DetectorType} {j : Nat}
    (processed : p.processEvent cfg target j = some p') : SamplesKept puts p' := by
  -- An event of the profiler becomes a record, which its worker holds.
  unfold Pipeline.processEvent at processed
  split at processed
  · rename_i e stands
    obtain ⟨⟨cpu, dataBlock⟩, done, rfl⟩ := Option.map_eq_some_iff.mp processed
    have server := processEvent_keeps_server done
    refine ⟨server.trans holds.server, ?_⟩
    rw [← holds.kept]
    by_cases same : target = .cpu
    · subst same
      have held : profileBag (DetectorWorker.processed e dataBlock).held = profileBag [e] := by
        by_cases own : e.name = Model.onCpu
        · obtain ⟨made, rfl⟩ := profiler_recorded holds.server own done
          rfl
        · have none_ : profileBag [e] = 0 := profileBag_other (by simp [own])
          rw [none_]
          cases dataBlock with
          | none => rfl
          | some made => exact none_
      obtain ⟨before, after, now, changed, _⟩ := contents_set DetectorWorker.held stands
      have worker : profileBag (contents DetectorWorker.held
            ((p.workers .cpu).set j (.processed e dataBlock))) =
          profileBag (contents DetectorWorker.held (p.workers .cpu)) := by
        rw [now, changed]
        simp only [profileBag_append, held]
        rfl
      simp only [Pipeline.profile, Pipeline.inside, profileBag_append, Function.update_self, worker]
    · simp only [Pipeline.profile, Pipeline.inside, Function.update_of_ne (Ne.symm same)]
  · cases processed

/-- Only the CPU detector makes records of events of the profiler. -/
theorem made_profiled {d : DetectorType} {e : SpyEvent} {block : DataBlock}
    (made : Made env d e block) (own : e.name = Model.onCpu) :
    d = .cpu ∧ DefaultProcessor.consume block = some block := by
  -- No other detector makes a record of such an event, and the processor lets it pass.
  obtain ⟨named, -⟩ := made_named made
  obtain ⟨cpu, cpu', processed⟩ := made
  refine ⟨?_, if_pos ?_⟩
  · cases d with
    | cpu => rfl
    | mem =>
      have other : e.name ≠ Model.cacheStat := by
        rw [own]
        decide
      simp [DetectorType.processEvent, MemDetector.processEvent, other] at processed
    | io | net => cases processed
  · rw [named, own]
    decide

/-- A record of an event of the profiler takes it to the exporter. -/
theorem SamplesKept.consume (conserved : Conserved cfg puts p) (holds : SamplesKept puts p)
    {target : DetectorType} {j : Nat} (consumed : p.consume target j = some p') :
    SamplesKept puts p' := by
  -- The event leaves the worker together with its record.
  unfold Pipeline.consume at consumed
  split at consumed
  · rename_i e dataBlock stands
    obtain rfl := Option.some.inj consumed
    have made := conserved.made target e dataBlock (List.mem_of_getElem? stands)
    have passes : profileBag (exportedEvents (p.exported ++
        ((DefaultProcessor.consume dataBlock).map fun block =>
          { source := some e, block := block : Exported }).toList)) =
        profileBag (exportedEvents p.exported) + profileBag [e] := by
      rw [exportedEvents, List.filterMap_append, profileBag_append]
      refine congrArg _ ?_
      by_cases own : e.name = Model.onCpu
      · rw [(made_profiled made own).2]
        rfl
      · have none_ : profileBag [e] = 0 := profileBag_other (by simp [own])
        rw [none_]
        refine profileBag_other fun x member => ?_
        obtain ⟨exported, listed, source⟩ := List.mem_filterMap.mp member
        obtain ⟨block, _, rfl⟩ := Option.map_eq_some_iff.mp (Option.mem_toList.mp listed)
        obtain rfl := Option.some.inj source
        exact own
    by_cases same : target = .cpu
    · subst same
      have put := profileBag_perm (contents_put DetectorWorker.held .idle stands [e] rfl
        (exportedEvents p.exported)).perm
      rw [profileBag_append, profileBag_append, profileBag_append] at put
      refine holds.moved rfl _ (profileBag p.eventCh +
        profileBag (contents ReceiverWorker.held p.receivers) +
          profileBag (p.eventChan .cpu)) ?_ ?_ put
      · simp only [Pipeline.profile, Pipeline.inside, profileBag_append]
        abel
      · simp only [Pipeline.profile, Pipeline.inside, profileBag_append, Function.update_self,
          passes]
        abel
    · -- Another detector has no record of an event of the profiler.
      have other : profileBag [e] = 0 := by
        refine profileBag_other fun x member own => same ?_
        obtain rfl := List.mem_singleton.mp member
        exact (made_profiled made own).1
      refine ⟨holds.server, ?_⟩
      rw [← holds.kept]
      simp only [Pipeline.profile, Pipeline.inside, passes, other, add_zero,
        Function.update_of_ne (Ne.symm same)]
  · cases consumed

/-- An event that is put on the channel is inside. -/
theorem SamplesKept.push (holds : SamplesKept puts p) (e : SpyEvent) :
    SamplesKept (puts ++ [e]) (p.push e) where
  -- The event is one more that was put in, and one more in the channel.
  server := holds.server
  kept := by
    rw [profileBag_append, ← holds.kept]
    simp only [Pipeline.profile, Pipeline.inside, Pipeline.push, profileBag_append]
    abel

/-- A worker that holds nothing before and after leaves everything in its place. -/
theorem SamplesKept.receivers (holds : SamplesKept puts p) {receivers : List ReceiverWorker}
    (same : contents ReceiverWorker.held receivers = contents ReceiverWorker.held p.receivers) :
    SamplesKept puts { p with receivers := receivers } := by
  -- Only the receivers' events count, and they are the same.
  refine ⟨holds.server, ?_⟩
  rw [← holds.kept]
  simp only [Pipeline.profile, Pipeline.inside, same]

/-- A worker of a detector that is started holds nothing yet. -/
theorem SamplesKept.startDetector (holds : SamplesKept puts p) (target : DetectorType) :
    SamplesKept puts
      { p with workers := Function.update p.workers target (p.workers target ++ [.idle]) } := by
  -- The new worker holds nothing.
  refine ⟨holds.server, ?_⟩
  rw [← holds.kept]
  by_cases same : target = .cpu
  · subst same
    have grown := contents_append DetectorWorker.held (p.workers .cpu) (w := .idle) rfl
    simp only [Pipeline.profile, Pipeline.inside, Function.update_self, grown]
  · simp only [Pipeline.profile, Pipeline.inside, Function.update_of_ne (Ne.symm same)]

end Operations

namespace CpuDetector

variable {env : External} {endTime : Time}

/-- Handing a trie over does not change the server. -/
theorem uploadTrie_server {c c' : CpuDetector} {t : Trie}
    (uploaded : uploadTrie env endTime c t = some c') : c'.server = c.server := by
  -- Only the jobs change, or nothing.
  unfold uploadTrie at uploaded
  split at uploaded
  · obtain ⟨_, _, rfl⟩ := Option.map_eq_some_iff.mp uploaded
    rfl
  · cases uploaded
    rfl

/-- Handing the tries of an application over does not change the server. -/
theorem uploadArray_server {c c' : CpuDetector} {tarr tarr' : List (Option Trie)}
    (uploaded : uploadArray env endTime c tarr = some (c', tarr')) : c'.server = c.server := by
  -- One trie is handed over after the other.
  induction tarr generalizing c tarr' with
  | nil =>
    cases uploaded
    rfl
  | cons first rest ih =>
    cases first with
    | none =>
      obtain ⟨⟨next, left⟩, further, same⟩ := Option.map_eq_some_iff.mp uploaded
      cases same
      exact ih further
    | some t =>
      obtain ⟨next, handed, uploaded⟩ := Option.bind_eq_some_iff.mp uploaded
      obtain ⟨⟨last, left⟩, further, same⟩ := Option.map_eq_some_iff.mp uploaded
      cases same
      exact (ih further).trans (uploadTrie_server handed)

/-- Replacing the tries of an application does not change the server. -/
theorem uploadApp_server {c c' : CpuDetector} {name : String}
    (uploaded : uploadApp env endTime c name = some c') : c'.server = c.server := by
  -- Only the tries of one name and the jobs change.
  unfold uploadApp at uploaded
  split at uploaded
  · cases uploaded
    rfl
  · obtain ⟨⟨next, tarr⟩, handed, same⟩ := Option.map_eq_some_iff.mp uploaded
    cases same
    have kept := uploadArray_server handed
    exact kept

/-- A tick of the uploader does not change the server. -/
theorem uploadTries_server {order : RangeOrder String} {c c' : CpuDetector}
    (uploaded : uploadTries env order c endTime = some c') : c'.server = c.server := by
  obtain ⟨next, handed, rfl⟩ := Option.map_eq_some_iff.mp uploaded
  split at handed
  · -- One application comes after the other.
    have all : ∀ (names : List String) (c : CpuDetector),
        names.foldlM (uploadApp env endTime) c = some next → next.server = c.server := by
      intro names
      induction names with
      | nil =>
        intro c handed
        cases handed
        rfl
      | cons name rest ih =>
        intro c handed
        rw [List.foldlM_cons] at handed
        obtain ⟨between, first, handed⟩ := Option.bind_eq_some_iff.mp handed
        exact (ih between handed).trans (uploadApp_server first)
    exact all _ c handed
  · cases handed
    rfl

end CpuDetector

section Runs

variable {env : External} {eventChSize : Nat} {eventChanSize : DetectorType → Nat}
  {cfg : PipelineConfig} {p p' : Pipeline} {ι κ : Type}

/-- A step keeps the events of the profiler, the one that it puts in included. -/
theorem SamplesKept.step (created : createPipeline env eventChSize eventChanSize = some cfg)
    {past : List PipelineAction} {action : PipelineAction}
    (routed : Routed (putEvents (past ++ [action])))
    (conserved : Conserved cfg (putEvents past) p) (holds : SamplesKept (putEvents past) p)
    (stepped : p.step cfg action = some p') :
    SamplesKept (putEvents (past ++ [action])) p' := by
  have puts : putEvents (past ++ [action]) = putEvents past ++ putEvents [action] :=
    List.filterMap_append ..
  rw [puts] at routed ⊢
  -- Most steps put nothing in.
  have nothing : putEvents past ++ [] = putEvents past := List.append_nil _
  have before : Routed (putEvents past) := fun e member => routed e (List.mem_append_left _ member)
  cases action with
  | startReceiver =>
    obtain rfl := Option.some.inj stepped
    have grown := contents_append ReceiverWorker.held p.receivers (w := .idle) rfl
    exact nothing.symm ▸ holds.receivers grown
  | startDetector d =>
    obtain rfl := Option.some.inj stepped
    exact nothing.symm ▸ holds.startDetector d
  | put e =>
    simp only [Pipeline.step] at stepped
    split at stepped
    · obtain rfl := Option.some.inj stepped
      exact holds.push e
    · cases stepped
  | putTo e i =>
    simp only [Pipeline.step] at stepped
    split at stepped
    · exact (holds.push e).receive created routed stepped
    · cases stepped
  | receive i => exact nothing.symm ▸ holds.receive created before stepped
  | consumeEvent i =>
    obtain ⟨d, _, stepped⟩ := Option.bind_eq_some_iff.mp stepped
    split at stepped
    · exact nothing.symm ▸ holds.consumeEvent created before conserved stepped
    · cases stepped
  | consumeEventTo i j =>
    obtain ⟨d, _, stepped⟩ := Option.bind_eq_some_iff.mp stepped
    split at stepped
    · obtain ⟨between, sent, taken⟩ := Option.bind_eq_some_iff.mp stepped
      exact nothing.symm ▸ (holds.consumeEvent created before conserved sent).take taken
    · cases stepped
  | sent i =>
    simp only [Pipeline.step] at stepped
    split at stepped
    · rename_i e stands
      obtain rfl := Option.some.inj stepped
      exact nothing.symm ▸ holds.receivers (contents_keep _ .idle stands rfl)
    · cases stepped
  | take d j => exact nothing.symm ▸ holds.take stepped
  | processEvent d j => exact nothing.symm ▸ holds.processEvent stepped
  | consume d j => exact nothing.symm ▸ holds.consume conserved stepped
  | uploadTries endTimeTruncated order =>
    obtain ⟨cpu, uploaded, rfl⟩ := Option.map_eq_some_iff.mp stepped
    have server := CpuDetector.uploadTries_server uploaded
    exact nothing.symm ▸ ⟨server.trans holds.server, holds.kept⟩
  | dump order =>
    obtain ⟨⟨aggregator, dumped⟩, reports, rfl⟩ := Option.map_eq_some_iff.mp stepped
    obtain ⟨rfl, _⟩ := conserved.dump reports
    refine nothing.symm ▸ ⟨holds.server, ?_⟩
    rw [← holds.kept]
    simp [Pipeline.profile, Pipeline.inside]

namespace Deployment

/-- No step of a deployment loses an event of the profiler. -/
theorem samplesKept_run {backend : Backend ι κ}
    (created : createPipeline env eventChSize eventChanSize = some cfg) {cpu : CpuDetector}
    (server : cpu.server = defaultServer) {kindMap : KindMap} {limit : Int}
    {actions : List (DeploymentAction κ)} {s : Deployment ι κ}
    (ran : run (step backend cfg) (new cpu kindMap limit) actions = some s)
    (routed : Routed (putEvents (pipelineActions actions))) :
    SamplesKept (putEvents (pipelineActions actions)) s.pipeline := by
  -- The accounts of the run say where an event was sent.
  have carried : Accounts backend cfg limit actions s ∧
      (Routed (putEvents (pipelineActions actions)) →
        SamplesKept (putEvents (pipelineActions actions)) s.pipeline) := by
    refine run_history (fun past state => Accounts backend cfg limit past state ∧
      (Routed (putEvents (pipelineActions past)) →
        SamplesKept (putEvents (pipelineActions past)) state.pipeline))
      ⟨accounts_new .., fun _ => ⟨server, rfl⟩⟩ ?_ ran
    intro past state action next ⟨accounts, holds⟩ stepped
    refine ⟨accounts.step created stepped, fun routed => ?_⟩
    cases action with
    | pipeline action now =>
      have more : pipelineActions (past ++ [.pipeline action now]) =
          pipelineActions past ++ [action] := by simp [pipelineActions]
      rw [more] at routed ⊢
      have before : Routed (putEvents (pipelineActions past)) := fun e member =>
        routed e (by
          rw [putEvents, List.filterMap_append]
          exact List.mem_append_left _ member)
      obtain ⟨pipeline, moved, rest⟩ := Option.bind_eq_some_iff.mp stepped
      obtain ⟨exporter, _, rfl⟩ := Option.map_eq_some_iff.mp rest
      exact (holds before).step created routed accounts.conserved moved
    | newItem succeeds | timer succeeds =>
      rw [pipelineActions_quiet rfl] at routed ⊢
      rw [loop_pipeline stepped]
      exact holds routed
  exact carried.2 routed

end Deployment

end Runs

/-- The samples that a row counts, if it is one of the profiler. -/
def Sqlite.Item.samples : Sqlite.Item → Nat
  | .oncpu row => row.count.toNat
  | _ => 0

namespace Oncpu

open Deployment

variable {machine : Machine} {args : ProfileBssArgs} {sampleRate : UInt32}
  {hooks : List OncpuAction} {o : OncpuSession} {e : SpyEvent}

/-- An event of a session is sent by the name that it is processed by. -/
theorem sent_named
    (ran : run (OncpuSession.step machine) (OncpuSession.start args sampleRate) hooks = some o)
    (sent : e ∈ o.sent) : e.name = Model.onCpu ∧ e.cls.event = Model.onCpu := by
  -- Every event was made by one round, which names it.
  obtain ⟨entry, sending, it, from_⟩ := sentFor_of_run machine args sampleRate hooks o ran e sent
  obtain ⟨now, made⟩ := from_.made
  obtain ⟨_, _, made⟩ := Option.bind_eq_some_iff.mp made
  obtain ⟨_, _, rfl⟩ := Option.map_eq_some_iff.mp made
  exact ⟨rfl, rfl⟩

/-- The row of an event counts the samples of the event. -/
theorem samples_of_row
    (ran : run (OncpuSession.step machine) (OncpuSession.start args sampleRate) hooks = some o)
    (sent : e ∈ o.sent) {env : External} {row : Sqlite.Item} (stands : RowOf env e row) :
    row.samples = (e.getUintUserAttribute "count").toNat := by
  -- The count is the label of the record that the column is read from.
  obtain ⟨entry, sending, it, from_⟩ := sentFor_of_run machine args sampleRate hooks o ran e sent
  obtain ⟨now, made⟩ := from_.made
  obtain ⟨task, attributes⟩ := eventOf_sent made
  obtain ⟨d, block, recorded, consumed⟩ := stands
  have own := (sent_named ran sent).1
  obtain ⟨rfl, _⟩ := made_profiled recorded own
  obtain ⟨cpu, cpu', processed⟩ := recorded
  have handled := (CpuDetector.processEvent_oncpu env cpu own).symm.trans processed
  have block_eq := oncpuHandler_block attributes task handled
  have counted : e.getUintUserAttribute "count" = it.count.toUInt64 := by
    simp [SpyEvent.getUintUserAttribute, SpyEvent.getUserAttribute, attributes, attributesOf]
  have named : block.name = Model.onCpu := by
    rw [block_eq]
    rfl
  rw [Sqlite.consume, named, if_neg (by decide), if_pos rfl] at consumed
  obtain rfl := Option.some.inj consumed
  have column : Sqlite.uintLabel block.labels Model.count = it.count := by
    rw [block_eq]
    exact (Sqlite.uintLabel_stored rfl).trans (UInt32.toUInt32_toUInt64 _)
  rw [counted, Sqlite.Item.samples, column]
  simp

/-- What events count together is what the parts of a list of them count. -/
theorem sentTotal_append (first second : List SpyEvent) :
    sentTotal (first ++ second) = sentTotal first + sentTotal second := by
  -- The sum goes over both lists.
  simp [sentTotal]

/-- The rows of events count together what the events count. -/
theorem samples_of_rows
    (ran : run (OncpuSession.step machine) (OncpuSession.start args sampleRate) hooks = some o)
    {env : External} {events : List SpyEvent} {rows : List (Sqlite.Item × Fate)}
    (stand : List.Forall₂ (fun e row => RowOf env e row.1) events rows)
    (sent : ∀ e ∈ events, e ∈ o.sent) :
    (rows.map fun row => row.1.samples).sum = sentTotal events := by
  -- The induction is on the events, each with its own row.
  induction stand with
  | nil => rfl
  | @cons e row events rows stands _ ih =>
    have one := samples_of_row ran (sent e List.mem_cons_self) stands
    have further := ih fun e member => sent e (List.mem_cons_of_mem _ member)
    rw [List.map_cons, List.sum_cons, one, further]
    rfl

/--
Under the default server every sample is counted once on its way from the kernel to the database.

Between rounds a sample is in the counts of the kernel, in an event that waits for the receiver's
channel, in one that is on its way to the exporter, or in one row of the table of the profiler.
-/
theorem samples_stored (machine : Machine) (args : ProfileBssArgs) (sampleRate : UInt32)
    (hooks : List OncpuAction) (settled : Allowed (OncpuSession.step machine) (Settled machine)
      (OncpuSession.start args sampleRate) hooks) (o : OncpuSession)
    (ranHooks : run (OncpuSession.step machine) (OncpuSession.start args sampleRate) hooks =
      some o) (between : o.phase = .idle)
    (env : External) (eventChSize : Nat) (eventChanSize : DetectorType → Nat)
    (cfg : PipelineConfig) (created : createPipeline env eventChSize eventChanSize = some cfg)
    (cpu : CpuDetector) (server : cpu.server = defaultServer) (kindMap : KindMap) (limit : Int)
    (actions : List (DeploymentAction Sqlite.CreateInBatches))
    (s : Deployment (Option Sqlite.Item) Sqlite.CreateInBatches)
    (ran : run (Deployment.step Sqlite.backend cfg) (new cpu kindMap limit) actions = some s)
    (waiting : List SpyEvent)
    (ours : o.sent = profiled (putEvents (pipelineActions actions)) ++ waiting) :
    inMap o.maps.mapCounts + sentTotal waiting + sentTotal (profiled s.pipeline.inside) +
      ((s.rows "ONCPU").map fun row => row.1.samples).sum = sampled args hooks := by
  have balanced : Oncpu.Accounts args hooks o := run_history_allowed (Oncpu.Accounts args)
    (accounts_start args sampleRate)
    (fun past state action next carried settled stepped => carried.step settled stepped)
    settled ranHooks
  -- Between rounds every sample was sent or is in the map.
  have kernel : sentTotal o.sent + inMap o.maps.mapCounts = sampled args hooks := by
    simpa [between, Phase.unsent, Phase.pending, entriesTotal] using balanced.balanced
  have own : ∀ e ∈ profiled (putEvents (pipelineActions actions)), e ∈ o.sent :=
    fun e member => ours ▸ List.mem_append_left _ member
  have routed : Routed (putEvents (pipelineActions actions)) := fun e member named =>
    (sent_named ranHooks (own e (List.mem_filter.mpr ⟨member, by simpa using named⟩))).2
  -- What was sent is waiting, on its way, or was given to the exporter, which made rows of it.
  have kept := (samplesKept_run created server ran routed).perm
  have places : sentTotal (profiled s.pipeline.inside) +
      sentTotal (profiled (exportedEvents s.pipeline.exported)) =
        sentTotal (profiled (putEvents (pipelineActions actions))) := by
    rw [← sentTotal_append]
    exact (kept.map _).sum_eq
  have table := (accounts_run created ran).tableRows created
    (show (Model.onCpu, "ONCPU") ∈ Sqlite.eventTables by decide)
  have rows := samples_of_rows ranHooks table fun e member =>
    own e (kept.mem_iff.mp (List.mem_append_right _ member))
  have total : sentTotal o.sent =
      sentTotal (profiled (putEvents (pipelineActions actions))) + sentTotal waiting := by
    rw [ours, sentTotal_append]
  rw [rows, ← kernel, total, ← places, ← profiled]
  omega

/-- A sample, and a round of the batch call that sends it. -/
def batchRound : List OncpuAction :=
  [.sample plainSample, .reset, .takeKey plainKey, .proceed, .getStack, .getStack, .proceed,
    .send 0, .proceed, .proceed, .proceed]

/-- The event that the round sends. -/
def roundEvent : SpyEvent where
  name := Model.onCpu
  timeStamp := 0
  cls := { name := "", event := Model.onCpu }
  task := { pid := 0, tid := 0, comm := [] }
  userAttributes := [.ofByteBuf "stack" [97, 59], .ofUint32 "count" 1, .ofUint32 "pid" 5,
    .ofByteBuf "comm" [97], .ofUint32 "sampleRate" 99]
  bounded := by decide

/-- The event goes all the way into the database. -/
def oneProfile : List (DeploymentAction Sqlite.CreateInBatches) :=
  [PipelineAction.startReceiver, .startDetector .cpu, .put roundEvent, .receive 0,
    .consumeEvent 0, .sent 0, .take .cpu 0, .processEvent .cpu 0, .consume .cpu 0].map
      (fun action => .pipeline action 0) ++ [.newItem fun _ => true]

/-- A sample that a round has sent is counted by the one row of the table. -/
theorem samples_stored_one_round :
    ∃ o cfg s, run (OncpuSession.step bareMachine) (OncpuSession.start unfiltered 99)
        batchRound = some o ∧
      createPipeline quietExternal 1 (fun _ => 1) = some cfg ∧
      run (Deployment.step Sqlite.backend cfg) (new localDetector ∅ 0) oneProfile = some s ∧
      inMap o.maps.mapCounts + sentTotal [] + sentTotal (profiled s.pipeline.inside) +
        ((s.rows "ONCPU").map fun row => row.1.samples).sum = sampled unfiltered batchRound := by
  have settled : Allowed (OncpuSession.step bareMachine) (Settled bareMachine)
      (OncpuSession.start unfiltered 99) batchRound := by
    constructor
    · -- The maps are empty when the sample comes.
      exact fun _ => ⟨by simp [OncpuSession.start, Phase.pending], fun _ => by decide,
        by simp [OncpuSession.start]⟩
    · -- No other step is a sample or deletes an entry.
      refine fun next _ => allowed_everywhere fun action member state => ?_
      cases action with
      | sample ctx => simp at member
      | deleteKey failed => simp at member
      | _ => trivial
  exact ⟨_, _, _, rfl, rfl, rfl, samples_stored bareMachine unfiltered 99 batchRound
    settled _ rfl rfl quietExternal 1 (fun _ => 1) _ rfl localDetector rfl ∅ 0 oneProfile _ rfl
    [] rfl⟩

end Oncpu

end Spycat
