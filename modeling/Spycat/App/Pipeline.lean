import Spycat.Detector.DetectorManager
import Spycat.Processor.Aggregator

/-! The pipeline from the receiver over the detectors and the processor to the exporter. -/

namespace Spycat

open Lib

/-- What the processor hands on to the exporter as soon as it gets it; other records end there. -/
def DefaultProcessor.consume (data : DataBlock) : Option DataBlock :=
  if data.name ∈ [Model.offCpu, Model.syscall, Model.futexSnoop, Model.onCpu, Model.cacheStat] then
    some data
  else none

/-- A worker of the receiver: it waits, or it sends an event to the detectors that are left. -/
inductive ReceiverWorker where
  | idle
  | sending (e : SpyEvent) (left : List DetectorType)

/-- A worker of a detector: it waits, holds an event, or hands on the record of an event. -/
inductive DetectorWorker where
  | idle
  | holding (e : SpyEvent)
  | handing (e : SpyEvent) (dataBlock : DataBlock)

/-- A worker that has processed its event: it hands the record on, if there is one. -/
def DetectorWorker.processed (e : SpyEvent) : Option DataBlock → DetectorWorker
  | some dataBlock => .handing e dataBlock
  | none => .idle

/-- A record that the exporter was given, and the event it was made of, if it was made of one. -/
structure Exported where
  source : Option SpyEvent
  block : DataBlock

/-- What the pipeline is set up with. -/
structure PipelineConfig where
  env : External
  manager : DetectorManager
  /-- The capacity of the receiver's channel. -/
  eventChSize : Nat
  /-- The capacity of a detector's channel. -/
  eventChanSize : DetectorType → Nat

/-- The set-up of the application: its four detectors, and channels of any capacity. -/
def createPipeline (env : External) (eventChSize : Nat) (eventChanSize : DetectorType → Nat) :
    Option PipelineConfig :=
  (DetectorManager.new [.cpu, .io, .net, .mem]).map fun manager =>
    { env := env
      manager := manager
      eventChSize := eventChSize
      eventChanSize := eventChanSize }

/-- The pipeline with everything on its way. -/
structure Pipeline where
  eventCh : List SpyEvent
  receivers : List ReceiverWorker
  eventChan : DetectorType → List SpyEvent
  workers : DetectorType → List DetectorWorker
  cpu : CpuDetector
  aggregator : DefaultAggregator
  exported : List Exported

/-- One step of a tracer, of a worker, of a ticker, or of the application that starts workers. -/
inductive PipelineAction where
  /-- The application starts one more worker of the receiver. -/
  | startReceiver
  /-- The application starts one more worker of a detector. -/
  | startDetector (d : DetectorType)
  /-- A tracer puts an event on the receiver's channel. -/
  | put (e : SpyEvent)
  /-- A tracer hands an event to a worker that waits at the channel. -/
  | putTo (e : SpyEvent) (i : Nat)
  /-- A worker of the receiver takes an event off the channel. -/
  | receive (i : Nat)
  /-- A worker of the receiver sends its event to the next detector. -/
  | consumeEvent (i : Nat)
  /-- A worker of the receiver hands its event to a worker that waits at the detector's channel. -/
  | consumeEventTo (i j : Nat)
  /-- A worker of the receiver has sent its event to all detectors. -/
  | sent (i : Nat)
  /-- A worker of a detector takes an event off the channel. -/
  | take (d : DetectorType) (j : Nat)
  /-- A worker of a detector processes its event up to the record. -/
  | processEvent (d : DetectorType) (j : Nat)
  /-- A worker of a detector hands its record to the processor. -/
  | consume (d : DetectorType) (j : Nat)
  /-- The uploader's ticker fires. -/
  | uploadTries (endTimeTruncated : Time) (order : RangeOrder String)
  /-- The processor's ticker fires. -/
  | dump (order : DumpOrder)

namespace Pipeline

/-- A pipeline before the application starts anything. -/
def new (cpu : CpuDetector) (kindMap : KindMap) : Pipeline where
  eventCh := []
  receivers := []
  eventChan := fun _ => []
  workers := fun _ => []
  cpu := cpu
  aggregator := DefaultAggregator.new kindMap
  exported := []

/-- The event at the end of the receiver's channel. -/
def push (p : Pipeline) (e : SpyEvent) : Pipeline := { p with eventCh := p.eventCh ++ [e] }

/-- A waiting worker of the receiver takes an event and looks its detectors up. -/
def receive (cfg : PipelineConfig) (p : Pipeline) (i : Nat) : Option Pipeline :=
  match p.eventCh, p.receivers[i]? with
  | e :: rest, some .idle =>
    some { p with
      eventCh := rest
      receivers := p.receivers.set i (.sending e (cfg.manager.getDetectors e.cls.event)) }
  | _, _ => none

/-- The detector that a worker of the receiver sends its event to next. -/
def target (p : Pipeline) (i : Nat) : Option DetectorType :=
  match p.receivers[i]? with
  | some (.sending _ (d :: _)) => some d
  | _ => none

/-- A worker of the receiver sends its event to the next detector, whatever room there is. -/
def consumeEvent (p : Pipeline) (i : Nat) : Option Pipeline :=
  match p.receivers[i]? with
  | some (.sending e (d :: left)) =>
    some { p with
      receivers := p.receivers.set i (.sending e left)
      eventChan :=
        if d.queues then Function.update p.eventChan d (p.eventChan d ++ [e]) else p.eventChan }
  | _ => none

/-- A waiting worker of a detector takes an event. -/
def take (p : Pipeline) (d : DetectorType) (j : Nat) : Option Pipeline :=
  match p.eventChan d, (p.workers d)[j]? with
  | e :: rest, some .idle =>
    some { p with
      eventChan := Function.update p.eventChan d rest
      workers := Function.update p.workers d ((p.workers d).set j (.holding e)) }
  | _, _ => none

/-- A worker of a detector processes its event; one that makes no record ends there. -/
def processEvent (cfg : PipelineConfig) (p : Pipeline) (d : DetectorType) (j : Nat) :
    Option Pipeline :=
  match (p.workers d)[j]? with
  | some (.holding e) =>
    (d.processEvent cfg.env p.cpu e).map fun (cpu, dataBlock) =>
      { p with
        cpu := cpu
        workers := Function.update p.workers d ((p.workers d).set j (.processed e dataBlock)) }
  | _ => none

/-- A worker of a detector hands its record to the processor, which is its one consumer. -/
def consume (p : Pipeline) (d : DetectorType) (j : Nat) : Option Pipeline :=
  match (p.workers d)[j]? with
  | some (.handing e dataBlock) =>
    let passed := (DefaultProcessor.consume dataBlock).map fun block =>
      { source := some e, block := block : Exported }
    some { p with
      workers := Function.update p.workers d ((p.workers d).set j .idle)
      exported := p.exported ++ passed.toList }
  | _ => none

/-- One step; absent where it is not possible or where the source panics. -/
def step (cfg : PipelineConfig) (p : Pipeline) : PipelineAction → Option Pipeline
  | .startReceiver => some { p with receivers := p.receivers ++ [.idle] }
  | .startDetector d =>
    some { p with workers := Function.update p.workers d (p.workers d ++ [.idle]) }
  | .put e => if p.eventCh.length < cfg.eventChSize then some (p.push e) else none
  -- An event goes past a channel only when nothing waits in it.
  | .putTo e i => if p.eventCh = [] then (p.push e).receive cfg i else none
  | .receive i => p.receive cfg i
  | .consumeEvent i =>
    (p.target i).bind fun d =>
      if d.queues = false ∨ (p.eventChan d).length < cfg.eventChanSize d then p.consumeEvent i
      else none
  | .consumeEventTo i j =>
    (p.target i).bind fun d =>
      if d.queues ∧ p.eventChan d = [] then (p.consumeEvent i).bind fun p => p.take d j else none
  | .sent i =>
    match p.receivers[i]? with
    | some (.sending _ []) => some { p with receivers := p.receivers.set i .idle }
    | _ => none
  | .take d j => p.take d j
  | .processEvent d j => p.processEvent cfg d j
  | .consume d j => p.consume d j
  | .uploadTries endTimeTruncated order =>
    (p.cpu.uploadTries cfg.env order endTimeTruncated).map fun cpu => { p with cpu := cpu }
  | .dump order =>
    (p.aggregator.dump order).map fun (aggregator, dumped) =>
      { p with
        aggregator := aggregator
        exported := p.exported ++ dumped.map fun d => { source := none, block := d.block } }

end Pipeline

end Spycat
