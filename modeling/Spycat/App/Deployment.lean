import Spycat.App.Pipeline
import Spycat.Exporter.Batching
import Spycat.Exporter.Sqlite

/-! The pipeline with a batching exporter at its end, and the backend that it writes to. -/

namespace Spycat

open Lib

/-- What a batching exporter does with records and with batches. -/
structure Backend (ι κ : Type) where
  kind : BatchingKind
  /-- What is queued for a record at a time; absent where the exporter returns an error. -/
  consume : Time → DataBlock → Option ι
  /-- What a batch asks the backend for; absent where the source panics. -/
  flush : List ι → Option (List κ)

/-- The database asks for rows of a table, and a record without a row is queued as no item. -/
def Sqlite.backend : Backend (Option Sqlite.Item) Sqlite.CreateInBatches where
  kind := .sqlite
  consume _ data := some (Sqlite.consume data)
  -- The name of the table is asked of every item, which panics where there is none.
  flush batch := (batch.mapM id).map Sqlite.flush

namespace Loki

/-- A line with the time it was queued at. -/
structure LogEntry where
  ts : Time
  line : Bytes

/-- Lines under the labels of the exporter. -/
structure LogStream where
  labels : String
  entries : List LogEntry

/-- What is posted. -/
structure LogMsg where
  streams : List LogStream

/-- The settings of an exporter that its requests are made with. -/
structure Config where
  url : String
  labels : String

/-- A request of an exporter. -/
structure Post where
  method : String
  url : String
  ctype : String
  reqBody : Bytes

/-- What an exporter uses of code outside the repository. -/
structure Environment where
  /-- The encoding of a record, absent where that fails. -/
  marshalBlock : DataBlock → Option Bytes
  /-- The encoding of a message, absent where that fails. -/
  marshalMsg : LogMsg → Option Bytes

/-- The message that a batch is posted as. -/
def message (config : Config) (entries : List LogEntry) : LogMsg where
  streams := [{ labels := config.labels, entries := entries }]

/-- Post a batch, unless it cannot be encoded. -/
def flush (env : Environment) (config : Config) (entries : List LogEntry) : List Post :=
  (env.marshalMsg (message config entries)).toList.map fun jmsg =>
    { method := "POST", url := config.url, ctype := "application/json", reqBody := jmsg }

/-- A record is queued as the line that encodes it. -/
def backend (env : Environment) (config : Config) : Backend LogEntry Post where
  kind := .loki
  consume now data := (env.marshalBlock data).map fun jsondata => { ts := now, line := jsondata }
  flush entries := some (flush env config entries)

end Loki

/-- A pipeline, its exporter, and all that the backend was asked for, with what came of it. -/
structure Deployment (ι κ : Type) where
  pipeline : Pipeline
  exporter : BatchingExporter ι
  requests : List (κ × Bool)

/-- A step of the pipeline, or of the exporter's loop. -/
inductive DeploymentAction (κ : Type) where
  /-- A step of the pipeline at a time. -/
  | pipeline (action : PipelineAction) (now : Time)
  /-- The loop takes an item, and each request of a flush succeeds or fails. -/
  | newItem (succeeds : κ → Bool)
  /-- The timer of the loop fires, and each request of a flush succeeds or fails. -/
  | timer (succeeds : κ → Bool)

namespace Deployment

variable {ι κ : Type}

/-- A deployment before the application starts anything. -/
def new (cpu : CpuDetector) (kindMap : KindMap) (batchEntriesNum : Int) : Deployment ι κ where
  pipeline := .new cpu kindMap
  exporter := .new batchEntriesNum
  requests := []

/-- The records that a step of the pipeline gave to the exporter. -/
def given (before after : Pipeline) : List Exported :=
  after.exported.drop before.exported.length

/-- Queue what there is for records, once there is room; the others are given back. -/
def queue (backend : Backend ι κ) (now : Time) (exporter : BatchingExporter ι)
    (records : List Exported) : Option (BatchingExporter ι) :=
  run (BatchingExporter.step backend.kind) exporter
    ((records.filterMap fun x => backend.consume now x.block).map .consume)

/-- A step of the loop, with the requests of its flush; a failure is only logged. -/
def loop (backend : Backend ι κ) (s : Deployment ι κ) (action : BatchingAction ι)
    (succeeds : κ → Bool) : Option (Deployment ι κ) :=
  (s.exporter.step backend.kind action).bind fun exporter =>
    ((exporter.flushed.drop s.exporter.flushed.length).mapM backend.flush).map fun requests =>
      { s with
        exporter := exporter
        requests := s.requests ++ requests.flatten.map fun request =>
          (request, succeeds request) }

/-- One step; absent where it is not possible or where the source panics. -/
def step (backend : Backend ι κ) (cfg : PipelineConfig) (s : Deployment ι κ) :
    DeploymentAction κ → Option (Deployment ι κ)
  | .pipeline action now =>
    (s.pipeline.step cfg action).bind fun pipeline =>
      (queue backend now s.exporter (given s.pipeline pipeline)).map fun exporter =>
        { s with pipeline := pipeline, exporter := exporter }
  | .newItem succeeds => s.loop backend .newItem succeeds
  | .timer succeeds => s.loop backend .timer succeeds

end Deployment

end Spycat
