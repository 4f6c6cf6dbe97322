import Spycat.Lib.Run

/-! The loop of the batching exporters, from the channel they consume into to the last flush. -/

namespace Spycat

/-- How many items the channel of a batching exporter holds. -/
def datasSize : Nat := 5000

/-- The exporters that flush in batches. -/
inductive BatchingKind where
  | loki
  | sqlite
  deriving DecidableEq, Repr

/-- A batching exporter, and what its loop has received and flushed so far. -/
structure BatchingExporter (ι : Type) where
  batchEntriesNum : Int
  /-- Whether the channel that asks the loop to quit was closed. -/
  quit : Bool
  datas : List ι
  batch : List ι
  size : Int
  running : Bool
  received : List ι
  flushed : List (List ι)

/-- A step of a producer, of the application that shuts the exporter down, or of the loop. -/
inductive BatchingAction (ι : Type) where
  /-- A record is queued for the exporter. -/
  | consume (data : ι)
  /-- The application asks the loop to quit. -/
  | shutDown
  /-- The loop finds that it was asked to quit. -/
  | quit
  /-- The loop takes an item off the channel. -/
  | newItem
  /-- The timer fires, whenever it was set last. -/
  | timer

namespace BatchingExporter

variable {ι : Type}

/-- An exporter whose loop has just started. -/
def new (batchEntriesNum : Int) : BatchingExporter ι where
  batchEntriesNum := batchEntriesNum
  quit := false
  datas := []
  batch := []
  size := 0
  running := true
  received := []
  flushed := []

/-- The batch is passed on. -/
def flush (s : BatchingExporter ι) : BatchingExporter ι :=
  { s with flushed := s.flushed ++ [s.batch] }

/-- The next batch is begun. -/
def initAgain (s : BatchingExporter ι) : BatchingExporter ι := { s with batch := [], size := 0 }

/-- An item joins the batch, which is flushed when it has grown too large. -/
def addItem (s : BatchingExporter ι) (data : ι) : BatchingExporter ι :=
  let s := { s with
    received := s.received ++ [data]
    batch := s.batch ++ [data]
    size := s.size + 1 }
  -- The batch is flushed when it has one item too many.
  if s.size > s.batchEntriesNum then s.flush.initAgain else s

/-- A batch that has waited long enough is flushed. -/
def maxWait (s : BatchingExporter ι) : BatchingExporter ι :=
  if s.size > 0 then s.flush.initAgain else s

/-- What is deferred to the end of the loop. -/
def finish (s : BatchingExporter ι) : BatchingExporter ι :=
  -- The timer and the wait group are stopped behind this.
  let s := if s.size > 0 then s.flush else s
  { s with running := false }

/-- The branch of the loop for being asked to quit. -/
def quitBranch (kind : BatchingKind) (s : BatchingExporter ι) : BatchingExporter ι :=
  match kind with
  | .loki => s.finish
  -- The branch is empty, so the loop goes round again.
  | .sqlite => s

/-- One step; absent where it is not possible or where the source panics. -/
def step (kind : BatchingKind) (s : BatchingExporter ι) :
    BatchingAction ι → Option (BatchingExporter ι)
  -- Nothing is queued for an exporter that was shut down.
  | .consume data =>
    if s.quit = false ∧ s.datas.length < datasSize then some { s with datas := s.datas ++ [data] }
    else none
  -- Closing a channel twice panics.
  | .shutDown => if s.quit then none else some { s with quit := true }
  | .quit => if s.running ∧ s.quit then some (s.quitBranch kind) else none
  | .newItem =>
    match s.datas with
    | data :: rest => if s.running then some (({ s with datas := rest }).addItem data) else none
    | [] => none
  | .timer => if s.running then some s.maxWait else none

end BatchingExporter

end Spycat
