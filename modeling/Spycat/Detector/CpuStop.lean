import Spycat.Detector.CpuDetector

/-! Stopping the CPU detector, while its goroutines go on with what they do. -/

namespace Spycat

open Lib

/-- Where a call of `Stop` is. -/
inductive StopCall where
  /-- It is about to close the channel that the goroutines look at. -/
  | close
  /-- It is about to stop the upstream. -/
  | upstream
  /-- It waits for the uploads of the upstream. -/
  | wait
  | returned
  deriving DecidableEq, Repr

/-- Where the goroutine that calls for uploads is in its loop. -/
inductive UploadWithTicker where
  /-- It waits for a tick, or for the channel. -/
  | select
  | stop (call : StopCall)
  | returned
  deriving DecidableEq, Repr

/-- Where the goroutine that processes events is in its loop. -/
inductive ConsumeChanEvents where
  /-- It waits for an event, or for the channel. -/
  | select
  | returned
  deriving DecidableEq, Repr

/-- A detector with its goroutines, each absent until it is started, and the call that stops it. -/
structure CpuGoroutines where
  detector : CpuDetector
  /-- Whether the channel that the goroutines look at was closed. -/
  stopChan : Bool
  /-- Whether the channel of the upstream was closed. -/
  done : Bool
  stop : Option StopCall
  uploader : Option UploadWithTicker
  consumer : Option ConsumeChanEvents
  panicked : Bool

/-- A step of a goroutine, or of the one that starts and stops the detector. -/
inductive CpuGoroutineAction where
  | start
  | event (e : SpyEvent)
  /-- The goroutine that processes events finds the channel closed. -/
  | consumerReturns
  | tick (endTimeTruncated : Time) (order : RangeOrder String)
  /-- The goroutine that calls for uploads finds the channel closed. -/
  | uploaderStops
  /-- Its own call of `Stop` goes on. -/
  | uploader
  /-- The manager of the detectors calls `Stop`. -/
  | stop
  /-- That call goes on. -/
  | stopper

namespace CpuGoroutines

/-- The goroutines that `Init` leaves behind, whatever it is given and whatever it returns. -/
def init (env : External) (cfg : InitConfig) : CpuGoroutines :=
  let c := (CpuDetector.init env CpuDetector.new cfg).1
  { detector := c
    stopChan := false
    done := false
    stop := none
    uploader := if c.uploading then some .select else none
    consumer := none
    panicked := false }

/-- The whole process ends. -/
def panic (s : CpuGoroutines) : CpuGoroutines := { s with panicked := true }

/-- The next statement of a call of `Stop`; absent where it panics. -/
def callStop (s : CpuGoroutines) : StopCall → Option (CpuGoroutines × StopCall)
  -- Closing a channel twice panics.
  | .close => if s.stopChan then none else some ({ s with stopChan := true }, .upstream)
  -- So does calling a method of no upstream.
  | .upstream => s.detector.upstream.bind fun _ =>
    if s.done then none else some ({ s with done := true }, .wait)
  -- The counter of the wait group is always zero.
  | .wait | .returned => some (s, .returned)

/-- One step; absent where it is not possible. -/
def step (env : External) (s : CpuGoroutines) (action : CpuGoroutineAction) :
    Option CpuGoroutines :=
  if s.panicked then none
  else
    match action with
    | .start => if s.consumer = none then some { s with consumer := some .select } else none
    | .event e =>
      if s.consumer = some .select then
        some (match s.detector.processEvent env e with
          | none => s.panic
          | some (c, _) => { s with detector := c })
      else none
    | .consumerReturns =>
      if s.consumer = some .select ∧ s.stopChan then some { s with consumer := some .returned }
      else none
    | .tick endTimeTruncated order =>
      if s.uploader = some .select then
        some (match s.detector.uploadTries env order endTimeTruncated with
          | none => s.panic
          | some c => { s with detector := c })
      else none
    | .uploaderStops =>
      if s.uploader = some .select ∧ s.stopChan then
        some { s with uploader := some (.stop .close) }
      else none
    | .uploader =>
      match s.uploader with
      | some (.stop .returned) => some { s with uploader := some .returned }
      | some (.stop call) =>
        some (match s.callStop call with
          | none => s.panic
          | some (s, call) => { s with uploader := some (.stop call) })
      | _ => none
    | .stop => if s.stop = none then some { s with stop := some .close } else none
    | .stopper =>
      match s.stop with
      | none | some .returned => none
      | some call =>
        some (match s.callStop call with
          | none => s.panic
          | some (s, call) => { s with stop := some call })

end CpuGoroutines

end Spycat
