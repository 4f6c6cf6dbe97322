import Spycat.Detector.CpuDetector
import Spycat.Detector.MemDetector

/-! The detectors of the application, and which of them an event is sent to. -/

namespace Spycat

open Lib

/-- The kinds of detectors. -/
inductive DetectorType where
  | cpu
  | io
  | net
  | mem
  deriving DecidableEq, Repr

namespace DetectorType

/-- The events whose class the receiver sends to a detector. -/
def ownedEvents : DetectorType → List String
  | .cpu => CpuDetector.ownedEvents
  | .mem => MemDetector.ownedEvents
  -- These detectors own no events.
  | .io | .net => []

/-- A detector puts the events it is sent on its channel; the others drop them. -/
def queues : DetectorType → Bool
  | .cpu | .mem => true
  | .io | .net => false

/-- Process one event: the state it leaves, and the record that is handed to the consumers. -/
def processEvent (env : External) (cpu : CpuDetector) :
    DetectorType → SpyEvent → Option (CpuDetector × Option DataBlock)
  | .cpu, e => cpu.processEvent env e
  | .mem, e => some (cpu, MemDetector.processEvent e)
  -- These detectors make no records.
  | .io, _ | .net, _ => some (cpu, none)

end DetectorType

/-- The detectors that events are sent to, by event. -/
structure DetectorManager where
  detectors : List DetectorType
  eventDetectorMap : Assoc String (List DetectorType)

namespace DetectorManager

/-- A manager of detectors; absent for no detectors, where the source returns an error. -/
def new (detectors : List DetectorType) : Option DetectorManager :=
  if detectors.length = 0 then none
  else
    let detectorMap := detectors.foldl (fun detectorMap detector =>
      detector.ownedEvents.foldl (fun (detectorMap : Assoc String (List DetectorType)) event =>
        -- Normally one event has one detector.
        detectorMap.insert event ((detectorMap.lookup event).getD [] ++ [detector])) detectorMap) ∅
    some { detectors := detectors, eventDetectorMap := detectorMap }

/-- The detectors that an event is sent to. -/
def getDetectors (m : DetectorManager) (name : String) : List DetectorType :=
  (m.eventDetectorMap.lookup name).getD []

end DetectorManager

end Spycat
