import Spycat.Lib.Run

/-! The workers of a remote upstream, from the queue that jobs are put into to the stop. -/

namespace Spycat

/-- How many jobs the queue of a remote upstream holds. -/
def jobsSize : Nat := 100

/-- Where a worker is in its loop. -/
inductive HandleJobs (J : Type) where
  /-- It waits for a job, or for the channel that ends the loop. -/
  | select
  | safeUpload (job : J)
  | returned
  deriving DecidableEq

/-- A remote upstream with its workers, and what its queue took and its workers picked so far. -/
structure RemoteWorkers (J : Type) where
  jobs : List J
  /-- Whether the channel that ends the loops was closed. -/
  done : Bool
  /-- The counter of the wait group. -/
  wg : Nat
  workers : List (HandleJobs J)
  stopped : Bool
  accepted : List J
  passed : List J
  deriving DecidableEq

/-- A step of a caller of the upstream or of one of its workers. -/
inductive RemoteAction (J : Type) where
  | upload (job : J)
  /-- A call of `Stop` closes the channel. -/
  | stop
  /-- The call is done with waiting and returns. -/
  | wait
  /-- A worker finds the channel closed. -/
  | done (worker : Nat)
  /-- A worker takes a job off the queue. -/
  | job (worker : Nat)
  /-- A worker comes back from an upload, which may have failed or panicked. -/
  | uploaded (worker : Nat)

namespace RemoteWorkers

variable {J : Type}

/-- An upstream whose workers were started; none of them is counted in the wait group. -/
def start (upstreamThreads : Nat) : RemoteWorkers J where
  jobs := []
  done := false
  wg := 0
  workers := List.replicate upstreamThreads .select
  stopped := false
  accepted := []
  passed := []

/-- Put a job into the queue, or drop it where the queue is full. -/
def upload (s : RemoteWorkers J) (job : J) : RemoteWorkers J :=
  if s.jobs.length < jobsSize then
    { s with jobs := s.jobs ++ [job], accepted := s.accepted ++ [job] }
  else s

/-- One step; absent where it is not possible or where the source panics. -/
def step (s : RemoteWorkers J) : RemoteAction J → Option (RemoteWorkers J)
  | .upload job => some (s.upload job)
  -- Closing a channel twice panics.
  | .stop => if s.done then none else some { s with done := true }
  | .wait => if s.done ∧ ¬s.stopped ∧ s.wg = 0 then some { s with stopped := true } else none
  | .done worker =>
    match s.workers[worker]? with
    | some .select =>
      if s.done then some { s with workers := s.workers.set worker .returned } else none
    | _ => none
  | .job worker =>
    match s.workers[worker]?, s.jobs with
    | some .select, job :: rest =>
      some { s with
        jobs := rest
        passed := s.passed ++ [job]
        workers := s.workers.set worker (.safeUpload job) }
    | _, _ => none
  | .uploaded worker =>
    match s.workers[worker]? with
    | some (.safeUpload _) => some { s with workers := s.workers.set worker .select }
    | _ => none

end RemoteWorkers

end Spycat
