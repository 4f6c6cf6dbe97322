import Mathlib.Data.List.Perm.Basic
import Spycat.Detector.RemoteWorkers

/-! No job of the queue is lost or passed on twice, but stopping does not wait for the workers. -/

namespace Spycat

open Lib

namespace RemoteWorkers

variable {J : Type} {threads : Nat} {s s' : RemoteWorkers J}

/-- No worker is inside an upload. -/
def Idle (s : RemoteWorkers J) : Prop := ∀ job, .safeUpload job ∉ s.workers

/-- What holds of the queue: it is bounded, first in is first out, and every job is in one place. -/
structure Queued (threads : Nat) (s : RemoteWorkers J) : Prop where
  started : s.workers.length = threads
  bounded : s.jobs.length ≤ jobsSize
  placed : s.passed ++ s.jobs = s.accepted
  uncounted : s.wg = 0
  stopped : s.stopped = true → s.done = true
  returned : .returned ∈ s.workers → s.done = true

/-- Every job that was accepted was passed on once, and no worker is at work any more. -/
structure Settled (accepted : List J) (s : RemoteWorkers J) : Prop where
  idle : s.Idle
  once : s.passed.Perm accepted

theorem start_queued (threads : Nat) : Queued threads (start threads : RemoteWorkers J) where
  -- The workers wait, and nothing was accepted.
  started := by simp [start]
  bounded := Nat.zero_le _
  placed := rfl
  uncounted := rfl
  stopped := nofun
  returned := by simp [start]

/-- Accepting a job puts it behind all others, and dropping it changes nothing. -/
theorem Queued.upload (queued : Queued threads s) (job : J) : Queued threads (s.upload job) := by
  -- Only a queue with room takes the job.
  unfold RemoteWorkers.upload
  split
  · rename_i room
    refine ⟨queued.started, ?_, ?_, queued.uncounted, queued.stopped, queued.returned⟩
    · rw [List.length_append, List.length_singleton]
      exact room
    · rw [← List.append_assoc, queued.placed]
  · exact queued

/-- A worker that goes to another place, and does not end its loop, changes no job. -/
theorem Queued.moves (queued : Queued threads s) (worker : Nat) {place : HandleJobs J}
    (ends : place = .returned → s.done = true) :
    Queued threads { s with workers := s.workers.set worker place } where
  started := by rw [List.length_set, queued.started]
  bounded := queued.bounded
  placed := queued.placed
  uncounted := queued.uncounted
  stopped := queued.stopped
  returned := fun member =>
    -- The place is either the new one or one from before.
    (List.mem_or_eq_of_mem_set member).elim queued.returned fun same => ends same.symm

/-- All that a step can do, and when. -/
inductive Moves (s : RemoteWorkers J) : RemoteAction J → RemoteWorkers J → Prop
  | upload (job : J) : Moves s (.upload job) (s.upload job)
  | stop (running : s.done = false) : Moves s .stop { s with done := true }
  | wait (closed : s.done = true) : Moves s .wait { s with stopped := true }
  | done {worker : Nat} (waits : .select ∈ s.workers) (closed : s.done = true) :
      Moves s (.done worker) { s with workers := s.workers.set worker .returned }
  | job {worker : Nat} {job : J} {rest : List J} (waits : .select ∈ s.workers)
      (first : s.jobs = job :: rest) :
      Moves s (.job worker)
        { s with
          jobs := rest
          passed := s.passed ++ [job]
          workers := s.workers.set worker (.safeUpload job) }
  | uploaded {worker : Nat} {job : J} (works : .safeUpload job ∈ s.workers) :
      Moves s (.uploaded worker) { s with workers := s.workers.set worker .select }

/-- Every step that is taken is one of these. -/
theorem moves_of_step {action : RemoteAction J} (stepped : s.step action = some s') :
    Moves s action s' := by
  -- There is one case for each action, and in each the worker has to be at one place.
  cases action with
  | upload job =>
    obtain rfl := Option.some.inj stepped
    exact .upload job
  | stop =>
    simp only [RemoteWorkers.step, Option.ite_none_left_eq_some, Option.some.injEq] at stepped
    obtain ⟨running, rfl⟩ := stepped
    exact .stop (by simpa using running)
  | wait =>
    simp only [RemoteWorkers.step, Option.ite_none_right_eq_some, Option.some.injEq] at stepped
    obtain ⟨⟨closed, _⟩, rfl⟩ := stepped
    exact .wait closed
  | done worker =>
    simp only [RemoteWorkers.step] at stepped
    split at stepped
    · rename_i waits
      simp only [Option.ite_none_right_eq_some, Option.some.injEq] at stepped
      obtain ⟨closed, rfl⟩ := stepped
      exact .done (List.mem_of_getElem? waits) closed
    · cases stepped
  | job worker =>
    simp only [RemoteWorkers.step] at stepped
    split at stepped
    · rename_i job rest waits first
      obtain rfl := Option.some.inj stepped
      exact .job (List.mem_of_getElem? waits) first
    · cases stepped
  | uploaded worker =>
    simp only [RemoteWorkers.step] at stepped
    split at stepped
    · rename_i job works
      obtain rfl := Option.some.inj stepped
      exact .uploaded (List.mem_of_getElem? works)
    · cases stepped

/-- Every step keeps the jobs together. -/
theorem Queued.step (queued : Queued threads s) {action : RemoteAction J}
    (stepped : s.step action = some s') : Queued threads s' := by
  -- Only an upload and a worker that takes a job touch the queue.
  cases moves_of_step stepped with
  | upload job => exact queued.upload job
  | stop running =>
    exact ⟨queued.started, queued.bounded, queued.placed, queued.uncounted, fun _ => rfl,
      fun _ => rfl⟩
  | wait closed =>
    exact ⟨queued.started, queued.bounded, queued.placed, queued.uncounted, fun _ => closed,
      queued.returned⟩
  | @done worker waits closed => exact queued.moves worker fun _ => closed
  | @job worker job rest waits first =>
    -- The first job of the queue becomes the last one that was passed on.
    have ends : HandleJobs.safeUpload job = .returned → s.done = true := nofun
    have moved := queued.moves worker ends
    have shorter := queued.bounded
    rw [first, List.length_cons] at shorter
    refine ⟨moved.started, by simp only; omega, ?_, queued.uncounted, queued.stopped,
      moved.returned⟩
    simp only [List.append_assoc, List.singleton_append, ← first, queued.placed]
  | @uploaded worker job works => exact queued.moves worker nofun

/-- The jobs are kept together in every run, however the steps are ordered. -/
theorem run_queued {actions : List (RemoteAction J)}
    (ran : run step (start threads) actions = some s) : Queued threads s :=
  -- The start has an empty queue, and each step keeps it in order.
  run_invariant (Queued threads) (start_queued threads)
    (fun _ _ _ queued stepped => queued.step stepped) ran

/-- Nothing is queued and nobody is at work, so nothing more happens to a job. -/
structure Quiet (accepted : List J) (s : RemoteWorkers J) : Prop where
  idle : s.Idle
  empty : s.jobs = []
  passed : s.passed = accepted

/-- Without an upload, quiet workers only end their loops. -/
theorem Quiet.step {accepted : List J} (quiet : Quiet accepted s) {action : RemoteAction J}
    (none_ : ∀ job, action ≠ .upload job) (stepped : s.step action = some s') :
    Quiet accepted s' := by
  -- What a worker could do needs a job, in the queue or in its hands.
  cases moves_of_step stepped with
  | upload job => exact absurd rfl (none_ job)
  | stop running => exact ⟨quiet.idle, quiet.empty, quiet.passed⟩
  | wait closed => exact ⟨quiet.idle, quiet.empty, quiet.passed⟩
  | done waits closed =>
    refine ⟨fun job member => ?_, quiet.empty, quiet.passed⟩
    rcases List.mem_or_eq_of_mem_set member with old | new
    · exact quiet.idle job old
    · cases new
  | job waits first =>
    rw [quiet.empty] at first
    cases first
  | uploaded works => exact absurd works (quiet.idle _)

/--
After a stop, whatever the workers do, all jobs are settled once it has returned, exactly where
the stop was called with nothing in the queue and no worker inside an upload.
-/
theorem stop_settles_iff (threads : Nat) (before : List (RemoteAction J)) (s : RemoteWorkers J)
    (ran : run step (start threads) before = some s) (unstopped : s.done = false) :
    (∀ after s', (∀ job, .upload job ∉ after) → run step s (.stop :: after) = some s' →
        s'.stopped = true → Settled s.accepted s') ↔
      s.jobs = [] ∧ s.Idle := by
  -- The stop itself only closes the channel.
  have queued := run_queued ran
  have fresh : s.stopped = false := by
    by_contra already
    simpa [unstopped] using queued.stopped (by simpa using already)
  have closing : s.step .stop = some { s with done := true } := by
    simp [step, unstopped]
  constructor
  · intro settles
    -- Nothing keeps the call from returning at once, since the counter of the wait group is zero.
    have returns : run step s [.stop, .wait] = some { s with done := true, stopped := true } := by
      rw [run_cons, closing]
      simp [step, fresh, queued.uncounted]
    have settled := settles [.wait] _ (by simp) returns rfl
    have same := settled.once.length_eq
    rw [← queued.placed, List.length_append] at same
    refine ⟨List.length_eq_zero_iff.mp ?_, settled.idle⟩
    simp only at same
    omega
  · rintro ⟨empty, idle⟩ after s' none_ went _
    rw [run_cons, closing, Option.bind_some] at went
    have all : s.passed = s.accepted := by
      rw [← queued.placed, empty, List.append_nil]
    have quiet : Quiet s.accepted { s with done := true } := ⟨idle, empty, all⟩
    -- The steps after the stop are no uploads, so each of them keeps the workers quiet.
    have allowed : Allowed step (fun _ action => ∀ job, action ≠ .upload job)
        { s with done := true } after := by
      refine allowed_everywhere fun action member state job same => ?_
      exact none_ job (same ▸ member)
    have still := run_history_allowed (fun _ => Quiet s.accepted) quiet
      (fun _ _ _ _ quiet none_ stepped => quiet.step none_ stepped) allowed went
    exact ⟨still.idle, still.passed ▸ List.Perm.refl _⟩

/-- An upstream that was stopped after its one job had been uploaded has settled it. -/
theorem stop_settles_uploaded :
    ∃ s, run step (start 1) [.upload 7, .job 0, .uploaded 0] = some s ∧
      ∀ after s', (∀ job : Nat, .upload job ∉ after) → run step s (.stop :: after) = some s' →
        s'.stopped = true → Settled s.accepted s' := by
  -- The queue is empty and the one worker waits again.
  refine ⟨_, rfl, (stop_settles_iff 1 [.upload 7, .job 0, .uploaded 0] _ rfl rfl).mpr ?_⟩
  exact ⟨rfl, fun job => by simp [start, upload, jobsSize]⟩

/-- The stop returns while the job is in the queue, where the only worker leaves it for good. -/
theorem stop_drops_queued :
    ∃ s, run step (start 1) [.upload 7, .stop, .done 0, .wait] = some s ∧ s.stopped = true ∧
      s.accepted = [7] ∧ ¬Settled s.accepted s ∧
        ∀ worker, s.step (.job worker) = none := by
  -- One job was accepted and none was passed on.
  refine ⟨_, rfl, rfl, rfl, fun settled => ?_, fun worker => ?_⟩
  · exact absurd settled.once.length_eq (by decide)
  · cases worker <;> rfl

end RemoteWorkers

end Spycat
