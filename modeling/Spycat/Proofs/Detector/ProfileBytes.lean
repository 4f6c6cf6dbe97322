import Spycat.Detector.ProfileRequest
import Spycat.Proofs.Detector.CpuUpload
import Spycat.Proofs.Util.TrieDeserialize

/-! What a server reads out of the profiles that a detector uploads. -/

namespace Spycat

open Lib

/-- A trie that is written as it is, with keys that can be read back. -/
structure Trie.Sendable (t : Trie) : Prop where
  multiplier : t.multiplier = 1
  divider : t.divider = 1
  stored : ∃ map, t.Represents map ∧ ∀ key, (map key).isSome → key.length ≤ maxAlloc

namespace Trie

/-- A new trie has no key. -/
theorem new_sendable : new.Sendable :=
  -- A new trie is not scaled and stands for no key.
  ⟨rfl, rfl, _, new_represents, fun _ present => by cases present⟩

/-- A stack that could be allocated is one more key. -/
theorem Sendable.insert {t : Trie} (sendable : t.Sendable) {stack : Bytes}
    (short : stack.length ≤ maxAlloc) (v : UInt64) :
    ∃ t', t.insert stack v [true] = some t' ∧ t'.Sendable := by
  obtain ⟨map, represents, allocated⟩ := sendable.stored
  obtain ⟨root, inserted, stored⟩ := insert_represents represents stack v [true]
  refine ⟨_, inserted, sendable.multiplier, sendable.divider, _, stored, fun key present => ?_⟩
  -- The key is the new one or one of those before.
  by_cases same : key = stack
  · exact same ▸ short
  · rw [KeyMap.store, if_neg same] at present
    exact allocated key present

/-- The bytes of a trie are read back as the trie itself. -/
theorem Sendable.read {t : Trie} (sendable : t.Sendable) :
    ∃ bytes, t.bytes = some bytes ∧
      ∀ limit, Within limit t.root.size → deserialize limit bytes = .ok t := by
  -- What is written is the encoding of the tree, which fits the format.
  obtain ⟨map, represents, allocated⟩ := sendable.stored
  have fits : Fits t.root :=
    fits_of_holds represents.holds (by simp [represents.name]) allocated
  refine ⟨encode id t.root, ?_, fun limit within => ?_⟩
  · exact serialize_eq (writtenValue_neutral sendable.multiplier sendable.divider)
  · rw [deserialize_encode fits within, RadixNode.mapValues_id]
    obtain ⟨multiplier, divider, root⟩ := t
    obtain ⟨rfl, rfl, _⟩ := sendable
    rfl

end Trie

namespace CpuDetector

/-- The current trie and those of all jobs can be sent. -/
structure Sends (server : String) (c : CpuDetector) : Prop where
  server : c.server = server
  keeps : ∃ t, c.Keeps t ∧ t.Sendable
  jobs : ∀ job ∈ c.handed, job.trie.Sendable

/-- A detector as it is made has an empty trie and no job. -/
theorem start_sends (server : String) (remote : Option RemoteConfig) :
    Sends server (start server remote) := by
  -- The new detector has one empty trie, and nothing was handed over.
  refine ⟨rfl, ⟨Trie.new, ⟨by simp [start, new, initializeTries], _, Trie.new_represents⟩,
    Trie.new_sendable⟩, fun job member => ?_⟩
  cases remote <;> simp [start, handed] at member

/-- A sample goes into a trie that can be sent. -/
theorem Keeps.insertStack_sendable {c : CpuDetector} {t : Trie} (keeps : c.Keeps t)
    (sendable : t.Sendable) {stack : Bytes} (short : stack.length ≤ maxAlloc) (v : UInt64) :
    ∃ t', c.insertStack Model.onCpu stack v =
        some { c with tries := AList.singleton Model.onCpu [some t'] } ∧ t'.Sendable := by
  by_cases empty : stack = []
  · -- An empty stack is not put into the trie.
    subst empty
    exact ⟨t, by simp [CpuDetector.insertStack, ← keeps.tries], sendable⟩
  · obtain ⟨t', inserted, sendable'⟩ := sendable.insert short v
    exact ⟨t', keeps.insertStack_insert empty inserted, sendable'⟩

/-- A trie that can be sent stands for its map. -/
theorem keeps_of_sendable {c : CpuDetector} {t : Trie}
    (tries : c.tries = AList.singleton Model.onCpu [some t]) (sendable : t.Sendable) :
    c.Keeps t := by
  -- What can be sent stands for a map.
  obtain ⟨map, represents, _⟩ := sendable.stored
  exact ⟨tries, map, represents⟩

variable {env : External} {server : String} {c c' : CpuDetector}

/-- An event puts a sample into the trie, or nothing. -/
theorem Sends.processEvent (sends : Sends server c) (other : server ≠ defaultServer)
    {e : SpyEvent} {block : Option DataBlock}
    (short : ∀ sample ∈ (CpuAction.event e).sample, sample.1.length ≤ maxAlloc)
    (processed : c.processEvent env e = some (c', block)) : Sends server c' := by
  -- Only an on-CPU event touches the trie.
  by_cases oncpu : e.name = Model.onCpu
  · obtain ⟨t, keeps, sendable⟩ := sends.keeps
    obtain ⟨stack, count⟩ := oncpuScan_sample c.sampleRate e
    have scanned : Keeps { c with sampleRate := (oncpuScan c.sampleRate e).sampleRate } t :=
      ⟨keeps.tries, keeps.represents⟩
    have allocated : e.sampleStack.length ≤ maxAlloc :=
      short (e.sampleStack, e.sampleCount) (by simp [CpuAction.sample, oncpu])
    obtain ⟨t', inserted, sendable'⟩ :=
      scanned.insertStack_sendable sendable allocated e.sampleCount
    have differs : c.server ≠ defaultServer := sends.server ▸ other
    rw [CpuDetector.processEvent, if_neg (by simp [oncpu, Model.onCpu, Model.offCpu]),
      if_pos oncpu, CpuDetector.oncpuHandler] at processed
    simp only [if_pos differs, oncpu, stack, count, inserted, Option.map_some, Option.some.injEq,
      Prod.mk.injEq] at processed
    obtain ⟨rfl, _⟩ := processed
    exact ⟨sends.server, ⟨t', keeps_of_sendable rfl sendable', sendable'⟩, sends.jobs⟩
  · -- Every other event leaves the state as it is.
    obtain ⟨block', kept⟩ := processEvent_other env c oncpu
    obtain ⟨rfl, _⟩ := Prod.mk.inj (Option.some.inj (kept.symm.trans processed))
    exact sends

/-- A tick hands the trie over, or leaves it. -/
theorem Sends.uploadTries (sends : Sends server c) {order : RangeOrder String} {endTime : Time}
    (ticked : c.uploadTries env order endTime = some c') : Sends server c' := by
  -- After a tick with an upload the trie is a new one.
  obtain ⟨t, keeps, sendable⟩ := sends.keeps
  have fresh : ∀ {c : CpuDetector}, c.tries = AList.singleton Model.onCpu [some Trie.new] →
      ∃ t, c.Keeps t ∧ t.Sendable := fun tries =>
    ⟨Trie.new, keeps_of_sendable tries Trie.new_sendable, Trie.new_sendable⟩
  by_cases first : c.startTimeTruncated = 0
  · simp only [CpuDetector.uploadTries, first, ne_eq, not_true_eq_false, if_false,
      Option.map_some, Option.some.injEq] at ticked
    subst ticked
    exact ⟨sends.server, ⟨t, ⟨keeps.tries, keeps.represents⟩, sendable⟩, sends.jobs⟩
  · rw [keeps.uploadTries first] at ticked
    split at ticked
    · cases ticked
      exact ⟨sends.server, fresh rfl, sends.jobs⟩
    · obtain ⟨up, found, rfl⟩ := Option.map_eq_some_iff.mp ticked
      refine ⟨sends.server, fresh rfl, fun job member => ?_⟩
      -- The new job has the trie that was there.
      have jobs : c.handed = up.handed := by simp [handed, found]
      have split : job ∈ up.handed ∨ job = c.jobOf env endTime t := by
        simpa [handed] using member
      rcases split with old | rfl
      · exact sends.jobs job (jobs ▸ old)
      · exact sendable

/-- The profile of every job that can be sent is read back. -/
theorem uploads_read (cfg : RemoteConfig) {jobs : List UploadJob}
    (sendable : ∀ job ∈ jobs, job.trie.Sendable) :
    ∃ uploads, jobs.mapM cfg.uploadProfile = some uploads ∧
      ∀ limit, (∀ job ∈ jobs, Within limit job.trie.root.size) →
        uploads.map (fun upload => deserialize limit upload.body) =
          jobs.map fun job => .ok job.trie := by
  -- The induction is on the jobs, each of which is uploaded for itself.
  induction jobs with
  | nil => exact ⟨[], rfl, fun _ _ => rfl⟩
  | cons job rest ih =>
    obtain ⟨uploads, made, read⟩ := ih fun other member => sendable other (by simp [member])
    obtain ⟨bytes, written, back⟩ := (sendable job (by simp)).read
    obtain ⟨upload, here, body⟩ : ∃ upload, cfg.uploadProfile job = some upload ∧
        upload.body = bytes := by
      simp only [RemoteConfig.uploadProfile, written, Option.map_some]
      refine ⟨_, rfl, ?_⟩
      split <;> rfl
    refine ⟨upload :: uploads, ?_, fun limit within => ?_⟩
    · rw [List.mapM_cons, here, made]
      rfl
    · rw [List.map_cons, List.map_cons, body, back limit (within job (by simp)),
        read limit fun other member => within other (by simp [member])]

/--
What a server reads out of all profiles, with what is still in the trie, is every sample.

Every job is uploaded, and its profile is read back as the trie that was handed over with it. The
trie may have as many nodes as the reader's slices hold pointers.
-/
theorem profiles_conserve (env : External) (server : String) (other : server ≠ defaultServer)
    (cfg : RemoteConfig) (actions : List CpuAction)
    (short : ∀ action ∈ actions, ∀ sample ∈ action.sample, sample.1.length ≤ maxAlloc)
    (c : CpuDetector) (ran : run (step env) (start server (some cfg)) actions = some c) :
    ∃ uploads, c.handed.mapM cfg.uploadProfile = some uploads ∧
      (∀ limit, (∀ job ∈ c.handed, Within limit job.trie.root.size) →
        uploads.map (fun upload => deserialize limit upload.body) =
          c.handed.map fun job => .ok job.trie) ∧
      ∀ stack, stack ≠ [] →
        (c.handed.map fun job => job.trie.get stack).sum +
          c.holding Model.onCpu stack = collected actions stack := by
  have allowed : Allowed (step env)
      (fun _ action => ∀ sample ∈ action.sample, sample.1.length ≤ maxAlloc)
      (start server (some cfg)) actions :=
    allowed_everywhere fun action member _ => short action member
  -- What is conserved and what can be sent are carried along the run.
  have both : Conserved server actions c ∧ Sends server c := by
    refine run_history_allowed (fun past c => Conserved server past c ∧ Sends server c)
      ⟨start_conserved server _, start_sends server _⟩ ?_ allowed ran
    rintro past state action next ⟨conserved, sends⟩ allocated taken
    cases action with
    | event e =>
      obtain ⟨c', block, processed, _, after⟩ := conserved.processEvent env other e
      obtain rfl : c' = next := by simpa [step, processed] using taken
      exact ⟨after, sends.processEvent other allocated processed⟩
    | tick endTime order => exact ⟨conserved.uploadTries env taken, sends.uploadTries taken⟩
  obtain ⟨conserved, sends⟩ := both
  obtain ⟨uploads, made, read⟩ := uploads_read cfg sends.jobs
  exact ⟨uploads, made, read, conserved.accounted⟩

/-- Samples before the first tick and between two ticks are read out of one profile. -/
theorem profiles_conserve_two_ticks :
    ∃ c uploads, run (step plainExternal) (start "http://pyroscope:4040" (some ⟨"", 2, "", 5⟩))
        [.event hitEvent, .tick 10 .listed, .event hitEvent, .tick 20 .listed] = some c ∧
      c.handed.mapM (RemoteConfig.uploadProfile ⟨"", 2, "", 5⟩) = some uploads ∧
      (∀ limit, (∀ job ∈ c.handed, Within limit job.trie.root.size) →
        uploads.map (fun upload => deserialize limit upload.body) =
          c.handed.map fun job => .ok job.trie) ∧
      (c.handed.map fun job => job.trie.get [97]).sum + c.holding Model.onCpu [97] =
        collected [.event hitEvent, .tick 10 .listed, .event hitEvent, .tick 20 .listed] [97] := by
  -- The stack of the samples is one byte long.
  obtain ⟨c, ran⟩ : ∃ c, run (step plainExternal)
      (start "http://pyroscope:4040" (some ⟨"", 2, "", 5⟩))
      [.event hitEvent, .tick 10 .listed, .event hitEvent, .tick 20 .listed] = some c := by
    rw [← Option.isSome_iff_exists]
    decide +kernel
  have short : ∀ action ∈ [CpuAction.event hitEvent, .tick 10 .listed, .event hitEvent,
      .tick 20 .listed], ∀ sample ∈ action.sample, sample.1.length ≤ maxAlloc := by
    decide +kernel
  obtain ⟨uploads, made, read, sums⟩ :=
    profiles_conserve plainExternal "http://pyroscope:4040" (by decide) ⟨"", 2, "", 5⟩ _ short c ran
  exact ⟨c, uploads, ran, made, read, sums [97] (by simp)⟩

end CpuDetector

end Spycat
