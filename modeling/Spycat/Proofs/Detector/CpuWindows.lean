import Spycat.Proofs.Detector.CpuUpload
import Spycat.Util.AlignedTicker

/-! Whether the window of an uploaded job is the one in which its samples were collected. -/

namespace Spycat

open Lib

/-- A sample: a stack, and how often it was hit. -/
abbrev Sample := Bytes × UInt64

/-- The sample that an action puts into the trie of a detector with a server. -/
def CpuAction.inserted (server : String) (action : CpuAction) : Option Sample :=
  if server = defaultServer then none else action.sample.filter fun sample => sample.1 ≠ []

/-- What waits for the next upload: samples that came before the last tick, and others since. -/
structure Waiting where
  tick : Time
  early : List Sample
  since : List Sample

namespace Waiting

/-- What waits one action later; the tick after the zero time leaves all samples. -/
def take (server : String) (w : Waiting) (action : CpuAction) : Waiting :=
  match action with
  | .event _ => { w with since := w.since ++ (action.inserted server).toList }
  | .tick t _ =>
    { tick := t
      early := if w.tick = 0 then w.early ++ w.since else []
      since := [] }

/-- What waits after a sequence of actions. -/
def after (server : String) (actions : List CpuAction) : Waiting :=
  actions.foldl (take server) { tick := 0, early := [], since := [] }

/-- All samples that wait. -/
def all (w : Waiting) : List Sample := w.early ++ w.since

theorem after_append (server : String) (past : List CpuAction) (action : CpuAction) :
    after server (past ++ [action]) = (after server past).take server action := by
  -- The last action is taken behind the others.
  simp [after, List.foldl_append]

end Waiting

/-- The hits of a stack among samples, modulo 2^64. -/
def hits (samples : List Sample) (stack : Bytes) : UInt64 :=
  ((samples.filter (·.1 = stack)).map (·.2)).sum

theorem hits_append (first second : List Sample) (stack : Bytes) :
    hits (first ++ second) stack = hits first stack + hits second stack := by
  -- The hits of each list are summed up.
  simp [hits, List.filter_append]

/-- The map of the stacks that were hit. -/
def hitMap (samples : List Sample) : KeyMap UInt8 UInt64 := fun stack =>
  if samples.any (·.1 = stack) then some (hits samples stack) else none

/-- A stack that was not hit counts as hit zero times. -/
theorem getD_hitMap (samples : List Sample) (stack : Bytes) :
    (hitMap samples stack).getD 0 = hits samples stack := by
  unfold hitMap
  split
  · rfl
  · rename_i absent
    -- No sample has the stack, so nothing is added up.
    have none_ : samples.filter (·.1 = stack) = [] := by
      rw [List.filter_eq_nil_iff]
      exact fun sample member same => absent (List.any_eq_true.mpr ⟨sample, member, same⟩)
    simp [hits, none_]

/-- One more sample is added to what is stored under its stack. -/
theorem hitMap_append (samples : List Sample) (stack : Bytes) (count : UInt64) :
    hitMap (samples ++ [(stack, count)]) =
      (hitMap samples).store stack
        (Trie.insertValue count [true] ((hitMap samples stack).getD 0)) := by
  -- The two maps are compared stack by stack.
  funext other
  by_cases same : other = stack
  · rw [getD_hitMap, same]
    simp [hitMap, KeyMap.store, Trie.insertValue, hits]
  · -- Another stack is hit exactly where it was before.
    have among : (samples ++ [(stack, count)]).any (·.1 = other) = samples.any (·.1 = other) := by
      simp [Ne.symm same]
    simp only [hitMap, among, KeyMap.store, same, if_false]
    simp [hits, Ne.symm same]

/-- A trie of samples has a child as soon as there is one. -/
theorem isEmpty_hitMap {t : Trie} {samples : List Sample}
    (represents : t.Represents (hitMap samples))
    (named : ∀ sample ∈ samples, sample.1 ≠ []) : t.isEmpty = true ↔ samples = [] := by
  constructor
  · intro empty
    by_contra some_
    obtain ⟨sample, member⟩ := List.exists_mem_of_ne_nil _ some_
    -- The stack of a sample runs through a child.
    have stored : (hitMap samples sample.1).isSome := by
      rw [hitMap, if_pos (List.any_eq_true.mpr ⟨sample, member, decide_eq_true rfl⟩)]
      rfl
    obtain ⟨child, below, _⟩ :=
      represents.holds.covered sample.1 (named sample member) stored
    have none_ : t.root.children = [] := by simpa [Trie.isEmpty] using empty
    simp [none_] at below
  · rintro rfl
    by_contra filled
    have some_ : t.root.children ≠ [] := by simpa [Trie.isEmpty] using filled
    obtain ⟨child, member⟩ := List.exists_mem_of_ne_nil _ some_
    obtain ⟨rest, stored⟩ := represents.holds.exists_key_below member
    simp [hitMap] at stored

/-- What a trie of samples reports under a stack is how often the stack was hit. -/
theorem get_hitMap {t : Trie} {samples : List Sample} (represents : t.Represents (hitMap samples))
    (stack : Bytes) : t.get stack = hits samples stack := by
  -- The trie stands for the map, which counts the hits.
  rw [Trie.get_eq represents, getD_hitMap]

/-- The times of the ticks among actions. -/
def ticks (actions : List CpuAction) : List Time :=
  actions.filterMap fun
    | .event _ => none
    | .tick t _ => some t

/-- The actions since the last tick. -/
def sinceTick (actions : List CpuAction) : List CpuAction :=
  actions.foldl (fun since action =>
    match action with
    | .event _ => since ++ [action]
    | .tick _ _ => []) []

namespace Waiting

/-- The tick that is remembered is the last one. -/
theorem after_tick (server : String) (actions : List CpuAction) :
    (after server actions).tick = (ticks actions).getLast?.getD 0 := by
  -- The induction takes the actions from the end, where the last tick is.
  induction actions using List.reverseRecOn with
  | nil => rfl
  | append_singleton past action ih =>
    rw [after_append]
    cases action with
    | event e => simpa [take, ticks] using ih
    | tick t order => simp [take, ticks]

/-- Every sample that waits came from an action, and has a stack. -/
theorem after_named (server : String) (actions : List CpuAction) :
    ∀ sample ∈ (after server actions).all, sample.1 ≠ [] ∧ server ≠ defaultServer := by
  -- A tick only drops samples, and an event adds at most its own.
  induction actions using List.reverseRecOn with
  | nil => simp [after, all]
  | append_singleton past action ih =>
    rw [after_append]
    cases action with
    | event e =>
      intro sample member
      have split : sample ∈ (after server past).all ∨
          sample ∈ ((CpuAction.event e).inserted server).toList := by
        simpa [take, all, or_assoc] using member
      rcases split with old | new
      · exact ih sample old
      · -- The default server takes no samples, and an empty stack is passed over.
        by_cases default_ : server = defaultServer
        · simp [CpuAction.inserted, default_] at new
        · simp only [CpuAction.inserted, if_neg default_, Option.mem_toList,
            Option.filter_eq_some_iff] at new
          exact ⟨by simpa using new.2, default_⟩
    | tick t order =>
      intro sample member
      refine ih sample ?_
      unfold take at member
      by_cases first : (after server past).tick = 0
      · simpa [all, first] using member
      · simp [all, first] at member

/-- The samples since the last tick are those of the actions since then. -/
theorem after_since {server : String} (other : server ≠ defaultServer) (actions : List CpuAction)
    {stack : Bytes} (nonempty : stack ≠ []) :
    hits (after server actions).since stack = collected (sinceTick actions) stack := by
  -- A tick starts both lists anew, and an event adds its sample to both.
  induction actions using List.reverseRecOn with
  | nil => rfl
  | append_singleton past action ih =>
    rw [after_append]
    cases action with
    | tick t order => simp [take, sinceTick, hits, collected]
    | event e =>
      have further : sinceTick (past ++ [.event e]) = sinceTick past ++ [.event e] := by
        simp [sinceTick, List.foldl_append]
      -- A sample with an empty stack is a sample of another stack.
      have one : hits ((CpuAction.event e).inserted server).toList stack =
          collected [.event e] stack := by
        by_cases oncpu : e.name = Model.onCpu
        · by_cases empty : e.sampleStack = []
          · simp [CpuAction.inserted, other, CpuAction.sample, oncpu, empty, hits, collected,
              Option.filter, Ne.symm nonempty]
          · simp [CpuAction.inserted, other, CpuAction.sample, oncpu, empty, hits, collected,
              Option.filter]
        · simp [CpuAction.inserted, other, CpuAction.sample, oncpu, hits, collected]
      rw [further, collected_append, ← ih, ← one, ← hits_append]
      rfl

end Waiting

namespace CpuDetector

/-- A detector with an upstream, whose one trie holds what waits after the actions so far. -/
structure Filled (server : String) (past : List CpuAction) (c : CpuDetector) : Prop where
  under : c.server = server
  rate : c.uploadRate = 10 * 10 ^ 9
  tick : c.startTimeTruncated = (Waiting.after server past).tick
  present : c.upstream.isSome
  keeps : ∃ t, c.tries = AList.singleton Model.onCpu [some t] ∧
    t.Represents (hitMap (Waiting.after server past).all)

/-- The jobs that an action hands over where something waits. -/
inductive Hands (env : External) (w : Waiting) (c : CpuDetector) :
    CpuAction → List UploadJob → Prop
  | event (e : SpyEvent) : Hands env w c (.event e) []
  | idle (t : Time) (order : RangeOrder String) (nothing : w.tick = 0 ∨ w.all = []) :
      Hands env w c (.tick t order) []
  | job (t : Time) (order : RangeOrder String) (trie : Trie) (later : w.tick ≠ 0)
      (waits : w.all ≠ []) (represents : trie.Represents (hitMap w.all)) :
      Hands env w c (.tick t order) [c.jobOf env t trie]

/-- A new detector with an upstream is filled with nothing. -/
theorem start_filled (server : String) (cfg : RemoteConfig) :
    Filled server [] (start server (some cfg)) :=
  -- No sample has come yet, and the one trie is empty.
  ⟨rfl, rfl, rfl, rfl, Trie.new, by simp [start, new, initializeTries], Trie.new_represents⟩

/-- An event that inserts nothing leaves what the detector is filled with. -/
theorem Filled.passes {server : String} {past : List CpuAction} {c : CpuDetector}
    (filled : Filled server past c) {e : SpyEvent}
    (none_ : (CpuAction.event e).inserted server = none) (rate : UInt32) :
    Filled server (past ++ [.event e]) { c with sampleRate := rate } := by
  -- Nothing is added to what waits, and the rate of the samples plays no part in it.
  have same : Waiting.after server (past ++ [.event e]) = Waiting.after server past := by
    rw [Waiting.after_append]
    simp [Waiting.take, none_]
  exact ⟨filled.under, filled.rate, same ▸ filled.tick, filled.present, same ▸ filled.keeps⟩

/-- An on-CPU event under another server than the default one fills its sample in. -/
theorem Filled.oncpuHandler {server : String} {past : List CpuAction} {c : CpuDetector}
    (filled : Filled server past c) (other : server ≠ defaultServer) {e : SpyEvent}
    (oncpu : e.name = Model.onCpu) :
    ∃ c', c.oncpuHandler e = some (c', none) ∧ c'.upstream = c.upstream ∧
      Filled server (past ++ [.event e]) c' := by
  -- The sample that the handler scans out of the event is the one that waits from now on.
  obtain ⟨t, tries, represents⟩ := filled.keeps
  obtain ⟨stack, count⟩ := oncpuScan_sample c.sampleRate e
  have others : c.server ≠ defaultServer := filled.under ▸ other
  by_cases empty : e.sampleStack = []
  · -- An empty stack is not put into the trie.
    have none_ : (CpuAction.event e).inserted server = none := by
      simp [CpuAction.inserted, CpuAction.sample, other, oncpu, empty, Option.filter]
    refine ⟨{ c with sampleRate := (oncpuScan c.sampleRate e).sampleRate }, ?_, rfl,
      filled.passes none_ _⟩
    simp [CpuDetector.oncpuHandler, others, stack, empty, CpuDetector.insertStack]
  · have some_ : (CpuAction.event e).inserted server = some (e.sampleStack, e.sampleCount) := by
      simp [CpuAction.inserted, CpuAction.sample, other, oncpu, empty, Option.filter]
    have after : Waiting.after server (past ++ [.event e]) =
        { Waiting.after server past with
          since := (Waiting.after server past).since ++ [(e.sampleStack, e.sampleCount)] } := by
      rw [Waiting.after_append]
      simp [Waiting.take, some_]
    have all : (Waiting.after server (past ++ [.event e])).all =
        (Waiting.after server past).all ++ [(e.sampleStack, e.sampleCount)] := by
      rw [after]
      simp [Waiting.all]
    obtain ⟨root, inserted, stored⟩ :=
      Trie.insert_represents represents e.sampleStack e.sampleCount [true]
    rw [← hitMap_append, ← all] at stored
    have keeps : Keeps { c with sampleRate := (oncpuScan c.sampleRate e).sampleRate } t :=
      ⟨tries, _, represents⟩
    have put := keeps.insertStack_insert empty inserted
    have handled : c.oncpuHandler e = some ({ c with
        sampleRate := (oncpuScan c.sampleRate e).sampleRate
        tries := AList.singleton Model.onCpu [some { t with root := root }] }, none) := by
      simp only [CpuDetector.oncpuHandler, if_pos others, stack, count, oncpu, put, Option.map_some]
    have ticked : c.startTimeTruncated = (Waiting.after server (past ++ [.event e])).tick := by
      rw [after]
      exact filled.tick
    exact ⟨_, handled, rfl, filled.under, filled.rate, ticked, filled.present, _, rfl, stored⟩

/-- Processing an event hands nothing over. -/
theorem Filled.processEvent (env : External) {server : String} {past : List CpuAction}
    {c : CpuDetector} (filled : Filled server past c) (e : SpyEvent) :
    ∃ c' block, c.processEvent env e = some (c', block) ∧ c'.upstream = c.upstream ∧
      Filled server (past ++ [.event e]) c' := by
  -- Only on-CPU events are put into the trie.
  by_cases oncpu : e.name = Model.onCpu
  · have handler : c.processEvent env e = c.oncpuHandler e := by
      rw [CpuDetector.processEvent, if_neg (by simp [oncpu, Model.onCpu, Model.offCpu]),
        if_pos oncpu]
    rw [handler]
    by_cases default_ : server = defaultServer
    · -- Under the default server the sample goes into a record.
      have none_ : (CpuAction.event e).inserted server = none := by
        simp [CpuAction.inserted, default_]
      have recorded : ∃ block, c.oncpuHandler e =
          some ({ c with sampleRate := (oncpuScan c.sampleRate e).sampleRate }, block) := by
        simp only [CpuDetector.oncpuHandler, filled.under, default_, ne_eq, not_true, if_false]
        exact ⟨_, rfl⟩
      obtain ⟨block, recorded⟩ := recorded
      exact ⟨_, block, recorded, rfl, filled.passes none_ _⟩
    · obtain ⟨c', handled, same, kept⟩ := filled.oncpuHandler default_ oncpu
      exact ⟨c', none, handled, same, kept⟩
  · -- Every other event leaves the state as it is.
    have none_ : (CpuAction.event e).inserted server = none := by
      simp [CpuAction.inserted, CpuAction.sample, oncpu]
    obtain ⟨block, processed⟩ := processEvent_other env c oncpu
    exact ⟨c, block, processed, rfl, filled.passes none_ c.sampleRate⟩

/-- A tick hands over what waits, and leaves it where no tick came before. -/
theorem Filled.uploadTries (env : External) {server : String} {past : List CpuAction}
    {c : CpuDetector} (filled : Filled server past c) (order : RangeOrder String) (t : Time) :
    ∃ c' jobs, c.uploadTries env order t = some c' ∧ c'.handed = c.handed ++ jobs ∧
      Hands env (Waiting.after server past) c (.tick t order) jobs ∧
      Filled server (past ++ [.tick t order]) c' := by
  -- Whether a tick came before decides what happens to the trie.
  obtain ⟨trie, tries, represents⟩ := filled.keeps
  obtain ⟨up, present⟩ := Option.isSome_iff_exists.mp filled.present
  have after := Waiting.after_append server past (.tick t order)
  by_cases first : (Waiting.after server past).tick = 0
  · -- The tick after the zero time only takes its time down, and all samples stay.
    have all : (Waiting.after server (past ++ [.tick t order])).all =
        (Waiting.after server past).all := by
      rw [after]
      simp [Waiting.take, Waiting.all, first]
    refine ⟨{ c with startTimeTruncated := t }, [], ?_, by simp [handed],
      .idle t order (.inl first), filled.under, filled.rate, by rw [after]; rfl, filled.present,
      trie, tries, all ▸ represents⟩
    simp [CpuDetector.uploadTries, filled.tick, first]
  · have keeps : c.Keeps trie := ⟨tries, _, represents⟩
    have none_ : hitMap (Waiting.after server (past ++ [.tick t order])).all = KeyMap.empty := by
      rw [after]
      funext stack
      simp [Waiting.take, Waiting.all, first, hitMap, KeyMap.empty]
    have fresh : Trie.new.Represents
        (hitMap (Waiting.after server (past ++ [.tick t order])).all) := by
      rw [none_]
      exact Trie.new_represents
    have empty := isEmpty_hitMap represents fun sample member =>
      (Waiting.after_named server past sample member).1
    rw [keeps.uploadTries (filled.tick ▸ first), present, Option.map_some]
    by_cases nothing : (Waiting.after server past).all = []
    · rw [if_pos (empty.mpr nothing)]
      exact ⟨_, [], rfl, by simp [handed, present], .idle t order (.inr nothing), filled.under,
        filled.rate, by rw [after]; rfl, rfl, _, rfl, fresh⟩
    · rw [if_neg (mt empty.mp nothing)]
      exact ⟨_, [c.jobOf env t trie], rfl, by simp [handed, present],
        .job t order trie first nothing represents, filled.under, filled.rate,
        by rw [after]; rfl, rfl, _, rfl, fresh⟩

/-- Every step goes through, and hands over exactly what waits where a tick is due. -/
theorem Filled.step (env : External) {server : String} {past : List CpuAction} {c : CpuDetector}
    (filled : Filled server past c) (action : CpuAction) :
    ∃ c' jobs, c.step env action = some c' ∧ c'.handed = c.handed ++ jobs ∧
      Hands env (Waiting.after server past) c action jobs ∧
      Filled server (past ++ [action]) c' := by
  -- An event is processed, and a tick uploads.
  cases action with
  | event e =>
    obtain ⟨c', block, processed, same, kept⟩ := filled.processEvent env e
    exact ⟨c', [], by simp [CpuDetector.step, processed], by simp [handed, same], .event e, kept⟩
  | tick t order => exact filled.uploadTries env order t

/-- Every run of a detector with an upstream gets through, and its trie holds what waits. -/
theorem run_filled (env : External) (server : String) (cfg : RemoteConfig)
    (actions : List CpuAction) :
    ∃ c, run (step env) (start server (some cfg)) actions = some c ∧ Filled server actions c := by
  -- Each step of a filled detector goes through and fills it with what waits next.
  refine run_progress (Filled server) (start_filled server cfg) ?_ actions
  intro past c action filled
  obtain ⟨c', _, taken, _, _, kept⟩ := filled.step env action
  exact ⟨c', taken, kept⟩

/-- A job is uploaded at a tick that follows a part of the actions of a run. -/
def UploadsAt (env : External) (c : CpuDetector) (actions before : List CpuAction) (t : Time)
    (job : UploadJob) : Prop :=
  ∃ order reached next, before ++ [.tick t order] <+: actions ∧
    run (step env) c before = some reached ∧ reached.step env (.tick t order) = some next ∧
      next.handed = reached.handed ++ [job]

/-- The window of a job runs from the last tick to this one, as does what its trie collected. -/
structure InWindow (before : List CpuAction) (t : Time) (job : UploadJob) : Prop where
  ends : job.endTime = t
  starts : (ticks before).getLast? = some job.startTime
  collects : ∀ stack, stack ≠ [] → job.trie.get stack = collected (sinceTick before) stack

/-- In a run of a detector, every job has the window of what it collected, and windows adjoin. -/
structure WindowsRight (env : External) (c : CpuDetector) (actions : List CpuAction) : Prop where
  inWindow : ∀ before t job, UploadsAt env c actions before t job → InWindow before t job
  adjoin : ∀ before t job before' t' job', UploadsAt env c actions before t job →
    UploadsAt env c actions before' t' job' → ticks before' = ticks before ++ [t] →
      job'.startTime = job.endTime
  apart : ∀ before t job before' t' job', UploadsAt env c actions before t job →
    UploadsAt env c actions before' t' job' → ticks before ++ [t] <+: ticks before' →
      (ticks before').Pairwise (· < ·) → job.endTime ≤ job'.startTime

/--
Where something waits at a later tick, the tick is one upload rate after the last one.

What waits then was not collected before the tick that the window starts with.
-/
def Prompt (server : String) (actions : List CpuAction) : Prop :=
  ∀ before t order, before ++ [.tick t order] <+: actions →
    (Waiting.after server before).tick ≠ 0 → (Waiting.after server before).all ≠ [] →
      t = (Waiting.after server before).tick + 10 * 10 ^ 9 ∧
        ∀ stack, hits (Waiting.after server before).early stack = 0

/-- A job that is uploaded carries a trie of what waits, and a tick came before. -/
theorem uploaded {env : External} {server : String} {cfg : RemoteConfig}
    {actions before : List CpuAction} {t : Time} {job : UploadJob}
    (uploads : UploadsAt env (start server (some cfg)) actions before t job) :
    ∃ order, before ++ [.tick t order] <+: actions ∧
      (Waiting.after server before).tick ≠ 0 ∧ (Waiting.after server before).all ≠ [] ∧
        job.trie.Represents (hitMap (Waiting.after server before).all) ∧
          job.startTime = t - 10 * 10 ^ 9 ∧ job.endTime = t := by
  obtain ⟨order, reached, next, inside, ran, taken, added⟩ := uploads
  obtain ⟨c, there, filled⟩ := run_filled env server cfg before
  obtain rfl : c = reached := Option.some.inj (there.symm.trans ran)
  -- The step hands over what it hands over, so the job is the one that was made.
  obtain ⟨c', jobs, went, handed, hands, _⟩ := filled.step env (.tick t order)
  obtain rfl : c' = next := Option.some.inj (went.symm.trans taken)
  obtain rfl : jobs = [job] := List.append_cancel_left (handed.symm.trans added)
  cases hands with
  | job t order trie later waits represents =>
    exact ⟨order, inside, later, waits, represents, by rw [← filled.rate]; rfl, rfl⟩

/-- Where something waits and a tick came before, the next tick uploads a job. -/
theorem uploads_waiting (env : External) {server : String} (cfg : RemoteConfig)
    {actions before : List CpuAction} {t : Time} {order : RangeOrder String}
    (inside : before ++ [.tick t order] <+: actions)
    (later : (Waiting.after server before).tick ≠ 0)
    (waits : (Waiting.after server before).all ≠ []) :
    ∃ job, UploadsAt env (start server (some cfg)) actions before t job := by
  -- The run up to the tick gets there, and what waits then is handed over.
  obtain ⟨c, ran, filled⟩ := run_filled env server cfg before
  obtain ⟨c', jobs, taken, handed, hands, _⟩ := filled.step env (.tick t order)
  cases hands with
  | idle t order nothing => exact absurd nothing (by simp [later, waits])
  | job t order trie => exact ⟨_, order, c, c', inside, ran, taken, handed⟩

/-- A job has its window right exactly where its tick is prompt. -/
theorem inWindow_iff {server : String} {before : List CpuAction} {t : Time} {job : UploadJob}
    (later : (Waiting.after server before).tick ≠ 0)
    (waits : (Waiting.after server before).all ≠ [])
    (represents : job.trie.Represents (hitMap (Waiting.after server before).all))
    (starts : job.startTime = t - 10 * 10 ^ 9) (ends : job.endTime = t) :
    InWindow before t job ↔ t = (Waiting.after server before).tick + 10 * 10 ^ 9 ∧
      ∀ stack, hits (Waiting.after server before).early stack = 0 := by
  have named := Waiting.after_named server before
  have other : server ≠ defaultServer := by
    obtain ⟨sample, member⟩ := List.exists_mem_of_ne_nil _ waits
    exact (named sample member).2
  -- The trie holds what waited before the last tick on top of what came since.
  have held : ∀ stack, stack ≠ [] → job.trie.get stack =
      hits (Waiting.after server before).early stack + collected (sinceTick before) stack := by
    intro stack nonempty
    rw [get_hitMap represents, Waiting.all, hits_append, Waiting.after_since other before nonempty]
  have last : (ticks before).getLast? = some (Waiting.after server before).tick := by
    have remembered := Waiting.after_tick server before
    cases found : (ticks before).getLast? with
    | none => simp [found] at remembered; exact absurd remembered later
    | some tick => simp [found] at remembered; rw [remembered]
  constructor
  · intro right
    refine ⟨?_, fun stack => ?_⟩
    · have same := Option.some.inj (last.symm.trans right.starts)
      rw [same, starts]
      exact (Int.sub_add_cancel t _).symm
    · by_cases empty : stack = []
      · -- No sample has the empty stack.
        have none_ : (Waiting.after server before).early.filter (·.1 = stack) = [] := by
          simp only [List.filter_eq_nil_iff, decide_eq_true_eq]
          intro sample member same
          exact (named sample (List.mem_append_left _ member)).1 (same.trans empty)
        simp [hits, none_]
      · exact left_eq_add.mp ((right.collects stack empty).symm.trans
          ((held stack empty).trans (add_comm _ _))) 
  · intro condition
    obtain ⟨prompt, none_⟩ := condition
    refine ⟨ends, ?_, fun stack nonempty => by rw [held stack nonempty, none_, zero_add]⟩
    rw [last, starts, prompt]
    exact congrArg some (Int.add_sub_cancel _ _).symm

/-- The windows of the uploaded jobs are right exactly in the runs with prompt ticks. -/
theorem windows_right_iff (env : External) (server : String) (cfg : RemoteConfig)
    (actions : List CpuAction) :
    WindowsRight env (start server (some cfg)) actions ↔ Prompt server actions := by
  -- Each upload is compared with the tick that it was made at.
  constructor
  · intro right before t order inside later waits
    -- What waits is uploaded, and the window of that job is right.
    obtain ⟨job, uploads⟩ := uploads_waiting env cfg inside later waits
    obtain ⟨_, _, _, _, represents, starts, ends⟩ := uploaded uploads
    exact (inWindow_iff later waits represents starts ends).mp (right.inWindow before t job uploads)
  · intro prompt
    have inWindow : ∀ before t job, UploadsAt env (start server (some cfg)) actions before t job →
        InWindow before t job := by
      intro before t job uploads
      obtain ⟨order, inside, later, waits, represents, starts, ends⟩ := uploaded uploads
      exact (inWindow_iff later waits represents starts ends).mpr
        (prompt before t order inside later waits)
    refine ⟨inWindow, ?_, ?_⟩
    · -- The window of the next tick starts with the last tick, where the earlier window ends.
      intro before t job before' t' job' uploads uploads' next
      have right := inWindow before t job uploads
      have right' := (inWindow before' t' job' uploads').starts
      rw [next, List.getLast?_concat, Option.some.injEq] at right'
      rw [← right', right.ends]
    · intro before t job before' t' job' uploads uploads' ⟨between, ticked⟩ increasing
      have right' := (inWindow before' t' job' uploads').starts
      rw [(inWindow before t job uploads).ends]
      rw [← ticked] at right' increasing
      -- The last tick is the earlier one or comes after it.
      rcases List.eq_nil_or_concat between with rfl | ⟨between, last, rfl⟩
      · simp only [List.append_nil, List.getLast?_concat, Option.some.injEq] at right'
        exact right'.le
      · rw [List.concat_eq_append, ← List.append_assoc, List.getLast?_concat,
          Option.some.injEq] at right'
        rw [List.pairwise_append] at increasing
        exact (right' ▸ increasing.2.2 t (by simp) last (by simp)).le

/-- Ticks of a ticker that drops none are prompt, as long as no sample came before the first. -/
theorem prompt_of_ticker {server : String} {actions : List CpuAction} (now : Int) (count : Nat)
    (ticked : ticks actions = (List.range count).map fun i : Nat =>
      AlignedTicker.aligned (now + i * (10 * 10 ^ 9)) (10 * 10 ^ 9))
    (quiet : ∀ before stack, before <+: actions →
      hits (Waiting.after server before).early stack = 0) : Prompt server actions := by
  intro before t order inside later waits
  refine ⟨?_, fun stack => quiet before stack ((List.prefix_append ..).trans inside)⟩
  have further : ticks before ++ [t] <+: ticks actions := by
    have kept := inside.filterMap fun
      | CpuAction.event _ => none
      | .tick t _ => some t
    simpa [ticks] using kept
  -- Both ticks stand where the ticker puts them, next to each other.
  have placed : ∀ (i : Nat) (tick : Time), (ticks before ++ [t])[i]? = some tick →
      tick = AlignedTicker.aligned (now + i * (10 * 10 ^ 9)) (10 * 10 ^ 9) := by
    intro i tick found
    obtain ⟨inside, here⟩ := List.getElem?_eq_some_iff.mp found
    have listed := List.prefix_iff_getElem?.mp further i inside
    rw [ticked, here, List.getElem?_map, Option.map_eq_some_iff] at listed
    obtain ⟨j, counted, rfl⟩ := listed
    obtain ⟨short, rfl⟩ := List.getElem?_eq_some_iff.mp counted
    rw [List.getElem_range]
  have here := placed (ticks before).length t (by simp)
  cases found : (ticks before).getLast? with
  | none => exact absurd (by simp [Waiting.after_tick, found]) later
  | some last =>
    have remembered : (Waiting.after server before).tick = last := by
      simp [Waiting.after_tick, found]
    rw [List.getLast?_eq_getElem?] at found
    have short := (List.getElem?_eq_some_iff.mp found).1
    have there := placed ((ticks before).length - 1) last
      (by rw [List.getElem?_append_left short, found])
    have next := AlignedTicker.aligned_later
      (now + ((ticks before).length - 1 : ℕ) * (10 * 10 ^ 9)) (10 * 10 ^ 9) 1
    have count_ : ((ticks before).length : Int) = ((ticks before).length - 1 : ℕ) + 1 := by omega
    rw [remembered, here, there, count_, add_mul, ← add_assoc]
    simpa using next

/-- Ticks at 10 and 20 seconds, none at 30 seconds, and a sample between the last two ticks. -/
def skippedTick : List CpuAction :=
  [.tick (AlignedTicker.first (3 * 10 ^ 9) (10 * 10 ^ 9)) .listed,
    .tick (AlignedTicker.aligned (20 * 10 ^ 9 + 1) (10 * 10 ^ 9)) .listed,
    .event hitEvent,
    .tick (AlignedTicker.aligned (40 * 10 ^ 9 + 1) (10 * 10 ^ 9)) .listed]

/-- The window of the job at 40 seconds starts at 30 seconds, where nothing ticked. -/
theorem skipped_tick_gap :
    ¬WindowsRight plainExternal
      (start "http://pyroscope:4040" (some ⟨"", 2, "", 5⟩)) skippedTick := by
  intro right
  -- The sample waits at the last tick, so a job is uploaded there.
  have uploads : ∃ job, UploadsAt plainExternal
      (start "http://pyroscope:4040" (some ⟨"", 2, "", 5⟩)) skippedTick (skippedTick.take 3)
      (AlignedTicker.aligned (40 * 10 ^ 9 + 1) (10 * 10 ^ 9)) job :=
    uploads_waiting plainExternal _ (List.prefix_refl skippedTick) (by decide) (by decide)
  obtain ⟨job, uploads⟩ := uploads
  obtain ⟨_, _, _, _, _, starts, _⟩ := uploaded uploads
  have before : (ticks (skippedTick.take 3)).getLast? = some (20 * 10 ^ 9) := by decide
  have last := (right.inWindow _ _ job uploads).starts
  rw [before, starts] at last
  exact absurd last (by decide)

end CpuDetector

end Spycat
