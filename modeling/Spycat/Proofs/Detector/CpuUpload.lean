import Mathlib.Data.UInt
import Spycat.Detector.CpuDetector
import Spycat.Proofs.Util.TrieMap

/-! No on-CPU sample is lost or counted twice between the trie and the uploaded jobs. -/

namespace Spycat

open Lib

namespace Trie

/-- A trie reports under a key what its map stores there, absent keys counting as zero. -/
theorem get_eq {t : Trie} {map : KeyMap UInt8 UInt64} (represents : t.Represents map)
    (key : Bytes) :
    t.get key = (map key).getD 0 := by
  have listed := fun value => mem_iterate represents t.iterate_eq key value
  rw [get, iterate_eq, Option.getD_some]
  cases found : List.find? (fun entry => entry.1 == key)
      ((RadixNode.entries [] t.root).filter (·.2 > 0)) with
  | none =>
    -- Nothing is listed under the key, so its value is not positive.
    rw [List.find?_eq_none] at found
    by_contra stored
    have positive : 0 < (map key).getD 0 := UInt64.pos_iff_ne_zero.mpr fun zero => stored zero.symm
    exact found _ ((listed _).mpr ⟨positive, rfl⟩) (by simp)
  | some entry =>
    obtain ⟨name, value⟩ := entry
    have member := List.mem_of_find?_eq_some found
    obtain rfl : name = key := by simpa using List.find?_some found
    exact ((listed value).mp member).2.symm

/-- A trie without children reports nothing under a key that is not empty. -/
theorem get_isEmpty {t : Trie} {map : KeyMap UInt8 UInt64} (represents : t.Represents map)
    (empty : t.isEmpty = true) {key : Bytes} (nonempty : key ≠ []) : t.get key = 0 := by
  -- A stored key other than the empty one would run through a child.
  rw [get_eq represents]
  cases stored : map key with
  | none => rfl
  | some value =>
    obtain ⟨child, member, _⟩ := represents.holds.covered key nonempty (by simp [stored])
    have none_ : t.root.children = [] := by simpa [isEmpty] using empty
    simp [none_] at member

end Trie

/-- The last attribute under a key. -/
def SpyEvent.lastAttribute (e : SpyEvent) (key : String) : Option KeyValue :=
  e.userAttributes.reverse.find? fun kv => kv.key == key

/-- The stack that an on-CPU event carries. -/
def SpyEvent.sampleStack (e : SpyEvent) : Bytes := ((e.lastAttribute "stack").map (·.value)).getD []

/-- How often the stack of an on-CPU event was hit. -/
def SpyEvent.sampleCount (e : SpyEvent) : UInt64 :=
  ((e.lastAttribute "count").map (·.getUintValue)).getD 0

/-- One attribute sets the stack or the count, if it has the key of one of them. -/
theorem attribute_sets (scan : OncpuScan) (kv : KeyValue) :
    (scan.attribute kv).stack = (if kv.key == "stack" then kv.value else scan.stack) ∧
      (scan.attribute kv).count = if kv.key == "count" then kv.getUintValue else scan.count := by
  -- The keys are different ones, so no attribute sets both.
  unfold OncpuScan.attribute
  by_cases isCount : kv.key = "count"
  · simp [isCount]
  · by_cases isStack : kv.key = "stack"
    · simp [isStack]
    · by_cases isRate : kv.key = "sampleRate" <;> simp [isCount, isStack, isRate]

/-- A field that only elements of one kind set is what the last of them sets it to. -/
theorem foldl_last {σ α β : Type} {step : σ → α → σ} {field : σ → β} {sets : α → Bool}
    {image : α → β}
    (one : ∀ state a, field (step state a) = if sets a then image a else field state)
    (list : List α) (state : σ) :
    field (list.foldl step state) = ((list.reverse.find? sets).map image).getD (field state) := by
  induction list generalizing state with
  | nil => rfl
  | cons a rest ih =>
    rw [List.foldl_cons, ih, List.reverse_cons, List.find?_append]
    -- A later element decides, and without one the first element does.
    cases rest.reverse.find? sets with
    | some later => rfl
    | none => cases set : sets a <;> simp [one, set]

/-- The scan of an event finds its sample. -/
theorem oncpuScan_sample (sampleRate : UInt32) (e : SpyEvent) :
    (oncpuScan sampleRate e).stack = e.sampleStack ∧
      (oncpuScan sampleRate e).count = e.sampleCount :=
  -- Every attribute sets the stack, the count or neither, and the last one counts.
  ⟨foldl_last (fun scan kv => (attribute_sets scan kv).1) e.userAttributes _,
    foldl_last (fun scan kv => (attribute_sets scan kv).2) e.userAttributes _⟩

/-- The stack and the count that an event adds, if it is an on-CPU event. -/
def CpuAction.sample : CpuAction → Option (Bytes × UInt64)
  | .event e => if e.name = Model.onCpu then some (e.sampleStack, e.sampleCount) else none
  | .tick _ _ => none

/-- The sum of the counts that were processed for one stack, modulo 2^64. -/
def collected (actions : List CpuAction) (stack : Bytes) : UInt64 :=
  (((actions.filterMap CpuAction.sample).filter (·.1 = stack)).map (·.2)).sum

theorem collected_append (first second : List CpuAction) (stack : Bytes) :
    collected (first ++ second) stack = collected first stack + collected second stack := by
  -- The samples of each list are summed up.
  simp [collected, List.filterMap_append, List.filter_append]

namespace CpuDetector

/-- A detector as it is made, under a server, and with an upstream if one was made for it. -/
def start (server : String) (remote : Option RemoteConfig) : CpuDetector :=
  { new with server := server, upstream := remote.map fun cfg => { cfg := cfg, handed := [] } }

/-- The jobs that were handed to the upstream. -/
def handed (c : CpuDetector) : List UploadJob := (c.upstream.map (·.handed)).getD []

/-- What the current trie of an application holds under a stack. -/
def holding (c : CpuDetector) (appName : String) (stack : Bytes) : UInt64 :=
  match c.tries.lookup appName with
  | some (some t :: _) => t.get stack
  | _ => 0

/-- The one trie of the detector, standing for a map. -/
structure Keeps (c : CpuDetector) (t : Trie) : Prop where
  tries : c.tries = AList.singleton Model.onCpu [some t]
  represents : ∃ map, t.Represents map

theorem Keeps.lookup {c : CpuDetector} {t : Trie} (keeps : c.Keeps t) :
    c.tries.lookup Model.onCpu = some [some t] := by
  -- The map has one application, and it is asked for that one.
  rw [keeps.tries, ← AList.insert_empty]
  exact AList.lookup_insert _

/-- What the detector holds under a stack is what its one trie holds. -/
theorem Keeps.holding {c : CpuDetector} {t : Trie} (keeps : c.Keeps t) (stack : Bytes) :
    c.holding Model.onCpu stack = t.get stack := by
  -- There is one trie, and it is the current one.
  rw [CpuDetector.holding, keeps.lookup]

/-- A sample with a stack goes into the one trie. -/
theorem Keeps.insertStack_insert {c : CpuDetector} {t t' : Trie} (keeps : c.Keeps t) {stack : Bytes}
    (nonempty : stack ≠ []) {v : UInt64} (inserted : t.insert stack v [true] = some t') :
    c.insertStack Model.onCpu stack v =
      some { c with tries := AList.singleton Model.onCpu [some t'] } := by
  -- The trie already exists, so no new one is made.
  rw [CpuDetector.insertStack, if_pos (List.length_pos_of_ne_nil nonempty)]
  simp only [keeps.lookup, Option.isNone_some, Bool.false_eq_true, if_false, inserted,
    Option.map_some]
  rw [keeps.tries, AList.insert_singleton_eq]

/-- A sample adds its count under its own stack and under no other one. -/
theorem Keeps.insertStack {c : CpuDetector} {t : Trie} (keeps : c.Keeps t) (stack : Bytes)
    (v : UInt64) :
    ∃ t', c.insertStack Model.onCpu stack v =
        some { c with tries := AList.singleton Model.onCpu [some t'] } ∧
      (∃ map, t'.Represents map) ∧
      ∀ other, other ≠ [] → t'.get other = t.get other + if stack = other then v else 0 := by
  obtain ⟨map, represents⟩ := keeps.represents
  by_cases empty : stack = []
  · -- An empty stack is not put into the trie.
    subst empty
    refine ⟨t, ?_, ⟨map, represents⟩, fun other nonempty => by simp [Ne.symm nonempty]⟩
    simp [CpuDetector.insertStack, ← keeps.tries]
  · obtain ⟨root, inserted, stored⟩ := Trie.insert_represents represents stack v [true]
    refine ⟨{ t with root := root }, keeps.insertStack_insert empty inserted, ⟨_, stored⟩, ?_⟩
    intro other _
    -- The map that the trie stands for has the count added in one place.
    rw [Trie.get_eq stored, Trie.get_eq represents]
    by_cases same : other = stack
    · simp [KeyMap.store, Trie.insertValue, same]
    · simp [KeyMap.store, same, Ne.symm same]

/-- Under another server than the default one, an event's sample goes into the trie. -/
theorem Keeps.oncpuHandler {c : CpuDetector} {t : Trie} (keeps : c.Keeps t)
    (other : c.server ≠ defaultServer) {e : SpyEvent} (oncpu : e.name = Model.onCpu) :
    ∃ t' rate, c.oncpuHandler e =
        some ({ c with sampleRate := rate, tries := AList.singleton Model.onCpu [some t'] }, none) ∧
      (∃ map, t'.Represents map) ∧
      ∀ stack, stack ≠ [] →
        t'.get stack = t.get stack + if e.sampleStack = stack then e.sampleCount else 0 := by
  -- The scan finds the sample, and the sample rate it sets is not looked at.
  obtain ⟨stack, count⟩ := oncpuScan_sample c.sampleRate e
  have scanned : Keeps { c with sampleRate := (oncpuScan c.sampleRate e).sampleRate } t :=
    ⟨keeps.tries, keeps.represents⟩
  obtain ⟨t', inserted, represents, added⟩ := scanned.insertStack e.sampleStack e.sampleCount
  refine ⟨t', (oncpuScan c.sampleRate e).sampleRate, ?_, represents, added⟩
  rw [CpuDetector.oncpuHandler]
  simp only [if_pos other, oncpu, stack, count, inserted, Option.map_some]

/-- What is conserved: the jobs handed over and the current trie account for every sample. -/
structure Conserved (server : String) (past : List CpuAction) (c : CpuDetector) : Prop where
  server : c.server = server
  keeps : ∃ t, c.Keeps t
  accounted : ∀ stack, stack ≠ [] →
    (c.handed.map fun job => job.trie.get stack).sum + c.holding Model.onCpu stack =
      collected past stack
  filled : ∀ job ∈ c.handed, job.trie.isEmpty = false

/-- A detector as it is made accounts for no samples. -/
theorem start_conserved (server : String) (remote : Option RemoteConfig) :
    Conserved server [] (start server remote) := by
  -- The new detector has one empty trie, and nothing was handed over.
  have keeps : (start server remote).Keeps Trie.new :=
    ⟨by simp [start, new, initializeTries], _, Trie.new_represents⟩
  have none_ : (start server remote).handed = [] := by cases remote <;> rfl
  refine ⟨rfl, ⟨_, keeps⟩, fun stack _ => ?_, by simp [none_]⟩
  rw [keeps.holding, none_, Trie.get_eq Trie.new_represents]
  simp [collected, KeyMap.empty]

/-- A step that changes neither the jobs nor the trie accounts for no sample. -/
theorem Conserved.unchanged {server : String} {past : List CpuAction} {action : CpuAction}
    {c c' : CpuDetector} (conserved : Conserved server past c) (none_ : action.sample = none)
    (sameServer : c'.server = c.server) (sameUpstream : c'.upstream = c.upstream)
    (sameTries : c'.tries = c.tries) : Conserved server (past ++ [action]) c' := by
  -- Jobs, trie and samples are all as they were.
  obtain ⟨t, keeps⟩ := conserved.keeps
  have keeps' : c'.Keeps t := ⟨sameTries.trans keeps.tries, keeps.represents⟩
  have sameJobs : c'.handed = c.handed := by rw [handed, handed, sameUpstream]
  refine ⟨sameServer.trans conserved.server, ⟨t, keeps'⟩, ?_, ?_⟩
  · intro stack nonempty
    have before := conserved.accounted stack nonempty
    rw [keeps.holding] at before
    rw [sameJobs, keeps'.holding, before, collected_append]
    simp [collected, none_]
  · exact sameJobs ▸ conserved.filled

/-- Events of other names leave the detector as it is. -/
theorem processEvent_other (env : External) (c : CpuDetector) {e : SpyEvent}
    (other : e.name ≠ Model.onCpu) : ∃ block, c.processEvent env e = some (c, block) := by
  -- At most a record is made of the event.
  unfold CpuDetector.processEvent
  rw [if_neg other]
  split_ifs <;> exact ⟨_, rfl⟩

/-- Processing an event on the trie branch never panics and accounts for its sample. -/
theorem Conserved.processEvent (env : External) {server : String} (other : server ≠ defaultServer)
    {past : List CpuAction} {c : CpuDetector} (conserved : Conserved server past c) (e : SpyEvent) :
    ∃ c' block, c.processEvent env e = some (c', block) ∧ c'.upstream = c.upstream ∧
      Conserved server (past ++ [.event e]) c' := by
  -- Events of other names do not touch the trie.
  by_cases oncpu : e.name = Model.onCpu
  · -- The sample goes into the one trie and into the sum of its stack.
    obtain ⟨t, keeps⟩ := conserved.keeps
    obtain ⟨t', rate, handled, represents, added⟩ :=
      keeps.oncpuHandler (conserved.server ▸ other) oncpu
    have keeps' : Keeps
        { c with sampleRate := rate, tries := AList.singleton Model.onCpu [some t'] } t' :=
      ⟨rfl, represents⟩
    refine ⟨{ c with sampleRate := rate, tries := AList.singleton Model.onCpu [some t'] }, none,
      ?_, rfl, conserved.server, ⟨t', keeps'⟩, ?_, conserved.filled⟩
    · rw [CpuDetector.processEvent, if_neg (by simp [oncpu, Model.onCpu, Model.offCpu]),
        if_pos oncpu]
      exact handled
    · intro stack nonempty
      have before := conserved.accounted stack nonempty
      rw [keeps.holding] at before
      rw [keeps'.holding, added stack nonempty, collected_append, ← before, ← add_assoc]
      by_cases same : e.sampleStack = stack <;>
        simp [handed, collected, CpuAction.sample, oncpu, same]
  · -- Every other event leaves the state as it is.
    have none_ : (CpuAction.event e).sample = none := by simp [CpuAction.sample, oncpu]
    have kept : Conserved server (past ++ [.event e]) c := conserved.unchanged none_ rfl rfl rfl
    obtain ⟨block, processed⟩ := processEvent_other env c oncpu
    exact ⟨c, block, processed, rfl, kept⟩

/-- The job that a tick makes of a trie. -/
def jobOf (env : External) (c : CpuDetector) (endTime : Time) (t : Trie) : UploadJob where
  name := env.addSuffix "aa" "cpu"
  startTime := endTime - c.uploadRate
  endTime := endTime
  spyName := "ebpfspy"
  sampleRate := c.sampleRate
  trie := t

/-- After the first tick, a trie with children is handed over, and a new one takes its place. -/
theorem Keeps.uploadTries {env : External} {c : CpuDetector} {t : Trie} (keeps : c.Keeps t)
    (later : c.startTimeTruncated ≠ 0) (order : RangeOrder String) (endTime : Time) :
    c.uploadTries env order endTime =
      if t.isEmpty then
        some { c with
          tries := AList.singleton Model.onCpu [some Trie.new], startTimeTruncated := endTime }
      else c.upstream.map fun up =>
        { c with
          upstream := some { up with handed := up.handed ++ [c.jobOf env endTime t] }
          tries := AList.singleton Model.onCpu [some Trie.new]
          startTimeTruncated := endTime } := by
  have keys : c.tries.keys = [Model.onCpu] := by rw [keeps.tries]; rfl
  have visited : uploadApp env endTime c Model.onCpu =
      (uploadTrie env endTime c t).map fun c =>
        { c with tries := c.tries.insert Model.onCpu [some Trie.new] } := by
    rw [uploadApp, keeps.lookup]
    cases uploaded : uploadTrie env endTime c t <;> simp [uploadArray, uploaded]
  -- Only the one application is visited, and it has only the one trie.
  simp only [CpuDetector.uploadTries, later, ne_eq, not_false_iff, if_true, keys,
    RangeOrder.arrange_singleton, List.foldlM_cons, List.foldlM_nil, visited]
  cases empty : t.isEmpty <;> cases up : c.upstream <;>
    simp [uploadTrie, empty, up, keeps.tries, AList.insert_singleton_eq, jobOf]

/-- A tick hands the trie over once, or leaves it, and neither changes what is accounted for. -/
theorem Conserved.uploadTries (env : External) {server : String} {past : List CpuAction}
    {c c' : CpuDetector} (conserved : Conserved server past c) {order : RangeOrder String}
    {endTime : Time} (ticked : c.uploadTries env order endTime = some c') :
    Conserved server (past ++ [.tick endTime order]) c' := by
  have none_ : (CpuAction.tick endTime order).sample = none := rfl
  obtain ⟨t, keeps⟩ := conserved.keeps
  obtain ⟨map, represents⟩ := keeps.represents
  by_cases first : c.startTimeTruncated = 0
  · -- The first tick uploads nothing and clears nothing.
    simp only [CpuDetector.uploadTries, first, ne_eq, not_true, if_false, Option.map_some,
      Option.some.injEq] at ticked
    exact conserved.unchanged none_ (by rw [← ticked]) (by rw [← ticked]) (by rw [← ticked])
  · rw [keeps.uploadTries first] at ticked
    have same : ∀ stack, collected (past ++ [CpuAction.tick endTime order]) stack =
        collected past stack := by
      intro stack
      simp [collected, none_]
    have renewed : ∃ map, Trie.new.Represents map := ⟨_, Trie.new_represents⟩
    have zero : ∀ stack, Trie.new.get stack = 0 := by
      intro stack
      rw [Trie.get_eq Trie.new_represents]
      rfl
    cases empty : t.isEmpty with
    | true =>
      -- An empty trie holds no sample, so replacing it loses none.
      rw [empty, if_pos rfl, Option.some.injEq] at ticked
      subst ticked
      have keeps' : Keeps { c with
          tries := AList.singleton Model.onCpu [some Trie.new]
          startTimeTruncated := endTime } Trie.new := ⟨rfl, renewed⟩
      refine ⟨conserved.server, ⟨_, keeps'⟩, ?_, conserved.filled⟩
      intro stack nonempty
      have before := conserved.accounted stack nonempty
      rw [keeps.holding, Trie.get_isEmpty represents empty nonempty] at before
      rw [keeps'.holding, zero, same, ← before]
      rfl
    | false =>
      rw [empty] at ticked
      simp only [Bool.false_eq_true, if_false, Option.map_eq_some_iff] at ticked
      obtain ⟨up, present, rfl⟩ := ticked
      -- What the trie held is in the job from now on.
      have keeps' : Keeps { c with
          upstream := some { up with handed := up.handed ++ [c.jobOf env endTime t] }
          tries := AList.singleton Model.onCpu [some Trie.new]
          startTimeTruncated := endTime } Trie.new := ⟨rfl, renewed⟩
      have jobs : c.handed = up.handed := by rw [handed, present]; rfl
      refine ⟨conserved.server, ⟨_, keeps'⟩, ?_, ?_⟩
      · intro stack nonempty
        have before := conserved.accounted stack nonempty
        rw [keeps.holding, jobs] at before
        rw [keeps'.holding, zero, same, ← before]
        simp [handed, jobOf]
      · intro job member
        have split : job ∈ up.handed ∨ job = c.jobOf env endTime t := by
          simpa [handed] using member
        rcases split with old | rfl
        · exact conserved.filled job (jobs ▸ old)
        · exact empty

/-- With an upstream, no tick panics, and the upstream stays. -/
theorem Conserved.uploads (env : External) {server : String} {past : List CpuAction}
    {c : CpuDetector} (conserved : Conserved server past c) (present : c.upstream.isSome)
    (order : RangeOrder String) (endTime : Time) :
    ∃ c', c.uploadTries env order endTime = some c' ∧ c'.upstream.isSome := by
  -- An upload could panic only for want of an upstream.
  obtain ⟨t, keeps⟩ := conserved.keeps
  obtain ⟨up, found⟩ := Option.isSome_iff_exists.mp present
  by_cases first : c.startTimeTruncated = 0
  · exact ⟨{ c with startTimeTruncated := endTime }, by simp [CpuDetector.uploadTries, first],
      present⟩
  · rw [keeps.uploadTries first, found, Option.map_some]
    split <;> exact ⟨_, rfl, rfl⟩

/--
Jobs and current trie account for every on-CPU sample, in every state that a run reaches.

Events and ticks come in any order, and no job is handed over with an empty trie.
With an upstream no step panics.
-/
theorem uploads_conserve (env : External) (server : String) (other : server ≠ defaultServer)
    (remote : Option RemoteConfig) (actions : List CpuAction) :
    (∀ c, run (step env) (start server remote) actions = some c →
      (∀ stack, stack ≠ [] →
        (c.handed.map fun job => job.trie.get stack).sum + c.holding Model.onCpu stack =
          collected actions stack) ∧
      ∀ job ∈ c.handed, job.trie.isEmpty = false) ∧
    (remote.isSome → ∃ c, run (step env) (start server remote) actions = some c) := by
  -- What is conserved is carried along the run, and so is the upstream.
  constructor
  · intro c ran
    have conserved : Conserved server actions c := by
      refine run_history (Conserved server) (start_conserved server remote) ?_ ran
      intro past state action next carried taken
      cases action with
      | event e =>
        obtain ⟨c', block, processed, _, after⟩ := carried.processEvent env other e
        obtain rfl : c' = next := by simpa [step, processed] using taken
        exact after
      | tick endTime order => exact carried.uploadTries env taken
    exact ⟨conserved.accounted, conserved.filled⟩
  · intro installed
    have initial : Conserved server [] (start server remote) ∧
        (start server remote).upstream.isSome :=
      ⟨start_conserved server remote, by simpa [start] using installed⟩
    have accepted : ∀ past state action,
        Conserved server past state ∧ state.upstream.isSome →
        ∃ next, step env state action = some next ∧
          Conserved server (past ++ [action]) next ∧ next.upstream.isSome := by
      rintro past state action ⟨carried, present⟩
      cases action with
      | event e =>
        obtain ⟨c', block, processed, sameUpstream, after⟩ := carried.processEvent env other e
        exact ⟨c', by simp [step, processed], after, sameUpstream ▸ present⟩
      | tick endTime order =>
        obtain ⟨c', ticked, kept⟩ := carried.uploads env present order endTime
        exact ⟨c', ticked, carried.uploadTries env ticked, kept⟩
    obtain ⟨c, ran, _⟩ := run_progress
      (fun past state => Conserved server past state ∧ state.upstream.isSome) initial accepted
      actions
    exact ⟨c, ran⟩

/-- An environment that names profiles plainly and finds no host in any address. -/
def plainExternal : External where
  addSuffix := fun name suffix => name ++ "." ++ suffix
  bootTime := fun _ => []
  parseHost := fun _ => none

/-- An on-CPU event with a stack of one byte, hit three times. -/
def hitEvent : SpyEvent where
  name := Model.onCpu
  timeStamp := 0
  cls := { name := "", event := Model.onCpu }
  task := { pid := 1, tid := 1, comm := [] }
  userAttributes := [.ofUint64 "count" 3, .ofByteBuf "stack" [97]]
  bounded := by decide

/-- Samples before the first tick and between two ticks are all accounted for. -/
theorem uploads_conserve_two_ticks :
    ∃ c, run (step plainExternal) (start "http://pyroscope:4040" (some ⟨"", 2, "", 5⟩))
        [.event hitEvent, .tick 10 .listed, .event hitEvent, .tick 20 .listed] = some c ∧
      (c.handed.map fun job => job.trie.get [97]).sum + c.holding Model.onCpu [97] =
        collected [.event hitEvent, .tick 10 .listed, .event hitEvent, .tick 20 .listed] [97] := by
  -- The first tick only takes the time down, and the second one hands the trie over.
  obtain ⟨conserves, runs⟩ := uploads_conserve plainExternal "http://pyroscope:4040" (by decide)
    (some ⟨"", 2, "", 5⟩) [.event hitEvent, .tick 10 .listed, .event hitEvent, .tick 20 .listed]
  obtain ⟨c, ran⟩ := runs rfl
  exact ⟨c, ran, (conserves c ran).1 [97] (by simp)⟩

end CpuDetector

end Spycat
