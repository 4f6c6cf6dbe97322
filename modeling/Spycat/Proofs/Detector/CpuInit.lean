import Spycat.Proofs.Detector.CpuUpload

/-! Where on-CPU samples go, and whether anything takes them from there. -/

namespace Spycat

open Lib

namespace CpuDetector

/-- The detector that a configuration leaves behind. -/
def initialized (env : External) (cfg : InitConfig) : CpuDetector := (init env new cfg).1

/-- Whether the uploader runs, as decided at the start. -/
def Uploads (c : CpuDetector) : Prop := c.upstream.isSome ∧ c.uploading = true

/-- Whether samples go into the trie, as decided for every event. -/
def Collects (c : CpuDetector) : Prop := c.server ≠ defaultServer

/-- An event reaches the consumers as a record, or a trie whose contents are uploaded. -/
def ReachesSink (env : External) (c : CpuDetector) (e : SpyEvent) : Prop :=
  ∃ c' block, c.processEvent env e = some (c', block) ∧
    (block.isSome ∨
      c'.Uploads ∧ c'.holding e.name e.sampleStack =
        c.holding e.name e.sampleStack + e.sampleCount)

/-- Every on-CPU event with a stack reaches a sink, after any run of on-CPU events. -/
def LiveSinks (env : External) (cfg : InitConfig) : Prop :=
  ∀ (events : List SpyEvent) (c : CpuDetector), (∀ e ∈ events, e.name = Model.onCpu) →
    run (fun c e => (c.processEvent env e).map (·.1)) (initialized env cfg) events = some c →
    ∀ e : SpyEvent, e.name = Model.onCpu → e.sampleStack ≠ [] → c.ReachesSink env e

/-- The uploader runs just when samples go into the trie. -/
def ConditionsAgree (env : External) (cfg : InitConfig) : Prop :=
  (initialized env cfg).Uploads ↔ (initialized env cfg).Collects

/-- The configuration is an on-CPU one with the default server. -/
def IsDefault (cfg : InitConfig) : Prop := ∃ conf, cfg = .oncpu conf ∧ conf.server = defaultServer

/-- The server is taken over from an on-CPU configuration, whatever becomes of the upstream. -/
theorem server_initialized (env : External) (conf : ONCPU) :
    (initialized env (.oncpu conf)).server = conf.server := by
  -- The server is set before anything else is decided.
  simp only [initialized, init]
  split
  · rfl
  · -- Both outcomes of making the upstream keep the server.
    split <;> rfl

/-- Only a default configuration keeps samples out of the trie. -/
theorem collects_initialized (env : External) (cfg : InitConfig) :
    (initialized env cfg).Collects ↔ ¬ IsDefault cfg := by
  -- Any other value leaves the server empty, which is not the default one.
  cases cfg with
  | other => simp [initialized, init, Collects, IsDefault, new, initializeTries, defaultServer]
  | oncpu conf => simp [Collects, IsDefault, server_initialized]

/-- Without a default configuration no uploader is started. -/
theorem uploads_initialized (env : External) {cfg : InitConfig} (other : ¬ IsDefault cfg) :
    ¬ (initialized env cfg).Uploads := by
  -- The upstream is made on the one path that is not taken here.
  cases cfg with
  | other => simp [initialized, init, Uploads, new, initializeTries]
  | oncpu conf =>
    have different : conf.server ≠ defaultServer := fun same => other ⟨conf, rfl, same⟩
    simp [initialized, init, Uploads, new, initializeTries, different]

/-- Storing a stack touches neither the server nor the uploader. -/
theorem insertStack_frame {c c' : CpuDetector} {appName : String} {stack : Bytes} {v : UInt64}
    (stored : c.insertStack appName stack v = some c') :
    c'.server = c.server ∧ c'.upstream = c.upstream ∧ c'.uploading = c.uploading := by
  -- Only the two maps of tries can change.
  have initial : ∀ name, (c.initializeTries name).server = c.server ∧
      (c.initializeTries name).upstream = c.upstream ∧
      (c.initializeTries name).uploading = c.uploading := by
    intro name
    unfold initializeTries
    split <;> exact ⟨rfl, rfl, rfl⟩
  unfold insertStack at stored
  split at stored
  · -- The tries may be set up first, and then one of them is replaced.
    simp only at stored
    split at stored
    · obtain ⟨t, _, rfl⟩ := Option.map_eq_some_iff.mp stored
      simp only
      split
      · exact initial appName
      · exact ⟨rfl, rfl, rfl⟩
    · simp at stored
  · rw [Option.some.injEq] at stored
    subst stored
    exact ⟨rfl, rfl, rfl⟩

/-- Processing an on-CPU event touches neither the server nor the uploader. -/
theorem oncpuHandler_frame {c c' : CpuDetector} {e : SpyEvent} {block : Option DataBlock}
    (handled : c.oncpuHandler e = some (c', block)) :
    c'.server = c.server ∧ c'.upstream = c.upstream ∧ c'.uploading = c.uploading ∧
      (block.isSome ↔ c.server = defaultServer) := by
  -- The scan sets the sample rate, and the server decides what follows.
  unfold oncpuHandler at handled
  simp only at handled
  split at handled
  · rename_i other
    obtain ⟨next, stored, same⟩ := Option.map_eq_some_iff.mp handled
    obtain ⟨rfl, rfl⟩ := Prod.mk.inj same
    obtain ⟨server, upstream, uploading⟩ := insertStack_frame stored
    exact ⟨server, upstream, uploading, by simp [other]⟩
  · rename_i default
    simp only [Option.some.injEq, Prod.mk.injEq] at handled
    obtain ⟨rfl, rfl⟩ := handled
    exact ⟨rfl, rfl, rfl, by simpa using not_not.mp default⟩

/-- On-CPU events are dispatched to their handler. -/
theorem processEvent_oncpu (env : External) (c : CpuDetector) {e : SpyEvent}
    (oncpu : e.name = Model.onCpu) : c.processEvent env e = c.oncpuHandler e := by
  -- The name is compared with that of off-CPU events first.
  rw [processEvent, if_neg (by simp [oncpu, Model.onCpu, Model.offCpu]), if_pos oncpu]

/-- No event changes the server. -/
theorem processEvent_server {env : External} {c c' : CpuDetector} {e : SpyEvent}
    {block : Option DataBlock} (processed : c.processEvent env e = some (c', block)) :
    c'.server = c.server := by
  -- Apart from on-CPU events, handlers read the detector and do not write it.
  by_cases oncpu : e.name = Model.onCpu
  · exact (oncpuHandler_frame ((processEvent_oncpu env c oncpu).symm.trans processed)).1
  · -- Only on-CPU events change the state at all.
    unfold processEvent at processed
    rw [if_neg oncpu] at processed
    split_ifs at processed <;> simp only [Option.some.injEq, Prod.mk.injEq] at processed <;>
      rw [← processed.1]

/-- Under the default server every on-CPU event becomes a record. -/
theorem reachesSink_default (env : External) {c : CpuDetector} (default : c.server = defaultServer)
    {e : SpyEvent} (oncpu : e.name = Model.onCpu) : c.ReachesSink env e := by
  -- The handler makes a record of whatever it has scanned.
  have handled : ∃ c' block, c.oncpuHandler e = some (c', some block) := by
    simp [oncpuHandler, default]
  obtain ⟨c', block, handled⟩ := handled
  exact ⟨c', some block, (processEvent_oncpu env c oncpu).trans handled, .inl rfl⟩

/-- Under another server an on-CPU event reaches a sink only while the uploader runs. -/
theorem reachesSink_other (env : External) {c : CpuDetector} (other : c.server ≠ defaultServer)
    {e : SpyEvent} (oncpu : e.name = Model.onCpu) (reaches : c.ReachesSink env e) : c.Uploads := by
  -- No record is made, so the trie has to be uploaded.
  obtain ⟨c', block, processed, sink⟩ := reaches
  rw [processEvent_oncpu env c oncpu] at processed
  obtain ⟨_, upstream, uploading, recorded⟩ := oncpuHandler_frame processed
  rcases sink with record | ⟨⟨present, started⟩, _⟩
  · exact absurd (recorded.mp record) other
  · exact ⟨upstream ▸ present, uploading ▸ started⟩

/-- Sinks are live for a default configuration and for no other one. -/
theorem liveSinks_iff (env : External) (cfg : InitConfig) : LiveSinks env cfg ↔ IsDefault cfg := by
  constructor
  · intro live
    by_contra other
    -- Already the first event is put where nothing takes it from.
    have reaches := live [] _ (by simp) rfl hitEvent rfl (by decide)
    exact uploads_initialized env other
      (reachesSink_other env ((collects_initialized env cfg).mpr other) rfl reaches)
  · intro default events c oncpus ran e oncpu _
    refine reachesSink_default env ?_ oncpu
    have initial : (initialized env cfg).server = defaultServer := by
      by_contra other
      exact (collects_initialized env cfg).mp other default
    refine run_invariant (fun state => state.server = defaultServer) initial ?_ ran
    intro state event next server taken
    obtain ⟨⟨next', block⟩, processed, rfl⟩ := Option.map_eq_some_iff.mp taken
    exact (processEvent_server processed).trans server

/--
Neither sentence about the two conditions is as it should be.

Samples reach a live sink for a default configuration only, and the condition for starting the
uploader is never the condition for collecting samples in the trie.
-/
theorem init_disagrees (env : External)
    (parses : env.parseHost defaultServer = some "localhost:4040") (cfg : InitConfig) :
    (LiveSinks env cfg ↔ IsDefault cfg) ∧ ¬ ConditionsAgree env cfg := by
  -- A default configuration uploads what nothing collects, and any other one the other way round.
  refine ⟨liveSinks_iff env cfg, fun agree => ?_⟩
  by_cases default : IsDefault cfg
  · -- The upstream for the default server is made, and the uploader is started.
    have uploads : (initialized env cfg).Uploads := by
      obtain ⟨conf, rfl, server⟩ := default
      have token : "localhost:4040".endsWith cloudHostnameSuffix = false := by decide
      simp [initialized, init, Uploads, server, Remote.new, parses, token]
    exact (collects_initialized env cfg).mp (agree.mp uploads) default
  · exact uploads_initialized env default
      (agree.mpr ((collects_initialized env cfg).mpr default))

/-- An environment that finds the default server's host. -/
def localExternal : External where
  addSuffix := fun name suffix => name ++ "." ++ suffix
  bootTime := fun _ => []
  parseHost := fun address =>
    if address = defaultServer then some "localhost:4040" else some "pyroscope:4040"

/-- The default server satisfies what the result assumes. -/
theorem init_disagrees_default :
    (LiveSinks localExternal (.oncpu ⟨defaultServer, 2, 5⟩) ↔
        IsDefault (.oncpu ⟨defaultServer, 2, 5⟩)) ∧
      ¬ ConditionsAgree localExternal (.oncpu ⟨defaultServer, 2, 5⟩) :=
  -- The address of the default server is parsed as is assumed.
  init_disagrees localExternal (by decide) (.oncpu ⟨defaultServer, 2, 5⟩)

/-- With a server of its own, the detector collects samples that nothing uploads. -/
theorem pyroscope_not_live :
    ¬ (LiveSinks localExternal (.oncpu ⟨"http://pyroscope:4040", 2, 5⟩) ∧
      ConditionsAgree localExternal (.oncpu ⟨"http://pyroscope:4040", 2, 5⟩)) := by
  -- The configured server is not the default one.
  rintro ⟨live, _⟩
  obtain ⟨conf, same, server⟩ := (liveSinks_iff localExternal _).mp live
  cases same
  exact absurd server (by decide)

end CpuDetector

end Spycat
