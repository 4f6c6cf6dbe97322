import Mathlib.Data.List.Count
import Spycat.App.ToolsConfig
import Spycat.Proofs.App.Copying

/-! The tools that a configuration file enables, against those that are stored and started. -/

namespace Spycat

open Lib

/-- Whether a configuration has its tool started. -/
def Struct.Enabled {type : StructType} (value : Struct type) : Prop :=
  value.string "Status" = enable

instance {type : StructType} (value : Struct type) : Decidable value.Enabled :=
  inferInstanceAs (Decidable (_ = _))

/-- What an input configures a tool with: its type names the tool, and it holds the struct. -/
def InputConfig.value? (cf : InputConfig) (tool : Tool) : Option (Struct tool.yaml) :=
  match Tool.ofName cf.type, cf.config with
  | some named, .yaml held val =>
    if ok : held = tool ∧ named = tool then some (ok.1 ▸ val) else none
  | _, _ => none

/-- What a file configures a tool with, in the order of its inputs. -/
def Config.valuesOf (cfg : Config) (tool : Tool) : List (Struct tool.yaml) :=
  cfg.inputs.filterMap (·.value? tool)

/-- A tool is found under its name. -/
@[simp]
theorem Tool.ofName_name (tool : Tool) : Tool.ofName tool.name = some tool := by
  -- There are five tools, and no name is that of an earlier one.
  cases tool <;> decide

/-- Tools have different names. -/
theorem Tool.name_injective : Function.Injective Tool.name := by
  -- The tool is found again under its name.
  intro tool other same
  have found := congrArg Tool.ofName same
  simpa using found

/-- A tool that is stored for is the only one that changes. -/
theorem ToolsConfig.stored_store (toolsConfig : ToolsConfig) (tool other : Tool)
    (value : Struct tool.yaml) :
    (toolsConfig.store tool value).stored other =
      if same : tool = other then same ▸ value else toolsConfig.stored other := by
  -- Each tool has a field of its own, so one field is set and the others stay.
  cases tool <;> cases other <;> rfl

/-- Storing starts no tool. -/
@[simp]
theorem ToolsConfig.tools_store (toolsConfig : ToolsConfig) (tool : Tool)
    (value : Struct tool.yaml) : (toolsConfig.store tool value).tools = toolsConfig.tools := by
  -- The list of names is none of the fields that are set.
  cases tool <;> rfl

/-- Starting a tool stores nothing. -/
@[simp]
theorem ToolsConfig.stored_append (toolsConfig : ToolsConfig) (name : String) (tool : Tool) :
    (toolsConfig.append name).stored tool = toolsConfig.stored tool := by
  -- The list of names is none of the fields that are read.
  cases tool <;> rfl

/-- The configurations are given by the tools to start and by what is stored for each tool. -/
theorem ToolsConfig.ext_stored {first second : ToolsConfig} (tools : first.tools = second.tools)
    (stored : ∀ tool, first.stored tool = second.stored tool) : first = second := by
  -- The five fields are what is stored for the five tools, and the names are the sixth.
  obtain ⟨names, futexsnoop, offcpu, syscall, oncpu, cachestat⟩ := first
  have futexsnoops := stored .futexSnoop
  have offcpus := stored .offCpu
  have syscalls := stored .syscall
  have oncpus := stored .onCpu
  have cachestats := stored .cacheStat
  simp only [ToolsConfig.stored] at futexsnoops offcpus syscalls oncpus cachestats
  subst tools futexsnoops offcpus syscalls oncpus cachestats
  rfl

namespace ToolsConfig

/-- What an input does: nothing, or it configures one tool, which it starts if it is enabled. -/
theorem initInput_cases (toolsConfig : ToolsConfig) (cf : InputConfig) :
    (∀ tool, cf.value? tool = none) ∧ toolsConfig.initInput cf = toolsConfig ∨
    ∃ (tool : Tool) (val : Struct tool.yaml), cf.value? tool = some val ∧
      (∀ other, other ≠ tool → cf.value? other = none) ∧
      toolsConfig.initInput cf =
        if val.Enabled then (toolsConfig.store tool val).append tool.name
        else toolsConfig.store tool val := by
  -- The type has to name the tool whose struct the input holds.
  cases named : Tool.ofName cf.type with
  | none => exact .inl ⟨fun tool => by simp [InputConfig.value?, named], by simp [initInput, named]⟩
  | some tool =>
    cases holds : cf.config with
    | other =>
      exact .inl ⟨fun tool => by simp [InputConfig.value?, holds], by simp [initInput, holds]⟩
    | yaml held val =>
      by_cases same : held = tool
      · subst same
        refine .inr ⟨held, val, by simp [InputConfig.value?, named, holds], ?_, ?_⟩
        · intro other different
          simp [InputConfig.value?, named, holds, different.symm]
        · simp only [initInput, named, holds, dite_true]
          rfl
      · refine .inl ⟨fun other => ?_, by simp [initInput, named, holds, same]⟩
        have apart : ¬ (held = other ∧ tool = other) := fun both => same (both.1.trans both.2.symm)
        simp [InputConfig.value?, named, holds, apart]

/-- An input stores what it configures a tool with. -/
theorem stored_initInput (toolsConfig : ToolsConfig) (cf : InputConfig) (tool : Tool) :
    (toolsConfig.initInput cf).stored tool = (cf.value? tool).getD (toolsConfig.stored tool) := by
  rcases toolsConfig.initInput_cases cf with
      ⟨nothing, unchanged⟩ | ⟨given, val, value, others, stored⟩
  · rw [unchanged, nothing]
    rfl
  · -- The tool itself has the value, and another one keeps its own.
    have changed : (toolsConfig.initInput cf).stored tool =
        (toolsConfig.store given val).stored tool := by
      rw [stored]
      split
      · exact stored_append _ _ _
      · rfl
    rw [changed, stored_store]
    by_cases same : given = tool
    · subst same
      simp [value]
    · simp [same, others tool (Ne.symm same)]

/-- An input puts a tool on the list once if it enables the tool. -/
theorem count_initInput (toolsConfig : ToolsConfig) (cf : InputConfig) (tool : Tool) :
    (toolsConfig.initInput cf).tools.count tool.name =
      toolsConfig.tools.count tool.name +
        (cf.value? tool).toList.countP (fun value => value.Enabled) := by
  -- An input of the tool adds its name if it is enabled, and any other input adds none.
  rcases toolsConfig.initInput_cases cf with
      ⟨nothing, unchanged⟩ | ⟨given, val, value, others, stored⟩
  · rw [unchanged, nothing]
    rfl
  · rw [stored]
    by_cases same : given = tool
    · subst same
      by_cases enabled : val.Enabled
      · simp [enabled, value, append]
      · simp [enabled, value]
    · have different : given.name ≠ tool.name := fun equal => same (Tool.name_injective equal)
      rw [others tool (Ne.symm same)]
      split
      · simp [append, different]
      · simp

/-- After all inputs each tool has its last value, or what it had. -/
theorem stored_initToolsConfig (toolsConfig : ToolsConfig) (cfg : Config) (tool : Tool) :
    (toolsConfig.initToolsConfig cfg).stored tool =
      (cfg.valuesOf tool).getLast?.getD (toolsConfig.stored tool) := by
  obtain ⟨inputs, exporters⟩ := cfg
  unfold initToolsConfig Config.valuesOf
  -- The first input stores its value, and the others go on from there.
  induction inputs generalizing toolsConfig with
  | nil => rfl
  | cons cf inputs ih =>
    rw [List.foldl_cons, ih, stored_initInput, List.filterMap_cons]
    cases cf.value? tool with
    | none => rfl
    | some value => simp [List.getLast?_cons]

/-- After all inputs each tool is on the list once more for each input that enables it. -/
theorem count_initToolsConfig (toolsConfig : ToolsConfig) (cfg : Config) (tool : Tool) :
    (toolsConfig.initToolsConfig cfg).tools.count tool.name =
      toolsConfig.tools.count tool.name +
        (cfg.valuesOf tool).countP (fun value => value.Enabled) := by
  -- The induction is on the inputs, each of which adds what it adds alone.
  obtain ⟨inputs, exporters⟩ := cfg
  unfold initToolsConfig Config.valuesOf
  induction inputs generalizing toolsConfig with
  | nil => rfl
  | cons cf inputs ih =>
    rw [List.foldl_cons, ih, count_initInput, List.filterMap_cons]
    cases cf.value? tool with
    | none => simp
    | some value =>
      simp only [Option.toList_some, List.countP_cons, List.countP_nil]
      omega

/-- The list names tools only, and inputs that enable none of them leave it as it is. -/
theorem tools_initToolsConfig (toolsConfig : ToolsConfig) (cfg : Config) :
    ∃ tools : List Tool,
      (toolsConfig.initToolsConfig cfg).tools = toolsConfig.tools ++ tools.map Tool.name ∧
      ∀ tool ∈ tools, ∃ value ∈ cfg.valuesOf tool, value.Enabled := by
  obtain ⟨inputs, exporters⟩ := cfg
  unfold initToolsConfig Config.valuesOf
  induction inputs generalizing toolsConfig with
  | nil => exact ⟨[], by simp⟩
  | cons cf inputs ih =>
    obtain ⟨tools, listed, enabled⟩ := ih (toolsConfig.initInput cf)
    -- What the later inputs enable is enabled by these inputs as well.
    have later : ∀ tool ∈ tools,
        ∃ value ∈ (cf :: inputs).filterMap (·.value? tool), value.Enabled := by
      intro tool inside
      obtain ⟨value, found, on⟩ := enabled tool inside
      refine ⟨value, ?_, on⟩
      rw [List.filterMap_cons]
      cases cf.value? tool with
      | none => exact found
      | some first => exact List.mem_cons_of_mem _ found
    rw [List.foldl_cons, listed]
    rcases toolsConfig.initInput_cases cf with ⟨-, unchanged⟩ | ⟨given, val, value, -, stored⟩
    · exact ⟨tools, by rw [unchanged], later⟩
    · by_cases on : val.Enabled
      · refine ⟨given :: tools, by simp [stored, on, append], ?_⟩
        intro tool inside
        rcases List.mem_cons.mp inside with rfl | inside
        · exact ⟨val, by simp [value], on⟩
        · exact later tool inside
      · exact ⟨tools, by simp [stored, on], later⟩

end ToolsConfig

namespace ConfigGlobals

/-- Nothing is stored as enabled at the start. -/
theorem not_enabled_new (tool : Tool) : ¬ (ToolsConfig.new.stored tool).Enabled := by
  -- All fields of a new configuration have their zero values.
  cases tool <;> decide

/-- A tool is on the list once for each input that enables it and each load. -/
theorem count_loads (defaultConfig cfg : Config) (n : Nat) (tool : Tool) :
    (loads defaultConfig cfg n).toolsConfigGlobal.tools.count tool.name =
      n * (cfg.valuesOf tool).countP (fun value => value.Enabled) := by
  -- Each load goes over the same inputs once more.
  induction n with
  | zero => simp [loads, new, ToolsConfig.new]
  | succ n ih =>
    rw [Nat.succ_mul, ← ih]
    exact ToolsConfig.count_initToolsConfig _ cfg tool

/-- The last value of a tool is stored after every load but the zeroth. -/
theorem stored_loads (defaultConfig cfg : Config) (n : Nat) (tool : Tool) :
    (loads defaultConfig cfg (n + 1)).toolsConfigGlobal.stored tool =
      (cfg.valuesOf tool).getLast?.getD (ToolsConfig.new.stored tool) := by
  -- A tool without a value has the one it started with after every load.
  induction n with
  | zero => exact ToolsConfig.stored_initToolsConfig _ cfg tool
  | succ n ih =>
    have again := ToolsConfig.stored_initToolsConfig
      (loads defaultConfig cfg (n + 1)).toolsConfigGlobal cfg tool
    rw [ih] at again
    refine again.trans ?_
    cases (cfg.valuesOf tool).getLast? <;> rfl

/-- The list names tools only. -/
theorem tools_loads (defaultConfig cfg : Config) (n : Nat) :
    ∃ tools : List Tool,
      (loads defaultConfig cfg n).toolsConfigGlobal.tools = tools.map Tool.name := by
  -- A load puts names of tools behind those that are there.
  induction n with
  | zero => exact ⟨[], rfl⟩
  | succ n ih =>
    obtain ⟨earlier, before⟩ := ih
    obtain ⟨tools, listed, -⟩ :=
      (loads defaultConfig cfg n).toolsConfigGlobal.tools_initToolsConfig cfg
    exact ⟨earlier ++ tools, by rw [List.map_append, ← before]; exact listed⟩

end ConfigGlobals

/-- No tool is enabled by an input. -/
def Config.NothingEnabled (cfg : Config) : Prop :=
  ∀ tool, ∀ value ∈ cfg.valuesOf tool, ¬ value.Enabled

/-- Every tool that an input enables is enabled by its last input, by that one only, and the file
is loaded once. -/
def Config.EnabledOnce (cfg : Config) (n : Nat) : Prop :=
  ∀ tool, n = 0 ∨ (∀ value ∈ cfg.valuesOf tool, ¬ value.Enabled) ∨
    n = 1 ∧ ∃ (before : List (Struct tool.yaml)) (last : Struct tool.yaml),
      cfg.valuesOf tool = before ++ [last] ∧ last.Enabled ∧ ∀ value ∈ before, ¬ value.Enabled

/-- Every tool that an input enables can be started: there is an exporter, the tool is not the
futex tracer, and its settings are those of a session. -/
def Config.CanStart (cfg : Config) : Prop :=
  ∀ tool, ∀ value ∈ cfg.valuesOf tool, value.Enabled →
    cfg.exporters ≠ [] ∧ tool ≠ .futexSnoop ∧ tool.newSession value

/-- A tool is on the list once if its stored configuration enables it, and not at all if not. -/
def ToolsConfig.Exact (toolsConfig : ToolsConfig) : Prop :=
  ∀ tool, toolsConfig.tools.count tool.name =
    if (toolsConfig.stored tool).Enabled then 1 else 0

/-- Each enabled tool is started once, with its settings, and no other one is. -/
def ConfigGlobals.StartsExactly (globals : ConfigGlobals) : Prop :=
  ∃ started, globals.main = some started ∧
    (∀ tool, (started.map (·.tool)).count tool =
      if (globals.toolsConfigGlobal.stored tool).Enabled then 1 else 0) ∧
    ∀ start ∈ started, (globals.toolsConfigGlobal.stored start.tool).Agrees start.cfg

/-- A load counts a tool as its last value says in three cases: there was no load, the tool was
never enabled, or it was enabled once, at the end, and loaded once. -/
theorem mul_countP_eq_iff {α : Type} (enabled : α → Prop) [DecidablePred enabled] (values : List α)
    (initial : α) (off : ¬ enabled initial) (n : Nat) :
    ((n + 1) * values.countP (fun value => enabled value) =
        if enabled (values.getLast?.getD initial) then 1 else 0) ↔
      (∀ value ∈ values, ¬ enabled value) ∨
      n + 1 = 1 ∧ ∃ before last, values = before ++ [last] ∧ enabled last ∧
        ∀ value ∈ before, ¬ enabled value := by
  -- The last value decides which of the cases it can be.
  rcases List.eq_nil_or_concat' values with rfl | ⟨before, last, rfl⟩
  · simp [off]
  · have counted : (before ++ [last]).countP (fun value => enabled value) =
        before.countP (fun value => enabled value) + if enabled last then 1 else 0 := by
      simp [List.countP_append, List.countP_cons]
    have none_before : before.countP (fun value => enabled value) = 0 ↔
        ∀ value ∈ before, ¬ enabled value := by
      simp [List.countP_eq_zero]
    have split_last : (∃ before' last', before ++ [last] = before' ++ [last'] ∧ enabled last' ∧
        ∀ value ∈ before', ¬ enabled value) ↔
        enabled last ∧ ∀ value ∈ before, ¬ enabled value := by
      constructor
      · intro found
        obtain ⟨before', last', same, on, others⟩ := found
        obtain ⟨rfl, same⟩ := List.append_inj' same rfl
        obtain rfl : last = last' := by simpa using same
        exact ⟨on, others⟩
      · intro both
        exact ⟨before, last, rfl, both⟩
    rw [counted, split_last, ← none_before]
    by_cases on : enabled last
    · have not_all : ¬ ∀ value ∈ before ++ [last], ¬ enabled value :=
        fun all => all last (by simp) on
      have last_only : (before ++ [last]).getLast?.getD initial = last := by simp
      rw [last_only, if_pos on, or_iff_right not_all]
      constructor
      · intro once
        have one_load := Nat.eq_one_of_mul_eq_one_right once
        have one_value := Nat.eq_one_of_mul_eq_one_left once
        exact ⟨one_load, on, by omega⟩
      · intro once
        obtain ⟨one_load, -, none_earlier⟩ := once
        rw [one_load, none_earlier]
    · have all_before : (∀ value ∈ before ++ [last], ¬ enabled value) ↔
          ∀ value ∈ before, ¬ enabled value := by
        constructor
        · exact fun all value inside => all value (List.mem_append_left _ inside)
        · intro all value inside
          rcases List.mem_append.mp inside with inside | inside
          · exact all value inside
          · rwa [List.mem_singleton.mp inside]
      have last_only : (before ++ [last]).getLast?.getD initial = last := by simp
      rw [last_only, if_neg on, all_before, ← none_before, Nat.add_zero,
        Nat.mul_eq_zero]
      simp [on]

namespace ConfigGlobals

/-- The list is exact for the configurations that are loaded once and enable each tool once. -/
theorem exact_iff (defaultConfig cfg : Config) (n : Nat) :
    (loads defaultConfig cfg n).toolsConfigGlobal.Exact ↔ cfg.EnabledOnce n := by
  -- The number of times that a tool is listed grows with each load; what is stored does not.
  apply forall_congr'
  intro tool
  rw [count_loads]
  cases n with
  | zero =>
    have off : ¬ ((loads defaultConfig cfg 0).toolsConfigGlobal.stored tool).Enabled :=
      not_enabled_new tool
    simp [off]
  | succ n =>
    rw [stored_loads]
    have counts := mul_countP_eq_iff (fun value : Struct tool.yaml => value.Enabled)
      (cfg.valuesOf tool) (ToolsConfig.new.stored tool) (not_enabled_new tool) n
    simpa using counts

/-- A second load changes nothing exactly where nothing is enabled. -/
theorem loads_twice_iff (defaultConfig cfg : Config) :
    (loads defaultConfig cfg 2).toolsConfigGlobal = (loads defaultConfig cfg 1).toolsConfigGlobal ↔
      cfg.NothingEnabled := by
  constructor
  · -- The second load counts every enabled input again.
    intro same tool value inside enabled
    have twice := count_loads defaultConfig cfg 2 tool
    rw [same, count_loads] at twice
    have some_enabled : 0 < (cfg.valuesOf tool).countP (fun value => value.Enabled) := by
      rw [List.countP_pos_iff]
      exact ⟨value, inside, by simpa using enabled⟩
    omega
  · intro nothing
    apply ToolsConfig.ext_stored
    · -- No load puts a tool on the list.
      have empty : ∀ globals : ToolsConfig,
          (globals.initToolsConfig cfg).tools = globals.tools := by
        intro globals
        obtain ⟨tools, listed, enabled⟩ := globals.tools_initToolsConfig cfg
        cases tools with
        | nil => simpa using listed
        | cons tool tools =>
          obtain ⟨value, inside, on⟩ := enabled tool List.mem_cons_self
          exact absurd on (nothing tool value inside)
      exact empty _
    · intro tool
      rw [stored_loads, stored_loads]

end ConfigGlobals

/-- A session is made for a copy just when it is made for what was copied. -/
theorem runTool_eq (toolsConfig : ToolsConfig) {tool : Tool} (other : tool ≠ .futexSnoop) :
    ∃ cfg : Struct tool.command, (toolsConfig.stored tool).Agrees cfg ∧
      runTool toolsConfig tool =
        if tool.newSession (toolsConfig.stored tool) then some ⟨tool, cfg⟩ else none := by
  -- The two structures have the same fields, so everything is copied.
  have same := tool.yaml_eq_command_iff.mpr other
  unfold runTool
  generalize toolsConfig.stored tool = value
  revert value
  generalize tool.yaml = source at same
  subst same
  intro value
  exact ⟨value, Record.agrees_self value, by rw [copyStruct_same]; rfl⟩

/-- The futex tracer is not started. -/
theorem runTool_futexSnoop (toolsConfig : ToolsConfig) :
    runTool toolsConfig .futexSnoop = none := by
  -- The fields of the two structures have different types, so copying panics.
  unfold runTool
  rw [copyStruct_futexSnoop]
  rfl

/-- The loop starts the named tools in their order, unless it panics. -/
theorem runTools_names (toolsConfig : ToolsConfig) (tools : List Tool) :
    runTools toolsConfig (tools.map Tool.name) = tools.mapM (runTool toolsConfig) := by
  -- The induction is on the tools, each of which is found under its name.
  induction tools with
  | nil => rfl
  | cons tool tools ih => simp [runTools, ih]

/-- What one tool is started with, if it is started. -/
theorem runTool_eq_some {toolsConfig : ToolsConfig} {tool : Tool} {start : StartedTool}
    (starts : runTool toolsConfig tool = some start) :
    start.tool = tool ∧ (toolsConfig.stored start.tool).Agrees start.cfg := by
  -- A tool that starts is not the one whose structures differ.
  have other : tool ≠ .futexSnoop := by
    intro is
    subst is
    exact absurd starts (by simp [runTool_futexSnoop])
  obtain ⟨cfg, agrees, eq⟩ := runTool_eq toolsConfig other
  rw [eq] at starts
  split at starts
  · obtain rfl := Option.some.inj starts
    exact ⟨rfl, agrees⟩
  · exact absurd starts (by simp)

/-- One tool is started exactly where it is not the futex tracer and its session is made. -/
theorem runTool_isSome_iff (toolsConfig : ToolsConfig) (tool : Tool) :
    (runTool toolsConfig tool).isSome ↔
      tool ≠ .futexSnoop ∧ tool.newSession (toolsConfig.stored tool) := by
  -- Only one tool panics; for all others the session decides.
  by_cases is : tool = .futexSnoop
  · subst is
    simp [runTool_futexSnoop]
  · obtain ⟨cfg, -, eq⟩ := runTool_eq toolsConfig is
    by_cases made : tool.newSession (toolsConfig.stored tool) <;> simp [eq, is, made]

/-- A run that does not panic starts each tool, with settings that agree with the stored ones. -/
theorem mapM_runTool {toolsConfig : ToolsConfig} {tools : List Tool} {started : List StartedTool}
    (runs : tools.mapM (runTool toolsConfig) = some started) :
    started.map (·.tool) = tools ∧
      ∀ start ∈ started, (toolsConfig.stored start.tool).Agrees start.cfg := by
  -- The tools are started one after the other.
  induction tools generalizing started with
  | nil =>
    obtain rfl : [] = started := by simpa using runs
    exact ⟨rfl, by simp⟩
  | cons tool tools ih =>
    simp only [List.mapM_cons, Option.bind_eq_bind, Option.bind_eq_some_iff] at runs
    obtain ⟨start, first, others, later, same⟩ := runs
    obtain rfl : start :: others = started := by simpa using same
    obtain ⟨named, agrees⟩ := runTool_eq_some first
    obtain ⟨names, agree⟩ := ih later
    refine ⟨by rw [List.map_cons, named, names], ?_⟩
    intro other inside
    rcases List.mem_cons.mp inside with rfl | inside
    · exact agrees
    · exact agree other inside

/-- A run does not panic exactly where every tool on the list can be started. -/
theorem mapM_runTool_isSome_iff (toolsConfig : ToolsConfig) (tools : List Tool) :
    (tools.mapM (runTool toolsConfig)).isSome ↔
      ∀ tool ∈ tools, tool ≠ .futexSnoop ∧ tool.newSession (toolsConfig.stored tool) := by
  -- The induction is on the tools; the first that does not start ends the program.
  induction tools with
  | nil => simp
  | cons tool tools ih =>
    rw [List.forall_mem_cons, ← ih, ← runTool_isSome_iff]
    cases first : runTool toolsConfig tool with
    | none => simp [List.mapM_cons, first]
    | some start =>
      cases others : tools.mapM (runTool toolsConfig) <;> simp [List.mapM_cons, first, others]

namespace ConfigGlobals

/-- The program starts nothing from an empty list, and needs an exporter for any other one. -/
theorem main_eq (globals : ConfigGlobals) :
    globals.main =
      if globals.toolsConfigGlobal.tools = [] then some []
      else if globals.yamlConfigGlobal.exporters = [] then none
      else runTools globals.toolsConfigGlobal globals.toolsConfigGlobal.tools := by
  -- The checks come in this order: tools first, then exporters.
  unfold main configWithYaml runWithYaml
  cases globals.toolsConfigGlobal.tools with
  | nil => rfl
  | cons name names =>
    cases globals.yamlConfigGlobal.exporters with
    | nil => rfl
    | cons exporter exporters => rfl

/-- The program does not panic exactly where every tool on the list can be started. -/
theorem main_isSome_iff {globals : ConfigGlobals} {tools : List Tool}
    (listed : globals.toolsConfigGlobal.tools = tools.map Tool.name) :
    globals.main.isSome ↔
      ∀ tool ∈ tools, globals.yamlConfigGlobal.exporters ≠ [] ∧ tool ≠ .futexSnoop ∧
        tool.newSession (globals.toolsConfigGlobal.stored tool) := by
  -- Without tools nothing has to be there; with one, so does an exporter.
  rw [main_eq, listed, runTools_names]
  cases tools with
  | nil => simp
  | cons tool tools =>
    rw [if_neg (by simp)]
    by_cases used : globals.yamlConfigGlobal.exporters = []
    · rw [if_pos used]
      simp only [Option.isSome_none, Bool.false_eq_true, false_iff]
      intro all
      exact (all tool List.mem_cons_self).1 used
    · rw [if_neg used, mapM_runTool_isSome_iff]
      constructor
      · intro all other inside
        exact ⟨used, all other inside⟩
      · intro all other inside
        exact (all other inside).2

/-- A program that does not panic starts the tools of the list, with their settings. -/
theorem main_started {globals : ConfigGlobals} {tools : List Tool} {started : List StartedTool}
    (listed : globals.toolsConfigGlobal.tools = tools.map Tool.name)
    (ran : globals.main = some started) :
    started.map (·.tool) = tools ∧
      ∀ start ∈ started, (globals.toolsConfigGlobal.stored start.tool).Agrees start.cfg := by
  -- Only what ran to its end has started anything.
  rw [main_eq, listed, runTools_names] at ran
  cases tools with
  | nil =>
    obtain rfl : [] = started := by simpa using ran
    exact ⟨rfl, by simp⟩
  | cons tool tools =>
    rw [if_neg (by simp)] at ran
    split at ran
    · exact absurd ran (by simp)
    · exact mapM_runTool ran

/-- A program with an exact list starts exactly the enabled tools, unless it panics. -/
theorem startsExactly_iff {globals : ConfigGlobals} (right : globals.toolsConfigGlobal.Exact)
    {tools : List Tool} (listed : globals.toolsConfigGlobal.tools = tools.map Tool.name) :
    globals.StartsExactly ↔ globals.main.isSome := by
  -- What is stored is exact, so starting all of it once is the same as starting at all.
  have counts : ∀ tool, tools.count tool =
      if (globals.toolsConfigGlobal.stored tool).Enabled then 1 else 0 := by
    intro tool
    rw [← right tool, listed, List.count_map_of_injective tools Tool.name Tool.name_injective]
  constructor
  · intro starts
    obtain ⟨started, ran, -⟩ := starts
    simp [ran]
  · intro ran
    obtain ⟨started, ran⟩ := Option.isSome_iff_exists.mp ran
    obtain ⟨names, agree⟩ := main_started listed ran
    exact ⟨started, ran, by rw [names]; exact counts, agree⟩

/-- An enabled value of a configuration that is loaded once is the one that is stored. -/
theorem stored_of_enabledOnce {defaultConfig cfg : Config} {n : Nat}
    (once : cfg.EnabledOnce (n + 1)) {tool : Tool} {value : Struct tool.yaml}
    (inside : value ∈ cfg.valuesOf tool)
    (enabled : value.Enabled) :
    (loads defaultConfig cfg (n + 1)).toolsConfigGlobal.stored tool = value := by
  rcases once tool with never | none_enabled | ⟨-, before, last, values, -, off⟩
  · exact absurd never (by simp)
  · exact absurd enabled (none_enabled value inside)
  · -- It is the last one, for the others are off.
    rw [values] at inside
    rcases List.mem_append.mp inside with inside | inside
    · exact absurd enabled (off value inside)
    · rw [stored_loads, values, List.mem_singleton.mp inside]
      simp

/-- The program starts exactly the enabled tools after loads that leave an exact list, and that
enable only what can be started. -/
theorem startsExactly_loads_iff (defaultConfig : Config) {cfg : Config} {n : Nat}
    (once : cfg.EnabledOnce n) :
    (loads defaultConfig cfg n).StartsExactly ↔ n = 0 ∨ cfg.CanStart := by
  obtain ⟨tools, listed⟩ := tools_loads defaultConfig cfg n
  rw [startsExactly_iff ((exact_iff defaultConfig cfg n).mpr once) listed, main_isSome_iff listed]
  cases n with
  | zero =>
    have empty : [] = tools.map Tool.name := listed
    simp [List.map_eq_nil_iff.mp empty.symm]
  | succ n =>
    rw [or_iff_right (Nat.succ_ne_zero n)]
    -- A tool is on the list exactly where one of its values is enabled.
    have on_list : ∀ tool, tool ∈ tools ↔ ∃ value ∈ cfg.valuesOf tool, value.Enabled := by
      intro tool
      have counts := count_loads defaultConfig cfg (n + 1) tool
      rw [listed, List.count_map_of_injective tools Tool.name Tool.name_injective] at counts
      rw [← List.count_pos_iff, counts, Nat.mul_pos_iff_of_pos_left (Nat.succ_pos n),
        List.countP_pos_iff]
      simp
    constructor
    · intro all tool value inside enabled
      have can := all tool ((on_list tool).mpr ⟨value, inside, enabled⟩)
      rwa [stored_of_enabledOnce once inside enabled] at can
    · intro can tool inside
      obtain ⟨value, inside, enabled⟩ := (on_list tool).mp inside
      rw [stored_of_enabledOnce once inside enabled]
      exact can tool value inside enabled

/-- After any number of loads the list is exact in just these cases, and the program starts exactly
the enabled tools in just these; a second load changes nothing, and all of it holds, just where no
tool is enabled. -/
theorem loads_exact (defaultConfig cfg : Config) :
    (∀ n, (loads defaultConfig cfg n).toolsConfigGlobal.Exact ↔ cfg.EnabledOnce n) ∧
    (∀ n, (loads defaultConfig cfg n).toolsConfigGlobal.Exact ∧
        (loads defaultConfig cfg n).StartsExactly ↔
      cfg.EnabledOnce n ∧ (n = 0 ∨ cfg.CanStart)) ∧
    ((loads defaultConfig cfg 2).toolsConfigGlobal = (loads defaultConfig cfg 1).toolsConfigGlobal ↔
      cfg.NothingEnabled) ∧
    ((∀ n, (loads defaultConfig cfg n).toolsConfigGlobal.Exact ∧
          (loads defaultConfig cfg n).StartsExactly) ∧
        (loads defaultConfig cfg 2).toolsConfigGlobal =
          (loads defaultConfig cfg 1).toolsConfigGlobal ↔
      cfg.NothingEnabled) := by
  -- Each part is an equivalence of its own; the last one needs both others at once.
  have starts : ∀ n, (loads defaultConfig cfg n).toolsConfigGlobal.Exact ∧
      (loads defaultConfig cfg n).StartsExactly ↔
        cfg.EnabledOnce n ∧ (n = 0 ∨ cfg.CanStart) := by
    intro n
    rw [exact_iff]
    exact and_congr_right (startsExactly_loads_iff defaultConfig)
  refine ⟨exact_iff defaultConfig cfg, starts, loads_twice_iff defaultConfig cfg, ?_⟩
  constructor
  · intro all
    exact (loads_twice_iff defaultConfig cfg).mp all.2
  · intro nothing
    refine ⟨fun n => (starts n).mpr ?_, (loads_twice_iff defaultConfig cfg).mpr nothing⟩
    refine ⟨fun tool => .inr (.inl (nothing tool)), .inr ?_⟩
    intro tool value inside enabled
    exact absurd enabled (nothing tool value inside)

/-- A file that enables the off-CPU tracer. -/
def offcpuFile : Config where
  inputs := [⟨"offcpu", .yaml .offCpu
    ("INFO", "offcpu", "", (-1 : Int64), (10000 : UInt64), (5 : UInt64), (256 : Int64),
      (0 : UInt64), "", "", "enable", ())⟩]
  exporters := [⟨"disk", ""⟩]

/-- The tracer is on the list twice after the file was loaded twice, and on it once after the
file was loaded once. -/
theorem loads_exact_offcpu :
    ¬ ∀ (defaultConfig cfg : Config) (n : Nat),
      (loads defaultConfig cfg n).toolsConfigGlobal.Exact ∧
      (loads defaultConfig cfg n).StartsExactly ∧
      (loads defaultConfig cfg 2).toolsConfigGlobal =
        (loads defaultConfig cfg 1).toolsConfigGlobal := by
  -- After two loads the tool is listed twice.
  intro all
  have exact' := (all offcpuFile offcpuFile 2).1 .offCpu
  have twice : (loads offcpuFile offcpuFile 2).toolsConfigGlobal.tools.count Tool.offCpu.name = 2 :=
    by decide
  rw [twice] at exact'
  split at exact' <;> omega

end ConfigGlobals

end Spycat
