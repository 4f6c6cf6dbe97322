import Spycat.App.Config
import Spycat.Detector.DetectorManager

/-! The tools that a configuration file enables, and their start. -/

namespace Spycat

open Lib

/-- The string in a field of a struct. -/
def Struct.string {type : StructType} (value : Struct type) (name : String) : String :=
  match Record.field? name type value with
  | some ⟨.string, text⟩ => text
  | _ => ""

/-- The integer or duration in a field of a struct. -/
def Struct.int {type : StructType} (value : Struct type) (name : String) : Int64 :=
  match Record.field? name type value with
  | some ⟨.int, number⟩ | some ⟨.duration, number⟩ => number
  | _ => 0

/-- The tool of a name. -/
def Tool.ofName (name : String) : Option Tool :=
  [Tool.offCpu, .onCpu, .cacheStat, .syscall, .futexSnoop].find? fun tool => tool.name = name

/-- The status of a tool that is to be started. -/
def enable : String := "enable"

/-- What the configuration of an input holds: a pointer to a tool's struct, or something else. -/
inductive InputType where
  | yaml (tool : Tool) (value : Struct tool.yaml)
  | other

/-- An input of the configuration file. -/
structure InputConfig where
  type : String
  config : InputType

/-- An exporter of the configuration file. -/
structure ExporterConfig where
  type : String
  server : String
  deriving DecidableEq, Repr

/-- The configuration file. -/
structure Config where
  inputs : List InputConfig
  exporters : List ExporterConfig

/-- The tools to start, and the configurations that are stored for all of them. -/
structure ToolsConfig where
  tools : List String
  futexsnoop : Struct futexsnoopYaml
  offcpu : Struct offcpuYaml
  syscall : Struct syscallYaml
  oncpu : Struct oncpuYaml
  cachestat : Struct cachestatYaml

namespace ToolsConfig

/-- No tools and no settings. -/
def new : ToolsConfig where
  tools := []
  futexsnoop := .zero _
  offcpu := .zero _
  syscall := .zero _
  oncpu := .zero _
  cachestat := .zero _

/-- The configuration that is stored for a tool. -/
def stored (toolsConfig : ToolsConfig) : (tool : Tool) → Struct tool.yaml
  | .offCpu => toolsConfig.offcpu
  | .onCpu => toolsConfig.oncpu
  | .cacheStat => toolsConfig.cachestat
  | .syscall => toolsConfig.syscall
  | .futexSnoop => toolsConfig.futexsnoop

/-- Store a configuration for a tool. -/
def store (toolsConfig : ToolsConfig) : (tool : Tool) → Struct tool.yaml → ToolsConfig
  | .offCpu, value => { toolsConfig with offcpu := value }
  | .onCpu, value => { toolsConfig with oncpu := value }
  | .cacheStat, value => { toolsConfig with cachestat := value }
  | .syscall, value => { toolsConfig with syscall := value }
  | .futexSnoop, value => { toolsConfig with futexsnoop := value }

/-- Put a tool at the end of those to start. -/
def append (toolsConfig : ToolsConfig) (name : String) : ToolsConfig :=
  { toolsConfig with tools := toolsConfig.tools ++ [name] }

/-- One case of the switch over the inputs' types, which looks at the type of the value as well. -/
def initInput (toolsConfig : ToolsConfig) (cf : InputConfig) : ToolsConfig :=
  match Tool.ofName cf.type, cf.config with
  | some tool, .yaml held val =>
    if ok : held = tool then
      let stored := toolsConfig.store tool (ok ▸ val)
      if val.string "Status" = enable then stored.append tool.name else stored
    else toolsConfig
  | _, _ => toolsConfig

/-- Go through the inputs in their order. -/
def initToolsConfig (toolsConfig : ToolsConfig) (cfg : Config) : ToolsConfig :=
  cfg.inputs.foldl initInput toolsConfig

end ToolsConfig

/-- The global variables that the configuration file is loaded into. -/
structure ConfigGlobals where
  /-- The default configuration, which the configuration in use is a pointer to. -/
  yamlConfigGlobal : Config
  toolsConfigGlobal : ToolsConfig

/-- What a load finds at the path of the configuration file. -/
inductive ConfigFile where
  /-- There is none: the default configuration is written, or that fails. -/
  | missing (failure : Option String)
  | unreadable (failure : String)
  /-- It is not a configuration; up to the failure it was read into the one in use. -/
  | invalid (failure : String) (left : Config)
  | content (cfg : Config)

namespace ConfigGlobals

/-- The variables at the start of the program. -/
def new (defaultConfig : Config) : ConfigGlobals where
  yamlConfigGlobal := defaultConfig
  toolsConfigGlobal := .new

/-- Load the configuration file: the variables it leaves, and the error it returns. -/
def configInit (globals : ConfigGlobals) : ConfigFile → ConfigGlobals × Option String
  | .missing failure => (globals, failure)
  | .unreadable failure => (globals, some ("yaml read failed:" ++ failure))
  | .invalid failure left =>
    ({ globals with yamlConfigGlobal := left }, some ("yaml unmarshal failed:" ++ failure))
  | .content cfg =>
    ({ yamlConfigGlobal := cfg
       toolsConfigGlobal := globals.toolsConfigGlobal.initToolsConfig cfg }, none)

/-- Load a configuration some number of times after the start. -/
def loads (defaultConfig cfg : Config) : Nat → ConfigGlobals
  | 0 => .new defaultConfig
  | n + 1 => ((loads defaultConfig cfg n).configInit (.content cfg)).1

/-- Whether the tools are started from the file. -/
def configWithYaml (globals : ConfigGlobals) : Bool :=
  0 < globals.toolsConfigGlobal.tools.length

end ConfigGlobals

/-- A tool that was started, and the configuration it was started with. -/
structure StartedTool where
  tool : Tool
  cfg : Struct tool.command

/-- Whether the session of a tool is made; the source panics where it is not. -/
def Tool.newSession (tool : Tool) {type : StructType} (cfg : Struct type) : Bool :=
  -- The cache of symbols needs a size, and a ticker needs a duration.
  match tool with
  | .offCpu | .syscall | .futexSnoop => 0 < cfg.int "SymbolCacheSize"
  | .onCpu => 0 < cfg.int "SymbolCacheSize" ∧ 0 < cfg.int "UploadRate"
  | .cacheStat => 0 < cfg.int "UploadRate"

/-- Start one tool with its configuration; absent where the source panics. -/
def runTool (toolsConfig : ToolsConfig) (tool : Tool) : Option StartedTool := do
  let copied ←
    copyStruct (.pointer (toolsConfig.stored tool)) (.pointer (Struct.zero tool.command))
  let cfg := match copied with
    | .ok (.pointer cfg) => cfg
    -- The source does not look at the error of the copy.
    | _ => .zero _
  if tool.newSession cfg then some ⟨tool, cfg⟩ else none

/-- The loop over the tools to start. -/
def runTools (toolsConfig : ToolsConfig) : List String → Option (List StartedTool)
  | [] => some []
  | name :: rest =>
    match Tool.ofName name with
    -- The switch has no case for the name.
    | none => runTools toolsConfig rest
    | some tool => do
      let started ← runTool toolsConfig tool
      let others ← runTools toolsConfig rest
      return started :: others

namespace ConfigGlobals

/-- Start the tools that are to be started; absent where the source panics. -/
def runWithYaml (globals : ConfigGlobals) : Option (List StartedTool) :=
  -- The application uses the first exporter.
  match globals.yamlConfigGlobal.exporters with
  | [] => none
  | _ :: _ =>
    match DetectorManager.new [.cpu, .io, .net, .mem] with
    | none => some []
    | some _ => runTools globals.toolsConfigGlobal globals.toolsConfigGlobal.tools

/-- Start the program after its configuration was loaded. -/
def main (globals : ConfigGlobals) : Option (List StartedTool) :=
  if globals.configWithYaml then globals.runWithYaml else some []

end ConfigGlobals

end Spycat
