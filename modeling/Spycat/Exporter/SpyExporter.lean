import Spycat.Core.DataBlock

/-! The exporter that writes records as JSON text, into a file or to the terminal. -/

namespace Spycat.Spy

open Lib

/-- What the exporter uses of code outside the repository, and how its file operations end. -/
structure Environment where
  /-- A record as JSON text, or the error of encoding it. -/
  marshal : DataBlock → Except String Bytes
  /-- The path of a file in a directory. -/
  join : String → String → String
  /-- The error of looking a path up, absent where the path exists. -/
  statError : String → Option String
  /-- The error of making a file at a path, if there is one. -/
  createError : String → Option String
  /-- The error of writing to the file at a path, if there is one. -/
  writeError : String → Option String

/-- The exporter's configuration. -/
structure Config where
  outPuter : String
  baseFilePath : String

/-- The default configuration. -/
def newConfig : Config where
  outPuter := "FileOutputer"
  baseFilePath := "/tmp/spycat"

/-- An outputer into a file, which is open from the first record on. -/
structure FileOutputer where
  name : String
  baseFilePath : String
  /-- The path of the open file. -/
  file : Option String

/-- The ways to put a record out. -/
inductive Outputer where
  | file (outputer : FileOutputer)
  | terminal (name : String)

/-- The exporter; its outputer is missing where the configuration names none that is known. -/
structure SpyExporter where
  config : Config
  outputer : Option Outputer

/-- The exporter, together with the contents of all files and what the terminal was given. -/
structure System where
  exporter : SpyExporter
  files : Assoc String Bytes
  terminal : Bytes

/-- Make an exporter; absent where the source panics, for a configuration of another type. -/
def newSpyExporter (env : Environment) : Option Config → Option SpyExporter
  | none => none
  | some cfg =>
    if cfg.outPuter = "FileOutputer" then
      -- A directory that does not exist is replaced, in the caller's configuration too.
      let cfg := if (env.statError cfg.baseFilePath).isSome then { cfg with baseFilePath := "/tmp" }
        else cfg
      some
        { config := cfg
          outputer := some (.file
            { name := cfg.outPuter, baseFilePath := cfg.baseFilePath, file := none }) }
    else if cfg.outPuter = "TerminalOutputer" then
      some { config := cfg, outputer := some (.terminal cfg.outPuter) }
    else some { config := cfg, outputer := none }

namespace FileOutputer

/-- The path of the file for the records of a name. -/
def filePath (env : Environment) (f : FileOutputer) (dataName : String) : String :=
  env.join f.baseFilePath ("ebpf_" ++ dataName)

/-- Open the file of a record, unless a file is open; with the files, and the path or an error. -/
def openFile (env : Environment) (f : FileOutputer) (files : Assoc String Bytes)
    (data : DataBlock) : FileOutputer × Assoc String Bytes × Except String String :=
  match f.file with
  | some path => (f, files, .ok path)
  | none =>
    let path := f.filePath env data.name
    match env.createError path with
    | some err => (f, files, .error ("crate file failed:" ++ err))
    -- A file that is there already is cut to nothing.
    | none => ({ f with file := some path }, files.insert path [], .ok path)

/-- Write a record into the file, with the error that is returned if there is one. -/
def output (env : Environment) (f : FileOutputer) (files : Assoc String Bytes)
    (data : DataBlock) : FileOutputer × Assoc String Bytes × Option String :=
  match f.openFile env files data with
  | (f, files, .error err) => (f, files, some err)
  | (f, files, .ok path) =>
    match env.marshal data with
    | .error err => (f, files, some ("marshal data filed:" ++ err))
    | .ok bytes =>
      match env.writeError path with
      | some err => (f, files, some err)
      | none => (f, files.insert path ((files.lookup path).getD [] ++ bytes), none)

end FileOutputer

/-- Write a record to the terminal, with the error that is returned if there is one. -/
def terminalOutput (env : Environment) (terminal : Bytes) (data : DataBlock) :
    Bytes × Option String :=
  match env.marshal data with
  | .error err => (terminal, some ("marshal data failed:" ++ err))
  -- A blank is printed in front of the text, and the end of the line behind it.
  | .ok bytes => (terminal ++ 32 :: bytes ++ [10], none)

namespace System

/-- Put a record out, with the error that is returned; absent where the source panics. -/
def consume (env : Environment) (s : System) (data : DataBlock) :
    Option (System × Option String) :=
  match s.exporter.outputer with
  | none => none
  | some (.file f) =>
    let (f, files, err) := f.output env s.files data
    some
      ({ s with exporter := { s.exporter with outputer := some (.file f) }, files := files }, err)
  | some (.terminal _) =>
    let (terminal, err) := terminalOutput env s.terminal data
    some ({ s with terminal := terminal }, err)

/-- Put a record out; the callers go on after an error. -/
def step (env : Environment) (s : System) (data : DataBlock) : Option System :=
  (s.consume env data).map (·.1)

end System

end Spycat.Spy
