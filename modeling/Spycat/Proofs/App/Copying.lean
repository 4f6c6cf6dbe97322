import Spycat.App.Config

/-! The copy of a tool's YAML configuration into the one the tool is started with. -/

namespace Spycat

open Lib

/-- The fields of four of the tools are the same ones in both configurations. -/
theorem Tool.yaml_eq_command_iff (tool : Tool) :
    tool.yaml = tool.command ↔ tool ≠ .futexSnoop := by
  -- The fields of the five tools are compared.
  cases tool <;> decide

/-- No configuration has two fields of one name. -/
theorem Tool.command_names_nodup (tool : Tool) : (tool.command.map (·.1)).Nodup := by
  -- The names of the five tools' fields are compared.
  cases tool <;> decide

/-- The target lock is of another type in YAML than on the command line. -/
theorem Tool.kinds_not_prefix :
    ¬ Tool.futexSnoop.yaml.map (·.2) <+: Tool.futexSnoop.command.map (·.2) := by
  -- The tenth field is a flag in the one and a number in the other.
  decide

/-- A struct behind a pointer is copied field by field into one behind a pointer. -/
theorem copyStruct_pointers {source target : StructType} (value : Struct source)
    (record : Struct target) :
    copyStruct (.pointer value) (.pointer record) =
      (Record.copyInto source target value record).map fun record => .ok (.pointer record) :=
  rfl

/-- Between structs of the same fields the copy goes through and gives the source. -/
theorem copyStruct_same (type : StructType) (value record : Struct type) :
    copyStruct (.pointer value) (.pointer record) = some (.ok (.pointer value)) := by
  -- Every field is copied onto one of its own kind.
  rw [copyStruct_pointers, Record.copyInto_same]
  rfl

/-- The copy of the futex tracer's configuration panics, whatever it holds. -/
theorem copyStruct_futexSnoop (yaml : Struct Tool.futexSnoop.yaml)
    (cmd : Struct Tool.futexSnoop.command) :
    copyStruct (.pointer yaml) (.pointer cmd) = none := by
  -- A field is set to a value of another kind, which panics.
  have stops : Record.copyInto Tool.futexSnoop.yaml Tool.futexSnoop.command yaml cmd = none := by
    rw [← Option.not_isSome_iff_eq_none, Record.copyInto_isSome_iff]
    exact Tool.kinds_not_prefix
  rw [copyStruct_pointers, stops]
  rfl

/-- The copy is right: it goes through, and the tool is started with its YAML settings, which are
the ones that it gets on a command line that agrees with them. -/
def Copies (tool : Tool) (yaml : Struct tool.yaml) (cmd : Struct tool.command) : Prop :=
  ∃ copied : Struct tool.command,
    copyStruct (.pointer yaml) (.pointer cmd) = some (.ok (.pointer copied)) ∧
    yaml.Agrees copied ∧
    ∀ settings : Struct tool.command, yaml.Agrees settings → copied = settings

/-- Between structs of the same fields the copy is right. -/
theorem copies_of_same {source target : StructType} (same : source = target)
    (distinct : (target.map (·.1)).Nodup) (yaml : Struct source) (cmd : Struct target) :
    ∃ copied : Struct target,
      copyStruct (.pointer yaml) (.pointer cmd) = some (.ok (.pointer copied)) ∧
      yaml.Agrees copied ∧
      ∀ settings : Struct target, yaml.Agrees settings → copied = settings := by
  -- Both are one type, and a struct with distinct names is given by what it agrees with.
  subst same
  refine ⟨yaml, copyStruct_same source yaml cmd, Record.agrees_self yaml, ?_⟩
  intro settings agrees
  exact Record.eq_of_agrees distinct agrees

/-- The copy of every configuration of a tool is right, for all tools but the futex tracer. -/
theorem copyStruct_agrees_iff (tool : Tool) (yaml : Struct tool.yaml) (cmd : Struct tool.command) :
    Copies tool yaml cmd ↔ tool ≠ .futexSnoop := by
  constructor
  · -- The futex tracer's copy panics at the target lock.
    intro copies is
    subst is
    obtain ⟨copied, through, -⟩ := copies
    rw [copyStruct_futexSnoop yaml cmd] at through
    exact absurd through (by simp)
  · intro other
    have same := tool.yaml_eq_command_iff.mpr other
    exact copies_of_same same tool.command_names_nodup yaml cmd

/-- The futex tracer's settings do not reach it, not even where none are set. -/
theorem copyStruct_agrees_futexSnoop :
    ¬ ∀ (tool : Tool) (yaml : Struct tool.yaml) (cmd : Struct tool.command),
      Copies tool yaml cmd := by
  -- For this one tool nothing is copied at all.
  intro copies
  obtain ⟨copied, through, -⟩ := copies .futexSnoop (.zero _) (.zero _)
  rw [copyStruct_futexSnoop] at through
  exact absurd through (by simp)

end Spycat
