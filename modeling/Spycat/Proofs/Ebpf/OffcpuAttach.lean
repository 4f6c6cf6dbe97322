import Spycat.Ebpf.OffcpuSession
import Spycat.Proofs.Util.KprobeExists

/-! Where the hooks of the off-CPU tracer go, on a kernel with given lists of its functions. -/

namespace Spycat.Offcpu.OffcpuSession

/-- All programs are attached where each of them can be, and otherwise there is an error. -/
theorem attachProgs_ok_iff (exists_ : Bytes → Bool)
    (attach : String → Option Bytes → Except String Unit) (progs : List String)
    (attached : List (String × Option Bytes)) :
    attachProgs exists_ attach progs = .ok attached ↔
      (∀ prog ∈ progs, attach prog (hookOf exists_ prog) = .ok ()) ∧
        attached = progs.map fun prog => (prog, hookOf exists_ prog) := by
  -- The induction is on the programs; the first error ends the loop.
  induction progs generalizing attached with
  | nil => simp [attachProgs, eq_comm]
  | cons prog rest ih =>
    rw [attachProgs]
    cases first : attach prog (hookOf exists_ prog) with
    | error message => simp [first, Bind.bind, Except.bind]
    | ok =>
      cases others : attachProgs exists_ attach rest with
      | error message =>
        -- Some other program cannot be attached.
        have fails : ¬ ∀ other ∈ rest, attach other (hookOf exists_ other) = .ok () := by
          intro all
          rw [(ih _).mpr ⟨all, rfl⟩] at others
          cases others
        simp [first, fails, Bind.bind, Except.bind]
      | ok more =>
        obtain ⟨all, rfl⟩ := (ih more).mp others
        have every : ∀ other ∈ prog :: rest, attach other (hookOf exists_ other) = .ok () :=
          List.forall_mem_cons.mpr ⟨first, all⟩
        simp only [Bind.bind, Except.bind, pure, Except.pure, Except.ok.injEq, List.map_cons]
        exact ⟨fun same => ⟨every, same.symm⟩, fun same => same.2.symm⟩

/--
The hook of switches goes to the plain function exactly where the kernel itself lists it.

What the kernel forbids does not matter, for it writes a tab before the names of the forbidden
functions; nor do the symbols of modules.
-/
theorem attachProgs_lists {functions : List ForbiddenFunction} {symbols : List KernelSymbol}
    (plainF : ∀ function ∈ functions, function.Plain) (plain : ∀ symbol ∈ symbols, symbol.Plain)
    (attach : String → Option Bytes → Except String Unit) (progs : List String)
    (attached : List (String × Option Bytes)) :
    let listed := ∃ symbol ∈ symbols, symbol.name = finishTaskSwitch ∧ symbol.module = none
    let hook (prog : String) : Option Bytes :=
      if prog = "sched_switch_hook" then
        some (if listed then finishTaskSwitch else finishTaskSwitchIsra)
      else none
    attachProgs (kprobeExists (some (textOf (functions.map (·.line))))
        (some (textOf (symbols.map (·.line))))) attach progs = .ok attached ↔
      (∀ prog ∈ progs, attach prog (hook prog) = .ok ()) ∧
        attached = progs.map fun prog => (prog, hook prog) := by
  intro listed hook
  have word : Word finishTaskSwitch := by decide +kernel
  -- The kernel's own function is found exactly where it is listed.
  have hooks : hookOf (kprobeExists (some (textOf (functions.map (·.line))))
      (some (textOf (symbols.map (·.line))))) = hook := by
    funext prog
    simp only [hookOf, hook, kprobeExists_lines plainF plain word, listed]
  rw [attachProgs_ok_iff, hooks]

/-- The function is one of the kernel. -/
def listedSwitch : KernelSymbol where
  address := "ffffffff81000000".toUTF8.toList
  type := "t".toUTF8.toList
  name := finishTaskSwitch
  module := none

/-- The function must not be probed. -/
def forbiddenSwitch : ForbiddenFunction where
  addresses := "0xffffffff81000000-0xffffffff81000100".toUTF8.toList
  name := finishTaskSwitch
  module := none

/-- The hook goes to a function that must not be probed. -/
theorem attachProgs_lists_forbidden :
    attachProgs (kprobeExists (some (textOf ([forbiddenSwitch].map (·.line))))
        (some (textOf ([listedSwitch].map (·.line))))) (fun _ _ => .ok ())
        ["sched_switch_hook"] =
      .ok [("sched_switch_hook", some finishTaskSwitch)] := by
  -- The line of the function is in both lists.
  have forbidden : ∀ function ∈ [forbiddenSwitch], function.Plain := by
    intro function member
    obtain rfl := List.mem_singleton.mp member
    exact ⟨by decide +kernel, by decide +kernel, fun module held => (by cases held),
      by decide +kernel⟩
  have plain : ∀ symbol ∈ [listedSwitch], symbol.Plain := by
    intro symbol member
    obtain rfl := List.mem_singleton.mp member
    exact ⟨by decide +kernel, by decide +kernel, by decide +kernel,
      fun module held => (by cases held), by decide +kernel⟩
  refine (attachProgs_lists forbidden plain _ _ _).mpr ⟨fun _ _ => rfl, ?_⟩
  simp [listedSwitch]

end Spycat.Offcpu.OffcpuSession
