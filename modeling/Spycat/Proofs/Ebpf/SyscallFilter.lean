import Spycat.Ebpf.SyscallArgs
import Spycat.Proofs.Ebpf.SyscallLabels

/-! Whether a configured name leaves only events of the call of that name. -/

namespace Spycat.Syscall

open Lib Bpf Reader

/-- The calls of a machine, of which there are none where the session knows none. -/
def Arch.table : Arch → List String
  | .amd64 => syscallTableX86
  | .arm | .arm64 => syscallTableArm
  | .other => []

/-- A call of the machine has this name. -/
def Arch.Knows (arch : Arch) (name : Bytes) : Prop :=
  ∃ known ∈ arch.table, known.toUTF8.toList = name

/-- What the session reads off the bytes of an event is a call of this name. -/
def NamedBy (session : SyscallSession) (name : Bytes) (event : SyscallEvent) : Prop :=
  ∃ record, readSyscallRecord.run event.bytes = some record ∧
    session.syscallIdToName record.syscallId = name

/-- What the kernel reads. -/
def readArgs (arch : Arch) (cfg : SYSCALL) : UserArgs where
  pid := cfg.pid.toUInt64.toUInt32
  tid := cfg.tid.toUInt64.toUInt32
  minSyscallMs := cfg.minDurMs.toUInt32
  maxSyscallMs := cfg.maxDurMs.toUInt32
  stack := cfg.stack
  syscallId := syscallNameToId arch cfg.syscall

/-- The settings that a record of the session stands for, field by field. -/
def SyscallArgs.meant (args : SyscallArgs) : UserArgs where
  pid := args.pid
  tid := args.tid
  minSyscallMs := args.minDurMs
  maxSyscallMs := args.maxDurMs
  stack := args.stack
  syscallId := args.syscallId

/-- The kernel's reader takes the bytes of a record apart as they were put together. -/
theorem read_bytes (args : SyscallArgs) : UserArgs.read.run args.bytes = some args.meant := by
  -- Both structs leave three bytes out behind the flag.
  have fields := (reads_done UserArgs.mk).next (reads_uint32 args.pid)
    |>.next (reads_uint32 args.tid) |>.next (reads_uint32 args.minDurMs)
    |>.next (reads_uint32 args.maxDurMs) |>.next (reads_bool args.stack)
  have more := ((fields.skip [0, 0, 0]).field (reads_uint32 args.syscallId)).run []
  have layout : args.bytes =
      ((([CField.u32 args.pid, .u32 args.tid, .u32 args.minDurMs, .u32 args.maxDurMs,
        .bool args.stack] : List CField).flatMap CField.bytes ++ [0, 0, 0]) ++
          (CField.u32 args.syscallId).bytes) ++ [] := by
    simp [SyscallArgs.bytes, cStruct, cFields, padding, CField.u32, CField.bool]
  rw [layout]
  exact more

/-- The settings arrive as they were configured. -/
theorem kernelArgs_eq (arch : Arch) (cfg : SYSCALL) :
    kernelArgs arch cfg = some (readArgs arch cfg) :=
  -- What was written into the bytes is read back.
  read_bytes _

section Names

variable {table : List String} {name : Bytes}

/-- A name that a table lacks has the number that stands for all calls. -/
theorem idIn_unknown (unknown : ¬ ∃ known ∈ table, known.toUTF8.toList = name) :
    idIn table name = 0xFFFFFFFF := by
  -- The search runs past the end of the table.
  have absent : table.findIdx? (fun known => known.toUTF8.toList = name) = none := by
    simpa using unknown
  rw [idIn, absent]

/-- A name that a short table has gets a number of its own, which has that name. -/
theorem idIn_known (known : ∃ known ∈ table, known.toUTF8.toList = name)
    (short : table.length < 2 ^ 32 - 1) :
    idIn table name ≠ 0xFFFFFFFF ∧ nameIn table (idIn table name) = name := by
  -- The search stops at an index, which is small enough to be a number of its own.
  obtain ⟨i, found⟩ : ∃ i, table.findIdx? (fun known => known.toUTF8.toList = name) = some i := by
    obtain ⟨known, member, same⟩ := known
    refine Option.isSome_iff_exists.mp ?_
    rw [List.findIdx?_isSome, List.any_eq_true]
    exact ⟨known, member, by simpa using same⟩
  obtain ⟨inside, same, _⟩ := List.findIdx?_eq_some_iff_getElem.mp found
  have fits : i < UInt32.size := by
    simp only [UInt32.size]
    omega
  have number : (UInt32.ofNat i).toNat = i := UInt32.toNat_ofNat_of_lt' fits
  simp only [idIn, found]
  constructor
  · intro largest
    have equal := congrArg UInt32.toNat largest
    rw [number] at equal
    simp only [UInt32.reduceToNat] at equal
    omega
  · rw [nameIn, number, List.getElem?_eq_getElem inside]
    simpa using same

end Names

section Machines

variable {arch : Arch} {name : Bytes}

/-- Both tables are short. -/
theorem table_short (arch : Arch) : arch.table.length < 2 ^ 32 - 1 := by
  -- The tables of both architectures are counted.
  cases arch <;> decide +kernel

/-- The number of a name is looked up in the table of the machine. -/
theorem syscallNameToId_eq (arch : Arch) (name : Bytes) :
    syscallNameToId arch name = idIn arch.table name := by
  -- Each architecture looks into its own table.
  cases arch <;> rfl

/-- The name of a number is looked up in the table of the machine, where there is one. -/
theorem syscallIdToName_eq {session : SyscallSession} (supported : session.arch ≠ .other)
    (id : UInt32) : session.syscallIdToName id = nameIn session.arch.table id := by
  -- The two kinds of machines with a table have one each.
  unfold SyscallSession.syscallIdToName
  cases arch : session.arch with
  | other => exact absurd arch supported
  | amd64 | arm | arm64 => rfl

/-- The first call of every machine has a name that the machine knows. -/
theorem knows_first (supported : arch ≠ .other) : arch.Knows (nameIn arch.table 0) := by
  -- The tables are not empty.
  cases arch with
  | other => exact absurd rfl supported
  | amd64 => exact ⟨"read", by decide, rfl⟩
  | arm | arm64 => exact ⟨"io_setup", by decide, rfl⟩

end Machines

section Runs

variable {args : UserArgs}

/-- The call of an event passes the filter. -/
theorem sysExit_filtered {maps : SyscallMaps} {ctx : ExitCtx} {event : SyscallEvent}
    (reported : maps.sysExit ctx = some event) (filtered : maps.args.syscallId ≠ 0xFFFFFFFF) :
    event.syscallId.toUInt32 = maps.args.syscallId := by
  -- The number that is handed over is the one that the filter looks at.
  obtain ⟨_, accepted, _, _, _, _, rfl⟩ := sysExit_eq_some.mp reported
  have own : maps.args.syscallId = ctx.id.toUInt64.toUInt32 := by
    simp only [UserArgs.accepts, Bool.and_eq_true, Bool.not_eq_true', Bool.and_eq_false_iff,
      decide_eq_false_iff_not, not_not] at accepted
    exact accepted.2.resolve_left filtered
  exact own.symm ▸ UInt32.toUInt32_toUInt64 _

/-- An event is reported only where the bounds leave room for a duration. -/
theorem sysExit_possible {maps : SyscallMaps} {ctx : ExitCtx} {event : SyscallEvent}
    (reported : maps.sysExit ctx = some event) :
    maps.args.minSyscallMs ≤ maps.args.maxSyscallMs := by
  -- The duration is between the bounds of the one return that reports.
  obtain ⟨_, _, _, _, long, short, _⟩ := sysExit_eq_some.mp reported
  have ordered := UInt64.le_trans long short
  simpa [UInt64.le_iff_toNat_le, UInt32.le_iff_toNat_le] using ordered

/-- The settings stay, and every event that was emitted is one that they let pass. -/
structure EmitsOnly (args : UserArgs) (good : SyscallEvent → Prop) (s : SyscallTracer) : Prop where
  settings : s.maps.args = args
  events : ∀ e ∈ s.emitted, good e.event

/-- What the settings ask of every event that is reported, every step keeps. -/
theorem EmitsOnly.step {good : SyscallEvent → Prop}
    (each : ∀ (maps : SyscallMaps) ctx event, maps.args = args → maps.sysExit ctx = some event →
      good event)
    {s s' : SyscallTracer} (only : EmitsOnly args good s) {action : SyscallAction}
    (stepped : s.step action = some s') : EmitsOnly args good s' := by
  -- Only the end of a call adds an event.
  obtain ⟨settings, events⟩ := only
  cases SyscallTracer.step_moves stepped with
  | @enter ctx => exact ⟨(sysEnter_args ctx).trans settings, events⟩
  | @exit ctx =>
    refine ⟨settings, fun e member => ?_⟩
    rcases List.mem_append.mp member with earlier | now
    · exact events e earlier
    · obtain ⟨event, reported, rfl⟩ := Option.map_eq_some_iff.mp (Option.mem_toList.mp now)
      exact each s.maps ctx event settings reported
  | born | dies => exact ⟨settings, events⟩

/-- So every event of a run is as the settings ask. -/
theorem run_emitsOnly {good : SyscallEvent → Prop}
    (each : ∀ (maps : SyscallMaps) ctx event, maps.args = args → maps.sysExit ctx = some event →
      good event)
    {actions : List SyscallAction} {s : SyscallTracer}
    (ran : run SyscallTracer.step (.new args) actions = some s) : EmitsOnly args good s := by
  -- Before the first step no event was emitted.
  have initial : EmitsOnly args good (.new args) := ⟨rfl, by simp [SyscallTracer.new]⟩
  exact run_invariant (EmitsOnly args good) initial
    (fun _ _ _ only stepped => only.step each stepped) ran

/-- A call that passes the filters is reported if it was noted and took as long as it has to. -/
theorem sysExit_reports (maps : SyscallMaps) (ctx : ExitCtx) (called : ctx.id ≠ -1)
    (accepted : maps.args.accepts ctx.pidTgid ctx.id.toUInt64.toUInt32) {noted : SyscallEvent}
    (found : maps.start.lookup (tidOf ctx.pidTgid) = some noted)
    (long : (ctx.now - noted.tsNs) / 1000000 ≥ maps.args.minSyscallMs.toUInt64)
    (short : (ctx.now - noted.tsNs) / 1000000 ≤ maps.args.maxSyscallMs.toUInt64) :
    ∃ event, maps.sysExit ctx = some event ∧
      event.syscallId = ctx.id.toUInt64.toUInt32.toUInt64 := by
  -- Every check of the source is passed.
  exact ⟨_, sysExit_eq_some.mpr ⟨called, accepted, noted, found, long, short, rfl⟩, rfl⟩

/-- A thread that the settings accept. -/
def acceptedThread (args : UserArgs) : UInt64 := ofHalves args.pid args.tid

/-- It enters the first call of the table. -/
def entersFirst (args : UserArgs) : EnterCtx where
  pidTgid := acceptedThread args
  now := 0
  id := 0

/-- It leaves the call when that has taken as long as it has to. -/
def leavesFirst (args : UserArgs) : ExitCtx where
  pidTgid := acceptedThread args
  now := args.minSyscallMs.toUInt64 * 1000000
  id := 0
  comm := Vector.replicate taskCommLen 0
  uStackId := 0
  kStackId := 0

/-- The thread begins, makes the call, and is done. -/
def firstCall (args : UserArgs) : List SyscallAction :=
  [.born args.tid false, .enter (entersFirst args), .exit (leavesFirst args)]

/-- Milliseconds are found again in the nanoseconds that they are. -/
theorem milliseconds_of_nanoseconds (ms : UInt32) :
    ms.toUInt64 * 1000000 / 1000000 = ms.toUInt64 := by
  -- A number of 32 bits has room for six more digits.
  have bound := ms.toNat_lt
  rw [← UInt64.toNat_inj, UInt64.toNat_div, UInt64.toNat_mul, UInt32.toNat_toUInt64]
  simp only [UInt64.reduceToNat]
  omega

/-- The call that was noted is noted with its begin. -/
theorem sysEnter_first (maps : SyscallMaps) (ctx : EnterCtx) (empty : maps.start = ∅)
    (accepted : maps.args.accepts ctx.pidTgid ctx.id.toUInt64.toUInt32) :
    ∃ noted, (maps.sysEnter ctx).start.lookup (tidOf ctx.pidTgid) = some noted ∧
      noted.tsNs = ctx.now := by
  -- An empty map has room.
  have room : (∅ : Assoc UInt32 SyscallEvent).size < maxEntries := by decide
  simp only [SyscallMaps.sysEnter, accepted, if_true, empty, tryUpdateElem_new _ _ rfl room,
    AList.lookup_insert]
  exact ⟨_, rfl, rfl⟩

/-- Without a filter such a call is reported, if any call can be. -/
theorem firstCall_emitted (args : UserArgs) (unfiltered : args.syscallId = 0xFFFFFFFF)
    (possible : args.minSyscallMs ≤ args.maxSyscallMs) :
    ∃ s e, run SyscallTracer.step (.new args) (firstCall args) = some s ∧ e ∈ s.emitted ∧
      e.event.syscallId = 0 := by
  have tid : tidOf (acceptedThread args) = args.tid := lower_ofHalves ..
  have pid : pidOf (acceptedThread args) = args.pid := upper_ofHalves ..
  have accepted : args.accepts (acceptedThread args) 0 := by
    simp [UserArgs.accepts, tid, pid, unfiltered]
  let born : SyscallTracer := (SyscallTracer.new args).move args.tid .outside
  let called : SyscallTracer :=
    (born.enter (entersFirst args)).move (tidOf (acceptedThread args)) (.traced 0)
  have settings : called.maps.args = args := sysEnter_args _
  obtain ⟨noted, found, began⟩ := sysEnter_first born.maps (entersFirst args) rfl accepted
  -- The call takes as many milliseconds as it has to.
  have taken : ((leavesFirst args).now - noted.tsNs) / 1000000 = args.minSyscallMs.toUInt64 := by
    simp only [began, leavesFirst, entersFirst, UInt64.sub_zero, milliseconds_of_nanoseconds]
  have real : (leavesFirst args).id ≠ -1 := show (0 : Int64) ≠ -1 by decide
  obtain ⟨event, reported, number⟩ := sysExit_reports called.maps
    (leavesFirst args) real (settings.symm ▸ accepted) found
    (by rw [taken, settings]; exact UInt64.le_refl _)
    (by rw [taken, settings, UInt64.le_iff_toNat_le]; exact possible)
  have begins : (SyscallTracer.new args).step (.born args.tid false) = some born := rfl
  have enters : born.step (.enter (entersFirst args)) = some called := by
    have outside : born.threads (tidOf (acceptedThread args)) = .outside := by
      simp [born, SyscallTracer.move, tid]
    have inside : born.entered (entersFirst args) = .traced 0 := if_pos accepted
    show ite _ _ _ = _
    rw [if_pos ⟨outside, UInt64.le_refl 0⟩, inside]
    rfl
  have leaves : called.step (.exit (leavesFirst args)) =
      some ((called.exit (leavesFirst args)).move (tidOf (acceptedThread args)) .outside) := by
    have inside : called.threads (tidOf (acceptedThread args)) = .traced 0 := by
      simp [called, SyscallTracer.move]
    refine if_pos ⟨?_, ?_, UInt64.zero_le⟩
    · show called.threads (tidOf (acceptedThread args)) ≠ .gone
      simp [inside]
    · show called.threads (tidOf (acceptedThread args)) ≠ .outside
      simp [inside]
  refine ⟨(called.exit (leavesFirst args)).move (tidOf (acceptedThread args)) .outside,
    ⟨event, called.threads (tidOf (acceptedThread args)), (leavesFirst args).now⟩, ?_, ?_, number⟩
  · rw [firstCall, run_cons, begins, Option.bind_some, run_cons, enters, Option.bind_some, run_cons,
      leaves, Option.bind_some, run_nil]
  · simp only [SyscallTracer.move_emitted, SyscallTracer.exit, reported]
    exact List.mem_append_right _ (List.mem_singleton.mpr rfl)

end Runs

/-- What the session reads off an event is the name of its number. -/
theorem namedBy_iff {session : SyscallSession} (supported : session.arch ≠ .other) {name : Bytes}
    {event : SyscallEvent} (small : event.syscallId.toNat < 2 ^ 32) :
    NamedBy session name event ↔ nameIn session.arch.table event.syscallId.toUInt32 = name := by
  -- The number is read as it was written.
  have read := readSyscallRecord_run small []
  rw [List.append_nil] at read
  rw [← syscallIdToName_eq supported]
  constructor
  · intro ⟨record, found, named⟩
    obtain rfl := Option.some.inj (read.symm.trans found)
    exact named
  · exact fun named => ⟨_, read, named⟩

/--
On every machine that the session knows, all events of all runs are events of the configured call
exactly where the machine knows a call of that name, or the bounds let no call pass at all.

A name that it does not know gets the number that stands for all calls.
-/
theorem runs_named_iff (session : SyscallSession) (supported : session.arch ≠ .other)
    (cfg : SYSCALL) (args : UserArgs) (read : kernelArgs session.arch cfg = some args) :
    (∀ actions s, run SyscallTracer.step (.new args) actions = some s →
        ∀ e ∈ s.emitted, NamedBy session cfg.syscall e.event) ↔
      session.arch.Knows cfg.syscall ∨ cfg.maxDurMs.toUInt32 < cfg.minDurMs.toUInt32 := by
  obtain rfl : readArgs session.arch cfg = args :=
    Option.some.inj ((kernelArgs_eq ..).symm.trans read)
  have number : (readArgs session.arch cfg).syscallId = idIn session.arch.table cfg.syscall :=
    syscallNameToId_eq ..
  constructor
  · intro named
    by_contra neither
    obtain ⟨unknown, possible⟩ := not_or.mp neither
    -- The first call of the table is reported too, and has another name.
    obtain ⟨s, e, ran, member, first⟩ := firstCall_emitted _
      (number.trans (idIn_unknown unknown)) (UInt32.not_lt.mp possible)
    have own := (namedBy_iff supported (by simp [first])).mp (named _ s ran e member)
    rw [first] at own
    exact unknown (own ▸ knows_first supported)
  · rintro (known | impossible) actions s ran
    · obtain ⟨filter, named⟩ := idIn_known known (table_short session.arch)
      refine (run_emitsOnly (fun maps ctx event settings reported => ?_) ran).events
      rw [namedBy_iff supported (sysExit_syscallId reported),
        sysExit_filtered reported (by rw [settings, number]; exact filter), settings, number]
      exact named
    · refine (run_emitsOnly (fun maps ctx event settings reported => ?_) ran).events
      have possible := sysExit_possible reported
      rw [settings] at possible
      exact absurd impossible (UInt32.not_lt.mpr possible)

/-- A session on a 64-bit x86 machine, without stacks. -/
def amd64Session : SyscallSession where
  arch := .amd64
  symSession := { resolve := fun _ _ _ => ⟨[], [], 0⟩, roundNumber := 0, mapStacks := ∅ }

/-- A configuration that asks for the calls of a name, however short. -/
def configOf (name : String) : SYSCALL where
  pid := 0
  tid := 0
  maxDurMs := 10000
  minDurMs := 0
  syscall := name.toUTF8.toList
  stack := false

/-- A read is reported as one where reads are asked for. -/
theorem runs_named_read :
    ∃ s, run SyscallTracer.step (.new (readArgs .amd64 (configOf "read")))
        (firstCall (readArgs .amd64 (configOf "read"))) = some s ∧
      s.emitted.length = 1 ∧
      ∀ e ∈ s.emitted, NamedBy amd64Session "read".toUTF8.toList e.event := by
  -- The run is computed, and what it emits is known from the configuration.
  have reports : (run SyscallTracer.step (.new (readArgs .amd64 (configOf "read")))
      (firstCall (readArgs .amd64 (configOf "read")))).map (·.emitted.length) = some 1 := by
    decide +kernel
  obtain ⟨s, ran, one⟩ := Option.map_eq_some_iff.mp reports
  have known : Arch.amd64.Knows "read".toUTF8.toList := ⟨"read", by decide, rfl⟩
  refine ⟨s, ran, one, ?_⟩
  exact (runs_named_iff amd64Session (by decide) (configOf "read") _ (kernelArgs_eq ..)).mpr
    (.inl known) _ s ran

/-- A read is reported where the calls of a misspelt name are asked for. -/
theorem runs_named_misspelt :
    ∃ args s e, kernelArgs .amd64 (configOf "raed") = some args ∧
      run SyscallTracer.step (.new args) (firstCall args) = some s ∧ e ∈ s.emitted ∧
      NamedBy amd64Session "read".toUTF8.toList e.event ∧
      ¬ NamedBy amd64Session "raed".toUTF8.toList e.event := by
  -- No name of the table is the misspelt one, so the first call is let pass.
  have unknown : ¬ ∃ known ∈ syscallTableX86, known.toUTF8.toList = "raed".toUTF8.toList := by
    decide +kernel
  obtain ⟨s, e, ran, member, first⟩ := firstCall_emitted
    (readArgs .amd64 (configOf "raed")) (idIn_unknown unknown) (by decide)
  have small : e.event.syscallId.toNat < 2 ^ 32 := by simp [first]
  refine ⟨_, s, e, kernelArgs_eq .., ran, member, ?_, ?_⟩
  · rw [namedBy_iff (by decide) small, first]
    rfl
  · rw [namedBy_iff (by decide) small, first]
    decide +kernel

end Spycat.Syscall
