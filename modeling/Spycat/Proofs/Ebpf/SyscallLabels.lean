import Spycat.Ebpf.SyscallSession
import Spycat.Proofs.Detector.LabelSwitch
import Spycat.Proofs.Ebpf.SyscallStart

/-! What becomes of the events of the system call tracer, whose session reads them too narrowly. -/

namespace Spycat.Syscall

open Lib Bpf Reader

/-- What the session takes for a task's name: four bytes of the call's number come first. -/
def shiftedComm (comm : CharArray taskCommLen) : CharArray taskCommLen :=
  .ofBytes taskCommLen (List.replicate 4 0 ++ comm.toList.take 12)

/-- The characters of a shifted name. -/
theorem shiftedComm_toList (comm : CharArray taskCommLen) :
    (shiftedComm comm).toList = List.replicate 4 0 ++ comm.toList.take 12 := by
  -- Four zeros and twelve characters fill the array.
  apply CharArray.toList_ofBytes
  rw [List.length_append, List.length_replicate, List.length_take, Vector.length_toList]
  rfl

/-- A record of the session that stands for an event of the kernel. -/
def recordOf (event : SyscallEvent) : SyscallRecord where
  pid := event.pid
  tid := event.tid
  tsNs := event.tsNs
  durUs := event.durUs
  uStackId := event.uStackId
  kStackId := event.kStackId
  syscallId := event.syscallId.toUInt32
  comm := shiftedComm event.comm

/-- The bytes of an event are those of the session's record, and four more characters. -/
theorem bytes_split {event : SyscallEvent} (small : event.syscallId.toNat < 2 ^ 32) :
    event.bytes =
      ([.u32 event.pid, .u32 event.tid, .u64 event.tsNs, .u64 event.durUs, .s64 event.uStackId,
        .s64 event.kStackId, .u32 event.syscallId.toUInt32, .chars (shiftedComm event.comm)] :
          List CField).flatMap CField.bytes ++ event.comm.toList.drop 12 := by
  -- The upper half of the call's number is zero, and is read as the first characters.
  have upper : event.syscallId.toNat / 256 ^ 4 = 0 := Nat.div_eq_of_lt small
  have lower : event.syscallId.toUInt32.toNat = event.syscallId.toNat := by
    rw [UInt64.toNat_toUInt32]
    exact Nat.mod_eq_of_lt small
  have number : (CField.u64 event.syscallId).bytes =
      (CField.u32 event.syscallId.toUInt32).bytes ++ List.replicate 4 0 := by
    show lePut (4 + 4) event.syscallId.toNat = lePut 4 event.syscallId.toUInt32.toNat ++ _
    rw [lePut_add, upper, lower]
    rfl
  rw [SyscallEvent.bytes, cStruct_packed (by simp [Packed]; decide)]
  simp only [List.flatMap_cons, List.flatMap_nil, List.append_nil, List.append_assoc, number]
  simp only [CField.chars, shiftedComm_toList, List.append_assoc, List.take_append_drop]

/-- The session reads what it takes for a record off the bytes of an event. -/
theorem readSyscallRecord_run {event : SyscallEvent} (small : event.syscallId.toNat < 2 ^ 32)
    (rest : List UInt8) :
    readSyscallRecord.run (event.bytes ++ rest) = some (recordOf event) := by
  -- Four characters are left over behind the record that is read.
  have fields := (reads_done SyscallRecord.mk).next (reads_uint32 event.pid)
    |>.next (reads_uint32 event.tid) |>.next (reads_uint64 event.tsNs)
    |>.next (reads_uint64 event.durUs) |>.next (reads_int64 event.uStackId)
    |>.next (reads_int64 event.kStackId) |>.next (reads_uint32 event.syscallId.toUInt32)
    |>.next (reads_chars (shiftedComm event.comm))
  rw [bytes_split small, List.append_assoc]
  exact fields.run _

/-- The labels that are stored for a record, in the order of its attributes. -/
def storedFor (session : SyscallSession) (r : SyscallRecord) (syms : Bytes) :
    List (String × AttributeValue) :=
  [(Model.durUs, .int r.durUs.toInt64),
    (Model.syscall, .string (session.syscallIdToName r.syscallId)),
    (Model.stack, .string syms),
    (Model.pid, .int (Int64.ofNat r.pid.toNat)),
    (Model.tid, .int (Int64.ofNat r.tid.toNat)),
    (Model.comm, .string (withoutNul r.comm.toList))]

/-- The labels of a record are those; its name is taken from its task. -/
theorem formatSyscallLabels_event (session : SyscallSession) (now : UInt64) (r : SyscallRecord)
    (syms : Bytes) :
    CpuDetector.formatSyscallLabels (session.syscallEvent now r syms) =
      storedLabels (storedFor session r syms) := by
  -- Each attribute is looked up among the cases, and read back as it was set.
  unfold CpuDetector.formatSyscallLabels SyscallSession.syscallEvent
  have room : ([.ofUint64 "dur_us" r.durUs, .ofUint32 "pid" r.pid, .ofByteBuf "comm" r.comm.toList,
      .ofByteBuf "syscall" (session.syscallIdToName r.syscallId), .ofByteBuf "stack" syms] :
        List KeyValue).length ≤ spyEventFieldMax := by simp [spyEventFieldMax]
  rw [formatLabels_eq, SpyEvent.userAttributes_bare room]
  simp only [List.foldl_cons, List.foldl_nil, applyCase_nil, applyCase_int, applyCase_string,
    KeyValue.key_ofUint32, KeyValue.key_ofUint64, KeyValue.key_ofByteBuf,
    KeyValue.getUintValue_ofUint64, KeyValue.value_ofByteBuf, String.reduceEq, if_true, if_false]
  rw [SpyEvent.setUserAttributes_eq (by simpa [SpyEvent.bare] using room)]
  rfl

/-- The labels of an event hold what the kernel wrote. -/
structure SyscallEvent.LabelsRight (event : SyscallEvent) (session : SyscallSession)
    (labels : AttributeMap) : Prop where
  pid : HasNumber labels Model.pid event.pid.toNat
  tid : HasNumber labels Model.tid event.tid.toNat
  durUs : HasNumber labels Model.durUs event.durUs.toNat
  syscall : HasString labels Model.syscall
    (session.syscallIdToName (UInt32.ofNat event.syscallId.toNat))
  comm : HasString labels Model.comm (withoutNul event.comm.toList)

/-- A shifted name is the whole one, apart from zeros, where the last characters are zeros. -/
theorem withoutNul_shifted (comm : CharArray taskCommLen) :
    withoutNul (shiftedComm comm).toList = withoutNul comm.toList ↔
      ∀ byte ∈ comm.toList.drop 12, byte = 0 := by
  -- The zeros in front go, and what is cut off may hold only zeros.
  have front : withoutNul (shiftedComm comm).toList = withoutNul (comm.toList.take 12) := by
    rw [shiftedComm_toList, withoutNul, List.filter_append]
    rfl
  have whole : withoutNul comm.toList =
      withoutNul (comm.toList.take 12) ++ withoutNul (comm.toList.drop 12) := by
    rw [withoutNul, withoutNul, withoutNul, ← List.filter_append, List.take_append_drop]
  rw [front, whole, List.self_eq_append_right, withoutNul, List.filter_eq_nil_iff]
  simp

/-- The number of a reported call has 32 bits. -/
theorem sysExit_syscallId {maps : SyscallMaps} {ctx : ExitCtx} {event : SyscallEvent}
    (reported : maps.sysExit ctx = some event) : event.syscallId.toNat < 2 ^ 32 := by
  -- The number went through a variable of 32 bits before it was stored.
  obtain ⟨_, _, _, _, _, _, rfl⟩ := sysExit_eq_some.mp reported
  rw [UInt32.toNat_toUInt64]
  exact UInt32.toNat_lt _

/-- The event that is sent for a record of the kernel. -/
def ownEvent (session : SyscallSession) (now : UInt64) (event : SyscallEvent) : SpyEvent :=
  session.syscallEvent now (recordOf event)
    (session.symSession.stackText event.kStackId.toInt32 event.uStackId.toInt32 event.pid)

/-- What is sent for a record of the kernel. -/
theorem handleEvent_eq (session : SyscallSession) (now : UInt64) {event : SyscallEvent}
    (small : event.syscallId.toNat < 2 ^ 32) (rest : List UInt8) :
    session.handleEvent now (event.bytes ++ rest) = some (ownEvent session now event) := by
  -- The record is long enough, and its stacks are always resolved.
  simp only [SyscallSession.handleEvent, readSyscallRecord_run small, Option.getD_some,
    StackSession.resolveStacks_eq, Option.map_some]
  rfl

/-- The labels of a record that was read from an event. -/
theorem labelsRight_iff {event : SyscallEvent} (short : event.durUs.toNat < 2 ^ 63)
    (session : SyscallSession) (now : UInt64) :
    event.LabelsRight session (CpuDetector.formatSyscallLabels (ownEvent session now event)) ↔
      ∀ byte ∈ event.comm.toList.drop 12, byte = 0 := by
  -- All labels but the name are right whatever the name is.
  rw [ownEvent, formatSyscallLabels_event, ← withoutNul_shifted]
  constructor
  · exact fun right => (hasString_stored rfl).mp right.comm
  · intro same
    refine ⟨?_, ?_, ?_, ?_, ?_⟩
    · exact hasNumber_narrow rfl
    · exact hasNumber_narrow rfl
    · exact hasNumber_unsigned rfl short
    · exact (hasString_stored rfl).mpr rfl
    · exact (hasString_stored rfl).mpr same

/--
The labels of every event of the tracer hold what the kernel wrote exactly where the last four
characters of the task's name are zeros.
-/
theorem labels_right (maps : SyscallMaps) (ctx : ExitCtx) (event : SyscallEvent)
    (reported : maps.sysExit ctx = some event) (session : SyscallSession) (now : UInt64)
    (rest : List UInt8) :
    ∃ own, session.handleEvent now (event.bytes ++ rest) = some own ∧
      (event.LabelsRight session (CpuDetector.formatSyscallLabels own) ↔
        ∀ byte ∈ event.comm.toList.drop 12, byte = 0) := by
  -- The number has 32 bits, and microseconds fit a signed variable.
  have small := sysExit_syscallId reported
  obtain ⟨noted, _, _, lasted⟩ := sysExit_event reported
  have short : event.durUs.toNat < 2 ^ 63 := by
    have range := (ctx.now - noted.tsNs).toNat_lt
    rw [lasted, UInt64.toNat_div]
    show _ / 1000 < _
    omega
  exact ⟨_, handleEvent_eq session now small rest, labelsRight_iff short session now⟩

/-- A task of a name that returns from a call. -/
def returns (name : String) : ExitCtx where
  pidTgid := 5
  now := 9000
  id := 0
  comm := .ofBytes taskCommLen name.toUTF8.toList
  uStackId := 0
  kStackId := 0

/-- The maps where the begin of that call is noted. -/
def begun : SyscallMaps where
  start := (∅ : Assoc UInt32 SyscallEvent).insert 5
    { SyscallEvent.zero with pid := 5, tid := 5, tsNs := 1000 }
  args :=
    { pid := 0
      tid := 0
      minSyscallMs := 0
      maxSyscallMs := 1000
      stack := false
      syscallId := 0xFFFFFFFF }

/-- A task with a short name is labelled with it. -/
theorem labels_right_short_name :
    ∃ event, begun.sysExit (returns "cat") = some event ∧
      ∀ (session : SyscallSession) (now : UInt64) (rest : List UInt8), ∃ own,
        session.handleEvent now (event.bytes ++ rest) = some own ∧
          event.LabelsRight session (CpuDetector.formatSyscallLabels own) := by
  -- The name is short enough for its label.
  refine ⟨_, rfl, fun session now rest => ?_⟩
  obtain ⟨own, handled, right⟩ := labels_right begun (returns "cat") _ rfl session now rest
  exact ⟨own, handled, right.mpr (by decide +kernel)⟩

/-- A task with a name of fifteen characters is labelled with the first twelve. -/
theorem long_name_cut :
    ∃ event, begun.sysExit (returns "systemd-journal") = some event ∧
      ∀ (session : SyscallSession) (now : UInt64), ∃ own,
        session.handleEvent now event.bytes = some own ∧
        ¬ event.LabelsRight session (CpuDetector.formatSyscallLabels own) ∧
        HasString (CpuDetector.formatSyscallLabels own) Model.comm
          "systemd-jour".toUTF8.toList := by
  -- The last three characters of the name are no zeros.
  refine ⟨_, rfl, fun session now => ?_⟩
  have handled := handleEvent_eq session now
    (sysExit_syscallId (show begun.sysExit (returns "systemd-journal") = some _ from rfl)) []
  rw [List.append_nil] at handled
  refine ⟨_, handled, fun right => ?_, ?_⟩
  · have zeros := (labelsRight_iff (by decide +kernel) session now).mp right
    revert zeros
    decide +kernel
  · rw [ownEvent, formatSyscallLabels_event]
    apply (hasString_stored rfl).mpr
    decide +kernel

end Spycat.Syscall
