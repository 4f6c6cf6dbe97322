import Spycat.Proofs.Ebpf.OffcpuBytes
import Spycat.Proofs.Exporter.SqliteLabels

/-! From a record of the off-CPU tracer to its labels, and from these to a row of the database. -/

namespace Spycat.Offcpu

open Lib OffcpuSession

/-- The labels that are stored for a record, in the order of its attributes. -/
def ownLabels (env : External) (session : OffcpuSession) (event : PerfEventT) :
    List (String × AttributeValue) :=
  [(Model.tidW, .int event.waker.pid.toUInt64.toInt64),
    (Model.pidW, .int event.waker.tgid.toUInt64.toInt64),
    (Model.waker, .string (withoutNul event.waker.comm.toList)),
    (Model.stackW, .string (session.symSession.stackText event.waker.kernStackId
      event.waker.userStackId event.waker.tgid)),
    (Model.tidT, .int event.target.pid.toUInt64.toInt64),
    (Model.pidT, .int event.target.tgid.toUInt64.toInt64),
    (Model.runqLatUsT,
      .int ((event.target.oncpuNs - event.target.onrqNs).toUInt32.toUInt64 / 1000).toInt64),
    (Model.cpuOffUsT,
      .int ((event.target.oncpuNs - event.target.offcpuNs).toUInt32.toUInt64 / 1000).toInt64),
    (Model.wakee, .string (withoutNul event.target.comm.toList)),
    (Model.startTime, .string (env.bootTime event.target.offcpuNs)),
    (Model.timeStamp, .string (env.bootTime event.tsNs)),
    (Model.durMs, .int event.durMs.toInt64),
    (Model.runqDurMs, .int event.rqDurMs.toInt64),
    (Model.stackT, .string (session.symSession.stackText event.target.kernStackId
      event.target.userStackId event.target.tgid))]

/-- The labels of a record are those; the waker's own times are not among them. -/
theorem formatOffcpuLabels_own (env : External) (session : OffcpuSession) (now : UInt64)
    (event : PerfEventT) :
    CpuDetector.formatOffcpuLabels env (session.ownEvent now event) =
      storedLabels (ownLabels env session event) := by
  -- Each attribute is looked up among the cases, and read back as it was set.
  unfold CpuDetector.formatOffcpuLabels ownEvent offcpuEvent
  rw [formatLabels_eq, SpyEvent.userAttributes_bare (by simp [spyEventFieldMax])]
  simp only [List.foldl_cons, List.foldl_nil, applyCase_nil, applyCase_int, applyCase_thousandth,
    applyCase_string, applyCase_trimmed, applyCase_time, KeyValue.key_ofUint32,
    KeyValue.key_ofUint64, KeyValue.key_ofByteBuf, KeyValue.getUintValue_ofUint32,
    KeyValue.getUintValue_ofUint64, KeyValue.value_ofByteBuf, String.reduceEq, if_true, if_false]
  rfl

end Spycat.Offcpu

namespace Spycat.Sqlite

open Lib Offcpu

/-- A row names the tasks of a record, each with its own numbers, name and stacks. -/
structure OFFCPU.Identifies (row : OFFCPU) (session : OffcpuSession) (event : PerfEventT) :
    Prop where
  wakerPid : row.wakerPid = event.waker.tgid
  wakerTid : row.wakerTid = event.waker.pid
  wakerComm : row.wakerComm = withoutNul event.waker.comm.toList
  wakerStack : row.wakerStack =
    session.symSession.stackText event.waker.kernStackId event.waker.userStackId event.waker.tgid
  wakeePid : row.wakeePid = event.target.tgid
  wakeeTid : row.wakeeTid = event.target.pid
  wakeeComm : row.wakeeComm = withoutNul event.target.comm.toList
  wakeeStack : row.wakeeStack =
    session.symSession.stackText event.target.kernStackId event.target.userStackId
      event.target.tgid

/-- The row of a record: the names and stacks are right, and the numbers are all the waker's. -/
theorem consume_own (env : External) (session : OffcpuSession) (now : UInt64) (event : PerfEventT) :
    ∃ row, consume (CpuDetector.offcpuHandler env (session.ownEvent now event)) =
        some (.offcpu row) ∧
      row.wakerPid = event.waker.pid ∧ row.wakerTid = event.waker.tgid ∧
      row.wakeePid = event.waker.tgid ∧ row.wakeeTid = event.waker.pid ∧
      row.wakerComm = withoutNul event.waker.comm.toList ∧
      row.wakeeComm = withoutNul event.target.comm.toList ∧
      row.wakerStack = session.symSession.stackText event.waker.kernStackId
        event.waker.userStackId event.waker.tgid ∧
      row.wakeeStack = session.symSession.stackText event.target.kernStackId
        event.target.userStackId event.target.tgid := by
  -- Every column is read off one label, which was stored once.
  have labels := formatOffcpuLabels_own env session now event
  have waker : (storedLabels (ownLabels env session event)).getStringValue Model.waker =
      withoutNul event.waker.comm.toList := getStringValue_stored rfl
  have wakee : (storedLabels (ownLabels env session event)).getStringValue Model.wakee =
      withoutNul event.target.comm.toList := getStringValue_stored rfl
  have stackW : (storedLabels (ownLabels env session event)).getStringValue Model.stackW =
      session.symSession.stackText event.waker.kernStackId event.waker.userStackId
        event.waker.tgid := getStringValue_stored rfl
  have stackT : (storedLabels (ownLabels env session event)).getStringValue Model.stackT =
      session.symSession.stackText event.target.kernStackId event.target.userStackId
        event.target.tgid := getStringValue_stored rfl
  have tidW : uintLabel (storedLabels (ownLabels env session event)) Model.tidW =
      event.waker.pid := (uintLabel_stored rfl).trans (UInt32.toUInt32_toUInt64 _)
  have pidW : uintLabel (storedLabels (ownLabels env session event)) Model.pidW =
      event.waker.tgid := (uintLabel_stored rfl).trans (UInt32.toUInt32_toUInt64 _)
  simp only [consume, CpuDetector.offcpuHandler, CpuDetector.recordOf, newDataBlock, if_true,
    labels, waker, wakee, stackW, stackT, tidW, pidW]
  exact ⟨_, rfl, rfl, rfl, rfl, rfl, rfl, rfl, rfl, rfl⟩

/--
Every record makes one event of its own and one row, which names both tasks rightly exactly where
the waker is the first thread of its process and the target has the waker's numbers.
-/
theorem row_identifies (env : External) (session : OffcpuSession) (now : UInt64)
    (event : PerfEventT) (rest : List UInt8) :
    ∃ dumped own row, session.handleEvent now (event.bytes ++ rest) = some (dumped ++ [own]) ∧
      consume (CpuDetector.offcpuHandler env own) = some (.offcpu row) ∧
      (row.Identifies session event ↔
        event.waker.pid = event.waker.tgid ∧ event.target.tgid = event.waker.tgid ∧
          event.target.pid = event.waker.pid) := by
  -- Each column that is wrong gives one of the conditions.
  obtain ⟨row, consumed, wakerPid, wakerTid, wakeePid, wakeeTid, wakerComm, wakeeComm, wakerStack,
    wakeeStack⟩ := consume_own env session now event
  refine ⟨_, _, row, session.handleEvent_eq now event rest, consumed, ?_⟩
  constructor
  · intro identifies
    refine ⟨?_, ?_, ?_⟩
    · rw [← wakerPid, identifies.wakerPid]
    · rw [← wakeePid, identifies.wakeePid]
    · rw [← wakeeTid, identifies.wakeeTid]
  · rintro ⟨first, process, thread⟩
    refine ⟨?_, ?_, wakerComm, wakerStack, ?_, ?_, wakeeComm, wakeeStack⟩
    · rw [wakerPid, first]
    · rw [wakerTid, first]
    · rw [wakeePid, process]
    · rw [wakeeTid, thread]

/-- Thread eleven of process ten woke up thread twenty-one of process twenty. -/
def twoThreads : PerfEventT :=
  { PerfEventT.zero with
    waker := { WakerT.zero with pid := 11, tgid := 10 }
    target := { TargetT.zero with pid := 21, tgid := 20 } }

/-- The row has the waker's thread for its process, and the waker for the target. -/
theorem row_swaps_numbers :
    ∃ event : PerfEventT, event.waker.tgid = 10 ∧ event.waker.pid = 11 ∧
      event.target.tgid = 20 ∧ event.target.pid = 21 ∧
      ∀ (env : External) (session : OffcpuSession) (now : UInt64), ∃ own row,
        session.handleEvent now event.bytes = some [own] ∧
        consume (CpuDetector.offcpuHandler env own) = some (.offcpu row) ∧
        ¬ row.Identifies session event ∧
        row.wakerPid = 11 ∧ row.wakerTid = 10 ∧ row.wakeePid = 10 ∧ row.wakeeTid = 11 := by
  -- The row is the one that every record gets.
  refine ⟨twoThreads, rfl, rfl, rfl, rfl, fun env session now => ?_⟩
  obtain ⟨row, consumed, wakerPid, wakerTid, wakeePid, wakeeTid, _⟩ :=
    consume_own env session now twoThreads
  have handled := session.handleEvent_eq now twoThreads []
  rw [List.append_nil] at handled
  refine ⟨_, row, handled, consumed, fun identifies => ?_, wakerPid, wakerTid, wakeePid, wakeeTid⟩
  have same := wakerPid.symm.trans identifies.wakerPid
  exact absurd same (by decide)

end Spycat.Sqlite
