import Spycat.Lib.Words
import Spycat.Proofs.Ebpf.OffcpuLabels
import Spycat.Proofs.Ebpf.OffcpuSteps

/-! Which times off the CPU reach the labels of their event without being cut. -/

namespace Spycat.Offcpu

open Lib OffcpuSession

/-- A time off the CPU, which is over in whole milliseconds, is within the settings. -/
def UserArgs.Within (args : UserArgs) (ms : Nat) : Prop :=
  args.minOffcpuMs.toNat ≤ ms ∧ ms ≤ args.maxOffcpuMs.toNat

/-- The settings and the labels of an event are right about a time off the CPU. -/
structure TimesExact (args : UserArgs) (offcpuNs onrqNs oncpuNs : Nat) (labels : AttributeMap) :
    Prop where
  within : args.Within ((oncpuNs - offcpuNs) / 1000000)
  durMs : HasNumber labels Model.durMs ((oncpuNs - offcpuNs) / 1000000)
  offcpuUs : HasNumber labels Model.cpuOffUsT ((oncpuNs - offcpuNs) / 1000)
  runqlatUs : HasNumber labels Model.runqLatUsT ((oncpuNs - onrqNs) / 1000)

/-- A task is reported by the lower 32 bits of its milliseconds off the CPU. -/
theorem reports_iff {args : UserArgs} {ep : TraceEventT} {now : UInt64}
    (left : ep.target.offcpuNs ≠ 0) (back : ep.target.offcpuNs ≤ now) :
    args.reports ep now = true ↔
      args.Within ((now.toNat - ep.target.offcpuNs.toNat) / 1000000 % 2 ^ 32) := by
  -- The signed variable is compared as the unsigned one it was made from.
  have lasted : (now - ep.target.offcpuNs).toNat = now.toNat - ep.target.offcpuNs.toNat :=
    UInt64.toNat_sub_of_le _ _ back
  simp only [UserArgs.reports, TraceEventT.delta, UserArgs.Within, UInt32.toUInt32_toInt32,
    Bool.and_eq_true, decide_eq_true_eq, UInt32.le_iff_toNat_le, UInt64.toNat_toUInt32,
    UInt64.toNat_div, lasted, left, ne_eq, not_false_eq_true, and_true]
  rfl

/-- Microseconds in a label are those of the lower 32 bits of the nanoseconds. -/
theorem hasNumber_thousandth {labels : List (String × AttributeValue)} {label : String}
    {ns : UInt64} {number : Nat}
    (last : Assoc.lastValue label labels = some (.int (ns.toUInt32.toUInt64 / 1000).toInt64)) :
    HasNumber (storedLabels labels) label number ↔ ns.toNat % 2 ^ 32 / 1000 = number := by
  -- The attribute has 32 bits, so that what is stored is never negative.
  have cut : (ns.toUInt32.toUInt64 / 1000).toNat = ns.toNat % 2 ^ 32 / 1000 := by simp
  have small : (ns.toUInt32.toUInt64 / 1000).toNat < 2 ^ 63 := by
    rw [cut]
    omega
  rw [hasNumber_stored last, toInt_toInt64 small, cut]
  exact Int.ofNat_inj

/-- A time that 32 bits of nanoseconds hold reaches the label of its milliseconds. -/
theorem delta_exact {ep : TraceEventT} {now : UInt64} (back : ep.target.offcpuNs ≤ now)
    (short : now.toNat - ep.target.offcpuNs.toNat < 2 ^ 32) :
    (ep.delta now).toInt64.toUInt64.toInt64.toInt =
      ((now.toNat - ep.target.offcpuNs.toNat) / 1000000 : Nat) := by
  -- Neither the unsigned nor the signed variable of 32 bits is too small.
  have lasted : (now - ep.target.offcpuNs).toNat = now.toNat - ep.target.offcpuNs.toNat :=
    UInt64.toNat_sub_of_le _ _ back
  have whole : ((now - ep.target.offcpuNs) / 1000000).toUInt32.toNat =
      (now.toNat - ep.target.offcpuNs.toNat) / 1000000 := by
    rw [UInt64.toNat_toUInt32, UInt64.toNat_div, lasted]
    show _ / 1000000 % _ = _
    omega
  have small : ((now - ep.target.offcpuNs) / 1000000).toUInt32.toNat < 2 ^ 31 := by
    rw [whole]
    omega
  rw [TraceEventT.delta, toInt_toInt32_toInt64 small, whole]

section Record

variable {maps : OffcpuMaps} {ctx : SwitchCtx} {ep : TraceEventT} {env : External}
  {session : OffcpuSession} {now : UInt64} {number : Nat}

/-- The event for a task, with the labels that are stored for it. -/
def labelsAt (env : External) (session : OffcpuSession) (maps : OffcpuMaps) (ctx : SwitchCtx)
    (ep : TraceEventT) : AttributeMap :=
  storedLabels (ownLabels env session ((maps.noted ctx).perfEvent (ep.switchedIn ctx) ctx))

/-- The label of a time off the CPU is that of its lower 32 bits. -/
theorem labelsAt_offcpuUs (back : ep.target.offcpuNs ≤ ctx.now) :
    HasNumber (labelsAt env session maps ctx ep) Model.cpuOffUsT number ↔
      (ctx.now.toNat - ep.target.offcpuNs.toNat) % 2 ^ 32 / 1000 = number := by
  -- The time is cut to 32 bits before it is divided.
  rw [labelsAt, hasNumber_thousandth rfl, OffcpuMaps.perfEvent_target,
    ← UInt64.toNat_sub_of_le _ _ back]
  rfl

/-- The label of a wait for the CPU is that of its lower 32 bits. -/
theorem labelsAt_runqlatUs (back : ep.target.onrqNs ≤ ctx.now) :
    HasNumber (labelsAt env session maps ctx ep) Model.runqLatUsT number ↔
      (ctx.now.toNat - ep.target.onrqNs.toNat) % 2 ^ 32 / 1000 = number := by
  -- The wait is cut in the same place.
  rw [labelsAt, hasNumber_thousandth rfl, OffcpuMaps.perfEvent_target,
    ← UInt64.toNat_sub_of_le _ _ back]
  rfl

/-- The label of the milliseconds is that of a signed variable. -/
theorem labelsAt_durMs :
    HasNumber (labelsAt env session maps ctx ep) Model.durMs number ↔
      (ep.delta ctx.now).toInt64.toUInt64.toInt64.toInt = number := by
  -- The label holds the signed variable, written as an unsigned number.
  rw [labelsAt, hasNumber_stored rfl, OffcpuMaps.perfEvent_durMs]
  rfl

/--
The settings and the labels are right about a task that is reported exactly where 32 bits hold the
nanoseconds that it was off the CPU.
-/
theorem timesExact_iff (reports : maps.args.reports ep ctx.now = true)
    (left : ep.target.offcpuNs ≠ 0) (woken : ep.target.offcpuNs ≤ ep.target.onrqNs)
    (back : ep.target.onrqNs ≤ ctx.now) :
    TimesExact maps.args ep.target.offcpuNs.toNat ep.target.onrqNs.toNat ctx.now.toNat
        (labelsAt env session maps ctx ep) ↔
      ctx.now.toNat - ep.target.offcpuNs.toNat < 2 ^ 32 := by
  have outBack : ep.target.offcpuNs ≤ ctx.now := UInt64.le_trans woken back
  have wokenNat := UInt64.le_iff_toNat_le.mp woken
  constructor
  · -- A longer time loses at least 2 ^ 32 nanoseconds, which are many microseconds.
    intro right
    have cut := (labelsAt_offcpuUs outBack).mp right.offcpuUs
    omega
  · intro short
    have within := (reports_iff left outBack).mp reports
    -- A short time has few milliseconds, so nothing is cut off them either.
    have below : (ctx.now.toNat - ep.target.offcpuNs.toNat) / 1000000 % 2 ^ 32 =
        (ctx.now.toNat - ep.target.offcpuNs.toNat) / 1000000 := by omega
    rw [below] at within
    refine ⟨within, ?_, ?_, ?_⟩
    · exact labelsAt_durMs.mpr (delta_exact outBack short)
    · apply (labelsAt_offcpuUs outBack).mpr
      rw [Nat.mod_eq_of_lt short]
    · apply (labelsAt_runqlatUs back).mpr
      have shorter : ctx.now.toNat - ep.target.onrqNs.toNat < 2 ^ 32 := by omega
      rw [Nat.mod_eq_of_lt shorter]

end Record

/--
For a task that was off the CPU from a time on, was woken up later and is back now, the settings and
the labels of the event are right exactly where 32 bits hold the nanoseconds in between, or where
the milliseconds without their upper bits are outside the settings, so that there is no event.
-/
theorem times_exact (maps : OffcpuMaps) (ctx : SwitchCtx) (ep : TraceEventT)
    (target : maps.args.isTargetTask ctx.cur = true)
    (found : (maps.notePrev ctx).start.lookup ctx.cur.pid = some ep)
    (left : ep.target.offcpuNs ≠ 0) (woken : ep.target.offcpuNs ≤ ep.target.onrqNs)
    (back : ep.target.onrqNs ≤ ctx.now) (env : External) (session : OffcpuSession) (now : UInt64)
    (rest : List UInt8) :
    (∀ event, (maps.schedSwitchHook ctx).2 = some event →
      ∃ dumped own, session.handleEvent now (event.bytes ++ rest) = some (dumped ++ [own]) ∧
        TimesExact maps.args ep.target.offcpuNs.toNat ep.target.onrqNs.toNat ctx.now.toNat
          (CpuDetector.formatOffcpuLabels env own)) ↔
      ctx.now.toNat - ep.target.offcpuNs.toNat < 2 ^ 32 ∨
        ¬ maps.args.Within ((ctx.now.toNat - ep.target.offcpuNs.toNat) / 1000000 % 2 ^ 32) := by
  -- Without an event there is nothing to be right about.
  have outBack : ep.target.offcpuNs ≤ ctx.now := UInt64.le_trans woken back
  rw [← reports_iff left outBack]
  simp only [OffcpuMaps.schedSwitchHook_event _ target found, OffcpuSession.handleEvent_own,
    formatOffcpuLabels_own]
  constructor
  · intro right
    by_cases reports : maps.args.reports ep ctx.now = true
    · exact .inl ((timesExact_iff reports left woken back).mp (right _ ⟨reports, rfl⟩))
    · exact .inr reports
  · rintro condition event ⟨reports, rfl⟩
    apply (timesExact_iff reports left woken back).mpr
    exact condition.resolve_right fun silent => silent reports

/-- The record of a task that left the CPU after a millisecond and was woken up after two. -/
def sleeperRecord : TraceEventT where
  waker := .zero
  target := { TargetT.zero with pid := 5, tgid := 5, offcpuNs := 1000000, onrqNs := 2000000 }

/-- The maps with that record, and with settings that report times up to ten seconds. -/
def sleeper : OffcpuMaps where
  start := (∅ : Assoc UInt32 TraceEventT).insert 5 sleeperRecord
  schedCache := fun _ => .zero
  perfEventCache := fun _ => .zero
  schedCacheBackup := ∅
  args := { OffcpuTracer.openArgs 0 with maxOffcpuMs := 10000 }

/-- The task takes a CPU again. -/
def backAt (now : UInt64) : SwitchCtx :=
  OffcpuTracer.switchCtx now (OffcpuTracer.taskOf 6) (OffcpuTracer.taskOf 5) 0

/-- A task that is back after two milliseconds is reported with its times. -/
theorem times_exact_short_sleep :
    (sleeper.schedSwitchHook (backAt 3000000)).2.isSome ∧
      ∀ (env : External) (session : OffcpuSession) (now : UInt64) (rest : List UInt8) (event),
        (sleeper.schedSwitchHook (backAt 3000000)).2 = some event →
        ∃ dumped own, session.handleEvent now (event.bytes ++ rest) = some (dumped ++ [own]) ∧
          TimesExact sleeper.args 1000000 2000000 3000000
            (CpuDetector.formatOffcpuLabels env own) := by
  -- The sleep is shorter than the 32 bits of the labels.
  refine ⟨by decide +kernel, fun env session now rest => ?_⟩
  exact (times_exact sleeper (backAt 3000000) sleeperRecord (by decide) rfl (by decide) (by decide)
    (by decide) env session now rest).mpr (.inl (by decide))

/-- A task that is back after five seconds is reported with less than one. -/
theorem long_sleep_cut :
    ∃ event, (sleeper.schedSwitchHook (backAt 5001000000)).2 = some event ∧
      ∀ (env : External) (session : OffcpuSession) (now : UInt64), ∃ own,
        session.handleEvent now event.bytes = some [own] ∧
        HasNumber (CpuDetector.formatOffcpuLabels env own) Model.cpuOffUsT 705032 ∧
        ¬ TimesExact sleeper.args 1000000 2000000 5001000000
          (CpuDetector.formatOffcpuLabels env own) := by
  -- Five seconds are 705032704 nanoseconds in 32 bits.
  have reports : sleeper.args.reports sleeperRecord (backAt 5001000000).now = true := by decide
  have found : (sleeper.notePrev (backAt 5001000000)).start.lookup
      (backAt 5001000000).cur.pid = some sleeperRecord := rfl
  have emitted := (OffcpuMaps.schedSwitchHook_event _ (by decide) found).mpr ⟨reports, rfl⟩
  refine ⟨_, emitted, fun env session now => ?_⟩
  have handled := session.handleEvent_eq now
    ((sleeper.noted (backAt 5001000000)).perfEvent
      (sleeperRecord.switchedIn (backAt 5001000000)) (backAt 5001000000)) []
  rw [List.append_nil] at handled
  refine ⟨_, handled, ?_, ?_⟩
  · rw [formatOffcpuLabels_own]
    exact (labelsAt_offcpuUs (by decide)).mpr rfl
  · rw [formatOffcpuLabels_own]
    intro right
    have short := (timesExact_iff reports (by decide) (by decide) (by decide)).mp right
    exact absurd short (by decide)

end Spycat.Offcpu
