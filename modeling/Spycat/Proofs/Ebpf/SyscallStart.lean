import Spycat.Ebpf.Syscall
import Spycat.Lib.Run

/-! Which notes of begun calls are those of calls that go on, and which events are dated by them. -/

namespace Spycat.Syscall

open Lib Bpf

section Handlers

variable {maps : SyscallMaps}

/-- A call that the filters leave out is not noted. -/
theorem sysEnter_refused {ctx : EnterCtx}
    (refused : maps.args.accepts ctx.pidTgid ctx.id.toUInt64.toUInt32 = false) :
    maps.sysEnter ctx = maps := by
  -- The filter is checked first.
  simp [SyscallMaps.sysEnter, refused]

/-- A call that begins is noted under its own thread alone. -/
theorem sysEnter_other (ctx : EnterCtx) {tid : UInt32} (other : tid ≠ tidOf ctx.pidTgid) :
    (maps.sysEnter ctx).start.lookup tid = maps.start.lookup tid := by
  -- An update that is refused for lack of room leaves the map as it was.
  simp only [SyscallMaps.sysEnter]
  split
  · simp only [tryUpdateElem, updateElem]
    split <;> split <;> simp [AList.lookup_insert_ne other]
  · rfl

/-- What is noted under the thread of an accepted call is the begin of that call. -/
theorem sysEnter_own {ctx : EnterCtx}
    (accepted : maps.args.accepts ctx.pidTgid ctx.id.toUInt64.toUInt32 = true)
    {event : SyscallEvent}
    (noted : (maps.sysEnter ctx).start.lookup (tidOf ctx.pidTgid) = some event) :
    event.tsNs = ctx.now := by
  -- An entry that is there already is written over.
  simp only [SyscallMaps.sysEnter, accepted, if_true, tryUpdateElem, updateElem] at noted
  split at noted
  · simp at noted
    rw [← noted]
  · rename_i absent
    split at noted
    · simp at noted
      rw [← noted]
    · simp [absent] at noted

/-- The settings stay. -/
@[simp] theorem sysEnter_args (ctx : EnterCtx) : (maps.sysEnter ctx).args = maps.args := by
  -- Only the notes are touched.
  simp only [SyscallMaps.sysEnter]
  split <;> rfl

/-- All that is handed over when a call returns, and when. -/
theorem sysExit_eq_some {ctx : ExitCtx} {event : SyscallEvent} :
    maps.sysExit ctx = some event ↔
      ctx.id ≠ -1 ∧ maps.args.accepts ctx.pidTgid ctx.id.toUInt64.toUInt32 ∧
        ∃ noted, maps.start.lookup (tidOf ctx.pidTgid) = some noted ∧
          (ctx.now - noted.tsNs) / 1000000 ≥ maps.args.minSyscallMs.toUInt64 ∧
          (ctx.now - noted.tsNs) / 1000000 ≤ maps.args.maxSyscallMs.toUInt64 ∧
          { noted with
            durUs := (ctx.now - noted.tsNs) / 1000
            uStackId := if maps.args.stack then ctx.uStackId else noted.uStackId
            kStackId := if maps.args.stack then ctx.kStackId else noted.kStackId
            syscallId := ctx.id.toUInt64.toUInt32.toUInt64
            comm := ctx.comm } = event := by
  -- Of all returns of the source only one hands over an event.
  simp only [SyscallMaps.sysExit]
  by_cases interrupt : ctx.id = -1
  · simp [interrupt]
  by_cases accepted : maps.args.accepts ctx.pidTgid ctx.id.toUInt64.toUInt32
  · cases maps.start.lookup (tidOf ctx.pidTgid) with
    | none => simp
    | some noted => simp [interrupt, accepted, and_assoc]
  · simp [accepted]

/-- An event carries the time that was noted, and the time since then. -/
theorem sysExit_event {ctx : ExitCtx} {event : SyscallEvent}
    (reported : maps.sysExit ctx = some event) :
    ∃ noted, maps.start.lookup (tidOf ctx.pidTgid) = some noted ∧ event.tsNs = noted.tsNs ∧
      event.durUs = (ctx.now - noted.tsNs) / 1000 := by
  -- The event takes its time from the note, and its duration up to now.
  obtain ⟨_, _, noted, found, _, _, rfl⟩ := sysExit_eq_some.mp reported
  exact ⟨noted, found, rfl, rfl⟩

end Handlers

namespace SyscallTracer

variable {s s' : SyscallTracer}

/-- There is a note for a thread only while it is in a traced call. -/
def Fresh (s : SyscallTracer) : Prop :=
  ∀ tid event, s.maps.start.lookup tid = some event → ∃ since, s.threads tid = .traced since

/-- Every event carries the begin of the call it was emitted for, and how long that call took. -/
def Truthful (s : SyscallTracer) : Prop :=
  ∀ x ∈ s.emitted, ∃ since, x.call = .traced since ∧ x.event.tsNs = since ∧
    since ≤ x.exited ∧ x.event.durUs.toNat = (x.exited.toNat - since.toNat) / 1000

/-- No thread leaves a call while there is a note for it, by returning or by dying. -/
def StaysNoted (s : SyscallTracer) : SyscallAction → Prop
  | .exit ctx => s.maps.start.lookup (tidOf ctx.pidTgid) = none
  | .dies tid => s.maps.start.lookup tid = none
  | _ => True

/-- A call that returns while there is a note for its thread is a traced one. -/
def ReturnsTraced (s : SyscallTracer) : SyscallAction → Prop
  | .exit ctx => (s.maps.start.lookup (tidOf ctx.pidTgid)).isSome →
      ∃ since, s.threads (tidOf ctx.pidTgid) = .traced since
  | _ => True

/-- The note for a thread in a traced call is the begin of that call, and in the past. -/
def Dated (s : SyscallTracer) : Prop :=
  ∀ tid since, s.threads tid = .traced since →
    since ≤ s.clock ∧ ∀ event, s.maps.start.lookup tid = some event → event.tsNs = since

@[simp] theorem move_maps (tid : UInt32) (state : ThreadState) :
    (s.move tid state).maps = s.maps := rfl

@[simp] theorem move_emitted (tid : UInt32) (state : ThreadState) :
    (s.move tid state).emitted = s.emitted := rfl

@[simp] theorem move_clock (tid : UInt32) (state : ThreadState) :
    (s.move tid state).clock = s.clock := rfl

/-- Only the thread that moves stands somewhere else. -/
theorem move_threads (tid other : UInt32) (state : ThreadState) :
    (s.move tid state).threads other = if other = tid then state else s.threads other := by
  -- One thread moves, and the others stay.
  simp [move, Function.update_apply]

/-- A thread that moves out of every traced call leaves the other notes dated. -/
theorem Dated.move (dated : s.Dated) (tid : UInt32) {state : ThreadState}
    (untraced : ∀ since, state ≠ .traced since) : (s.move tid state).Dated := by
  -- The thread that moves is in no traced call, and the others stay.
  intro other since stands
  rw [move_threads] at stands
  split at stands
  · exact absurd stands (untraced since)
  · exact dated other since stands

/-- What a step does. -/
inductive Moves (s : SyscallTracer) : SyscallAction → SyscallTracer → Prop
  | enter {ctx : EnterCtx} (outside : s.threads (tidOf ctx.pidTgid) = .outside)
      (later : s.clock ≤ ctx.now) :
      Moves s (.enter ctx) ((s.enter ctx).move (tidOf ctx.pidTgid) (s.entered ctx))
  | exit {ctx : ExitCtx} (alive : s.threads (tidOf ctx.pidTgid) ≠ .gone)
      (inside : s.threads (tidOf ctx.pidTgid) ≠ .outside) (later : s.clock ≤ ctx.now) :
      Moves s (.exit ctx) ((s.exit ctx).move (tidOf ctx.pidTgid) .outside)
  | born {tid : UInt32} {inCall : Bool} (gone : s.threads tid = .gone) :
      Moves s (.born tid inCall) (s.move tid (if inCall then .untraced else .outside))
  | dies {tid : UInt32} (alive : s.threads tid ≠ .gone) : Moves s (.dies tid) (s.move tid .gone)

/-- Every step is one of these. -/
theorem step_moves {action : SyscallAction} (stepped : s.step action = some s') :
    s.Moves action s' := by
  -- The conditions of each step are read off its definition.
  cases action with
  | enter ctx =>
    simp only [step] at stepped
    split at stepped
    · rename_i enters
      simp only [Option.some.injEq] at stepped
      subst stepped
      exact .enter enters.1 enters.2
    · cases stepped
  | exit ctx =>
    simp only [step] at stepped
    split at stepped
    · rename_i leaves
      simp only [Option.some.injEq] at stepped
      subst stepped
      exact .exit leaves.1 leaves.2.1 leaves.2.2
    · cases stepped
  | born tid inCall =>
    simp only [step] at stepped
    split at stepped
    · rename_i gone
      simp only [Option.some.injEq] at stepped
      subst stepped
      exact .born gone
    · cases stepped
  | dies tid =>
    simp only [step] at stepped
    split at stepped
    · cases stepped
    · rename_i alive
      simp only [Option.some.injEq] at stepped
      subst stepped
      exact .dies alive

/-- Every step leaves the notes of traced calls dated. -/
theorem Dated.step (dated : s.Dated) {action : SyscallAction} (moves : s.Moves action s') :
    s'.Dated := by
  cases moves with
  | @enter ctx outside later =>
    intro tid since stands
    rw [move_threads] at stands
    split at stands
    · rename_i own
      subst own
      -- Only an accepted call is traced, and its note is the one just made.
      simp only [entered] at stands
      split at stands
      · rename_i accepted
        obtain rfl := ThreadState.traced.inj stands
        exact ⟨UInt64.le_refl _, fun event noted => sysEnter_own accepted noted⟩
      · cases stands
    · rename_i other
      obtain ⟨past, notes⟩ := dated tid since stands
      refine ⟨UInt64.le_trans past later, fun event noted => notes event ?_⟩
      rw [← noted]
      exact (sysEnter_other ctx other).symm
  | @exit ctx _ _ later =>
    have earlier : (s.exit ctx).Dated := by
      intro tid since stands
      obtain ⟨past, notes⟩ := dated tid since stands
      exact ⟨UInt64.le_trans past later, notes⟩
    exact earlier.move _ nofun
  | born gone => exact dated.move _ (by intro since; split <;> nofun)
  | dies => exact dated.move _ nofun

/-- A thread that moves without having a note leaves the notes fresh. -/
theorem Fresh.move (fresh : s.Fresh) {tid : UInt32} (absent : s.maps.start.lookup tid = none)
    (state : ThreadState) : (s.move tid state).Fresh := by
  -- The thread that moves has no note, so every note is of another thread.
  intro other event noted
  obtain ⟨since, stands⟩ := fresh other event noted
  refine ⟨since, ?_⟩
  rw [move_threads, if_neg ?_]
  · exact stands
  · rintro rfl
    simp [absent] at noted

/-- A thread that is in no traced call has no note among fresh ones. -/
theorem Fresh.absent (fresh : s.Fresh) {tid : UInt32}
    (untraced : ∀ since, s.threads tid ≠ .traced since) : s.maps.start.lookup tid = none := by
  -- A note would be of a traced call.
  cases noted : s.maps.start.lookup tid with
  | none => rfl
  | some event =>
    obtain ⟨since, stands⟩ := fresh tid event noted
    exact absurd stands (untraced since)

/-- A thread whose note stays behind makes the notes stale. -/
theorem fresh_move_iff (fresh : s.Fresh) {tid : UInt32} {state : ThreadState}
    (untraced : ∀ since, state ≠ .traced since) :
    (s.move tid state).Fresh ↔ s.maps.start.lookup tid = none := by
  -- Where the thread moves to, no note may be left.
  constructor
  · intro after
    refine after.absent fun since stands => ?_
    rw [move_threads, if_pos rfl] at stands
    exact untraced since stands
  · exact fun absent => fresh.move absent state

/-- A call that begins leaves fresh notes fresh. -/
theorem Fresh.enter (fresh : s.Fresh) {ctx : EnterCtx}
    (outside : s.threads (tidOf ctx.pidTgid) = .outside) :
    ((s.enter ctx).move (tidOf ctx.pidTgid) (s.entered ctx)).Fresh := by
  intro tid event noted
  rw [move_threads]
  split
  · rename_i own
    subst own
    cases accepted : s.maps.args.accepts ctx.pidTgid ctx.id.toUInt64.toUInt32 with
    | true => exact ⟨ctx.now, by simp [entered, accepted]⟩
    | false =>
      -- The thread was outside, so it had no note, and it gets none.
      have absent : s.maps.start.lookup (tidOf ctx.pidTgid) = none :=
        fresh.absent (by simp [outside])
      change (s.maps.sysEnter ctx).start.lookup _ = some event at noted
      rw [sysEnter_refused accepted, absent] at noted
      cases noted
  · rename_i other
    refine fresh tid event ?_
    rw [← noted]
    exact (sysEnter_other ctx other).symm

/-- An event for a traced call with a dated note is truthful. -/
theorem Truthful.exit (truthful : s.Truthful) (dated : s.Dated) {ctx : ExitCtx}
    (later : s.clock ≤ ctx.now) (returns : s.ReturnsTraced (.exit ctx)) :
    (s.exit ctx).Truthful := by
  -- The event is the only new one, and its call was traced.
  intro x member
  rcases List.mem_append.mp member with old | new
  · exact truthful x old
  · simp only [Option.mem_toList, Option.map_eq_some_iff] at new
    obtain ⟨event, reported, rfl⟩ := new
    obtain ⟨noted, found, began, took⟩ := sysExit_event reported
    obtain ⟨since, stands⟩ := returns (by simp [found])
    obtain ⟨past, notes⟩ := dated _ since stands
    have same := notes noted found
    have before : since ≤ ctx.now := UInt64.le_trans past later
    refine ⟨since, stands, began.trans same, before, ?_⟩
    simp only [took, same, UInt64.toNat_div, UInt64.toNat_sub_of_le _ _ before]
    rfl

/-- What is in the tracer before any step is as it should be. -/
theorem new_good (args : UserArgs) : (new args).Fresh ∧ (new args).Truthful ∧ (new args).Dated := by
  -- There are no notes, no events and no threads.
  refine ⟨?_, ?_, ?_⟩
  · intro tid event noted
    simp [new] at noted
  · intro x member
    simp [new] at member
  · intro tid since stands
    cases stands

/-- A step leaves a fresh and truthful tracer so just when no thread leaves its note behind. -/
theorem good_step_iff (dated : s.Dated) (fresh : s.Fresh) (truthful : s.Truthful)
    {action : SyscallAction} (moves : s.Moves action s') :
    s'.Fresh ∧ s'.Truthful ↔ s.StaysNoted action := by
  -- Begins and births never leave a note behind, so only ends are looked at.
  cases moves with
  | enter outside later => exact ⟨fun _ => trivial, fun _ => ⟨fresh.enter outside, truthful⟩⟩
  | @exit ctx _ _ later =>
    have freshness : ((s.exit ctx).move (tidOf ctx.pidTgid) .outside).Fresh ↔
        s.maps.start.lookup (tidOf ctx.pidTgid) = none :=
      fresh_move_iff (s := s.exit ctx) fresh nofun
    constructor
    · exact fun good => freshness.mp good.1
    · intro absent
      refine ⟨freshness.mpr absent, truthful.exit dated later fun noted => ?_⟩
      rw [absent] at noted
      cases noted
  | born gone =>
    exact ⟨fun _ => trivial, fun _ => ⟨fresh.move (fresh.absent (by simp [gone])) _, truthful⟩⟩
  | @dies tid alive =>
    have freshness : (s.move tid .gone).Fresh ↔ s.maps.start.lookup tid = none :=
      fresh_move_iff fresh nofun
    exact ⟨fun good => freshness.mp good.1, fun absent => ⟨freshness.mpr absent, truthful⟩⟩

/--
Notes belong to calls that go on, and events to calls that were noted, in exactly the runs in which
no thread leaves a call while there is a note for it.

For the events alone it is enough that only traced calls return to a note.
-/
theorem notes_stay (args : UserArgs) (actions : List SyscallAction) (s : SyscallTracer)
    (ran : run step (new args) actions = some s) :
    ((∀ state, Visited step (new args) actions state → state.Fresh ∧ state.Truthful) ↔
      Allowed step StaysNoted (new args) actions) ∧
    (Allowed step ReturnsTraced (new args) actions → s.Truthful) := by
  -- The notes decide both at once; for the events alone dated notes are enough.
  obtain ⟨fresh, truthful, dated⟩ := new_good args
  constructor
  · refine always_iff_allowed Dated dated ⟨fresh, truthful⟩ ?_ ?_ ran
    · exact fun state action next dated stepped => dated.step (step_moves stepped)
    · exact fun state action next dated good stepped =>
        good_step_iff dated good.1 good.2 (step_moves stepped)
  · intro allowed
    refine (run_history_allowed (fun _ state => state.Dated ∧ state.Truthful) ⟨dated, truthful⟩
      ?_ allowed ran).2
    rintro past state action next ⟨dated, truthful⟩ returns stepped
    have moves := step_moves stepped
    refine ⟨dated.step moves, ?_⟩
    cases moves with
    | exit alive inside later => exact truthful.exit dated later returns
    | enter | born | dies => exact truthful

/-- Settings that accept every call and report every duration up to a second. -/
def openArgs : UserArgs where
  pid := 0
  tid := 0
  minSyscallMs := 0
  maxSyscallMs := 1000
  stack := false
  syscallId := 0xFFFFFFFF

/-- Thread five enters a call at a time. -/
def enterAt (now : UInt64) (id : Int64) : SyscallAction :=
  .enter { pidTgid := 5, now := now, id := id }

/-- Thread five returns from a call at a time. -/
def exitAt (now : UInt64) (id : Int64) : SyscallAction :=
  .exit
    { pidTgid := 5
      now := now
      id := id
      comm := Vector.replicate taskCommLen 0
      uStackId := 0
      kStackId := 0 }

/-- The one call of a thread that reads. -/
def oneRead : List SyscallAction := [.born 5 false, enterAt 1000 0, exitAt 5000 0]

/-- A call that returns is reported with its own times. -/
theorem notes_stay_one_read :
    ∃ s, run step (new openArgs) oneRead = some s ∧ s.emitted.length = 1 ∧ s.Truthful := by
  -- The one call that returns was traced since 1000.
  refine ⟨_, rfl, by decide +kernel, (notes_stay openArgs oneRead _ rfl).2
    ⟨trivial, fun first taken => ?_⟩⟩
  obtain rfl := Option.some.inj taken
  refine ⟨trivial, fun second taken => ?_⟩
  obtain rfl := Option.some.inj taken
  exact ⟨fun _ => ⟨1000, by decide +kernel⟩, fun _ _ => trivial⟩

/-- A thread exits, and a new thread of its number returns from the call that created it. -/
def reusedNumber : List SyscallAction :=
  [.born 5 false, enterAt 1000 60, .dies 5, .born 5 true, exitAt 9000 56]

/-- The note outlives its call, and the next thread of the number is reported with it. -/
theorem reused_number_reported :
    (∃ s, run step (new openArgs) oneRead = some s ∧ ¬ s.Fresh) ∧
    ∃ s, run step (new openArgs) reusedNumber = some s ∧ ¬ s.Truthful ∧
      ∃ x ∈ s.emitted, x.call = .untraced ∧ x.event.tsNs = 1000 ∧ x.event.durUs = 8 := by
  -- The note of the first call is never deleted.
  constructor
  · refine ⟨_, rfl, fun fresh => ?_⟩
    have noted : ∃ event, (SyscallMaps.sysEnter ⟨∅, openArgs⟩ ⟨5, 1000, 0⟩).start.lookup 5 =
        some event := ⟨_, rfl⟩
    obtain ⟨event, noted⟩ := noted
    obtain ⟨since, stands⟩ := fresh 5 event noted
    cases stands
  · refine ⟨_, rfl, fun truthful => ?_, _, List.mem_singleton.mpr rfl, rfl, rfl, by decide +kernel⟩
    obtain ⟨since, stands, _⟩ := truthful _ (List.mem_singleton.mpr rfl)
    cases stands

end SyscallTracer

end Spycat.Syscall
