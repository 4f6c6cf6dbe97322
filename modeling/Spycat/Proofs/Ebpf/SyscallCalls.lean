import Spycat.Proofs.Ebpf.SyscallStart

/-! The events of the system call tracer against the calls that threads made and came back from. -/

namespace Spycat.Syscall

open Lib Bpf

/-- A call that returned, by what its thread brought to its begin and to its end. -/
structure Call where
  enter : EnterCtx
  exit : ExitCtx

/-- The calls that go on, by thread, and those that returned, in the order in which they did. -/
structure Calls where
  begun : UInt32 → Option EnterCtx
  returned : List Call

/-- No call was made yet. -/
def Calls.none : Calls where
  begun := fun _ => Option.none
  returned := []

/-- What becomes of the calls when a thread does something. -/
def Calls.see (c : Calls) : SyscallAction → Calls
  | .enter ctx => { c with begun := Function.update c.begun (tidOf ctx.pidTgid) (some ctx) }
  | .exit ctx =>
    -- A thread may come back from a call that it did not begin itself.
    let call := (c.begun (tidOf ctx.pidTgid)).map fun enter =>
      { enter := enter, exit := ctx : Call }
    { begun := Function.update c.begun (tidOf ctx.pidTgid) Option.none
      returned := c.returned ++ call.toList }
  | .born tid _ | .dies tid => { c with begun := Function.update c.begun tid Option.none }

/-- The calls that returned in the course of some actions. -/
def returnedCalls (actions : List SyscallAction) : List Call :=
  (actions.foldl Calls.see .none).returned

/-- The begin of a call passes the filters. -/
def UserArgs.acceptsEnter (args : UserArgs) (ctx : EnterCtx) : Bool :=
  args.accepts ctx.pidTgid ctx.id.toUInt64.toUInt32

/-- A call is one of those to be reported, by its filters and by how long it took. -/
def UserArgs.reports (args : UserArgs) (call : Call) : Bool :=
  let dur := call.exit.now - call.enter.now
  args.acceptsEnter call.enter && call.exit.id ≠ -1 &&
    args.accepts call.exit.pidTgid call.exit.id.toUInt64.toUInt32 &&
      (args.minSyscallMs.toUInt64 ≤ dur / 1000000 && dur / 1000000 ≤ args.maxSyscallMs.toUInt64)

/-- The note of a call that begins. -/
def EnterCtx.note (ctx : EnterCtx) : SyscallEvent :=
  { SyscallEvent.zero with
    tsNs := ctx.now
    pid := pidOf ctx.pidTgid
    tid := tidOf ctx.pidTgid }

/-- The event of a call. -/
def Call.event (args : UserArgs) (call : Call) : SyscallEvent where
  pid := pidOf call.enter.pidTgid
  tid := tidOf call.enter.pidTgid
  tsNs := call.enter.now
  durUs := (call.exit.now - call.enter.now) / 1000
  uStackId := if args.stack then call.exit.uStackId else 0
  kStackId := if args.stack then call.exit.kStackId else 0
  syscallId := call.exit.id.toUInt64.toUInt32.toUInt64
  comm := call.exit.comm

section Handlers

variable {maps : SyscallMaps}

/-- A call that passes the filters is noted, where there is room. -/
theorem sysEnter_noted {ctx : EnterCtx} (accepted : maps.args.acceptsEnter ctx = true)
    (room : maps.start.size < maxEntries) :
    (maps.sysEnter ctx).start.lookup (tidOf ctx.pidTgid) = some ctx.note := by
  -- There is room for a new thread, and a thread with a note needs none.
  have accepts : maps.args.accepts ctx.pidTgid ctx.id.toUInt64.toUInt32 = true := accepted
  simp only [SyscallMaps.sysEnter, accepts, if_true]
  rcases tryUpdateElem_cases maxEntries maps.start (tidOf ctx.pidTgid) ctx.note with
    stored | ⟨_, full, _⟩
  · exact (congrArg (AList.lookup _) stored).trans (AList.lookup_insert _)
  · omega

/-- No note is taken away. -/
theorem sysEnter_size (ctx : EnterCtx) : maps.start.size ≤ (maps.sysEnter ctx).start.size := by
  -- A note is added, replaced or refused.
  simp only [SyscallMaps.sysEnter]
  split
  · rcases tryUpdateElem_cases maxEntries maps.start (tidOf ctx.pidTgid) ctx.note with
      stored | ⟨_, _, refused⟩
    · exact (Assoc.size_le_insert _ _ _).trans (congrArg Assoc.size stored).ge
    · exact (congrArg Assoc.size refused).ge
  · exact le_refl _

/-- A call whose begin was noted is reported when it is one of those to be. -/
theorem sysExit_noted {enter : EnterCtx} {exit : ExitCtx}
    (noted : maps.start.lookup (tidOf exit.pidTgid) = some enter.note)
    (accepted : maps.args.acceptsEnter enter = true) :
    maps.sysExit exit =
      if maps.args.reports ⟨enter, exit⟩ then some (Call.event maps.args ⟨enter, exit⟩)
      else none := by
  -- The checks of the source are made in the same order.
  have began : enter.note.tsNs = enter.now := rfl
  simp only [SyscallMaps.sysExit, UserArgs.reports, accepted, noted, began, Bool.true_and]
  by_cases interrupt : exit.id = -1
  · simp [interrupt]
  · cases passes : maps.args.accepts exit.pidTgid exit.id.toUInt64.toUInt32 with
    | false => simp [interrupt]
    | true =>
      simp only [interrupt, ne_eq, not_false_eq_true, decide_true, Bool.true_and, if_false,
        if_true, ge_iff_le, Bool.and_eq_true, decide_eq_true_eq]
      rfl

/-- A thread without a note reports nothing. -/
theorem sysExit_absent {exit : ExitCtx}
    (absent : maps.start.lookup (tidOf exit.pidTgid) = none) : maps.sysExit exit = none := by
  -- An event takes its times from a note.
  cases reported : maps.sysExit exit with
  | none => rfl
  | some event =>
    obtain ⟨noted, found, _⟩ := sysExit_event reported
    rw [absent] at found
    cases found

end Handlers

namespace SyscallTracer

variable {s s' : SyscallTracer} {c : Calls}

/-- The tracer stands where the calls do, and has reported those that it is to report. -/
structure Follows (s : SyscallTracer) (c : Calls) : Prop where
  traced : ∀ tid since, s.threads tid = .traced since →
    ∃ enter, c.begun tid = some enter ∧ s.maps.args.acceptsEnter enter = true
  noted : ∀ tid enter, c.begun tid = some enter → s.maps.args.acceptsEnter enter = true →
    s.maps.start.lookup tid = some enter.note
  begun : ∀ tid enter, c.begun tid = some enter →
    tidOf enter.pidTgid = tid ∧ enter.now ≤ s.clock
  returned : ∀ call ∈ c.returned,
    tidOf call.enter.pidTgid = tidOf call.exit.pidTgid ∧ call.enter.now ≤ call.exit.now
  reported : s.emitted.map (·.event) =
    (c.returned.filter s.maps.args.reports).map (Call.event s.maps.args)

/-- A thread that appears or goes away is in no call. -/
theorem Follows.move {tid : UInt32} {state : ThreadState} (follows : s.Follows c)
    (untraced : ∀ since, state ≠ .traced since) :
    (s.move tid state).Follows { c with begun := Function.update c.begun tid Option.none } := by
  -- A thread that moves where it is not traced has no call that is followed.
  have other : ∀ other enter, Function.update c.begun tid Option.none other = some enter →
      c.begun other = some enter := by
    intro other enter begun
    by_cases same : other = tid
    · subst same
      rw [Function.update_self] at begun
      cases begun
    · rwa [Function.update_of_ne same] at begun
  refine ⟨?_, fun key enter begun => follows.noted key enter (other key enter begun),
    fun key enter begun => follows.begun key enter (other key enter begun), follows.returned,
    follows.reported⟩
  intro key since stands
  rw [move_threads] at stands
  split at stands
  · exact absurd stands (untraced since)
  · rename_i apart
    obtain ⟨enter, begun, accepted⟩ := follows.traced key since stands
    exact ⟨enter, (Function.update_of_ne apart ..).trans begun, accepted⟩

/-- A call that begins is followed, where there is room for its note. -/
theorem Follows.enter {ctx : EnterCtx} (follows : s.Follows c) (later : s.clock ≤ ctx.now)
    (room : s.maps.start.size < maxEntries) :
    ((s.enter ctx).move (tidOf ctx.pidTgid) (s.entered ctx)).Follows (c.see (.enter ctx)) := by
  have settings : (s.enter ctx).maps.args = s.maps.args := sysEnter_args ctx
  refine ⟨?_, ?_, ?_, follows.returned, ?_⟩
  · intro tid since stands
    rw [move_threads] at stands
    simp only [Calls.see, move_maps, settings]
    split at stands
    · -- The thread that enters is traced when the filters let it pass.
      rename_i same
      subst same
      refine ⟨ctx, Function.update_self .., ?_⟩
      simp only [entered] at stands
      split at stands
      · assumption
      · cases stands
    · rename_i apart
      rw [Function.update_of_ne apart]
      exact follows.traced tid since stands
  · intro tid enter begun accepted
    simp only [move_maps, settings] at accepted ⊢
    simp only [Calls.see] at begun
    by_cases same : tid = tidOf ctx.pidTgid
    · subst same
      rw [Function.update_self] at begun
      obtain rfl := Option.some.inj begun
      exact sysEnter_noted accepted room
    · rw [Function.update_of_ne same] at begun
      exact (sysEnter_other ctx same).trans (follows.noted tid enter begun accepted)
  · intro tid enter begun
    simp only [Calls.see] at begun
    by_cases same : tid = tidOf ctx.pidTgid
    · subst same
      rw [Function.update_self] at begun
      obtain rfl := Option.some.inj begun
      exact ⟨rfl, UInt64.le_refl _⟩
    · rw [Function.update_of_ne same] at begun
      obtain ⟨own, before⟩ := follows.begun tid enter begun
      exact ⟨own, UInt64.le_trans before later⟩
  · simp only [move_emitted, move_maps, settings, Calls.see]
    exact follows.reported

/-- What a thread reports when it returns is its call, if that is one of those to be reported. -/
theorem Follows.sysExit {ctx : ExitCtx} (follows : s.Follows c)
    (returns : s.ReturnsTraced (.exit ctx)) :
    s.maps.sysExit ctx =
      (((c.begun (tidOf ctx.pidTgid)).map fun enter => ⟨enter, ctx⟩).filter
        s.maps.args.reports).map (Call.event s.maps.args) := by
  -- A thread with a note is in a traced call, and that call is the one it began.
  have silent : (∀ enter, c.begun (tidOf ctx.pidTgid) = some enter →
      s.maps.args.acceptsEnter enter = false) → s.maps.sysExit ctx = none := by
    intro refused
    apply sysExit_absent
    by_contra present
    obtain ⟨since, stands⟩ := returns (Option.isSome_iff_ne_none.mpr present)
    obtain ⟨enter, begun, accepted⟩ := follows.traced _ since stands
    rw [refused enter begun] at accepted
    cases accepted
  cases begun : c.begun (tidOf ctx.pidTgid) with
  | none =>
    rw [silent fun enter other => (nomatch begun.symm.trans other)]
    rfl
  | some enter =>
    cases accepted : s.maps.args.acceptsEnter enter with
    | false =>
      have refused : s.maps.args.reports ⟨enter, ctx⟩ = false := by
        simp [UserArgs.reports, accepted]
      rw [silent fun other same => by rwa [← Option.some.inj (begun.symm.trans same)]]
      simp [Option.filter, refused]
    | true =>
      rw [sysExit_noted (follows.noted _ enter begun accepted) accepted]
      cases reports : s.maps.args.reports ⟨enter, ctx⟩ with
      | false => simp [Option.filter, reports]
      | true => simp [Option.filter, reports]

/-- A call that returns is followed, unless its thread has a note of another call. -/
theorem Follows.exit {ctx : ExitCtx} (follows : s.Follows c) (later : s.clock ≤ ctx.now)
    (returns : s.ReturnsTraced (.exit ctx)) :
    ((s.exit ctx).move (tidOf ctx.pidTgid) .outside).Follows (c.see (.exit ctx)) := by
  have moved : ((s.exit ctx).move (tidOf ctx.pidTgid) .outside).Follows
      { returned := (c.see (.exit ctx)).returned
        begun := Function.update c.begun (tidOf ctx.pidTgid) Option.none } := by
    refine Follows.move (s := s.exit ctx)
      (c := { c with returned := (c.see (.exit ctx)).returned }) ?_ nofun
    refine ⟨follows.traced, follows.noted, fun tid enter begun => ?_, ?_, ?_⟩
    · obtain ⟨own, before⟩ := follows.begun tid enter begun
      exact ⟨own, UInt64.le_trans before later⟩
    · intro call member
      rcases List.mem_append.mp member with old | new
      · exact follows.returned call old
      · simp only [Option.mem_toList, Option.map_eq_some_iff] at new
        obtain ⟨enter, begun, rfl⟩ := new
        obtain ⟨own, before⟩ := follows.begun _ enter begun
        exact ⟨own, UInt64.le_trans before later⟩
    · -- The event that is added is the one of the call that is added.
      simp only [SyscallTracer.exit, Calls.see, List.map_append, List.filter_append,
        follows.reported, List.append_cancel_left_eq]
      rw [follows.sysExit returns]
      cases begun : c.begun (tidOf ctx.pidTgid) with
      | none => rfl
      | some enter =>
        cases reports : s.maps.args.reports ⟨enter, ctx⟩ with
        | false => simp [Option.filter, reports]
        | true => simp [Option.filter, reports]
  exact moved

/-- No step takes a note away. -/
theorem Moves.size_le {action : SyscallAction} (moves : s.Moves action s') :
    s.maps.start.size ≤ s'.maps.start.size := by
  -- Only an entry into a call touches the notes.
  cases moves with
  | enter => exact sysEnter_size _
  | exit | born | dies => exact le_refl _

@[simp] theorem Moves.args {action : SyscallAction} (moves : s.Moves action s') :
    s'.maps.args = s.maps.args := by
  -- No step changes the settings.
  cases moves with
  | enter => exact sysEnter_args _
  | exit | born | dies => rfl

/-- Where there is room, a step follows the calls. -/
theorem Follows.step {action : SyscallAction} (follows : s.Follows c)
    (room : s.maps.start.size < maxEntries) (returns : s.ReturnsTraced action)
    (moves : s.Moves action s') : s'.Follows (c.see action) := by
  -- There is one case for each kind of step.
  cases moves with
  | enter outside later => exact follows.enter later room
  | exit alive inside later => exact follows.exit later returns
  | @born tid inCall gone => exact follows.move fun since => by cases inCall <;> nofun
  | dies alive => exact follows.move nofun

/--
Where no thread returns to the note of another call, and there is room for the notes, exactly the
calls that pass the filters and take long enough are reported, each once and in their order.
-/
theorem calls_reported (args : UserArgs) (actions : List SyscallAction) (s : SyscallTracer)
    (ran : run step (new args) actions = some s)
    (returns : Allowed step ReturnsTraced (new args) actions)
    (room : s.maps.start.size < maxEntries) :
    s.emitted.map (·.event) =
        ((returnedCalls actions).filter args.reports).map (Call.event args) ∧
      ∀ call ∈ returnedCalls actions, tidOf call.enter.pidTgid = tidOf call.exit.pidTgid ∧
        call.enter.now ≤ call.exit.now := by
  -- A map that has room in the end had room all the time.
  have carried : s.maps.args = args ∧
      (s.maps.start.size < maxEntries → s.Follows (actions.foldl Calls.see .none)) := by
    refine run_history_allowed (fun past state => state.maps.args = args ∧
      (state.maps.start.size < maxEntries → state.Follows (past.foldl Calls.see .none)))
      ⟨rfl, fun _ => ?_⟩ ?_ returns ran
    · refine ⟨nofun, nofun, nofun, ?_, rfl⟩
      exact fun call member => absurd member List.not_mem_nil
    · intro past state action next ⟨settings, follows⟩ traced stepped
      have moves := step_moves stepped
      refine ⟨moves.args.trans settings, fun roomNext => ?_⟩
      have roomState := moves.size_le.trans_lt roomNext
      rw [List.foldl_append]
      exact (follows roomState).step roomState traced moves
  obtain ⟨rfl, follows⟩ := carried
  exact ⟨(follows room).reported, (follows room).returned⟩

/-- The one call of a thread that reads is reported. -/
theorem calls_reported_one_read :
    ∃ s, run step (new openArgs) oneRead = some s ∧ s.emitted.map (·.event) =
      ((returnedCalls oneRead).filter openArgs.reports).map (Call.event openArgs) ∧
        (returnedCalls oneRead).length = 1 := by
  obtain ⟨s, ran, room⟩ : ∃ s, run step (new openArgs) oneRead = some s ∧
      s.maps.start.size < maxEntries := ⟨_, rfl, by decide +kernel⟩
  refine ⟨s, ran, (calls_reported openArgs oneRead s ran ?_ room).1, rfl⟩
  -- The one return is that of a call that was traced since 1000.
  refine ⟨trivial, fun first taken => ?_⟩
  obtain rfl := Option.some.inj taken
  refine ⟨trivial, fun second taken => ?_⟩
  obtain rfl := Option.some.inj taken
  exact ⟨fun _ => ⟨1000, by decide +kernel⟩, fun _ _ => trivial⟩

end SyscallTracer

end Spycat.Syscall
