import Mathlib.Order.Bounds.Basic
import Spycat.Ebpf.Futexsnoop
import Spycat.Lib.Run

/-! A lock counts the threads that wait on it, and keeps the largest count it has had. -/

namespace Spycat.Futexsnoop

open Lib Bpf

/-- How many threads have a wait on a lock noted. -/
def waiters (start : Assoc UInt64 ValT) (u : UInt64) : Nat :=
  Assoc.total (fun _ v => if v.uaddr = u then 1 else 0) start

/-- The user count of a lock, and zero where there is none. -/
def users (lockMap : Assoc UInt64 LockStat) (u : UInt64) : Nat :=
  ((lockMap.lookup u).map fun lock => lock.userCnt.toNat).getD 0

/-- A handler runs while neither the waits nor the locks fill their maps. -/
def NeverFull (s : FutexTracer) (_ : FutexAction) : Prop :=
  s.maps.start.size < maxEntries ∧ s.maps.lockMap.size < maxEntries

/-- The user counts that a lock has had in the course of a run. -/
def userCounts (arch : TargetArch) (first : FutexTracer) (actions : List FutexAction)
    (u : UInt64) : Set Nat :=
  fun count => ∃ s lock, Visited (FutexTracer.step arch) first actions s ∧
    s.maps.lockMap.lookup u = some lock ∧ lock.userCnt.toNat = count

section Waiters

variable {start : Assoc UInt64 ValT} {thread u : UInt64}

/-- A thread that had no wait noted adds one to its lock. -/
theorem waiters_insert (v : ValT) (absent : start.lookup thread = none) :
    waiters (start.insert thread v) u = (if v.uaddr = u then 1 else 0) + waiters start u :=
  -- The new entry counts if it waits for the lock.
  Assoc.total_insert_new _ v absent

/-- A thread whose wait ends takes one off its lock. -/
theorem waiters_erase {v : ValT} (present : start.lookup thread = some v) :
    waiters start u = (if v.uaddr = u then 1 else 0) + waiters (start.erase thread) u :=
  -- The entry that is taken out counted if it waited for the lock.
  Assoc.total_erase _ present

/-- No more threads wait on a lock than have waits noted. -/
theorem waiters_le_size : waiters start u ≤ start.size :=
  -- Each entry counts at most once.
  Assoc.total_le_size (fun _ _ => by split <;> omega) start

/-- A lock that is stored has its own count, and the others keep theirs. -/
theorem users_insert (lockMap : Assoc UInt64 LockStat) (key : UInt64) (lock : LockStat) :
    users (lockMap.insert key lock) u =
      if key = u then lock.userCnt.toNat else users lockMap u := by
  -- The lock that is asked for is the one that was stored, or another one.
  by_cases same : key = u
  · subst same
    simp [users]
  · simp [users, same, AList.lookup_insert_ne (Ne.symm same)]

end Waiters

section Handlers

variable {maps : FutexMaps}

/-- A call that the filters leave out changes nothing. -/
theorem futexEnter_refused {ctx : EnterCtx} (refused : FutexMaps.accepts maps.args ctx = false) :
    maps.futexEnter ctx = (maps, none) := by
  -- The filter is checked first.
  simp [FutexMaps.futexEnter, refused]

/-- What an accepted call changes. -/
theorem futexEnter_accepted {ctx : EnterCtx} (accepted : FutexMaps.accepts maps.args ctx = true)
    (absent : maps.start.lookup ctx.pidTgid = none) (room : maps.start.size < maxEntries)
    (roomy : maps.lockMap.size < maxEntries) :
    (maps.futexEnter ctx).1.args = maps.args ∧
      (maps.futexEnter ctx).1.start =
        maps.start.insert ctx.pidTgid { ts := ctx.now, uaddr := ctx.uaddr } ∧
      (∀ lock, maps.lockMap.lookup ctx.uaddr = some lock →
        (maps.futexEnter ctx).1.lockMap =
          maps.lockMap.insert ctx.uaddr (FutexMaps.lockEnter lock)) ∧
      (maps.lockMap.lookup ctx.uaddr = none →
        ∃ lock : LockStat, lock.userCnt = 1 ∧ lock.maxUserCnt = 1 ∧
          (maps.futexEnter ctx).1.lockMap = maps.lockMap.insert ctx.uaddr lock) := by
  have noted := tryUpdateElem_new (⟨ctx.now, ctx.uaddr⟩ : ValT) .any absent room
  cases found : maps.lockMap.lookup ctx.uaddr with
  | some lock =>
    simp [FutexMaps.futexEnter, accepted, noted, found]
  | none =>
    refine ⟨by simp [FutexMaps.futexEnter, accepted, found],
      by simp [FutexMaps.futexEnter, accepted, noted, found], by simp, fun _ => ?_⟩
    -- There is room for the new lock.
    refine ⟨⟨1, 1, ctx.uaddr, [], 0, 0⟩, rfl, rfl, ?_⟩
    simp [FutexMaps.futexEnter, accepted, found, tryUpdateElem_new _ _ found roomy]

/-- A wait that is recorded changes histories alone. -/
theorem recordWait_keeps (arch : TargetArch) (maps : FutexMaps) (ctx : ExitCtx)
    (uaddr delta : UInt64) :
    (maps.recordWait arch ctx uaddr delta).1.args = maps.args ∧
      (maps.recordWait arch ctx uaddr delta).1.start = maps.start ∧
      (maps.recordWait arch ctx uaddr delta).1.lockMap = maps.lockMap := by
  -- With a stack or without, with room or without, long enough or not.
  simp only [FutexMaps.recordWait]
  repeat' split
  all_goals exact ⟨rfl, rfl, rfl⟩

/-- A call of a thread without a noted wait changes nothing. -/
theorem futexExit_absent (arch : TargetArch) {ctx : ExitCtx}
    (absent : maps.start.lookup ctx.pidTgid = none) : maps.futexExit arch ctx = (maps, none) := by
  -- There is no note of the call.
  simp [FutexMaps.futexExit, absent]

/-- However a call ends, the wait of its thread is no longer noted or counted. -/
theorem futexExit_present (arch : TargetArch) {ctx : ExitCtx} {v : ValT}
    (present : maps.start.lookup ctx.pidTgid = some v) :
    (maps.futexExit arch ctx).1.args = maps.args ∧
      (maps.futexExit arch ctx).1.start = maps.start.erase ctx.pidTgid ∧
      (maps.futexExit arch ctx).1.lockMap = FutexMaps.lockExit maps.lockMap v.uaddr := by
  -- The early exits all meet at the deletion.
  simp only [FutexMaps.futexExit, present]
  split
  · exact ⟨rfl, rfl, rfl⟩
  · split
    · exact ⟨rfl, rfl, rfl⟩
    · obtain ⟨args, start, lockMap⟩ := recordWait_keeps arch
        { maps with lockMap := FutexMaps.lockExit maps.lockMap v.uaddr } ctx v.uaddr
        (ctx.now - v.ts)
      exact ⟨args, by rw [start], lockMap⟩

end Handlers

/-- A call is entered by a thread that was outside, and the handler's record comes last. -/
theorem FutexTracer.step_enter {arch : TargetArch} {s s' : FutexTracer} {ctx : EnterCtx}
    (stepped : s.step arch (.enter ctx) = some s') :
    s.inside ctx.pidTgid = false ∧
      s' =
        { maps := (s.maps.futexEnter ctx).1
          inside := Function.update s.inside ctx.pidTgid true
          records := s.records ++ (s.maps.futexEnter ctx).2.toList } := by
  -- A thread that is inside enters nothing.
  simp only [FutexTracer.step] at stepped
  split at stepped
  · cases stepped
  · rename_i outside
    exact ⟨by simpa using outside, (Option.some.inj stepped).symm⟩

/-- A call is left by a thread that was inside. -/
theorem FutexTracer.step_exit {arch : TargetArch} {s s' : FutexTracer} {ctx : ExitCtx}
    (stepped : s.step arch (.exit ctx) = some s') :
    s' =
      { maps := (s.maps.futexExit arch ctx).1
        inside := Function.update s.inside ctx.pidTgid false
        records := s.records ++ (s.maps.futexExit arch ctx).2.toList } := by
  -- A thread that is outside leaves nothing.
  simp only [FutexTracer.step] at stepped
  split at stepped
  · exact (Option.some.inj stepped).symm
  · cases stepped

/-- How a handler can change a lock: the largest count takes the new count in. -/
inductive LockMoves : Option LockStat → Option LockStat → Prop
  | none : LockMoves none none
  | first {lock : LockStat} (alone : lock.maxUserCnt = lock.userCnt) : LockMoves none (some lock)
  | later {before lock : LockStat}
      (largest : lock.maxUserCnt.toNat = max lock.userCnt.toNat before.maxUserCnt.toNat) :
      LockMoves (some before) (some lock)

/-- What holds of the waits and the locks after every run. -/
structure Counted (arch : TargetArch) (first : FutexTracer) (past : List FutexAction)
    (s : FutexTracer) : Prop where
  reached : run (FutexTracer.step arch) first past = some s
  settings : s.maps.args = first.maps.args
  outside : ∀ thread, s.inside thread = false → s.maps.start.lookup thread = none
  counted : ∀ u, users s.maps.lockMap u = waiters s.maps.start u
  peak : ∀ u lock, s.maps.lockMap.lookup u = some lock →
    IsGreatest (userCounts arch first past u) lock.maxUserCnt.toNat
  fresh : ∀ u, s.maps.lockMap.lookup u = none → userCounts arch first past u = ∅

section Steps

variable {arch : TargetArch} {first : FutexTracer} {past : List FutexAction} {s s' : FutexTracer}
  {action : FutexAction}

/-- The counts of a longer run are those of the run and the one of the new state. -/
theorem userCounts_append (reached : run (FutexTracer.step arch) first past = some s)
    (stepped : s.step arch action = some s') (u : UInt64) :
    userCounts arch first (past ++ [action]) u =
      {count | ∃ lock, s'.maps.lockMap.lookup u = some lock ∧ lock.userCnt.toNat = count} ∪
        userCounts arch first past u := by
  -- A longer run visits the states of the run and one more.
  ext count
  constructor
  · rintro ⟨state, lock, visited, found, counts⟩
    rcases (visited_append reached stepped state).mp visited with earlier | rfl
    · exact .inr ⟨state, lock, earlier, found, counts⟩
    · exact .inl ⟨lock, found, counts⟩
  · rintro (⟨lock, found, counts⟩ | ⟨state, lock, earlier, found, counts⟩)
    · exact ⟨s', lock, (visited_append reached stepped s').mpr (.inr rfl), found, counts⟩
    · exact ⟨state, lock, (visited_append reached stepped state).mpr (.inl earlier), found, counts⟩

/-- The count of a lock is one that it has had. -/
theorem Counted.userCnt_le (holds : Counted arch first past s) {u : UInt64} {lock : LockStat}
    (found : s.maps.lockMap.lookup u = some lock) :
    lock.userCnt.toNat ≤ lock.maxUserCnt.toNat :=
  -- The count now is among those that the largest one bounds.
  (holds.peak u lock found).2 ⟨s, lock, visited_finish holds.reached, found, rfl⟩

/-- A lock that moves as handlers move it keeps its largest count. -/
theorem Counted.peak_step (holds : Counted arch first past s)
    (stepped : s.step arch action = some s') {u : UInt64}
    (moves : LockMoves (s.maps.lockMap.lookup u) (s'.maps.lockMap.lookup u)) :
    (∀ lock, s'.maps.lockMap.lookup u = some lock →
      IsGreatest (userCounts arch first (past ++ [action]) u) lock.maxUserCnt.toNat) ∧
    (s'.maps.lockMap.lookup u = none → userCounts arch first (past ++ [action]) u = ∅) := by
  -- The counts so far are joined by the one of the new state.
  rw [userCounts_append holds.reached stepped]
  generalize before : s.maps.lockMap.lookup u = old at moves
  generalize s'.maps.lockMap.lookup u = new at moves ⊢
  cases moves with
  | none =>
    constructor
    · intro other found
      cases found
    · intro _
      simp [holds.fresh u before]
  | @first lock alone =>
    refine ⟨?_, fun missing => by cases missing⟩
    intro other found
    obtain rfl := Option.some.inj found
    -- The lock has had no count before.
    rw [holds.fresh u before, alone]
    simp
  | @later held lock largest =>
    refine ⟨?_, fun missing => by cases missing⟩
    intro other found
    obtain rfl := Option.some.inj found
    have greatest := holds.peak u held before
    have single : {count | ∃ other, some lock = some other ∧ other.userCnt.toNat = count} =
        {lock.userCnt.toNat} := by
      ext count
      simp [eq_comm]
    rw [single, Set.singleton_union, largest]
    exact greatest.insert _

/-- A lock that stays as it is. -/
theorem Counted.lockMoves_same (holds : Counted arch first past s) (u : UInt64) :
    LockMoves (s.maps.lockMap.lookup u) (s.maps.lockMap.lookup u) := by
  -- The count is no larger than the largest one, so taking it in changes nothing.
  cases found : s.maps.lockMap.lookup u with
  | none => exact .none
  | some lock => exact .later (max_eq_right (holds.userCnt_le found)).symm

/-- A lock that is changed, and no other, moves as handlers move it. -/
theorem Counted.lockMoves_insert (holds : Counted arch first past s) {key : UInt64}
    {lock : LockStat} (moves : LockMoves (s.maps.lockMap.lookup key) (some lock)) (u : UInt64) :
    LockMoves (s.maps.lockMap.lookup u) ((s.maps.lockMap.insert key lock).lookup u) := by
  -- Every other lock is looked up as before.
  by_cases same : u = key
  · subst same
    rwa [AList.lookup_insert]
  · rw [AList.lookup_insert_ne same]
    exact holds.lockMoves_same u

/-- An accepted call counts its thread, and moves its lock alone. -/
theorem Counted.futexEnter (holds : Counted arch first past s) {ctx : EnterCtx}
    (accepted : FutexMaps.accepts s.maps.args ctx = true)
    (absent : s.maps.start.lookup ctx.pidTgid = none) (full : NeverFull s action) (u : UInt64) :
    LockMoves (s.maps.lockMap.lookup u) ((s.maps.futexEnter ctx).1.lockMap.lookup u) ∧
      users (s.maps.futexEnter ctx).1.lockMap u = waiters (s.maps.futexEnter ctx).1.start u := by
  -- The new wait adds one to the waiters of its lock and to the count of the lock.
  obtain ⟨_, noted, found, missing⟩ := futexEnter_accepted accepted absent full.1 full.2
  have adds := waiters_insert (⟨ctx.now, ctx.uaddr⟩ : ValT) absent (u := u)
  have counted := holds.counted u
  rw [noted, adds]
  cases stored : s.maps.lockMap.lookup ctx.uaddr with
  | some lock =>
    -- The threads that wait are fewer than the map holds, so the count does not wrap.
    have own : lock.userCnt.toNat = waiters s.maps.start ctx.uaddr := by
      simpa [users, stored] using holds.counted ctx.uaddr
    have bounded : waiters s.maps.start ctx.uaddr < maxEntries :=
      Nat.lt_of_le_of_lt waiters_le_size full.1
    have raised : (lock.userCnt + 1).toNat = lock.userCnt.toNat + 1 := by
      rw [UInt32.toNat_add]
      simp only [UInt32.toNat_one, maxEntries] at bounded ⊢
      omega
    rw [found lock stored]
    constructor
    · refine holds.lockMoves_insert ?_ u
      rw [stored]
      refine .later ?_
      simp only [FutexMaps.lockEnter]
      split
      · rename_i larger
        have larger : lock.maxUserCnt.toNat < (lock.userCnt + 1).toNat := larger
        omega
      · rename_i smaller
        have smaller : ¬ lock.maxUserCnt.toNat < (lock.userCnt + 1).toNat := smaller
        omega
    · rw [users_insert]
      by_cases same : ctx.uaddr = u
      · subst same
        simp only [FutexMaps.lockEnter, raised, if_true]
        omega
      · simp only [same, if_false]
        omega
  | none =>
    -- A lock without an entry has had no thread waiting.
    have own : 0 = waiters s.maps.start ctx.uaddr := by
      simpa [users, stored] using holds.counted ctx.uaddr
    obtain ⟨lock, one, alone, inserted⟩ := missing stored
    rw [inserted]
    constructor
    · refine holds.lockMoves_insert ?_ u
      rw [stored]
      exact .first (alone.trans one.symm)
    · rw [users_insert]
      by_cases same : ctx.uaddr = u
      · subst same
        simp only [one, if_true, UInt32.toNat_one]
        omega
      · simp only [same, if_false]
        omega

/-- The end of a noted wait takes its thread off, and moves its lock alone. -/
theorem Counted.futexExit (holds : Counted arch first past s) {ctx : ExitCtx} {v : ValT}
    (present : s.maps.start.lookup ctx.pidTgid = some v) (u : UInt64) :
    LockMoves (s.maps.lockMap.lookup u) ((s.maps.futexExit arch ctx).1.lockMap.lookup u) ∧
      users (s.maps.futexExit arch ctx).1.lockMap u =
        waiters (s.maps.futexExit arch ctx).1.start u := by
  -- The wait that ends takes one off the waiters of its lock and off its count.
  obtain ⟨_, noted, left⟩ := futexExit_present arch present
  have counted := holds.counted u
  rw [waiters_erase present] at counted
  rw [noted, left]
  -- The thread itself waits, so its lock has an entry and counts at least one.
  have waits : 0 < users s.maps.lockMap v.uaddr := by
    rw [holds.counted, waiters_erase present, if_pos rfl]
    omega
  cases stored : s.maps.lockMap.lookup v.uaddr with
  | none => simp [users, stored] at waits
  | some lock =>
    have positive : 0 < lock.userCnt.toNat := by simpa [users, stored] using waits
    have lowered : (lock.userCnt - 1).toNat = lock.userCnt.toNat - 1 := by
      have bound := lock.userCnt.toNat_lt
      rw [UInt32.toNat_sub]
      simp only [UInt32.toNat_one]
      omega
    have most := holds.userCnt_le stored
    simp only [FutexMaps.lockExit, stored]
    constructor
    · refine holds.lockMoves_insert ?_ u
      rw [stored]
      refine .later ?_
      simp only [lowered]
      omega
    · rw [users_insert]
      by_cases same : v.uaddr = u
      · subst same
        have own : users s.maps.lockMap v.uaddr = lock.userCnt.toNat := by simp [users, stored]
        simp only [lowered, if_true] at counted ⊢
        omega
      · simp only [same, if_false] at counted ⊢
        omega

/-- A thread that is outside has no wait noted, after one thread has entered or left. -/
theorem Counted.outside_update (holds : Counted arch first past s) {moved : UInt64} {now : Bool}
    {start : Assoc UInt64 ValT}
    (kept : ∀ thread, thread ≠ moved → start.lookup thread = s.maps.start.lookup thread)
    (own : now = false → start.lookup moved = none) :
    ∀ thread, Function.update s.inside moved now thread = false → start.lookup thread = none := by
  -- Only the one thread can have come out, and only its entry can have changed.
  intro thread out
  by_cases same : thread = moved
  · subst same
    exact own (by simpa using out)
  · rw [Function.update_of_ne same] at out
    exact (kept thread same).trans (holds.outside thread out)

/-- Every handler run keeps what is counted. -/
theorem Counted.step (holds : Counted arch first past s) (full : NeverFull s action)
    (stepped : s.step arch action = some s') : Counted arch first (past ++ [action]) s' := by
  have reached : run (FutexTracer.step arch) first (past ++ [action]) = some s' := by
    simp [run_append, holds.reached, stepped]
  -- It is enough that locks move as handlers move them.
  have assemble : s'.maps.args = first.maps.args →
      (∀ thread, s'.inside thread = false → s'.maps.start.lookup thread = none) →
      (∀ u, LockMoves (s.maps.lockMap.lookup u) (s'.maps.lockMap.lookup u) ∧
        users s'.maps.lockMap u = waiters s'.maps.start u) →
      Counted arch first (past ++ [action]) s' := fun settings outside moves =>
    { reached := reached
      settings := settings
      outside := outside
      counted := fun u => (moves u).2
      peak := fun u => (holds.peak_step stepped (moves u).1).1
      fresh := fun u => (holds.peak_step stepped (moves u).1).2 }
  have same : ∀ u, LockMoves (s.maps.lockMap.lookup u) (s.maps.lockMap.lookup u) ∧
      users s.maps.lockMap u = waiters s.maps.start u :=
    fun u => ⟨holds.lockMoves_same u, holds.counted u⟩
  cases action with
  | enter ctx =>
    obtain ⟨away, rfl⟩ := FutexTracer.step_enter stepped
    have absent := holds.outside ctx.pidTgid away
    cases accepted : FutexMaps.accepts s.maps.args ctx with
    | false =>
      have unchanged := futexEnter_refused accepted
      refine assemble ?_ (holds.outside_update (fun thread _ => ?_) (by simp)) ?_
      · simpa [unchanged] using holds.settings
      · simp only [unchanged]
      · simpa [unchanged] using same
    | true =>
      obtain ⟨settings, noted, _⟩ := futexEnter_accepted accepted absent full.1 full.2
      refine assemble (settings.trans holds.settings)
        (holds.outside_update (fun thread other => ?_) (by simp))
        (holds.futexEnter accepted absent full)
      simp only [noted, AList.lookup_insert_ne other]
  | exit ctx =>
    obtain rfl := FutexTracer.step_exit stepped
    cases present : s.maps.start.lookup ctx.pidTgid with
    | none =>
      have unchanged := futexExit_absent arch present
      refine assemble ?_ (holds.outside_update (fun thread _ => ?_) fun _ => ?_) ?_
      · simpa [unchanged] using holds.settings
      · simp only [unchanged]
      · simpa [unchanged] using present
      · simpa [unchanged] using same
    | some v =>
      obtain ⟨settings, noted, _⟩ := futexExit_present arch present
      refine assemble (settings.trans holds.settings)
        (holds.outside_update (fun thread other => ?_) fun _ => ?_) (holds.futexExit present)
      · simp only [noted, AList.lookup_erase_ne other]
      · simp only [noted, AList.lookup_erase]

end Steps

/-- Before the first handler run nothing waits and nothing is counted. -/
theorem counted_new (arch : TargetArch) (args : UserArgs) (inside : UInt64 → Bool) :
    Counted arch (.new args inside) [] (.new args inside) where
  reached := rfl
  settings := rfl
  outside := fun thread _ => by simp [FutexTracer.new]
  counted := fun u => by simp [FutexTracer.new, users, waiters]
  peak := fun u lock found => by simp [FutexTracer.new] at found
  fresh := fun u _ => by
    ext count
    constructor
    · -- The one state of an empty run has no locks.
      rintro ⟨state, lock, ⟨before, inside, reached⟩, found, _⟩
      obtain rfl : before = [] := by simpa using inside
      obtain rfl := Option.some.inj reached
      simp [FutexTracer.new] at found
    · rintro ⟨⟩

/-- What an entry of the call reports. -/
theorem futexEnter_records {maps : FutexMaps} {ctx : EnterCtx} :
    (maps.futexEnter ctx).2 =
      if FutexMaps.accepts maps.args ctx then
        (maps.lockMap.lookup ctx.uaddr).bind fun lock =>
          let lock := FutexMaps.lockEnter lock
          if lock.maxUserCnt > maps.args.maxLockHoldUsers then
            some (.lock { lock with pidTgid := ctx.pidTgid, ts := ctx.now, comm := ctx.comm })
          else none
      else none := by
  -- A first wait on a lock finds no lock, so it is never reported.
  cases accepted : FutexMaps.accepts maps.args ctx with
  | false => simp [FutexMaps.futexEnter, accepted]
  | true => cases found : maps.lockMap.lookup ctx.uaddr <;>
      simp [FutexMaps.futexEnter, accepted, found]

/--
After every run of the handlers a lock counts the threads whose noted wait is on it, and its
largest count is the largest it has ever had.

A further entry of the call reports its lock just when it is accepted, finds the lock, and leaves
it with a largest count over the setting.
-/
theorem FutexTracer.counts_users (arch : TargetArch) (args : UserArgs) (inside : UInt64 → Bool)
    (actions : List FutexAction)
    (roomy : Allowed (FutexTracer.step arch) NeverFull (FutexTracer.new args inside) actions)
    (s : FutexTracer)
    (ran : run (FutexTracer.step arch) (FutexTracer.new args inside) actions = some s) :
    (∀ u lock, s.maps.lockMap.lookup u = some lock →
        lock.userCnt.toNat = waiters s.maps.start u ∧
        IsGreatest (userCounts arch (FutexTracer.new args inside) actions u)
          lock.maxUserCnt.toNat) ∧
      (∀ u, s.maps.lockMap.lookup u = none → waiters s.maps.start u = 0) ∧
      ∀ ctx next, NeverFull s (.enter ctx) → s.step arch (.enter ctx) = some next →
        (FutexMaps.accepts args ctx = true → ∀ found, s.maps.lockMap.lookup ctx.uaddr = some found →
          ∃ lock, next.maps.lockMap.lookup ctx.uaddr = some lock ∧
            IsGreatest (userCounts arch (FutexTracer.new args inside) (actions ++ [.enter ctx])
              ctx.uaddr) lock.maxUserCnt.toNat ∧
            next.records = s.records ++
              if lock.maxUserCnt > args.maxLockHoldUsers then
                [.lock { lock with pidTgid := ctx.pidTgid, ts := ctx.now, comm := ctx.comm }]
              else []) ∧
        (FutexMaps.accepts args ctx = false ∨ s.maps.lockMap.lookup ctx.uaddr = none →
          next.records = s.records) := by
  -- The invariant is carried along the run, and once more over the further entry.
  have holds : Counted arch (FutexTracer.new args inside) actions s := run_history_allowed
    (Counted arch (FutexTracer.new args inside)) (counted_new arch args inside)
    (fun past state action next carried full stepped => carried.step full stepped) roomy ran
  have settings : s.maps.args = args := holds.settings
  refine ⟨?_, ?_, ?_⟩
  · intro u lock found
    refine ⟨?_, holds.peak u lock found⟩
    rw [← holds.counted u]
    simp [users, found]
  · intro u missing
    rw [← holds.counted u]
    simp [users, missing]
  · intro ctx next full stepped
    have further := holds.step full stepped
    obtain ⟨away, rfl⟩ := FutexTracer.step_enter stepped
    have absent := holds.outside ctx.pidTgid away
    constructor
    · intro accepted found stored
      have accepts : FutexMaps.accepts s.maps.args ctx = true := settings ▸ accepted
      obtain ⟨_, _, changes, _⟩ := futexEnter_accepted accepts absent full.1 full.2
      have now : (s.maps.futexEnter ctx).1.lockMap.lookup ctx.uaddr =
          some (FutexMaps.lockEnter found) := by
        rw [changes found stored, AList.lookup_insert]
      refine ⟨FutexMaps.lockEnter found, now, further.peak ctx.uaddr _ now, ?_⟩
      simp only [futexEnter_records, settings, accepted, if_true, stored, Option.bind_some]
      split <;> rfl
    · rintro (refused | missing)
      · simp [futexEnter_records, settings, refused]
      · simp [futexEnter_records, missing]

/-- Settings that accept every wait and report a lock with more than one user. -/
def openArgs : UserArgs where
  targPid := 0
  targTid := 0
  targLock := 0
  stack := false
  minDurMs := 0
  maxDurMs := 0
  maxLockHoldUsers := 1

/-- A thread enters a wait on the lock at eight. -/
def waitOf (thread : UInt64) : FutexAction :=
  .enter { pidTgid := thread, comm := [97], now := 100, uaddr := 8, op := 128 }

/-- Two threads wait, and the first one gives up. -/
def twoWaits : List FutexAction :=
  [waitOf 1, waitOf 2,
    .exit { pidTgid := 1, comm := [97], now := 90, ret := -11, userStackId := 0 }]

/-- One thread is left of two, which is still the largest count. -/
theorem FutexTracer.counts_users_two_waits :
    ∃ s lock, run (FutexTracer.step .other) (FutexTracer.new openArgs fun _ => false) twoWaits =
        some s ∧
      s.maps.lockMap.lookup 8 = some lock ∧ lock.userCnt = 1 ∧ lock.maxUserCnt = 2 ∧
      lock.userCnt.toNat = waiters s.maps.start 8 ∧
      IsGreatest (userCounts .other (FutexTracer.new openArgs fun _ => false) twoWaits 8)
        lock.maxUserCnt.toNat := by
  -- Each of the three steps finds room in both maps.
  have roomy : Allowed (FutexTracer.step .other) NeverFull
      (FutexTracer.new openArgs fun _ => false) twoWaits := by
    refine ⟨⟨by decide, by decide⟩, fun first taken => ?_⟩
    obtain rfl := Option.some.inj taken
    refine ⟨⟨by decide +kernel, by decide +kernel⟩, fun second taken => ?_⟩
    obtain rfl := Option.some.inj taken
    exact ⟨⟨by decide +kernel, by decide +kernel⟩, fun _ _ => trivial⟩
  have counts := (FutexTracer.counts_users .other openArgs (fun _ => false) twoWaits roomy _ rfl).1
  exact ⟨_, _, rfl, rfl, rfl, rfl, counts 8 _ rfl⟩

end Spycat.Futexsnoop
