import Spycat.Ebpf.OncpuSession

/-! Everything that one step of the on-CPU profiler can do, kernel and session alike. -/

namespace Spycat.Oncpu

open Lib Bpf

/-- The steps from a session, each with where it stands before and what it changes. -/
inductive Moves (machine : Machine) (s : OncpuSession) : OncpuAction → OncpuSession → Prop
  | sample (ctx : PerfEventData) :
      Moves machine s (.sample ctx) { s with maps := s.maps.doPerfEvent machine.stackHash ctx }
  | reset (phase : s.phase = .idle) :
      Moves machine s .reset { s with roundNumber := s.roundNumber + 1, phase := .batch [] }
  | takeKey {taken : List Entry} {key : ProfileKey} {value : UInt32}
      (phase : s.phase = .batch taken) (found : s.maps.mapCounts.lookup key = some value) :
      Moves machine s (.takeKey key)
        { s with
          maps := { s.maps with mapCounts := s.maps.mapCounts.erase key }
          phase := .batch (taken ++ [(key, value)]) }
  | next {read : List Entry} {key : ProfileKey} (phase : s.phase = .iterate read)
      (found : (s.maps.mapCounts.lookup key).isSome) (fresh : key ∉ read.map (·.1)) :
      Moves machine s (.next key) { s with phase := .getValue read key }
  | getValue {read : List Entry} {key : ProfileKey} {value : UInt32}
      (phase : s.phase = .getValue read key) (found : s.maps.mapCounts.lookup key = some value) :
      Moves machine s (.getValue false) { s with phase := .iterate (read ++ [(key, value)]) }
  | getValueError {read : List Entry} {key : ProfileKey} {failed : Bool}
      (phase : s.phase = .getValue read key)
      (error : s.maps.mapCounts.lookup key = none ∨ failed = true) :
      Moves machine s (.getValue failed) { s with phase := .idle }
  | userStack {r : Round} {entry : Entry} {todo : List Entry}
      (phase : s.phase = .userStack r (entry :: todo)) :
      Moves machine s .getStack
        { s with
          phase := .kernelStack r entry
            (OncpuSession.getStack s.maps.mapStacks entry.1.userStack.toInt32) todo }
  | kernelStack {r : Round} {entry : Entry} {uStack : Bytes} {todo : List Entry}
      (phase : s.phase = .kernelStack r entry uStack todo) :
      Moves machine s .getStack
        { s with
          phase := .userStack
            { r with
              sfs := r.sfs ++
                [{ pid := entry.1.pid
                   count := entry.2
                   kStack := OncpuSession.getStack s.maps.mapStacks entry.1.kernStack.toInt32
                   uStack := uStack
                   comm := goString entry.1.comm }]
              knownStacks := r.knownStacks ++ OncpuSession.stackIds entry.1 } todo }
  | send {r : Round} {it : Sf} {todo : List Sf} {now : UInt64} {event : SpyEvent}
      (phase : s.phase = .send r (it :: todo))
      (made : s.eventOf machine.resolve it now = some event) :
      Moves machine s (.send now) { s with sent := s.sent ++ [event], phase := .send r todo }
  | deleteKey {r : Round} {entry : Entry} {todo : List Entry}
      (phase : s.phase = .clearCounts r (entry :: todo))
      (found : (s.maps.mapCounts.lookup entry.1).isSome) :
      Moves machine s (.deleteKey false)
        { s with
          maps := { s.maps with mapCounts := s.maps.mapCounts.erase entry.1 }
          phase := .clearCounts r todo }
  | deleteKeyError {r : Round} {entry : Entry} {todo : List Entry} {failed : Bool}
      (phase : s.phase = .clearCounts r (entry :: todo))
      (error : s.maps.mapCounts.lookup entry.1 = none ∨ failed = true) :
      Moves machine s (.deleteKey failed) { s with phase := .idle }
  | nextStack {listed : List UInt32} {id : UInt32} (phase : s.phase = .listStacks listed)
      (fresh : id ∉ listed) (found : (s.maps.mapStacks.lookup id).isSome) :
      Moves machine s (.nextStack id) { s with phase := .listStacks (listed ++ [id]) }
  | deleteStack {todo : List UInt32} {id : UInt32} {failed : Bool}
      (phase : s.phase = .clearStacks todo) (known : id ∈ todo) :
      Moves machine s (.deleteStack id failed)
        { s with
          maps := { s.maps with
            mapStacks := if failed then s.maps.mapStacks else s.maps.mapStacks.erase id }
          phase := .clearStacks (todo.erase id) }
  | proceed {phase : Phase} (ended : s.proceed = some phase) :
      Moves machine s .proceed { s with phase := phase }

/-- A step that is possible is one of them. -/
theorem moves_of_step {machine : Machine} {s s' : OncpuSession} {action : OncpuAction}
    (stepped : s.step machine action = some s') : Moves machine s action s' := by
  cases action with
  | sample ctx =>
    obtain rfl := Option.some.inj stepped
    exact .sample ctx
  | reset =>
    simp only [OncpuSession.step] at stepped
    split at stepped
    · rename_i phase
      obtain rfl := Option.some.inj stepped
      exact .reset phase
    · cases stepped
  | takeKey key =>
    simp only [OncpuSession.step] at stepped
    split at stepped
    · rename_i taken value phase found
      obtain rfl := Option.some.inj stepped
      exact .takeKey phase found
    · cases stepped
  | next key =>
    simp only [OncpuSession.step] at stepped
    split at stepped
    · rename_i read value phase found
      split at stepped
      · cases stepped
      · rename_i fresh
        obtain rfl := Option.some.inj stepped
        exact .next phase (by simp [found]) fresh
    · cases stepped
  | getValue failed =>
    simp only [OncpuSession.step] at stepped
    split at stepped
    · rename_i read key phase
      -- The value is read unless it is gone or the call failed.
      cases found : s.maps.mapCounts.lookup key with
      | none =>
        obtain rfl : { s with phase := .idle } = s' := by simpa [found] using stepped
        exact .getValueError phase (.inl found)
      | some value =>
        cases failed with
        | false =>
          obtain rfl : { s with phase := .iterate (read ++ [(key, value)]) } = s' := by
            simpa [found] using stepped
          exact .getValue phase found
        | true =>
          obtain rfl : { s with phase := .idle } = s' := by simpa [found] using stepped
          exact .getValueError phase (.inr rfl)
    · cases stepped
  | getStack =>
    simp only [OncpuSession.step] at stepped
    split at stepped
    · rename_i r entry todo phase
      obtain rfl := Option.some.inj stepped
      exact .userStack phase
    · rename_i r entry uStack todo phase
      obtain rfl := Option.some.inj stepped
      exact .kernelStack phase
    · cases stepped
  | send now =>
    simp only [OncpuSession.step] at stepped
    split at stepped
    · rename_i r it todo phase
      obtain ⟨event, made, rfl⟩ := Option.map_eq_some_iff.mp stepped
      exact .send phase made
    · cases stepped
  | deleteKey failed =>
    simp only [OncpuSession.step] at stepped
    split at stepped
    · rename_i r key value todo phase
      cases found : s.maps.mapCounts.lookup key with
      | none =>
        have refused : deleteElem s.maps.mapCounts key = none := by simp [deleteElem, found]
        simp only [refused, Option.some.injEq] at stepped
        subst stepped
        exact .deleteKeyError phase (.inl found)
      | some stored =>
        rw [deleteElem_present found] at stepped
        cases failed with
        | false =>
          obtain rfl := Option.some.inj stepped
          exact .deleteKey phase (by simp [found])
        | true =>
          obtain rfl := Option.some.inj stepped
          exact .deleteKeyError phase (.inr rfl)
    · cases stepped
  | nextStack id =>
    simp only [OncpuSession.step] at stepped
    split at stepped
    · rename_i listed phase
      split at stepped
      · cases stepped
      · rename_i fresh
        obtain ⟨apart, found⟩ := not_or.mp fresh
        obtain rfl := Option.some.inj stepped
        exact .nextStack phase apart (by simpa [Option.isSome_iff_ne_none] using found)
    · cases stepped
  | deleteStack id failed =>
    simp only [OncpuSession.step] at stepped
    split at stepped
    · rename_i todo phase
      split at stepped
      · rename_i known
        obtain rfl := Option.some.inj stepped
        exact .deleteStack phase known
      · cases stepped
    · cases stepped
  | proceed =>
    obtain ⟨phase, ended, rfl⟩ := Option.map_eq_some_iff.mp stepped
    exact .proceed ended

/-- The ends of a session's loops and calls, each with the phase behind it. -/
inductive Ends (s : OncpuSession) : Phase → Prop
  | nothingTaken (phase : s.phase = .batch []) : Ends s (.iterate [])
  | taken {taken : List Entry} (phase : s.phase = .batch taken) (some_ : taken ≠ []) :
      Ends s (.userStack { entries := taken, batch := true, sfs := [], knownStacks := [] } taken)
  | iterated {read : List Entry} (phase : s.phase = .iterate read) :
      Ends s (.userStack { entries := read, batch := false, sfs := [], knownStacks := [] } read)
  | gathered {r : Round} (phase : s.phase = .userStack r []) : Ends s (.send r r.sfs)
  | sent {r : Round} (phase : s.phase = .send r []) : Ends s (OncpuSession.startClearing r)
  | cleared {r : Round} (phase : s.phase = .clearCounts r []) :
      Ends s (OncpuSession.startStacks s.roundNumber r)
  | listed {listed : List UInt32} (phase : s.phase = .listStacks listed) :
      Ends s (.clearStacks listed)
  | finished (phase : s.phase = .clearStacks []) : Ends s .idle

/-- A session goes on only at one of those ends. -/
theorem ends_of_proceed {s : OncpuSession} {phase : Phase} (ended : s.proceed = some phase) :
    Ends s phase := by
  -- Every other phase has something left to do.
  unfold OncpuSession.proceed at ended
  split at ended
  · rename_i taken stands
    split at ended
    · rename_i nothing
      subst nothing
      obtain rfl := Option.some.inj ended
      exact .nothingTaken stands
    · rename_i something
      obtain rfl := Option.some.inj ended
      exact .taken stands something
  · rename_i read stands
    obtain rfl := Option.some.inj ended
    exact .iterated stands
  · rename_i r stands
    obtain rfl := Option.some.inj ended
    exact .gathered stands
  · rename_i r stands
    obtain rfl := Option.some.inj ended
    exact .sent stands
  · rename_i r stands
    obtain rfl := Option.some.inj ended
    exact .cleared stands
  · rename_i listed stands
    obtain rfl := Option.some.inj ended
    exact .listed stands
  · rename_i stands
    obtain rfl := Option.some.inj ended
    exact .finished stands
  · cases ended

end Spycat.Oncpu
