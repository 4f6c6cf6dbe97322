import Spycat.Lib.Run
import Spycat.Proofs.Ebpf.OncpuSteps

/-! Every event of the on-CPU profiler is made of an entry that the counts map held. -/

namespace Spycat.Oncpu

open Lib

section Origin

variable (passed : OncpuSession → Prop)

/-- An entry was in the counts map of a state that was passed. -/
def WasCounted (entry : Entry) : Prop :=
  ∃ s, passed s ∧ s.maps.mapCounts.lookup entry.1 = some entry.2

/-- A stack was what a state that was passed had under a number. -/
def WasRecorded (id : Int64) (stack : Bytes) : Prop :=
  ∃ s, passed s ∧ OncpuSession.getStack s.maps.mapStacks id.toInt32 = stack

/-- What was gathered is an entry, with the stacks that it names. -/
structure Gathered (it : Sf) (entry : Entry) : Prop where
  counted : WasCounted passed entry
  userStack : WasRecorded passed entry.1.userStack it.uStack
  kernelStack : WasRecorded passed entry.1.kernStack it.kStack
  pid : it.pid = entry.1.pid
  count : it.count = entry.2
  comm : it.comm = goString entry.1.comm

/-- An event was sent for an entry, by a state that was passed and at some time. -/
structure SentFor (machine : Machine) (event : SpyEvent) (entry : Entry) (sending : OncpuSession)
    (it : Sf) : Prop where
  visited : passed sending
  next : ∃ r todo, sending.phase = .send r (it :: todo)
  gathered : Gathered passed it entry
  made : ∃ now, sending.eventOf machine.resolve it now = some event

end Origin

namespace Phase

/-- The entries of this round whose stacks are not all read yet. -/
def read : Phase → List Entry
  | .batch taken => taken
  | .iterate read | .getValue read _ => read
  | .userStack _ todo => todo
  | .kernelStack _ entry _ todo => entry :: todo
  | _ => []

/-- The entries of this round that are gathered and yet to be sent. -/
def gathered : Phase → List Sf
  | .userStack r _ | .kernelStack r _ _ _ => r.sfs
  | .send _ todo => todo
  | _ => []

end Phase

/-- All that a session has read, gathered and sent stems from states that were passed. -/
structure Stems (machine : Machine) (passed : OncpuSession → Prop) (s : OncpuSession) : Prop where
  read : ∀ entry ∈ s.phase.read, WasCounted passed entry
  halfway : ∀ r entry uStack todo, s.phase = .kernelStack r entry uStack todo →
    WasRecorded passed entry.1.userStack uStack
  gathered : ∀ it ∈ s.phase.gathered, ∃ entry, Gathered passed it entry
  sent : ∀ event ∈ s.sent, ∃ entry sending it, SentFor passed machine event entry sending it

section Steps

variable {machine : Machine} {passed further : OncpuSession → Prop} {s s' : OncpuSession}

/-- What stems from some states stems from more of them. -/
theorem Gathered.mono {it : Sf} {entry : Entry} (from_ : Gathered passed it entry)
    (more : ∀ state, passed state → further state) : Gathered further it entry := by
  -- Each state that was passed stays one.
  obtain ⟨⟨held, visited, found⟩, ⟨user, visitedUser, userStack⟩,
    ⟨kern, visitedKern, kernelStack⟩, pid, count, comm⟩ := from_
  exact
    { counted := ⟨held, more held visited, found⟩
      userStack := ⟨user, more user visitedUser, userStack⟩
      kernelStack := ⟨kern, more kern visitedKern, kernelStack⟩
      pid := pid
      count := count
      comm := comm }

/-- So does a session. -/
theorem Stems.mono (stems : Stems machine passed s) (more : ∀ state, passed state → further state) :
    Stems machine further s := by
  -- What is said about entries, stacks and events is said by states that were passed.
  constructor
  · intro entry member
    obtain ⟨held, visited, found⟩ := stems.read entry member
    exact ⟨held, more held visited, found⟩
  · intro r entry uStack todo phase
    obtain ⟨held, visited, found⟩ := stems.halfway r entry uStack todo phase
    exact ⟨held, more held visited, found⟩
  · intro it member
    obtain ⟨entry, gathered⟩ := stems.gathered it member
    exact ⟨entry, gathered.mono more⟩
  · intro event member
    obtain ⟨entry, sending, it, visited, next, gathered, made⟩ := stems.sent event member
    exact ⟨entry, sending, it, more sending visited, next, gathered.mono more, made⟩

/-- A phase in which nothing is read or gathered leaves only what was sent. -/
theorem Stems.of_idle (stems : Stems machine passed s) (sent : s'.sent = s.sent)
    (read : s'.phase.read = []) (gathered : s'.phase.gathered = []) :
    Stems machine passed s' where
  -- Nothing is under way, and nothing more was sent.
  read := by simp [read]
  halfway := by
    intro r entry uStack todo phase
    simp [phase, Phase.read] at read
  gathered := by simp [gathered]
  sent := by simpa [sent] using stems.sent

/-- A phase that hands over what was read and gathered keeps where it stems from. -/
theorem Stems.of_handed (stems : Stems machine passed s) (sent : s'.sent = s.sent)
    (read : ∀ entry ∈ s'.phase.read, entry ∈ s.phase.read)
    (gathered : ∀ it ∈ s'.phase.gathered, it ∈ s.phase.gathered)
    (whole : ∀ r entry uStack todo, s'.phase ≠ .kernelStack r entry uStack todo) :
    Stems machine passed s' where
  -- Whatever is under way was so before.
  read := fun entry member => stems.read entry (read entry member)
  halfway := fun r entry uStack todo phase => absurd phase (whole r entry uStack todo)
  gathered := fun it member => stems.gathered it (gathered it member)
  sent := by simpa [sent] using stems.sent

/-- One more entry was read, which is in the counts map now. -/
theorem Stems.of_read (stems : Stems machine passed s) (here : passed s) {key : ProfileKey}
    {value : UInt32} (found : s.maps.mapCounts.lookup key = some value) (sent : s'.sent = s.sent)
    (read : s'.phase.read = s.phase.read ++ [(key, value)]) (gathered : s'.phase.gathered = [])
    (whole : ∀ r entry uStack todo, s'.phase ≠ .kernelStack r entry uStack todo) :
    Stems machine passed s' where
  -- The entry that was just read is in the map now.
  read := by
    intro entry member
    rw [read, List.mem_append, List.mem_singleton] at member
    rcases member with earlier | rfl
    · exact stems.read entry earlier
    · exact ⟨s, here, found⟩
  halfway := fun r entry uStack todo phase => absurd phase (whole r entry uStack todo)
  gathered := by simp [gathered]
  sent := by simpa [sent] using stems.sent

/-- What a loop hands over was read or gathered in it. -/
theorem Stems.proceed (stems : Stems machine passed s) {phase : Phase}
    (ended : s.proceed = some phase) : Stems machine passed { s with phase := phase } := by
  -- A loop that ends starts the next one with what it has read or gathered.
  cases ends_of_proceed ended with
  | nothingTaken stands => exact stems.of_idle rfl rfl rfl
  | taken stands some_ =>
    refine stems.of_handed rfl (fun entry member => ?_) (by simp [Phase.gathered]) (by simp)
    rw [stands]
    exact member
  | iterated stands =>
    refine stems.of_handed rfl (fun entry member => ?_) (by simp [Phase.gathered]) (by simp)
    rw [stands]
    exact member
  | gathered stands =>
    refine stems.of_handed rfl (by simp [Phase.read]) (fun it member => ?_) (by simp)
    rw [stands]
    exact member
  | sent stands => exact stems.of_idle rfl rfl rfl
  | @cleared r stands =>
    unfold OncpuSession.startStacks
    split <;> exact stems.of_idle rfl rfl rfl
  | listed stands => exact stems.of_idle rfl rfl rfl
  | finished stands => exact stems.of_idle rfl rfl rfl

/-- Every step keeps where things stem from, with its own state among those that were passed. -/
theorem Stems.step (stems : Stems machine passed s) (here : passed s) {action : OncpuAction}
    (stepped : s.step machine action = some s') : Stems machine passed s' := by
  cases moves_of_step stepped with
  | sample ctx => exact ⟨stems.read, stems.halfway, stems.gathered, stems.sent⟩
  | reset phase => exact stems.of_idle rfl rfl rfl
  | takeKey phase found =>
    refine stems.of_read here found rfl ?_ rfl (by simp)
    rw [phase]
    rfl
  | next phase found fresh =>
    refine stems.of_handed rfl (fun entry member => ?_) (by simp [Phase.gathered]) (by simp)
    rw [phase]
    exact member
  | getValue phase found =>
    refine stems.of_read here found rfl ?_ rfl (by simp)
    rw [phase]
    rfl
  | getValueError phase error => exact stems.of_idle rfl rfl rfl
  | @userStack r entry todo phase =>
    -- The user's stack is read from the map as it is now.
    have read := stems.read
    have gathered := stems.gathered
    rw [phase] at read gathered
    refine ⟨read, ?_, gathered, stems.sent⟩
    intro other first uStack rest same
    injection same with _ entries stack _
    subst entries stack
    exact ⟨s, here, rfl⟩
  | @kernelStack r entry uStack todo phase =>
    -- With the kernel's stack, which is read from the map as it is now, the entry is gathered.
    have read := stems.read
    have gathered := stems.gathered
    rw [phase] at read gathered
    refine ⟨fun other member => read other (List.mem_cons_of_mem _ member), by simp, ?_,
      stems.sent⟩
    intro it member
    rcases List.mem_append.mp member with earlier | last
    · exact gathered it earlier
    · obtain rfl := List.mem_singleton.mp last
      exact ⟨entry,
        { counted := read entry List.mem_cons_self
          userStack := stems.halfway r entry uStack todo phase
          kernelStack := ⟨s, here, rfl⟩
          pid := rfl
          count := rfl
          comm := rfl }⟩
  | @send r it todo now event phase made =>
    have gathered := stems.gathered
    rw [phase] at gathered
    refine ⟨by simp [Phase.read], by simp, fun other member =>
      gathered other (List.mem_cons_of_mem _ member), ?_⟩
    intro other member
    rcases List.mem_append.mp member with earlier | last
    · exact stems.sent other earlier
    · obtain rfl := List.mem_singleton.mp last
      obtain ⟨entry, from_⟩ := gathered it List.mem_cons_self
      exact ⟨entry, s, it, here, ⟨r, todo, phase⟩, from_, ⟨now, made⟩⟩
  | deleteKey phase found => exact stems.of_idle rfl rfl rfl
  | deleteKeyError phase error => exact stems.of_idle rfl rfl rfl
  | nextStack phase fresh found => exact stems.of_idle rfl rfl rfl
  | deleteStack phase known => exact stems.of_idle rfl rfl rfl
  | proceed ended => exact stems.proceed ended

end Steps

/-- In every run, what a session has read, gathered and sent stems from the states of the run. -/
theorem stems_of_run {machine : Machine} {start s : OncpuSession} {actions : List OncpuAction}
    (idle : start.phase = .idle) (fresh : start.sent = [])
    (ran : run (OncpuSession.step machine) start actions = some s) :
    Stems machine (Visited (OncpuSession.step machine) start actions) s := by
  have carried : run (OncpuSession.step machine) start actions = some s ∧
      Stems machine (Visited (OncpuSession.step machine) start actions) s := by
    refine run_history (fun past state => run (OncpuSession.step machine) start past = some state ∧
      Stems machine (Visited (OncpuSession.step machine) start past) state) ?_ ?_ ran
    · exact ⟨rfl, by simp [idle, Phase.read], by simp [idle], by simp [idle, Phase.gathered],
        by simp [fresh]⟩
    · rintro past state action next ⟨reached, stems⟩ taken
      refine ⟨by simp [run_append, reached, taken], ?_⟩
      -- The state before the step was passed, and what was passed stays so.
      refine (stems.step (visited_finish reached) taken).mono fun earlier visited => ?_
      exact (visited_append reached taken earlier).mpr (.inl visited)
  exact carried.2

end Spycat.Oncpu
