import Spycat.Proofs.Symtab.SymbolCacheRuns

/-! A table of the cache is refreshed when it is first asked in a round. -/

namespace Spycat

open Lib

/-- Whether the table of an entry is asked, and if so for a refresh or not, and in which round. -/
def SymtabEvent.resolveOf (id : Nat) : SymtabEvent → Option (Bool × Int)
  | .resolve i _ refresh roundNumber => if i = id then some (refresh, roundNumber) else none
  | _ => none

/-- A table is asked for a refresh exactly when it is asked in a round for the first time. -/
def RefreshesFirst (resolves : List (Bool × Int)) : Prop :=
  ∀ before refresh roundNumber after, resolves = before ++ (refresh, roundNumber) :: after →
    (refresh = true ↔ ∀ refresh', (refresh', roundNumber) ∉ before)

/-- One more question keeps that, if it asks for a refresh just where it is the first one. -/
theorem RefreshesFirst.append {resolves : List (Bool × Int)} (first : RefreshesFirst resolves)
    {refresh : Bool} {roundNumber : Int}
    (asks : refresh = true ↔ ∀ refresh', (refresh', roundNumber) ∉ resolves) :
    RefreshesFirst (resolves ++ [(refresh, roundNumber)]) := by
  intro before refresh' roundNumber' after split
  -- The question that is looked at is the last one, or one of those before.
  rcases List.eq_nil_or_concat' after with rfl | ⟨earlier, last, rfl⟩
  · obtain ⟨rfl, same⟩ := List.append_inj' split rfl
    obtain ⟨rfl, rfl⟩ : refresh = refresh' ∧ roundNumber = roundNumber' := by simpa using same
    exact asks
  · rw [← List.cons_append, ← List.append_assoc] at split
    obtain ⟨within, -⟩ := List.append_inj' split rfl
    exact first before refresh' roundNumber' earlier within

/-- What was asked of an entry's table agrees with the round that the entry keeps. -/
structure RoundKept (resolves : List (Bool × Int)) (kept : Option Int) (last : Int) : Prop where
  first : RefreshesFirst resolves
  unmade : kept = none → resolves = []
  latest : ∀ roundNumber, kept = some roundNumber → roundNumber ≤ last ∧
    (roundNumber = 0 ∨ ∃ refresh, (refresh, roundNumber) ∈ resolves) ∧
    ∀ asked ∈ resolves, asked.2 ≤ roundNumber

/-- A new entry keeps no round. -/
theorem RoundKept.make {resolves : List (Bool × Int)} {last : Int}
    (rounds : RoundKept resolves none last) (positive : 0 ≤ last) :
    RoundKept resolves (some 0) last := by
  -- A table that was not made yet was never asked.
  obtain rfl := rounds.unmade rfl
  refine ⟨rounds.first, fun absent => absurd absent (by simp), ?_⟩
  intro roundNumber same
  obtain rfl := Option.some.inj same
  exact ⟨positive, .inl rfl, by simp⟩

/-- A question in a later or the same round, with a refresh where the round is another one. -/
theorem RoundKept.ask {resolves : List (Bool × Int)} {kept last roundNumber : Int}
    (rounds : RoundKept resolves (some kept) last) (later : last ≤ roundNumber)
    (positive : 1 ≤ roundNumber) :
    RoundKept (resolves ++ [(decide (roundNumber ≠ kept), roundNumber)]) (some roundNumber)
      roundNumber := by
  obtain ⟨bound, source, latest⟩ := rounds.latest kept rfl
  refine ⟨rounds.first.append ?_, fun absent => absurd absent (by simp), ?_⟩
  · rw [decide_eq_true_iff]
    constructor
    · -- All earlier questions are of the kept round at the latest.
      intro other refresh asked
      have before := latest _ asked
      have same : roundNumber = kept := by
        simp only at before
        omega
      exact other same
    · intro new same
      subst same
      rcases source with zero | ⟨refresh, asked⟩
      · omega
      · exact new refresh asked
  · intro now same
    obtain rfl := Option.some.inj same
    refine ⟨Int.le_refl _, .inr ⟨_, List.mem_append_right _ List.mem_cons_self⟩, ?_⟩
    intro asked inside
    rcases List.mem_append.mp inside with inside | inside
    · have before := latest asked inside
      omega
    · rw [List.mem_singleton.mp inside]

/-- The round of the last question can be any later one. -/
theorem RoundKept.mono {resolves : List (Bool × Int)} {kept : Option Int} {last later : Int}
    (rounds : RoundKept resolves kept last) (further : last ≤ later) :
    RoundKept resolves kept later := by
  -- Only the bound of the last round is about that round.
  refine ⟨rounds.first, rounds.unmade, fun roundNumber same => ?_⟩
  obtain ⟨bound, rest⟩ := rounds.latest roundNumber same
  exact ⟨Int.le_trans bound further, rest⟩

namespace SymbolCache

variable {lru : Lru UInt32 Nat} {sc : SymbolCache lru} {cacheSize : Int}

/-- What was asked of the table of an entry. -/
def resolves (sc : SymbolCache lru) (id : Nat) : List (Bool × Int) :=
  sc.log.filterMap (SymtabEvent.resolveOf id)

/-- The round that an entry keeps. -/
def roundOf (sc : SymbolCache lru) (id : Nat) : Option Int := sc.made[id]?.map (·.roundNumber)

/-- All entries keep their rounds. -/
def Rounds (sc : SymbolCache lru) (last : Int) : Prop :=
  ∀ id, RoundKept (sc.resolves id) (sc.roundOf id) last

/-- No table was asked, and no entry keeps another round. -/
structure Quiet (sc sc' : SymbolCache lru) : Prop where
  resolves : ∀ id, sc'.resolves id = sc.resolves id
  roundOf : ∀ id, sc'.roundOf id = sc.roundOf id

/-- The rounds stay as they are where nothing is asked. -/
theorem Quiet.rounds {sc' : SymbolCache lru} (quiet : Quiet sc sc') {last : Int}
    (rounds : Rounds sc last) : Rounds sc' last := by
  -- Neither what was asked nor the rounds that are kept have changed.
  intro id
  rw [quiet.resolves, quiet.roundOf]
  exact rounds id

theorem Quiet.trans {first second third : SymbolCache lru} (front : Quiet first second)
    (back : Quiet second third) : Quiet first third :=
  -- What is the same twice is the same.
  ⟨fun id => (back.resolves id).trans (front.resolves id),
    fun id => (back.roundOf id).trans (front.roundOf id)⟩

/-- More events are more questions. -/
theorem resolves_note (sc : SymbolCache lru) (events : List SymtabEvent) (id : Nat) :
    (sc.note events).resolves id =
      sc.resolves id ++ events.filterMap (SymtabEvent.resolveOf id) :=
  List.filterMap_append

/-- Events that are no questions are quiet. -/
theorem quiet_note (sc : SymbolCache lru) {events : List SymtabEvent}
    (others : ∀ id, ∀ event ∈ events, SymtabEvent.resolveOf id event = none) :
    Quiet sc (sc.note events) := by
  -- None of the events asks a table.
  refine ⟨fun id => ?_, fun _ => rfl⟩
  rw [resolves_note, List.filterMap_eq_nil_iff.mpr (others id), List.append_nil]

/-- A changed entry keeps its round. -/
theorem roundOf_setEntry {id : Nat} {e : SymbolCacheEntry} (entry : sc.made[id]? = some e)
    (e' : SymbolCacheEntry) (other : Nat) :
    (sc.setEntry id e').roundOf other =
      if id = other then some e'.roundNumber else sc.roundOf other := by
  -- One entry is replaced, and the others keep their rounds.
  obtain ⟨inside, -⟩ := List.getElem?_eq_some_iff.mp entry
  by_cases same : id = other
  · subst same
    simp [roundOf, setEntry, inside]
  · simp [roundOf, setEntry, same]

/-- Closing a table asks nothing. -/
theorem quiet_close (sc : SymbolCache lru) (id : Nat) : Quiet sc (sc.close id) := by
  -- Closing notes two kinds of events at most, and neither asks a table.
  unfold SymbolCache.close
  cases sc.made[id]? with
  | none => exact ⟨fun _ => rfl, fun _ => rfl⟩
  | some e =>
    apply quiet_note
    intro other event inside
    rcases List.mem_cons.mp inside with rfl | inside
    · rfl
    · split at inside
      · rw [List.mem_singleton.mp inside]
        rfl
      · exact absurd inside (by simp)

/-- Closing tables asks nothing. -/
theorem quiet_evict (sc : SymbolCache lru) (entries : List (UInt32 × Nat)) :
    Quiet sc (sc.evict entries) := by
  -- The induction is on the entries that are closed.
  unfold SymbolCache.evict
  induction entries generalizing sc with
  | nil => exact ⟨fun _ => rfl, fun _ => rfl⟩
  | cons entry entries ih => exact (quiet_close sc entry.2).trans (ih (sc.close entry.2))

/-- The package's own state asks nothing. -/
theorem quiet_withCache (sc : SymbolCache lru) (pid2Cache : lru.State) :
    Quiet sc { sc with pid2Cache := pid2Cache } :=
  -- The rounds are kept by the entries, not by the cache of the package.
  ⟨fun _ => rfl, fun _ => rfl⟩

/-- Removing an entry asks nothing. -/
theorem quiet_remove (sc : SymbolCache lru) (pid : UInt32) : Quiet sc (sc.remove pid) :=
  -- The entry leaves the cache, and then it is closed.
  (quiet_withCache sc _).trans (quiet_evict _ _)

/-- Clearing the cache asks nothing. -/
theorem quiet_clear (sc : SymbolCache lru) : Quiet sc sc.clear := by
  -- The induction is on the processes, which are removed one by one.
  unfold SymbolCache.clear
  generalize lru.keys sc.pid2Cache = pids
  induction pids generalizing sc with
  | nil => exact ⟨fun _ => rfl, fun _ => rfl⟩
  | cons pid pids ih => exact (quiet_remove sc pid).trans (ih (sc.remove pid))

/-- What a table does to find a symbol is no further question. -/
theorem quiet_resolve (env : SymtabEnv) {id : Nat} {e : SymbolCacheEntry}
    (entry : sc.made[id]? = some e) (addr : UInt64) (refresh : Bool) :
    Quiet sc (SymbolCache.resolve env sc id e addr refresh).1 := by
  have native : ∀ sc : SymbolCache lru,
      Quiet sc (sc.note [.symcacheResolve id addr refresh]) := by
    intro sc
    apply quiet_note
    intro other event inside
    rw [List.mem_singleton.mp inside]
    rfl
  unfold SymbolCache.resolve
  cases table : e.symbolTable with
  | bcc pid => exact native sc
  | go tab pid fallbackTable =>
    simp only
    split
    · exact ⟨fun _ => rfl, fun _ => rfl⟩
    · split
      · exact native sc
      · -- The entry gets a native table, and keeps its round.
        have changed : Quiet sc
            (sc.setEntry id { e with symbolTable := .go tab pid true }) := by
          refine ⟨fun _ => rfl, fun other => ?_⟩
          rw [roundOf_setEntry entry]
          split
          · next same => rw [← same, roundOf, entry]; rfl
          · rfl
        have opened : Quiet (sc.setEntry id { e with symbolTable := .go tab pid true })
            ((sc.setEntry id { e with symbolTable := .go tab pid true }).note
              [.symcacheNew id pid]) := by
          apply quiet_note
          intro other event inside
          rw [List.mem_singleton.mp inside]
          rfl
        exact (changed.trans opened).trans (native _)

/-- A new entry keeps no round, and was not asked. -/
theorem Rounds.newEntry (env : SymtabEnv) {last : Int} (rounds : Rounds sc last)
    (positive : 0 ≤ last) (pid : UInt32) : Rounds (newEntry env sc pid) last := by
  -- The new entry has no round yet and was not asked; all others are as they were.
  intro id
  have asked : (SymbolCache.newEntry env sc pid).resolves id = sc.resolves id := by
    have quiet := resolves_note sc ((if (sc.newSymbolTable env pid).native then
      [.symcacheNew sc.made.length pid] else []) ++ [.opened sc.made.length pid]) id
    refine quiet.trans ?_
    cases (sc.newSymbolTable env pid).native <;>
      simp [SymtabEvent.resolveOf, List.filterMap_cons]
  rw [asked, roundOf, made_newEntry]
  by_cases same : id = sc.made.length
  · subst same
    have before := rounds sc.made.length
    rw [roundOf, List.getElem?_eq_none (Nat.le_refl _)] at before
    simpa using before.make positive
  · have kept : (sc.made ++ [{ symbolTable := sc.newSymbolTable env pid, roundNumber := 0 }])[id]? =
        sc.made[id]? := by
      rw [List.getElem?_append]
      split
      · rfl
      · rw [List.getElem?_eq_none (by simp; omega), List.getElem?_eq_none (by omega)]
    rw [kept]
    exact rounds id

/-- Finding or making the entry of a process asks nothing. -/
theorem Rounds.getOrCreateCacheEntry (env : SymtabEnv) {last : Int} (rounds : Rounds sc last)
    (positive : 0 ≤ last) (pid : UInt32) :
    Rounds (sc.getOrCreateCacheEntry env pid).1 last := by
  -- An entry that is found stays as it is; else one is made, and the oldest is closed.
  cases found : (lru.get sc.pid2Cache pid).2 with
  | some id =>
    rw [getOrCreateCacheEntry_found env found]
    exact (quiet_withCache sc _).rounds rounds
  | none =>
    rw [getOrCreateCacheEntry_missing env found]
    have created := ((quiet_withCache sc (lru.get sc.pid2Cache pid).1).rounds rounds).newEntry env
      positive pid
    exact ((quiet_withCache _ _).trans (quiet_evict _ _)).rounds created

/-- A question in a later or the same round keeps the rounds. -/
theorem Rounds.bccResolve (laws : lru.Laws) (env : SymtabEnv) (sound : Sound sc cacheSize)
    (size : 1 ≤ cacheSize) {last : Int} (rounds : Rounds sc last) (begun : 0 ≤ last) (pid : UInt32)
    (addr : UInt64) {roundNumber : Int} (later : last ≤ roundNumber) (positive : 1 ≤ roundNumber) :
    Rounds (sc.bccResolve env pid addr roundNumber).1 roundNumber := by
  obtain ⟨found, inside⟩ := sound.getOrCreateCacheEntry laws env size pid
  have before := rounds.getOrCreateCacheEntry env begun pid
  cases got : sc.getOrCreateCacheEntry env pid with
  | mk sc' id =>
    rw [got] at found inside before
    obtain ⟨e, entry⟩ := found.entry inside
    rw [bccResolve_eq env got entry]
    have now : ((sc'.setEntry id { e with roundNumber := roundNumber }).note
        [.resolve id addr (roundNumber ≠ e.roundNumber) roundNumber]).made[id]? =
          some { e with roundNumber := roundNumber } := getElem?_setEntry entry _
    refine (quiet_resolve env now addr _).rounds fun other => ?_
    -- The one table is asked, and all others are as they were.
    have kept : ((sc'.setEntry id { e with roundNumber := roundNumber }).note
        [.resolve id addr (roundNumber ≠ e.roundNumber) roundNumber]).roundOf other =
          if id = other then some roundNumber else sc'.roundOf other :=
      roundOf_setEntry entry _ other
    rw [kept, resolves_note]
    by_cases same : id = other
    · subst same
      have this := before id
      rw [roundOf, entry] at this
      have asked := this.ask later positive
      simpa [SymtabEvent.resolveOf, resolves, setEntry] using asked
    · have this := (before other).mono later
      simpa [SymtabEvent.resolveOf, same, resolves, setEntry] using this

end SymbolCache

/-- The round that an address is asked for in. -/
def SymbolCacheAction.round : SymbolCacheAction → Option Int
  | .bccResolve _ _ roundNumber => some roundNumber
  | .clear => none

/-- Rounds start at one or more, and never decrease. -/
def GrowingRounds (actions : List SymbolCacheAction) : Prop :=
  (actions.filterMap SymbolCacheAction.round).Pairwise (· ≤ ·) ∧
    ∀ roundNumber ∈ actions.filterMap SymbolCacheAction.round, 1 ≤ roundNumber

namespace SymbolCache

variable {lru : Lru UInt32 Nat} {sc : SymbolCache lru} {cacheSize : Int}

/-- A new cache has no rounds. -/
theorem rounds_new {start : SymbolCache lru} (made : new lru cacheSize = some start) :
    Rounds start 0 := by
  -- Nothing was made, and nothing was asked.
  obtain ⟨pid2Cache, -, rfl⟩ := Option.map_eq_some_iff.mp made
  intro id
  refine ⟨?_, fun _ => rfl, ?_⟩
  · intro before refresh roundNumber after split
    exact absurd split (by simp [resolves])
  · intro roundNumber kept
    exact absurd kept (by simp [roundOf])

/-- The rounds are kept over every sequence of calls whose rounds grow. -/
theorem Rounds.steps (laws : lru.Laws) (env : SymtabEnv) (size : 1 ≤ cacheSize)
    (sound : Sound sc cacheSize) {last : Int} (rounds : Rounds sc last) (begun : 0 ≤ last)
    {actions : List SymbolCacheAction} (growing : GrowingRounds actions)
    (later : ∀ roundNumber ∈ actions.filterMap SymbolCacheAction.round, last ≤ roundNumber) :
    ∃ now, Rounds (sc.steps env actions) now := by
  -- The induction follows the steps, with the last round that was asked for.
  unfold SymbolCache.steps
  induction actions generalizing sc last with
  | nil => exact ⟨last, rounds⟩
  | cons action actions ih =>
    obtain ⟨sorted, positive⟩ := growing
    have next := sound.step laws env size action
    cases action with
    | bccResolve pid addr roundNumber =>
      rw [List.filterMap_cons] at sorted positive later
      simp only [SymbolCacheAction.round, List.pairwise_cons, List.mem_cons, forall_eq_or_imp]
        at sorted positive later
      have asked := rounds.bccResolve laws env sound size begun pid addr later.1 positive.1
      exact ih next asked (by omega) ⟨sorted.2, positive.2⟩ sorted.1
    | clear =>
      rw [List.filterMap_cons] at sorted positive later
      exact ih next ((quiet_clear sc).rounds rounds) begun ⟨sorted, positive⟩ later

/-- A cache of any size keeps its tables: after every sequence of calls the open ones are those that
it stores, one for each process at most and not more than its size, each other one was closed once,
none was asked when it was not open, and the same holds of their native caches; and as long as the
rounds grow, a table is asked for a refresh exactly when it is first asked in a round. -/
theorem tables_kept (laws : lru.Laws) (env : SymtabEnv) {cacheSize : Int}
    (positive : 1 ≤ cacheSize) :
    ∃ start, new lru cacheSize = some start ∧ ∀ actions : List SymbolCacheAction,
      (∀ id, Kept ((start.steps env actions).tableUses id)
        (id ∈ (start.steps env actions).stored)) ∧
      (∀ id, Kept ((start.steps env actions).nativeUses id)
        (id ∈ (start.steps env actions).stored ∧ (start.steps env actions).hasNative id)) ∧
      ((start.steps env actions).stored.length : Int) ≤ cacheSize ∧
      ((lru.entries (start.steps env actions).pid2Cache).map (·.1)).Nodup ∧
      (∀ entry ∈ lru.entries (start.steps env actions).pid2Cache,
        (start.steps env actions).pidOf entry.2 = some entry.1) ∧
      (GrowingRounds actions → ∀ id, RefreshesFirst ((start.steps env actions).resolves id)) := by
  -- Every property is read off the invariant of the run.
  have some_new : (new lru cacheSize).isSome := by
    rw [new, Option.isSome_map]
    exact (laws.new_isSome cacheSize).mpr (by omega)
  obtain ⟨start, made⟩ := Option.isSome_iff_exists.mp some_new
  refine ⟨start, made, fun actions => ?_⟩
  have sound := (sound_new laws made).steps laws env positive actions
  refine ⟨fun id => ?_, fun id => ?_, ?_, sound.keys, sound.owned, fun growing id => ?_⟩
  · apply kept_of_phase (sound.accounts.tables id)
    unfold tablePhase
    split
    · simp [*]
    · split <;> simp [*]
  · apply kept_of_phase (sound.accounts.natives id)
    unfold nativePhase
    split
    · split <;> simp [*]
    · simp [*]
  · rw [stored, List.length_map, ← sound.size]
    exact Int.ofNat_le.mpr sound.within
  · have later : ∀ roundNumber ∈ actions.filterMap SymbolCacheAction.round, 0 ≤ roundNumber :=
      fun roundNumber inside => Int.le_trans (by decide) (growing.2 roundNumber inside)
    obtain ⟨now, rounds⟩ := (rounds_new made).steps laws env positive (sound_new laws made)
      (Int.le_refl 0) growing later
    exact (rounds id).first

/-- A machine that runs no Go programs, and knows no addresses. -/
def emptyMachine : SymtabEnv where
  newGoSymbolTable := fun _ _ => .error "empty .gopclntab"
  symcacheResolve := fun _ _ _ _ => ⟨-1, [], [], [], 0⟩

/-- Two processes in a cache of one table: the second one has the first one's table closed. -/
theorem tables_kept_two :
    ∃ start, new (Lru.list UInt32 Nat) 1 = some start ∧
      let sc := start.steps emptyMachine [.bccResolve 1 4096 10, .bccResolve 2 4096 10]
      (∀ id, Kept (sc.tableUses id) (id ∈ sc.stored)) ∧
      sc.stored = [1] ∧ ∀ id, RefreshesFirst (sc.resolves id) := by
  -- There is room for one table, so the second one closes the first.
  obtain ⟨start, made, kept⟩ :=
    tables_kept (Lru.list_laws UInt32 Nat) emptyMachine (show (1 : Int) ≤ 1 by decide)
  have these := kept [.bccResolve 1 4096 10, .bccResolve 2 4096 10]
  refine ⟨start, made, these.1, ?_, these.2.2.2.2.2 ⟨by decide, by decide⟩⟩
  obtain rfl : ⟨(1, []), [], []⟩ = start := by
    have same : new (Lru.list UInt32 Nat) 1 = some ⟨(1, []), [], []⟩ := rfl
    exact Option.some.inj (same.symm.trans made)
  rfl

end SymbolCache

end Spycat
