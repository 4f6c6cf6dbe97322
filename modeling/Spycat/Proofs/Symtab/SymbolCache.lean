import Spycat.Symtab.SymbolCache

/-! The tables of the cache are open while they are stored, and used only then. -/

namespace Spycat

open Lib

/-- What an event does to the table of an entry. -/
def SymtabEvent.tableUse (id : Nat) : SymtabEvent → Option (Use (Bool × Int))
  | .opened i _ => if i = id then some .opened else none
  | .resolve i _ refresh roundNumber => if i = id then some (.used (refresh, roundNumber)) else none
  | .closed i => if i = id then some .closed else none
  | _ => none

/-- What an event does to the native cache of an entry's table. -/
def SymtabEvent.nativeUse (id : Nat) : SymtabEvent → Option (Use Bool)
  | .symcacheNew i _ => if i = id then some .opened else none
  | .symcacheResolve i _ refresh => if i = id then some (.used refresh) else none
  | .symcacheFree i => if i = id then some .closed else none
  | _ => none

/-- The entry that an event is about. -/
def SymtabEvent.entry : SymtabEvent → Nat
  | .opened id _ | .resolve id _ _ _ | .closed id => id
  | .symcacheNew id _ | .symcacheResolve id _ _ | .symcacheFree id => id

/-- An event does nothing to the table of another entry, nor to its native cache. -/
theorem SymtabEvent.uses_other {event : SymtabEvent} {id : Nat} (other : event.entry ≠ id) :
    event.tableUse id = none ∧ event.nativeUse id = none := by
  -- Every event is about one entry.
  cases event <;> simpa [entry, tableUse, nativeUse] using other

namespace SymbolCache

variable {lru : Lru UInt32 Nat} {sc : SymbolCache lru} {live : List Nat}

/-- What happened to the table of an entry. -/
def tableUses (sc : SymbolCache lru) (id : Nat) : List (Use (Bool × Int)) :=
  sc.log.filterMap (SymtabEvent.tableUse id)

/-- What happened to the native cache of an entry's table. -/
def nativeUses (sc : SymbolCache lru) (id : Nat) : List (Use Bool) :=
  sc.log.filterMap (SymtabEvent.nativeUse id)

/-- Whether the table of an entry has a native cache. -/
def hasNative (sc : SymbolCache lru) (id : Nat) : Bool :=
  (sc.made[id]?.map (·.symbolTable.native)).getD false

/-- The phase of a table: entries that are not live any more are closed. -/
def tablePhase (sc : SymbolCache lru) (live : List Nat) (id : Nat) : Phase :=
  if id ∈ live then .opened else if id < sc.made.length then .closed else .unopened

/-- The phase of a native cache, which is that of the table that has it. -/
def nativePhase (sc : SymbolCache lru) (live : List Nat) (id : Nat) : Phase :=
  if sc.hasNative id then if id ∈ live then .opened else .closed else .unopened

/-- The books of the cache: live entries were made, and everything is in the phase it should be. -/
structure Accounts (sc : SymbolCache lru) (live : List Nat) : Prop where
  made : ∀ id ∈ live, id < sc.made.length
  tables : ∀ id, phase (sc.tableUses id) = some (sc.tablePhase live id)
  natives : ∀ id, phase (sc.nativeUses id) = some (sc.nativePhase live id)

/-- More events are more uses. -/
@[simp]
theorem tableUses_note (sc : SymbolCache lru) (events : List SymtabEvent) (id : Nat) :
    (sc.note events).tableUses id = sc.tableUses id ++ events.filterMap (SymtabEvent.tableUse id) :=
  List.filterMap_append

@[simp]
theorem nativeUses_note (sc : SymbolCache lru) (events : List SymtabEvent) (id : Nat) :
    (sc.note events).nativeUses id =
      sc.nativeUses id ++ events.filterMap (SymtabEvent.nativeUse id) :=
  List.filterMap_append

@[simp]
theorem made_note (sc : SymbolCache lru) (events : List SymtabEvent) :
    (sc.note events).made = sc.made := rfl

@[simp]
theorem pid2Cache_note (sc : SymbolCache lru) (events : List SymtabEvent) :
    (sc.note events).pid2Cache = sc.pid2Cache := rfl

@[simp]
theorem hasNative_note (sc : SymbolCache lru) (events : List SymtabEvent) (id : Nat) :
    (sc.note events).hasNative id = sc.hasNative id := rfl

/-- The phases depend on the entries alone. -/
@[simp]
theorem tablePhase_note (sc : SymbolCache lru) (events : List SymtabEvent) (live : List Nat)
    (id : Nat) : (sc.note events).tablePhase live id = sc.tablePhase live id := rfl

@[simp]
theorem nativePhase_note (sc : SymbolCache lru) (events : List SymtabEvent) (live : List Nat)
    (id : Nat) : (sc.note events).nativePhase live id = sc.nativePhase live id := rfl

/-- Only the entries that are live matter, not their order. -/
theorem Accounts.congr {live' : List Nat} (accounts : Accounts sc live)
    (same : ∀ id, id ∈ live ↔ id ∈ live') : Accounts sc live' := by
  -- The phases only ask which entries live, not in which order.
  obtain ⟨made, tables, natives⟩ := accounts
  refine ⟨fun id inside => made id ((same id).mpr inside), fun id => ?_, fun id => ?_⟩
  · simpa [tablePhase, same id] using tables id
  · simpa [nativePhase, same id] using natives id

/-- The books after more events, which lead every table and native cache to its phase. -/
theorem Accounts.further (accounts : Accounts sc live) {sc' : SymbolCache lru} {live' : List Nat}
    {events : List SymtabEvent} (log : sc'.log = sc.log ++ events)
    (made : ∀ id ∈ live', id < sc'.made.length)
    (tables : ∀ id, run Phase.next (sc.tablePhase live id)
      (events.filterMap (SymtabEvent.tableUse id)) = some (sc'.tablePhase live' id))
    (natives : ∀ id, run Phase.next (sc.nativePhase live id)
      (events.filterMap (SymtabEvent.nativeUse id)) = some (sc'.nativePhase live' id)) :
    Accounts sc' live' := by
  -- The uses of an entry go on where they were, with those of the new events.
  refine ⟨made, fun id => ?_, fun id => ?_⟩
  · rw [tableUses, log, List.filterMap_append, phase_append]
    have before := accounts.tables id
    rw [tableUses] at before
    rw [before, Option.bind_some, tables]
  · rw [nativeUses, log, List.filterMap_append, phase_append]
    have before := accounts.natives id
    rw [nativeUses] at before
    rw [before, Option.bind_some, natives]

/-- The books after events that are about one entry: no other one is in another phase. -/
theorem Accounts.furtherAt (accounts : Accounts sc live) {sc' : SymbolCache lru} {live' : List Nat}
    {events : List SymtabEvent} (log : sc'.log = sc.log ++ events)
    (made : ∀ id ∈ live', id < sc'.made.length) (id : Nat)
    (about : ∀ event ∈ events, event.entry = id)
    (others : ∀ other, id ≠ other → sc'.tablePhase live' other = sc.tablePhase live other ∧
      sc'.nativePhase live' other = sc.nativePhase live other)
    (table : run Phase.next (sc.tablePhase live id)
      (events.filterMap (SymtabEvent.tableUse id)) = some (sc'.tablePhase live' id))
    (native : run Phase.next (sc.nativePhase live id)
      (events.filterMap (SymtabEvent.nativeUse id)) = some (sc'.nativePhase live' id)) :
    Accounts sc' live' := by
  -- Nothing happens to the other entries.
  have silent : ∀ other, id ≠ other → ∀ event ∈ events,
      event.tableUse other = none ∧ event.nativeUse other = none :=
    fun other apart event inside => SymtabEvent.uses_other ((about event inside).symm ▸ apart)
  refine accounts.further log made ?_ ?_
  · intro other
    by_cases same : id = other
    · exact same ▸ table
    · rw [List.filterMap_eq_nil_iff.mpr fun event inside => (silent other same event inside).1,
        (others other same).1]
      rfl
  · intro other
    by_cases same : id = other
    · exact same ▸ native
    · rw [List.filterMap_eq_nil_iff.mpr fun event inside => (silent other same event inside).2,
        (others other same).2]
      rfl

/-- The package's own state is not in the books. -/
theorem Accounts.withCache (accounts : Accounts sc live) (pid2Cache : lru.State) :
    Accounts { sc with pid2Cache := pid2Cache } live :=
  -- The accounts do not look at the cache of the package.
  ⟨accounts.made, accounts.tables, accounts.natives⟩

/-- There is no native cache for an entry that was not made. -/
theorem hasNative_of_length_le {id : Nat} (outside : sc.made.length ≤ id) :
    sc.hasNative id = false := by
  -- There is no such entry.
  rw [hasNative, List.getElem?_eq_none outside]
  rfl

/-- The entries with a new one. -/
theorem made_newEntry (env : SymtabEnv) (sc : SymbolCache lru) (pid : UInt32) :
    (newEntry env sc pid).made =
      sc.made ++ [{ symbolTable := sc.newSymbolTable env pid, roundNumber := 0 }] :=
  rfl

/-- A new entry is live, and its table is open. -/
theorem Accounts.newEntry (env : SymtabEnv) (accounts : Accounts sc live) (pid : UInt32) :
    Accounts (newEntry env sc pid) (sc.made.length :: live) := by
  have fresh : sc.made.length ∉ live := fun inside => absurd (accounts.made _ inside) (by omega)
  have longer : (SymbolCache.newEntry env sc pid).made.length = sc.made.length + 1 := by
    simp [made_newEntry]
  refine accounts.furtherAt rfl ?_ sc.made.length ?_ ?_ ?_ ?_
  · intro id inside
    rcases List.mem_cons.mp inside with rfl | inside
    · omega
    · have before := accounts.made id inside
      omega
  · cases (sc.newSymbolTable env pid).native <;> simp [SymtabEvent.entry]
  · intro other apart
    have made : (other < sc.made.length + 1) = (other < sc.made.length) := by
      rw [eq_iff_iff]
      omega
    have has : (SymbolCache.newEntry env sc pid).hasNative other = sc.hasNative other := by
      by_cases inside : other < sc.made.length
      · simp [hasNative, made_newEntry, List.getElem?_append_left inside]
      · rw [hasNative_of_length_le (by omega), hasNative_of_length_le (by omega)]
    simp [tablePhase, nativePhase, longer, made, has, Ne.symm apart]
  · -- The table of the new entry is opened.
    cases (sc.newSymbolTable env pid).native <;>
      simp [tablePhase, fresh, SymtabEvent.tableUse, Phase.next, List.filterMap_cons]
  · -- A native table opens its cache, and a Go table has none so far.
    have had : sc.hasNative sc.made.length = false := hasNative_of_length_le (Nat.le_refl _)
    have has : (SymbolCache.newEntry env sc pid).hasNative sc.made.length =
        (sc.newSymbolTable env pid).native := by
      simp [hasNative, made_newEntry]
    cases native : (sc.newSymbolTable env pid).native <;>
      simp [nativePhase, had, has, native, SymtabEvent.nativeUse, Phase.next, List.filterMap_cons]

/-- What closing an entry does. -/
theorem close_eq {id : Nat} (inside : id < sc.made.length) :
    sc.close id =
      sc.note (.closed id :: if sc.hasNative id then [.symcacheFree id] else []) := by
  -- There is an entry to be closed, and it has a cache of its own or not.
  simp [SymbolCache.close, hasNative, List.getElem?_eq_getElem inside]

/-- An entry is closed once, and is not live any more. -/
theorem Accounts.close (accounts : Accounts sc live) {id : Nat} (inside : id ∈ live) :
    Accounts (sc.close id) (live.filter (· ≠ id)) := by
  -- Only the entry that is closed goes on: it is closed once, and its cache freed once.
  have made := accounts.made id inside
  rw [close_eq made]
  refine accounts.furtherAt rfl ?_ id ?_ ?_ ?_ ?_
  · intro other others
    exact accounts.made other (List.mem_of_mem_filter others)
  · cases sc.hasNative id <;> simp [SymtabEvent.entry]
  · intro other apart
    rw [tablePhase_note, nativePhase_note]
    simp [tablePhase, nativePhase, Ne.symm apart]
  · cases sc.hasNative id <;>
      simp [tablePhase, inside, made, SymtabEvent.tableUse, Phase.next, List.filterMap_cons]
  · cases native : sc.hasNative id <;>
      simp [nativePhase, inside, native, SymtabEvent.nativeUse, Phase.next, List.filterMap_cons]

/-- Closing keeps the entries. -/
@[simp]
theorem made_close (sc : SymbolCache lru) (id : Nat) : (sc.close id).made = sc.made := by
  -- Closing is only noted.
  unfold SymbolCache.close
  cases sc.made[id]? <;> rfl

@[simp]
theorem pid2Cache_close (sc : SymbolCache lru) (id : Nat) :
    (sc.close id).pid2Cache = sc.pid2Cache := by
  -- Closing is only noted.
  unfold SymbolCache.close
  cases sc.made[id]? <;> rfl

/-- All evicted entries are closed, and none of them is live any more. -/
theorem Accounts.evict (accounts : Accounts sc live) (entries : List (UInt32 × Nat))
    (distinct : (entries.map (·.2)).Nodup) (inside : ∀ entry ∈ entries, entry.2 ∈ live) :
    Accounts (sc.evict entries) (live.filter (· ∉ entries.map (·.2))) ∧
      (sc.evict entries).made = sc.made ∧ (sc.evict entries).pid2Cache = sc.pid2Cache := by
  -- They are closed one after the other, each while it is live.
  induction entries generalizing sc live with
  | nil => exact ⟨accounts.congr fun id => by simp, rfl, rfl⟩
  | cons entry entries ih =>
    rw [List.map_cons, List.nodup_cons] at distinct
    obtain ⟨closed, made, kept⟩ := ih (accounts.close (inside entry List.mem_cons_self)) distinct.2
      (fun other later => by
        have different : other.2 ≠ entry.2 := fun same =>
          distinct.1 (same ▸ List.mem_map_of_mem later)
        simpa [different] using inside other (List.mem_cons_of_mem _ later))
    refine ⟨closed.congr fun id => ?_, made.trans (made_close sc entry.2),
      kept.trans (pid2Cache_close sc entry.2)⟩
    simp only [List.mem_filter, List.map_cons, List.mem_cons, decide_eq_true_eq, not_or]
    constructor
    · intro both
      exact ⟨both.1.1, both.1.2, both.2⟩
    · intro all
      exact ⟨⟨all.1, all.2.1⟩, all.2.2⟩

/-- An entry that is changed is the only one. -/
theorem hasNative_setEntry {id : Nat} (made : id < sc.made.length) (e : SymbolCacheEntry)
    (other : Nat) :
    (sc.setEntry id e).hasNative other =
      if id = other then e.symbolTable.native else sc.hasNative other := by
  -- One entry is replaced, and the others stay.
  by_cases same : id = other
  · subst same
    simp [hasNative, setEntry, made]
  · simp [hasNative, setEntry, same]

/-- A change that keeps the native cache is not in the books. -/
theorem Accounts.setEntry (accounts : Accounts sc live) {id : Nat} (made : id < sc.made.length)
    {e : SymbolCacheEntry} (same : e.symbolTable.native = sc.hasNative id) :
    Accounts (sc.setEntry id e) live := by
  -- The new entry has a cache exactly where the old one had, so all phases stay.
  have has : ∀ other, (sc.setEntry id e).hasNative other = sc.hasNative other := by
    intro other
    rw [hasNative_setEntry made]
    split
    · next is => rw [same, is]
    · rfl
  have long : (sc.setEntry id e).made.length = sc.made.length := List.length_set
  refine accounts.further (List.append_nil _).symm ?_ ?_ ?_
  · intro other inside
    rw [long]
    exact accounts.made other inside
  · intro other
    simp [tablePhase, long]
  · intro other
    simp [nativePhase, has]

/-- The table of a live entry can be asked. -/
theorem Accounts.resolve (accounts : Accounts sc live) {id : Nat} (inside : id ∈ live)
    (addr : UInt64) (refresh : Bool) (roundNumber : Int) :
    Accounts (sc.note [.resolve id addr refresh roundNumber]) live := by
  -- A table that lives may be asked.
  refine accounts.furtherAt rfl accounts.made id ?_ (fun _ _ => ⟨rfl, rfl⟩) ?_ rfl
  · simp [SymtabEvent.entry]
  · simp [tablePhase, inside, SymtabEvent.tableUse, Phase.next]

/-- The native cache of a live entry can be asked. -/
theorem Accounts.symcacheResolve (accounts : Accounts sc live) {id : Nat} (inside : id ∈ live)
    (native : sc.hasNative id = true) (addr : UInt64) (refresh : Bool) :
    Accounts (sc.note [.symcacheResolve id addr refresh]) live := by
  -- A cache that was made and not yet freed may be asked.
  refine accounts.furtherAt rfl accounts.made id ?_ (fun _ _ => ⟨rfl, rfl⟩) rfl ?_
  · simp [SymtabEvent.entry]
  · simp [nativePhase, inside, native, SymtabEvent.nativeUse, Phase.next]

/-- A live entry can be given a native cache if it has none. -/
theorem Accounts.symcacheNew (accounts : Accounts sc live) {id : Nat} (inside : id ∈ live)
    (none_yet : sc.hasNative id = false) {e : SymbolCacheEntry}
    (native : e.symbolTable.native = true) (pid : UInt32) :
    Accounts ((sc.setEntry id e).note [.symcacheNew id pid]) live := by
  -- The entry had no cache before, so this is its first one.
  have made := accounts.made id inside
  have has := hasNative_setEntry made e
  have long : (sc.setEntry id e).made.length = sc.made.length := List.length_set
  refine accounts.furtherAt rfl ?_ id ?_ ?_ ?_ ?_
  · intro other inside
    rw [made_note, long]
    exact accounts.made other inside
  · simp [SymtabEvent.entry]
  · intro other apart
    simp [tablePhase, nativePhase, long, has, apart]
  · simp [tablePhase, long, SymtabEvent.tableUse, List.filterMap_cons]
  · simp [nativePhase, inside, has, native, none_yet, SymtabEvent.nativeUse, Phase.next]

/-- Asking a table keeps the books, whichever way it finds the symbol. -/
theorem Accounts.resolveTable (env : SymtabEnv) (accounts : Accounts sc live) {id : Nat}
    (inside : id ∈ live) {e : SymbolCacheEntry} (entry : sc.made[id]? = some e) (addr : UInt64)
    (refresh : Bool) : Accounts (SymbolCache.resolve env sc id e addr refresh).1 live := by
  have native : sc.hasNative id = e.symbolTable.native := by
    rw [hasNative, entry]
    rfl
  unfold SymbolCache.resolve
  cases table : e.symbolTable with
  | bcc pid => exact accounts.symcacheResolve inside (by rw [native, table]; rfl) addr refresh
  | go tab pid fallbackTable =>
    simp only
    split
    · exact accounts
    · split
      · next has =>
        exact accounts.symcacheResolve inside (by rw [native, table]; exact has) addr refresh
      · next none_yet =>
        -- The native cache is made first.
        have none_yet' : sc.hasNative id = false := by
          rw [native, table]
          simpa [SymbolTable.native] using none_yet
        have opened := accounts.symcacheNew inside none_yet'
          (e := { e with symbolTable := .go tab pid true }) rfl pid
        refine opened.symcacheResolve inside ?_ addr refresh
        rw [hasNative_note, hasNative_setEntry (accounts.made id inside), if_pos rfl]
        rfl

end SymbolCache

end Spycat
