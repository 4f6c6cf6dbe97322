import Spycat.Proofs.Symtab.SymbolCache

/-! What holds of the cache after every sequence of calls. -/

namespace Spycat

open Lib

namespace SymbolCache

variable {lru : Lru UInt32 Nat} {sc : SymbolCache lru} {cacheSize : Int}

/-- The tables that are stored in the cache. -/
def stored (sc : SymbolCache lru) : List Nat := (lru.entries sc.pid2Cache).map (·.2)

/-- The process of an entry. -/
def pidOf (sc : SymbolCache lru) (id : Nat) : Option UInt32 :=
  sc.made[id]?.map (·.symbolTable.pid)

/-- What holds between the calls: the stored tables are the live ones, there is one for each process
at most, and it is of that process, and there are not more of them than the size. -/
structure Sound (sc : SymbolCache lru) (cacheSize : Int) : Prop where
  accounts : sc.Accounts sc.stored
  keys : ((lru.entries sc.pid2Cache).map (·.1)).Nodup
  owned : ∀ entry ∈ lru.entries sc.pid2Cache, sc.pidOf entry.2 = some entry.1
  size : (lru.size sc.pid2Cache : Int) = cacheSize
  within : (lru.entries sc.pid2Cache).length ≤ lru.size sc.pid2Cache

/-- No table is stored twice, as it would be for one process. -/
theorem stored_nodup (keys : ((lru.entries sc.pid2Cache).map (·.1)).Nodup)
    (owned : ∀ entry ∈ lru.entries sc.pid2Cache, sc.pidOf entry.2 = some entry.1) :
    sc.stored.Nodup := by
  -- Two keys of one entry would be the process of the same table.
  apply List.Nodup.of_map sc.pidOf
  have pids : sc.stored.map sc.pidOf = ((lru.entries sc.pid2Cache).map (·.1)).map some := by
    rw [stored, List.map_map, List.map_map]
    exact List.map_congr_left owned
  rw [pids]
  exact keys.map (Option.some_injective _)

/-- Of distinct elements, those of one part are the ones that are not of the other part. -/
theorem mem_part_iff {α : Type} {whole part other : List α} (parts : (part ++ other).Perm whole)
    (distinct : whole.Nodup) (x : α) : x ∈ part ↔ x ∈ whole ∧ x ∉ other := by
  -- No member is in both parts, as the whole has none twice.
  have apart := (List.nodup_append.mp (parts.nodup_iff.mpr distinct)).2.2
  rw [← parts.mem_iff, List.mem_append]
  constructor
  · intro inside
    exact ⟨.inl inside, fun outside => apart x inside x outside rfl⟩
  · intro both
    exact both.1.resolve_right both.2

/-- The package gives up some entries, which are closed, and keeps the others, which stay live. -/
theorem Accounts.giveUp {live : List Nat} (accounts : sc.Accounts live) (distinct : live.Nodup)
    (pid2Cache : lru.State) {evicted : List (UInt32 × Nat)}
    (parts : ((lru.entries pid2Cache).map (·.2) ++ evicted.map (·.2)).Perm live) :
    ∃ sc' : SymbolCache lru, sc' = { sc with pid2Cache := pid2Cache }.evict evicted ∧
      sc'.Accounts sc'.stored ∧ sc'.made = sc.made ∧ sc'.pid2Cache = pid2Cache := by
  -- What is given up is closed, each once, and the rest is what is stored now.
  have split := List.nodup_append.mp (parts.nodup_iff.mpr distinct)
  obtain ⟨closed, made, kept⟩ := (accounts.withCache pid2Cache).evict evicted split.2.1
    (fun entry inside => parts.mem_iff.mp
      (List.mem_append_right _ (List.mem_map_of_mem inside)))
  refine ⟨_, rfl, closed.congr fun id => ?_, made, kept⟩
  rw [stored, kept, mem_part_iff parts distinct, List.mem_filter, decide_eq_true_iff]

/-- What does not change when a table is asked. -/
structure Frame (sc sc' : SymbolCache lru) : Prop where
  pid2Cache : sc'.pid2Cache = sc.pid2Cache
  pidOf : ∀ id, sc'.pidOf id = sc.pidOf id

/-- A cache whose entries stay the same stays sound if its books are kept. -/
theorem Sound.frame (sound : Sound sc cacheSize) {sc' : SymbolCache lru} (frame : Frame sc sc')
    (accounts : sc'.Accounts sc.stored) : Sound sc' cacheSize := by
  -- What is stored, and for which processes, is as before.
  have same : sc'.stored = sc.stored := by rw [stored, frame.pid2Cache, stored]
  refine ⟨same ▸ accounts, ?_, ?_, ?_, ?_⟩
  · rw [frame.pid2Cache]
    exact sound.keys
  · intro entry inside
    rw [frame.pid2Cache] at inside
    rw [frame.pidOf]
    exact sound.owned entry inside
  · rw [frame.pid2Cache]
    exact sound.size
  · rw [frame.pid2Cache]
    exact sound.within

/-- A changed entry of the same process is none of the things that the cache depends on. -/
theorem frame_setEntry {id : Nat} {e : SymbolCacheEntry} (entry : sc.made[id]? = some e)
    (e' : SymbolCacheEntry) (same : e'.symbolTable.pid = e.symbolTable.pid) :
    Frame sc (sc.setEntry id e') := by
  -- One entry is replaced by one for the same process.
  refine ⟨rfl, fun other => ?_⟩
  obtain ⟨inside, rfl⟩ := List.getElem?_eq_some_iff.mp entry
  by_cases is : id = other
  · subst is
    simp [pidOf, setEntry, inside, same]
  · simp [pidOf, setEntry, is]

/-- Two frames in a row. -/
theorem Frame.trans {first second third : SymbolCache lru} (front : Frame first second)
    (back : Frame second third) : Frame first third :=
  -- What is the same twice is the same.
  ⟨back.pid2Cache.trans front.pid2Cache, fun id => (back.pidOf id).trans (front.pidOf id)⟩

/-- More events are none of the things that the cache depends on. -/
theorem frame_note (sc : SymbolCache lru) (events : List SymtabEvent) : Frame sc (sc.note events) :=
  -- Noting an event changes no entry.
  ⟨rfl, fun _ => rfl⟩

/-- Asking a table keeps the entries of the cache and their processes. -/
theorem frame_resolve (env : SymtabEnv) {id : Nat} {e : SymbolCacheEntry}
    (entry : sc.made[id]? = some e) (addr : UInt64) (refresh : Bool) :
    Frame sc (SymbolCache.resolve env sc id e addr refresh).1 := by
  -- At most the flag of an entry is set, and what was asked is noted.
  unfold SymbolCache.resolve
  cases table : e.symbolTable with
  | bcc pid => exact frame_note sc _
  | go tab pid fallbackTable =>
    simp only
    split
    · exact ⟨rfl, fun _ => rfl⟩
    · split
      · exact frame_note sc _
      · have changed := frame_setEntry entry { e with symbolTable := .go tab pid true }
          (by rw [table]; rfl)
        exact (changed.trans (frame_note _ _)).trans (frame_note _ _)

/-- The new cache is sound. -/
theorem sound_new (laws : lru.Laws) {start : SymbolCache lru}
    (made : new lru cacheSize = some start) : Sound start cacheSize := by
  -- A new cache has no entry.
  obtain ⟨pid2Cache, opened, rfl⟩ := Option.map_eq_some_iff.mp made
  obtain ⟨empty, size⟩ := laws.new_entries opened
  refine ⟨⟨?_, fun id => ?_, fun id => ?_⟩, ?_, ?_, size, ?_⟩ <;>
    simp [stored, empty, tableUses, nativeUses, tablePhase, nativePhase, hasNative, phase]

/-- The order of the entries does not matter. -/
theorem Sound.reorder (sound : Sound sc cacheSize) {pid2Cache : lru.State}
    (moved : (lru.entries pid2Cache).Perm (lru.entries sc.pid2Cache))
    (size : lru.size pid2Cache = lru.size sc.pid2Cache) :
    Sound { sc with pid2Cache := pid2Cache } cacheSize := by
  -- Only the order of the entries changes.
  have same : ∀ id, id ∈ sc.stored ↔
      id ∈ ({ sc with pid2Cache := pid2Cache } : SymbolCache lru).stored := fun id =>
    (moved.map (·.2)).mem_iff.symm
  refine ⟨(sound.accounts.congr same).withCache pid2Cache, ?_, ?_, ?_, ?_⟩
  · exact (moved.map (·.1)).nodup_iff.mpr sound.keys
  · intro entry inside
    exact sound.owned entry (moved.mem_iff.mp inside)
  · exact (congrArg Nat.cast size).trans sound.size
  · show (lru.entries pid2Cache).length ≤ lru.size pid2Cache
    rw [moved.length_eq, size]
    exact sound.within

/-- A process with an entry. -/
theorem getOrCreateCacheEntry_found (env : SymtabEnv) {pid : UInt32} {id : Nat}
    (found : (lru.get sc.pid2Cache pid).2 = some id) :
    sc.getOrCreateCacheEntry env pid =
      ({ sc with pid2Cache := (lru.get sc.pid2Cache pid).1 }, id) := by
  -- Looking an entry up may move it, and nothing else happens.
  have got : lru.get sc.pid2Cache pid = ((lru.get sc.pid2Cache pid).1, some id) :=
    Prod.ext rfl found
  rw [SymbolCache.getOrCreateCacheEntry, got]

/-- A process without an entry, for which one is made and added. -/
theorem getOrCreateCacheEntry_missing (env : SymtabEnv) {pid : UInt32}
    (missing : (lru.get sc.pid2Cache pid).2 = none) :
    sc.getOrCreateCacheEntry env pid =
      (SymbolCache.evict
        { newEntry env { sc with pid2Cache := (lru.get sc.pid2Cache pid).1 } pid with
          pid2Cache := (lru.add (lru.get sc.pid2Cache pid).1 pid sc.made.length).1 }
        (lru.add (lru.get sc.pid2Cache pid).1 pid sc.made.length).2, sc.made.length) := by
  -- The new entry gets the next number, and pushes out the oldest if there is no room.
  have got : lru.get sc.pid2Cache pid = ((lru.get sc.pid2Cache pid).1, none) :=
    Prod.ext rfl missing
  rw [SymbolCache.getOrCreateCacheEntry, got]
  rfl

/-- The process of an entry that was made before is the same. -/
theorem pidOf_newEntry (env : SymtabEnv) (sc : SymbolCache lru) (pid : UInt32) (id : Nat) :
    (newEntry env sc pid).pidOf id = if id = sc.made.length then some pid else sc.pidOf id := by
  -- The new entry is the last one that was made.
  have of_pid : (sc.newSymbolTable env pid).pid = pid := by
    unfold newSymbolTable
    cases env.newGoSymbolTable sc.log pid <;> rfl
  by_cases new : id = sc.made.length
  · subst new
    simp [pidOf, made_newEntry, of_pid]
  · rw [if_neg new, pidOf, made_newEntry, pidOf, List.getElem?_append]
    split
    · rfl
    · rw [List.getElem?_eq_none (by simp; omega), List.getElem?_eq_none (by omega)]

/-- The entry that is found or made for a process: it is stored, and the cache is sound. -/
theorem Sound.getOrCreateCacheEntry (laws : lru.Laws) (env : SymtabEnv) (sound : Sound sc cacheSize)
    (positive : 1 ≤ cacheSize) (pid : UInt32) :
    Sound (sc.getOrCreateCacheEntry env pid).1 cacheSize ∧
      (sc.getOrCreateCacheEntry env pid).2 ∈ (sc.getOrCreateCacheEntry env pid).1.stored := by
  have moved : (lru.entries (lru.get sc.pid2Cache pid).1).Perm (lru.entries sc.pid2Cache) := by
    rw [laws.get_entries]
    exact Lru.touch_perm pid _
  have touched := sound.reorder moved (laws.get_size sc.pid2Cache pid)
  cases found : (lru.get sc.pid2Cache pid).2 with
  | some id =>
    rw [getOrCreateCacheEntry_found env found]
    exact ⟨touched, (moved.map (·.2)).mem_iff.mpr (List.mem_map_of_mem (laws.mem_of_get found))⟩
  | none =>
    have absent := laws.absent_of_get found
    rw [getOrCreateCacheEntry_missing env found]
    generalize (lru.get sc.pid2Cache pid).1 = touchedCache at touched absent moved
    -- The new table is live along with the stored ones, and the package keeps some of them.
    have entries := laws.add_entries touchedCache pid sc.made.length absent
    have evicted := laws.add_evicted touchedCache pid sc.made.length absent
    have size := laws.add_size touchedCache pid sc.made.length
    have created := touched.accounts.newEntry env pid
    have fresh : sc.made.length ∉
        ({ sc with pid2Cache := touchedCache } : SymbolCache lru).stored :=
      fun inside => absurd (touched.accounts.made _ inside) (Nat.lt_irrefl _)
    have distinct := List.nodup_cons.mpr ⟨fresh, stored_nodup touched.keys touched.owned⟩
    have parts : ((lru.entries (lru.add touchedCache pid sc.made.length).1).map (·.2) ++
        (lru.add touchedCache pid sc.made.length).2.map (·.2)).Perm
          (sc.made.length :: ({ sc with pid2Cache := touchedCache } : SymbolCache lru).stored) := by
      rw [entries, evicted, ← List.map_append, List.take_append_drop]
      exact .refl _
    obtain ⟨sc', is, accounts, made, kept⟩ := created.giveUp distinct _ parts
    rw [← is]
    have one : 1 ≤ lru.size touchedCache := by
      have cast : (lru.size touchedCache : Int) = cacheSize := touched.size
      omega
    have of_pid : ∀ id, sc'.pidOf id =
        if id = sc.made.length then some pid else sc.pidOf id := by
      intro id
      rw [pidOf, made]
      exact pidOf_newEntry env { sc with pid2Cache := touchedCache } pid id
    refine ⟨⟨accounts, ?_, ?_, ?_, ?_⟩, ?_⟩
    · rw [kept, entries]
      have all : (((pid, sc.made.length) :: lru.entries touchedCache).map (·.1)).Nodup := by
        rw [List.map_cons, List.nodup_cons]
        refine ⟨fun inside => ?_, touched.keys⟩
        obtain ⟨entry, member, same⟩ := List.mem_map.mp inside
        exact absent entry member same
      exact all.sublist ((List.take_sublist _ _).map _)
    · intro entry inside
      rw [kept, entries] at inside
      rw [of_pid]
      rcases List.mem_cons.mp (List.mem_of_mem_take inside) with rfl | member
      · rw [if_pos rfl]
      · have before : entry.2 ≠ sc.made.length := fun same =>
          fresh (same ▸ List.mem_map_of_mem member)
        rw [if_neg before]
        exact touched.owned entry member
    · rw [kept, size]
      exact touched.size
    · rw [kept, entries, size]
      exact List.length_take_le _ _
    · rw [stored, kept, entries]
      obtain ⟨n, count⟩ := Nat.exists_eq_add_of_le' one
      rw [count, List.take_succ_cons]
      exact List.mem_cons_self

/-- What asking for an address comes to, once the entry of the process is there. -/
theorem bccResolve_eq (env : SymtabEnv) {pid : UInt32} {sc' : SymbolCache lru} {id : Nat}
    (got : sc.getOrCreateCacheEntry env pid = (sc', id)) {e : SymbolCacheEntry}
    (entry : sc'.made[id]? = some e) (addr : UInt64) (roundNumber : Int) :
    sc.bccResolve env pid addr roundNumber =
      SymbolCache.resolve env
        ((sc'.setEntry id { e with roundNumber := roundNumber }).note
          [.resolve id addr (roundNumber ≠ e.roundNumber) roundNumber]) id
        { e with roundNumber := roundNumber } addr (roundNumber ≠ e.roundNumber) := by
  -- The entry takes over the round number before its table is asked.
  rw [bccResolve, got]
  simp only [entry]

/-- The entry that was changed, where it was. -/
theorem getElem?_setEntry {id : Nat} {e : SymbolCacheEntry} (entry : sc.made[id]? = some e)
    (e' : SymbolCacheEntry) : (sc.setEntry id e').made[id]? = some e' := by
  -- There is an entry to be replaced.
  obtain ⟨inside, -⟩ := List.getElem?_eq_some_iff.mp entry
  simp [setEntry, inside]

/-- Every stored table has its entry. -/
theorem Sound.entry (sound : Sound sc cacheSize) {id : Nat} (inside : id ∈ sc.stored) :
    ∃ e, sc.made[id]? = some e :=
  -- What is stored was made.
  ⟨_, List.getElem?_eq_getElem (sound.accounts.made id inside)⟩

/-- The cache stays sound when an address is asked for. -/
theorem Sound.bccResolve (laws : lru.Laws) (env : SymtabEnv) (sound : Sound sc cacheSize)
    (positive : 1 ≤ cacheSize) (pid : UInt32) (addr : UInt64) (roundNumber : Int) :
    Sound (sc.bccResolve env pid addr roundNumber).1 cacheSize := by
  obtain ⟨found, inside⟩ := sound.getOrCreateCacheEntry laws env positive pid
  cases got : sc.getOrCreateCacheEntry env pid with
  | mk sc' id =>
    rw [got] at found inside
    obtain ⟨e, entry⟩ := found.entry inside
    rw [bccResolve_eq env got entry]
    -- The round is set and the table is asked, which keeps the native cache of the entry.
    have native : e.symbolTable.native = sc'.hasNative id := by
      rw [hasNative, entry]
      rfl
    have changed := found.frame (frame_setEntry entry { e with roundNumber := roundNumber } rfl)
      (found.accounts.setEntry (found.accounts.made id inside) native)
    have asked := changed.frame
      (frame_note _ [.resolve id addr (roundNumber ≠ e.roundNumber) roundNumber])
      (changed.accounts.resolve inside addr _ roundNumber)
    have now : ((sc'.setEntry id { e with roundNumber := roundNumber }).note
        [.resolve id addr (roundNumber ≠ e.roundNumber) roundNumber]).made[id]? =
          some { e with roundNumber := roundNumber } := getElem?_setEntry entry _
    exact asked.frame (frame_resolve env now addr _)
      (asked.accounts.resolveTable env inside now addr _)

/-- The cache stays sound when the entry of a process is removed. -/
theorem Sound.remove (laws : lru.Laws) (sound : Sound sc cacheSize) (pid : UInt32) :
    Sound (sc.remove pid) cacheSize := by
  -- The entries that stay and those that are removed are all that were stored.
  have entries := laws.remove_entries sc.pid2Cache pid
  have removed := laws.remove_removed sc.pid2Cache pid
  have parts : ((lru.entries (lru.remove sc.pid2Cache pid).1).map (·.2) ++
      (lru.remove sc.pid2Cache pid).2.map (·.2)).Perm sc.stored := by
    rw [entries, removed, ← List.map_append]
    refine List.Perm.map _ (List.perm_append_comm.trans ?_)
    simpa using List.filter_append_perm (fun entry : UInt32 × Nat => decide (entry.1 = pid)) _
  obtain ⟨sc', is, accounts, made, kept⟩ :=
    sound.accounts.giveUp (stored_nodup sound.keys sound.owned) _ parts
  have fewer : (lru.entries sc'.pid2Cache).Sublist (lru.entries sc.pid2Cache) := by
    rw [kept, entries]
    exact List.filter_sublist
  have result : sc.remove pid = sc' := is.symm
  rw [result]
  refine ⟨accounts, (sound.keys.sublist (fewer.map _)), ?_, ?_, ?_⟩
  · intro entry inside
    rw [pidOf, made]
    exact sound.owned entry (fewer.subset inside)
  · rw [kept, laws.remove_size]
    exact sound.size
  · rw [kept, laws.remove_size, ← kept]
    exact Nat.le_trans fewer.length_le sound.within

/-- The cache stays sound when it is cleared. -/
theorem Sound.clear (laws : lru.Laws) (sound : Sound sc cacheSize) : Sound sc.clear cacheSize := by
  unfold SymbolCache.clear
  -- The entries are removed one after the other.
  generalize lru.keys sc.pid2Cache = pids
  induction pids generalizing sc with
  | nil => exact sound
  | cons pid pids ih => exact ih (sound.remove laws pid)

/-- The cache stays sound in every call. -/
theorem Sound.step (laws : lru.Laws) (env : SymtabEnv) (positive : 1 ≤ cacheSize)
    (sound : Sound sc cacheSize) (action : SymbolCacheAction) :
    Sound (sc.step env action) cacheSize := by
  -- There are two kinds of steps.
  cases action with
  | bccResolve pid addr roundNumber => exact sound.bccResolve laws env positive pid addr roundNumber
  | clear => exact sound.clear laws

/-- The cache is sound after every sequence of calls. -/
theorem Sound.steps (laws : lru.Laws) (env : SymtabEnv) (positive : 1 ≤ cacheSize)
    (sound : Sound sc cacheSize) (actions : List SymbolCacheAction) :
    Sound (sc.steps env actions) cacheSize := by
  -- The induction follows the steps.
  unfold SymbolCache.steps
  induction actions generalizing sc with
  | nil => exact sound
  | cons action actions ih => exact ih (sound.step laws env positive action)

end SymbolCache

end Spycat
