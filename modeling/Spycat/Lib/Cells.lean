import Mathlib.Data.List.GetD
import Mathlib.Logic.Function.Basic
import Spycat.Lib.Assoc

/-! Maps whose values are cells that several maps may share, and what each write does to them. -/

namespace Spycat.Lib

/-- Maps by name, with the number of a cell under each key. -/
structure CellMaps (ι κ ν : Type) where
  cells : List ν
  maps : ι → Assoc κ Nat

/-- The last value under a key is an entry under this key. -/
theorem Assoc.mem_of_lastValue {κ ν : Type} [DecidableEq κ] {key : κ} {value : ν}
    {entries : List (κ × ν)} (found : lastValue key entries = some value) :
    (key, value) ∈ entries := by
  -- The value is that of a later entry, or of this one where no later one is under the key.
  induction entries with
  | nil => cases found
  | cons entry rest ih =>
    rw [lastValue] at found
    rcases Option.or_eq_some_iff.mp found with later | ⟨_, here⟩
    · exact List.mem_cons_of_mem entry (ih later)
    · split at here
      · rename_i named
        cases here
        exact List.mem_cons.mpr (.inl (by rw [← named]))
      · cases here

namespace CellMaps

variable {ι κ ν : Type} [DecidableEq ι] [DecidableEq κ]

/-- Maps without a key. -/
def empty : CellMaps ι κ ν where
  cells := []
  maps _ := ∅

/-- What a map holds under a key. -/
def value (store : CellMaps ι κ ν) (map : ι) (key : κ) : Option ν :=
  ((store.maps map).lookup key).bind fun cell => store.cells[cell]?

/-- Put a value under a key, in a new cell. -/
def put (store : CellMaps ι κ ν) (map : ι) (key : κ) (value : ν) : CellMaps ι κ ν where
  cells := store.cells ++ [value]
  maps := Function.update store.maps map ((store.maps map).insert key store.cells.length)

/-- Write to a cell, for all maps that have it. -/
def write (store : CellMaps ι κ ν) (cell : Nat) (value : ν) : CellMaps ι κ ν :=
  { store with cells := store.cells.set cell value }

/-- Take a key out of a map. -/
def remove (store : CellMaps ι κ ν) (map : ι) (key : κ) : CellMaps ι κ ν :=
  { store with maps := Function.update store.maps map ((store.maps map).erase key) }

/-- Start a map anew. -/
def clear (store : CellMaps ι κ ν) (map : ι) : CellMaps ι κ ν :=
  { store with maps := Function.update store.maps map ∅ }

/-- Put the cells of another map under its keys, which shares them. -/
def adopt (store : CellMaps ι κ ν) (order : RangeOrder κ) (map other : ι) : CellMaps ι κ ν :=
  { store with
    maps := Function.update store.maps map
      ((store.maps map).insertAll ((store.maps other).range order)) }

/-- Change every cell of a map. -/
def change (store : CellMaps ι κ ν) (order : RangeOrder κ) (map : ι) (image : ν → ν) :
    CellMaps ι κ ν :=
  { store with
    cells := ((store.maps map).range order).foldl
      (fun cells entry => cells.modify entry.2 image) store.cells }

/-- One turn of the loop that copies a map. -/
def copyEntry (target : ι) (store : CellMaps ι κ ν) (entry : κ × Nat) : CellMaps ι κ ν :=
  match store.cells[entry.2]? with
  | some value => store.put target entry.1 value
  | none => store

/-- Start a map anew with the values of a map, each in a new cell. -/
def copy (store : CellMaps ι κ ν) (order : RangeOrder κ) (map target : ι) : CellMaps ι κ ν :=
  ((store.maps map).range order).foldl (copyEntry target) (store.clear target)

/-- Every cell of a map is one of those there are. -/
def Bounded (store : CellMaps ι κ ν) : Prop :=
  ∀ map key cell, (store.maps map).lookup key = some cell → cell < store.cells.length

/-- A cell is in one map only. -/
def Own (store : CellMaps ι κ ν) (map : ι) (cell : Nat) : Prop :=
  ∀ other key, (store.maps other).lookup key = some cell → other = map

/-- A cell is under one key only. -/
def Keyed (store : CellMaps ι κ ν) : Prop :=
  ∀ map key other key' cell, (store.maps map).lookup key = some cell →
    (store.maps other).lookup key' = some cell → key = key'

/-- Every cell of a map is there, under one key. -/
structure Sound (store : CellMaps ι κ ν) : Prop where
  bounded : store.Bounded
  keyed : store.Keyed

/-- No two maps share a cell. -/
def Apart (store : CellMaps ι κ ν) : Prop :=
  ∀ map key cell, (store.maps map).lookup key = some cell → store.Own map cell

section Lookups

variable (store : CellMaps ι κ ν) (map other : ι) (key key' : κ)

/-- A key that is put has the new cell, and all others have what they had. -/
theorem lookup_put (value : ν) :
    ((store.put map key value).maps other).lookup key' =
      if other = map ∧ key' = key then some store.cells.length
      else (store.maps other).lookup key' := by
  -- The new cell is in one map, under one key.
  by_cases same : other = map
  · subst same
    by_cases found : key' = key
    · subst found
      simp [put]
    · simp [put, found]
  · simp [put, same]

/-- A key that is taken out has nothing. -/
theorem lookup_remove :
    ((store.remove map key).maps other).lookup key' =
      if other = map ∧ key' = key then none else (store.maps other).lookup key' := by
  -- The key is taken out of one map.
  by_cases same : other = map
  · subst same
    by_cases found : key' = key
    · subst found
      simp [remove]
    · simp [remove, found]
  · simp [remove, same]

/-- A map that is started anew has nothing. -/
theorem lookup_clear :
    ((store.clear map).maps other).lookup key' =
      if other = map then none else (store.maps other).lookup key' := by
  -- One map is empty, and the others are as they were.
  by_cases same : other = map
  · subst same
    simp [clear]
  · simp [clear, same]

/-- The last entry that a loop visits under a key is the one of the map. -/
theorem lastValue_range (order : RangeOrder κ) (entries : Assoc κ Nat) :
    Assoc.lastValue key (entries.range order) = entries.lookup key := by
  -- No key is visited twice.
  ext cell
  rw [Assoc.lastValue_eq_some (Assoc.nodup_range entries order), Assoc.mem_range]

/-- The cells of another map stand before those of the map itself. -/
theorem lookup_adopt (order : RangeOrder κ) (from_ : ι) :
    ((store.adopt order map from_).maps other).lookup key' =
      if other = map then ((store.maps from_).lookup key').or ((store.maps map).lookup key')
      else (store.maps other).lookup key' := by
  -- The entries of the other map are stored over those that were there.
  by_cases same : other = map
  · subst same
    simp [adopt, Assoc.lookup_insertAll, lastValue_range]
  · simp [adopt, same]

end Lookups

section Values

variable {store : CellMaps ι κ ν} (map other : ι) (key key' : κ)

/-- A value that is put is read, and every other key keeps its value. -/
theorem value_put (bounded : store.Bounded) (value : ν) :
    (store.put map key value).value other key' =
      if other = map ∧ key' = key then some value else store.value other key' := by
  -- The new cell stands behind those that are referred to.
  rw [CellMaps.value, lookup_put]
  by_cases found : other = map ∧ key' = key
  · simp [found, put]
  · rw [if_neg found, if_neg found, CellMaps.value]
    cases stored : (store.maps other).lookup key' with
    | none => rfl
    | some cell =>
      have inside := bounded other key' cell stored
      simp [put, List.getElem?_append_left inside]

/-- A write to a cell of one key alone is read there. -/
theorem value_write (sound : store.Sound) {cell : Nat}
    (stored : (store.maps map).lookup key = some cell) (own : store.Own map cell) (value : ν) :
    (store.write cell value).value other key' =
      if other = map ∧ key' = key then some value else store.value other key' := by
  -- Of all keys only this one has the cell.
  have inside := sound.bounded map key cell stored
  by_cases found : other = map ∧ key' = key
  · obtain ⟨rfl, rfl⟩ := found
    simp [CellMaps.value, write, stored, inside]
  · rw [if_neg found]
    show ((store.maps other).lookup key').bind (fun cell' => (store.cells.set cell value)[cell']?) =
      ((store.maps other).lookup key').bind fun cell' => store.cells[cell']?
    cases held : (store.maps other).lookup key' with
    | none => rfl
    | some cell' =>
      -- The same cell would be in this map and under this key.
      have differs : cell ≠ cell' := by
        rintro rfl
        exact found ⟨own other key' held, sound.keyed other key' map key cell held stored⟩
      exact List.getElem?_set_ne differs

/-- A key that is taken out has no value. -/
theorem value_remove :
    (store.remove map key).value other key' =
      if other = map ∧ key' = key then none else store.value other key' := by
  -- The cells are those that were there.
  rw [CellMaps.value, lookup_remove]
  split <;> rfl

/-- A map that is started anew has no value. -/
theorem value_clear :
    (store.clear map).value other key' = if other = map then none else store.value other key' := by
  -- The cells are those that were there.
  rw [CellMaps.value, lookup_clear]
  split <;> rfl

/-- Values that are adopted stand before those of the map itself. -/
theorem value_adopt (bounded : store.Bounded) (order : RangeOrder κ) (from_ : ι) :
    (store.adopt order map from_).value other key' =
      if other = map then (store.value from_ key').or (store.value map key')
      else store.value other key' := by
  -- An entry of the other map has a cell, and with it a value.
  rw [CellMaps.value, lookup_adopt]
  by_cases same : other = map
  · rw [if_pos same, if_pos same, CellMaps.value, CellMaps.value]
    cases stored : (store.maps from_).lookup key' with
    | none => rfl
    | some cell =>
      have inside := bounded from_ key' cell stored
      simp [adopt, inside]
  · rw [if_neg same, if_neg same]
    rfl

omit [DecidableEq κ] in
/-- The loop over the cells of a map changes exactly those. -/
theorem getElem?_modifyAll {image : ν → ν} (again : ∀ value, image (image value) = image value)
    (entries : List (κ × Nat)) (cells : List ν) (cell : Nat) :
    (entries.foldl (fun cells entry => cells.modify entry.2 image) cells)[cell]? =
      if cell ∈ entries.map (·.2) then cells[cell]?.map image else cells[cell]? := by
  -- A cell that was changed before is not changed any more.
  induction entries generalizing cells with
  | nil => simp
  | cons entry rest ih =>
    rw [List.foldl_cons, ih, List.getElem?_modify]
    by_cases here : entry.2 = cell
    · by_cases later : cell ∈ rest.map (·.2)
      · simp [here, later, Function.comp_def, again]
      · simp [here, later]
    · by_cases later : cell ∈ rest.map (·.2)
      · simp [here, later]
      · simp [here, later, Ne.symm here]

/-- A change of cells that are in one map only is read in this map. -/
theorem value_change (order : RangeOrder κ) {image : ν → ν}
    (again : ∀ value, image (image value) = image value)
    (own : ∀ key cell, (store.maps map).lookup key = some cell → store.Own map cell) :
    (store.change order map image).value other key' =
      if other = map then (store.value map key').map image else store.value other key' := by
  -- A cell is changed exactly where the map has it.
  show ((store.maps other).lookup key').bind (fun cell => (((store.maps map).range order).foldl
    (fun cells entry => cells.modify entry.2 image) store.cells)[cell]?) = _
  simp only [getElem?_modifyAll again]
  have listed (cell : Nat) : cell ∈ ((store.maps map).range order).map (·.2) ↔
      ∃ key, (store.maps map).lookup key = some cell := by
    simp [List.mem_map, Assoc.mem_range]
  by_cases same : other = map
  · subst same
    rw [if_pos rfl, CellMaps.value]
    cases stored : (store.maps other).lookup key' with
    | none => rfl
    | some cell => simp [(listed cell).mpr ⟨key', stored⟩]
  · rw [if_neg same, CellMaps.value]
    cases stored : (store.maps other).lookup key' with
    | none => rfl
    | some cell =>
      -- The cell of another map is not one of those that are changed.
      have apart : ¬ cell ∈ ((store.maps map).range order).map (·.2) := by
        intro member
        obtain ⟨key, held⟩ := (listed cell).mp member
        exact same (own key cell held other key' stored)
      rw [Option.bind_some, if_neg apart]
      rfl

end Values

section Invariants

variable {store next : CellMaps ι κ ν}

omit [DecidableEq ι] in
/-- Maps that have no other cells than before, under the same keys, stay sound. -/
theorem Sound.of_known (sound : store.Sound) (size : store.cells.length ≤ next.cells.length)
    (known : ∀ map key cell, (next.maps map).lookup key = some cell →
      ∃ other, (store.maps other).lookup key = some cell) : next.Sound where
  -- Every reference was there before, under the same name.
  bounded map key cell stored := by
    obtain ⟨other, before⟩ := known map key cell stored
    exact (sound.bounded other key cell before).trans_le size
  keyed map key other key' cell stored stored' := by
    obtain ⟨first, before⟩ := known map key cell stored
    obtain ⟨second, before'⟩ := known other key' cell stored'
    exact sound.keyed first key second key' cell before before'

omit [DecidableEq ι] in
/-- Maps that have no other cells than each had before stay apart. -/
theorem Apart.of_known (apart : store.Apart)
    (known : ∀ map key cell, (next.maps map).lookup key = some cell →
      (store.maps map).lookup key = some cell) : next.Apart :=
  -- Every reference was in the same map before.
  fun map key cell stored other key' stored' =>
    apart map key cell (known map key cell stored) other key' (known other key' cell stored')

omit [DecidableEq ι] in
/-- Without keys there are no cells. -/
theorem sound_empty : (empty : CellMaps ι κ ν).Sound where
  -- There is no reference at all.
  bounded _ _ _ stored := by cases stored
  keyed _ _ _ _ _ stored := by cases stored

omit [DecidableEq ι] in
/-- Without keys no cell is shared. -/
theorem apart_empty : (empty : CellMaps ι κ ν).Apart := fun _ _ _ stored => by cases stored

/-- A new cell is under its own key. -/
theorem sound_put (sound : store.Sound) (map : ι) (key : κ) (value : ν) :
    (store.put map key value).Sound where
  bounded other key' cell stored := by
    rw [lookup_put] at stored
    have length : (store.put map key value).cells.length = store.cells.length + 1 := by simp [put]
    split at stored
    · cases stored
      omega
    · have inside := sound.bounded other key' cell stored
      omega
  keyed first key₁ second key₂ cell stored stored' := by
    -- A cell is the new one, or it was there before.
    rw [lookup_put] at stored stored'
    split at stored <;> split at stored'
    · rename_i here here'
      exact here.2.trans here'.2.symm
    · cases stored
      exact absurd (sound.bounded second key₂ _ stored') (Nat.lt_irrefl _)
    · cases stored'
      exact absurd (sound.bounded first key₁ _ stored) (Nat.lt_irrefl _)
    · exact sound.keyed first key₁ second key₂ cell stored stored'

/-- A new cell is in one map. -/
theorem apart_put (bounded : store.Bounded) (apart : store.Apart) (map : ι) (key : κ) (value : ν) :
    (store.put map key value).Apart := by
  -- The new cell was in no map before.
  intro first key₁ cell stored second key₂ stored'
  rw [lookup_put] at stored stored'
  split at stored <;> split at stored'
  · rename_i here here'
    exact here'.1.trans here.1.symm
  · cases stored
    exact absurd (bounded second key₂ _ stored') (Nat.lt_irrefl _)
  · cases stored'
    exact absurd (bounded first key₁ _ stored) (Nat.lt_irrefl _)
  · exact apart first key₁ cell stored second key₂ stored'

omit [DecidableEq ι] in
/-- A write moves no cell. -/
theorem sound_write (sound : store.Sound) (cell : Nat) (value : ν) :
    (store.write cell value).Sound :=
  -- Writing a value moves no reference.
  sound.of_known (by simp [write]) fun map _ _ stored => ⟨map, stored⟩

/-- What is left in a map was there before. -/
theorem remove_known (map : ι) (key : κ) (other : ι) (key' : κ) (cell : Nat)
    (stored : ((store.remove map key).maps other).lookup key' = some cell) :
    (store.maps other).lookup key' = some cell := by
  -- The key that is taken out has no cell.
  rw [lookup_remove] at stored
  split at stored
  · cases stored
  · exact stored

/-- What the other maps have was there before. -/
theorem clear_known (map other : ι) (key' : κ) (cell : Nat)
    (stored : ((store.clear map).maps other).lookup key' = some cell) :
    (store.maps other).lookup key' = some cell := by
  -- The map that is started anew has no cell.
  rw [lookup_clear] at stored
  split at stored
  · cases stored
  · exact stored

/-- Adopted cells were in the other map. -/
theorem sound_adopt (sound : store.Sound) (order : RangeOrder κ) (map from_ : ι) :
    (store.adopt order map from_).Sound := by
  -- A cell comes from the other map, or it was in this one before.
  refine sound.of_known le_rfl fun other key cell stored => ?_
  rw [lookup_adopt] at stored
  split at stored
  · rcases Option.or_eq_some_iff.mp stored with taken | ⟨_, kept⟩
    · exact ⟨from_, taken⟩
    · exact ⟨map, kept⟩
  · exact ⟨other, stored⟩

omit [DecidableEq ι] in
/-- A change of cells keeps their number. -/
theorem length_change (order : RangeOrder κ) (map : ι) (image : ν → ν) :
    (store.change order map image).cells.length = store.cells.length := by
  -- Every turn of the loop keeps the number of cells.
  have general : ∀ (entries : List (κ × Nat)) (cells : List ν),
      (entries.foldl (fun cells entry => cells.modify entry.2 image) cells).length =
        cells.length := by
    intro entries
    induction entries with
    | nil => exact fun _ => rfl
    | cons entry rest ih =>
      intro cells
      rw [List.foldl_cons, ih, List.length_modify]
  exact general _ _

omit [DecidableEq ι] in
/-- A change of cells moves none. -/
theorem sound_change (sound : store.Sound) (order : RangeOrder κ) (map : ι) (image : ν → ν) :
    (store.change order map image).Sound :=
  -- Writing values moves no reference.
  sound.of_known (length_change order map image).ge fun other _ _ stored => ⟨other, stored⟩

/-- What the loop of a copy makes of a store, from the entries that it visits. -/
structure Copied (target : ι) (store next : CellMaps ι κ ν) (entries : List (κ × Nat)) : Prop where
  sound : next.Sound
  apart : store.Apart → next.Apart
  values : ∀ other key, next.value other key =
    if other = target then
      ((Assoc.lastValue key entries).bind fun cell => store.cells[cell]?).or
        (store.value target key)
    else store.value other key

/-- The loop of a copy puts the values of the cells that it visits. -/
theorem copied_loop (sound : store.Sound) (target : ι) (entries : List (κ × Nat))
    (inside : ∀ entry ∈ entries, entry.2 < store.cells.length) :
    Copied target store (entries.foldl (copyEntry target) store) entries := by
  -- Every turn puts one value, and the cells that were there stay where they are.
  induction entries generalizing store with
  | nil =>
    refine ⟨sound, id, fun other key => ?_⟩
    by_cases same : other = target
    · subst same
      simp [Assoc.lastValue]
    · simp [same]
  | cons entry rest ih =>
    have here := inside entry (by simp)
    have turn : copyEntry target store entry =
        store.put target entry.1 store.cells[entry.2] := by
      simp [copyEntry, here]
    have length : (store.put target entry.1 store.cells[entry.2]).cells.length =
        store.cells.length + 1 := by simp [put]
    have later := ih (sound_put sound target entry.1 store.cells[entry.2])
      fun other member => by
        have bound := inside other (by simp [member])
        omega
    rw [List.foldl_cons, turn]
    refine ⟨later.sound, fun apart => later.apart (apart_put sound.bounded apart _ _ _),
      fun other key => ?_⟩
    rw [later.values, value_put _ _ _ _ sound.bounded, value_put _ _ _ _ sound.bounded]
    by_cases same : other = target
    · subst same
      simp only [if_true, true_and, Assoc.lastValue]
      cases found : Assoc.lastValue key rest with
      | none =>
        by_cases named : entry.1 = key
        · simp [named, here]
        · simp [named, Ne.symm named]
      | some cell =>
        -- The loop visits no cell that it puts.
        have bound := inside _ (List.mem_cons_of_mem entry (Assoc.mem_of_lastValue found))
        simp [put, List.getElem?_append_left bound, bound]
    · simp [same]

/-- A map that is started anew is sound. -/
theorem sound_clear (sound : store.Sound) (map : ι) : (store.clear map).Sound :=
  -- The references that are left were there before.
  sound.of_known le_rfl fun other key cell stored => ⟨other, clear_known map other key cell stored⟩

/-- A key that is taken out leaves a sound store. -/
theorem sound_remove (sound : store.Sound) (map : ι) (key : κ) : (store.remove map key).Sound :=
  -- The references that are left were there before.
  sound.of_known le_rfl fun other key' cell stored =>
    ⟨other, remove_known map key other key' cell stored⟩

/-- A copy has the values of the map, and no cell of it. -/
theorem copied_copy (sound : store.Sound) (order : RangeOrder κ) (map target : ι) :
    Copied target (store.clear target) (store.copy order map target)
      ((store.maps map).range order) := by
  -- The loop visits cells that are there.
  apply copied_loop (sound_clear sound target) target
  intro entry member
  exact sound.bounded map entry.1 entry.2 (Assoc.mem_range.mp member)

/-- A copy reads the values of the map. -/
theorem value_copy (sound : store.Sound) (order : RangeOrder κ) (map target other : ι) (key : κ) :
    (store.copy order map target).value other key =
      if other = target then store.value map key else store.value other key := by
  -- The loop visits every key of the map once, and the copy starts without a value.
  rw [(copied_copy sound order map target).values, value_clear, value_clear, lastValue_range]
  by_cases same : other = target
  · rw [if_pos same, if_pos same, if_pos rfl, Option.or_none]
    rfl
  · rw [if_neg same, if_neg same, if_neg same]

/-- A copy shares no cell. -/
theorem apart_copy (sound : store.Sound) (apart : store.Apart) (order : RangeOrder κ)
    (map target : ι) : (store.copy order map target).Apart :=
  -- The map that is copied into is emptied first, and then gets cells of its own.
  (copied_copy sound order map target).apart (apart.of_known (clear_known target))

end Invariants

end CellMaps

end Spycat.Lib
