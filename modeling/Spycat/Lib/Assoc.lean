import Mathlib.Algebra.BigOperators.Group.List.Basic
import Mathlib.Algebra.Ring.Nat
import Mathlib.Data.List.AList

/-! Finite maps as lists of entries with distinct keys, and totals over their entries. -/

namespace Spycat.Lib

/-- A finite map. -/
abbrev Assoc (κ ν : Type) := AList fun _ : κ => ν

/-- The order in which a loop over a map happens to visit its keys. -/
structure RangeOrder (κ : Type) where
  arrange : List κ → List κ
  perm : ∀ keys, (arrange keys).Perm keys

namespace RangeOrder

/-- The order in which the keys are listed. -/
def listed {κ : Type} : RangeOrder κ where
  arrange := id
  perm := fun _ => List.Perm.refl _

/-- A map with one key is visited in the one possible order. -/
@[simp] theorem arrange_singleton {κ : Type} (order : RangeOrder κ) (key : κ) :
    order.arrange [key] = [key] := List.perm_singleton.mp (order.perm [key])

end RangeOrder

namespace Assoc

variable {κ ν μ : Type} [DecidableEq κ] [AddCommMonoid μ]

/-- How many keys a map holds. -/
def size (map : Assoc κ ν) : Nat := map.keys.length

/-- The total of a measure over all entries. -/
def total (measure : κ → ν → μ) (map : Assoc κ ν) : μ :=
  (map.entries.map fun entry => measure entry.1 entry.2).sum

omit [DecidableEq κ] in
@[simp] theorem total_empty (measure : κ → ν → μ) : total measure (∅ : Assoc κ ν) = 0 := rfl

/-- A fresh entry adds its own measure. -/
theorem total_insert_new (measure : κ → ν → μ) {map : Assoc κ ν} {key : κ} (value : ν)
    (absent : map.lookup key = none) :
    total measure (map.insert key value) = measure key value + total measure map := by
  -- A new key erases nothing, so its measure is just added in front.
  rw [total, AList.entries_insert_of_notMem (AList.lookup_eq_none.mp absent)]
  simp [total]

/-- Erasing an entry takes its own measure off. -/
theorem total_erase (measure : κ → ν → μ) {map : Assoc κ ν} {key : κ} {value : ν}
    (present : map.lookup key = some value) :
    total measure map = measure key value + total measure (map.erase key) := by
  -- The entries are those of the erased map around the erased entry.
  have member : key ∈ map.entries.keys := by
    have stored : map.lookup key ≠ none := by simp [present]
    exact not_not.mp (mt AList.lookup_eq_none.mpr stored)
  obtain ⟨held, before, after, fresh, split, erased⟩ := List.exists_of_kerase member
  have found : map.entries.dlookup key = some value := present
  have same : held = value := by
    rw [split, List.dlookup_append, (List.dlookup_eq_none).mpr fresh] at found
    simpa using found
  subst same
  have left : (map.erase key).entries = before ++ after := erased
  simp only [total, left, split, List.map_append, List.map_cons, List.sum_append, List.sum_cons]
  exact add_left_comm _ _ _

/-- Overwriting an entry exchanges its measures. -/
theorem total_insert (measure : κ → ν → μ) {map : Assoc κ ν} {key : κ} {old : ν} (value : ν)
    (present : map.lookup key = some old) :
    total measure (map.insert key value) + measure key old =
      measure key value + total measure map := by
  -- Storing is erasing the old entry and putting the new one in front.
  have entries : (map.insert key value).entries = ⟨key, value⟩ :: (map.erase key).entries := rfl
  rw [total_erase measure present]
  simp only [total, entries, List.map_cons, List.sum_cons]
  rw [add_assoc, add_comm (List.sum _)]

/-- What is stored after a removal was stored before. -/
theorem isSome_of_erase {map : Assoc κ ν} {removed key : κ}
    (stored : ((map.erase removed).lookup key).isSome) : (map.lookup key).isSome := by
  -- The removed key is not stored afterwards.
  by_cases same : key = removed
  · rw [same, AList.lookup_erase] at stored
    cases stored
  · rwa [AList.lookup_erase_ne same] at stored

/-- A fresh key is counted. -/
theorem size_insert_new {map : Assoc κ ν} {key : κ} (value : ν) (absent : map.lookup key = none) :
    size (map.insert key value) = size map + 1 := by
  -- The keys are the new one and the old ones, none of which is taken out.
  rw [size, AList.keys_insert, List.erase_of_not_mem]
  · rfl
  · exact fun member => AList.lookup_eq_none.mp absent (AList.mem_keys.mpr member)

/-- Overwriting a key counts no new one. -/
theorem size_insert {map : Assoc κ ν} {key : κ} {old : ν} (value : ν)
    (present : map.lookup key = some old) : size (map.insert key value) = size map := by
  -- The key was listed, so taking it out and putting it in leaves the number.
  have member : key ∈ map.keys := by
    rw [← AList.mem_keys, ← AList.lookup_isSome, present]
    rfl
  have positive := List.length_pos_of_mem member
  rw [size, AList.keys_insert, List.length_cons, List.length_erase_of_mem member, size]
  omega

/-- A value that is stored takes no other one away. -/
theorem size_le_insert (map : Assoc κ ν) (key : κ) (value : ν) :
    size map ≤ size (map.insert key value) := by
  -- The key is either there already or one more.
  cases found : map.lookup key with
  | some old => exact (size_insert value found).ge
  | none => exact (size_insert_new value found).ge.trans' (Nat.le_succ _)

/-- A map whose keys are all keys of another one is no larger than that. -/
theorem size_le_of_keys {map other : Assoc κ ν}
    (within : ∀ key, (map.lookup key).isSome → (other.lookup key).isSome) :
    size map ≤ size other := by
  -- No key is listed twice.
  apply List.Nodup.length_le_of_subset map.keys_nodup
  intro key member
  exact AList.lookup_isSome.mp (within key (AList.lookup_isSome.mpr member))

omit [DecidableEq κ] in
/-- A total of ones and zeros is no more than the number of entries. -/
theorem total_le_size {measure : κ → ν → Nat} (small : ∀ key value, measure key value ≤ 1)
    (map : Assoc κ ν) : total measure map ≤ map.size := by
  -- Every entry adds one at most.
  have bounded : ∀ entries : List (Sigma fun _ : κ => ν),
      (entries.map fun entry => measure entry.1 entry.2).sum ≤ entries.length := by
    intro entries
    induction entries with
    | nil => exact Nat.le_refl 0
    | cons entry rest ih =>
      have one := small entry.1 entry.2
      simp only [List.map_cons, List.sum_cons, List.length_cons]
      omega
  simpa [size, total, AList.keys, List.keys] using bounded map.entries

/-- Only the entry of one key counts for a measure that is zero on all others. -/
theorem total_single (measure : ν → μ) (map : Assoc κ ν) (key : κ) :
    total (fun other value => if other = key then measure value else 0) map =
      ((map.lookup key).map measure).getD 0 := by
  -- Without an entry of the key every summand is zero.
  have apart : ∀ rest : Assoc κ ν, rest.lookup key = none →
      total (fun other value => if other = key then measure value else 0) rest = 0 := by
    intro rest absent
    refine List.sum_eq_zero fun summand member => ?_
    obtain ⟨entry, inside, rfl⟩ := List.mem_map.mp member
    have differs : entry.1 ≠ key := by
      rintro rfl
      exact AList.lookup_eq_none.mp absent (List.mem_map_of_mem inside)
    exact if_neg differs
  cases stored : map.lookup key with
  | none => simp [apart map stored]
  | some value =>
    rw [total_erase _ stored, apart _ (AList.lookup_erase key map)]
    simp

/-- The entries in the order in which a loop visits them. -/
def range (map : Assoc κ ν) (order : RangeOrder κ) : List (κ × ν) :=
  (order.arrange map.keys).filterMap fun key => (map.lookup key).map fun value => (key, value)

omit [AddCommMonoid μ] in
/-- A loop over an empty map visits nothing. -/
@[simp] theorem range_empty (order : RangeOrder κ) : (∅ : Assoc κ ν).range order = [] := by
  -- There is one order of no keys.
  have nothing : order.arrange [] = [] := List.perm_nil.mp (order.perm [])
  simp [range, nothing]

omit [AddCommMonoid μ] in
/-- A loop visits every entry once. -/
theorem range_perm (map : Assoc κ ν) (order : RangeOrder κ) :
    (map.range order).Perm (map.entries.map fun entry => (entry.1, entry.2)) := by
  have listed : (map.keys.filterMap fun key => (map.lookup key).map fun value => (key, value)) =
      map.entries.map fun entry => (entry.1, entry.2) := by
    rw [AList.keys, List.keys, List.filterMap_map, ← List.filterMap_eq_map]
    -- Every listed key is looked up with its own value.
    refine List.filterMap_congr fun entry member => ?_
    have found : map.lookup entry.1 = some entry.2 := AList.mem_lookup_iff.mpr member
    simp [found]
  exact listed ▸ (order.perm map.keys).filterMap _

/-- The sum over a loop is the total. -/
theorem sum_range (measure : κ → ν → μ) (map : Assoc κ ν) (order : RangeOrder κ) :
    ((map.range order).map fun entry => measure entry.1 entry.2).sum = total measure map := by
  -- A loop visits the entries in some order, and the order does not matter to a sum.
  rw [((map.range_perm order).map _).sum_eq, List.map_map]
  rfl

/-- What a loop visits is stored under its key. -/
theorem mem_range {map : Assoc κ ν} {order : RangeOrder κ} {entry : κ × ν} :
    entry ∈ map.range order ↔ map.lookup entry.1 = some entry.2 := by
  -- Being visited, being an entry, and being found are the same.
  rw [(map.range_perm order).mem_iff, List.mem_map, ← Option.mem_def, AList.mem_lookup_iff]
  constructor
  · rintro ⟨stored, member, rfl⟩
    exact member
  · exact fun member => ⟨_, member, rfl⟩

omit [AddCommMonoid μ] in
/-- A loop visits every key once. -/
theorem nodup_range (map : Assoc κ ν) (order : RangeOrder κ) :
    ((map.range order).map (·.1)).Nodup := by
  -- The keys that are visited are those of the map.
  have keys : (map.entries.map fun entry => (entry.1, entry.2)).map (·.1) = map.keys := by
    simp [AList.keys, List.keys, Function.comp_def]
  rw [((map.range_perm order).map _).nodup_iff, keys]
  exact map.nodupKeys

omit [AddCommMonoid μ] in
/-- Loops over maps with the same lookups visit the same entries. -/
theorem range_perm_range {first second : Assoc κ ν}
    (same : ∀ key, first.lookup key = second.lookup key) (order other : RangeOrder κ) :
    (first.range order).Perm (second.range other) := by
  -- Neither loop visits an entry twice.
  rw [List.perm_ext_iff_of_nodup (nodup_range first order).of_map
    (nodup_range second other).of_map]
  intro entry
  rw [mem_range, mem_range, same]

omit [AddCommMonoid μ] in
/-- A loop visits as many entries as there are keys. -/
theorem length_range (map : Assoc κ ν) (order : RangeOrder κ) :
    (map.range order).length = map.size := by
  -- The visited entries are those of the map.
  rw [(map.range_perm order).length_eq]
  simp [size, AList.keys, List.keys]

/-- The map with every value replaced by its image. -/
def mapValues {ρ : Type} (image : ν → ρ) (map : Assoc κ ν) : Assoc κ ρ where
  entries := map.entries.map fun entry => ⟨entry.1, image entry.2⟩
  nodupKeys := by
    have keys := map.nodupKeys
    simpa [List.NodupKeys, List.keys, Function.comp_def] using keys

/-- Looking up an image is the image of looking up. -/
@[simp] theorem lookup_mapValues {ρ : Type} (image : ν → ρ) (map : Assoc κ ν) (key : κ) :
    (mapValues image map).lookup key = (map.lookup key).map image := by
  -- The keys stay, so the search stops at the same entry.
  have general : ∀ entries : List (Sigma fun _ : κ => ν),
      (entries.map fun entry => (⟨entry.1, image entry.2⟩ : Sigma fun _ : κ => ρ)).dlookup key =
        (entries.dlookup key).map image := by
    intro entries
    induction entries with
    | nil => rfl
    | cons entry rest ih =>
      obtain ⟨stored, value⟩ := entry
      by_cases same : stored = key
      · subst same
        simp
      · rw [List.map_cons, List.dlookup_cons_ne _ _ (Ne.symm same),
          List.dlookup_cons_ne _ _ (Ne.symm same), ih]
  exact general map.entries

/-- A map with entries stored one after the other. -/
def insertAll (map : Assoc κ ν) (entries : List (κ × ν)) : Assoc κ ν :=
  entries.foldl (fun map entry => map.insert entry.1 entry.2) map

/-- The last value under a key. -/
def lastValue (key : κ) : List (κ × ν) → Option ν
  | [] => none
  | entry :: rest => (lastValue key rest).or (if entry.1 = key then some entry.2 else none)

/-- Of entries whose keys are distinct the one under a key is the last one under it. -/
theorem lastValue_eq_some {entries : List (κ × ν)} (distinct : (entries.map (·.1)).Nodup)
    (key : κ) (value : ν) : lastValue key entries = some value ↔ (key, value) ∈ entries := by
  -- The key is that of the first entry or of one of the others, but not of both.
  induction entries generalizing value with
  | nil => simp [lastValue]
  | cons entry rest ih =>
    obtain ⟨fresh, others⟩ := List.nodup_cons.mp distinct
    rw [lastValue, List.mem_cons, ← ih others]
    by_cases same : entry.1 = key
    · have absent : lastValue key rest = none := by
        rw [Option.eq_none_iff_forall_not_mem]
        intro stored member
        exact fresh (List.mem_map.mpr ⟨_, (ih others stored).mp member, same.symm⟩)
      rw [absent, if_pos same, Option.none_or, ← same, Prod.ext_iff]
      simp [eq_comm]
    · rw [if_neg same, Option.or_none, Prod.ext_iff]
      simp [Ne.symm same]

/-- A value that depends on nothing but the key is found where there is an entry under the key. -/
theorem lastValue_map {α : Type} (key : κ) (naming : α → κ) (values : κ → ν) (list : List α) :
    lastValue key (list.map fun a => (naming a, values (naming a))) =
      if list.any (naming · = key) then some (values key) else none := by
  -- Entries under one key have one value, so it does not matter which is last.
  induction list with
  | nil => rfl
  | cons a rest ih =>
    rw [List.map_cons, lastValue, ih, List.any_cons]
    by_cases same : naming a = key
    · subst same
      split <;> simp
    · simp [same]

/-- Of the entries stored under a key the last one is found. -/
theorem lookup_insertAll (map : Assoc κ ν) (entries : List (κ × ν)) (key : κ) :
    (insertAll map entries).lookup key = (lastValue key entries).or (map.lookup key) := by
  -- Every entry replaces what was stored under its key.
  induction entries generalizing map with
  | nil => rfl
  | cons entry rest ih =>
    show (insertAll (map.insert entry.1 entry.2) rest).lookup key = _
    rw [ih, lastValue, Option.or_assoc]
    by_cases same : entry.1 = key
    · subst same
      simp
    · rw [AList.lookup_insert_ne (Ne.symm same), if_neg same, Option.none_or]

/-- Entries are stored behind others. -/
theorem insertAll_append (map : Assoc κ ν) (first second : List (κ × ν)) :
    insertAll map (first ++ second) = insertAll (insertAll map first) second :=
  List.foldl_append

end Assoc

end Spycat.Lib
