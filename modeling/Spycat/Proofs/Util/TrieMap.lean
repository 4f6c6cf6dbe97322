import Spycat.Proofs.Util.TrieInsert

/-! A trie built by insertions refines a finite map, and iteration lists that map in key order. -/

namespace Spycat

open Lib RadixNode

namespace Trie

/-- The trie stores exactly the keys of the map, each with its value. -/
structure Represents (t : Trie) (map : KeyMap UInt8 UInt64) : Prop where
  name : t.root.name = []
  holds : Holds map t.root

/-- A new trie stores nothing. -/
theorem new_represents : new.Represents KeyMap.empty :=
  -- The root is a leaf without a value.
  ⟨rfl, holds_leaf rfl fun _ _ => rfl⟩

/-- The value an insertion leaves under its key, given the value that was there. -/
def insertValue (value : UInt64) (merge : List Bool) (old : UInt64) : UInt64 :=
  if merge.head?.getD false then old + value else value

/-- An insertion never panics and stores its own key, whatever the tree looked like. -/
theorem insert_represents {t : Trie} {map : KeyMap UInt8 UInt64} (represents : t.Represents map)
    (key : Bytes) (value : UInt64) (merge : List Bool) :
    ∃ root, t.insert key value merge = some { t with root := root } ∧
      { t with root := root : Trie }.Represents
        (map.store key (insertValue value merge ((map key).getD 0))) := by
  -- Both ways of inserting walk to the key, with different updates.
  cases isMerge : merge.head?.getD false with
  | true =>
    obtain ⟨root, walked, stored⟩ := findNodeAt_stored (· + value) t.root key represents.holds
    refine ⟨root, by simp [insert, isMerge, walked], stored.name.trans represents.name, ?_⟩
    simpa [insertValue, isMerge] using stored.holds
  | false =>
    obtain ⟨root, walked, stored⟩ := findNodeAt_stored (fun _ => value) t.root key represents.holds
    refine ⟨root, by simp [insert, isMerge, walked], stored.name.trans represents.name, ?_⟩
    simpa [insertValue, isMerge] using stored.holds

/-- The map after one more insertion. -/
def storeCall (map : KeyMap UInt8 UInt64) (call : InsertCall) : KeyMap UInt8 UInt64 :=
  map.store call.key (insertValue call.value call.merge ((map call.key).getD 0))

/-- The map a sequence of insertions builds up. -/
def storeCalls (calls : List InsertCall) : KeyMap UInt8 UInt64 :=
  calls.foldl storeCall KeyMap.empty

/-- A trie under its own scaling that stands for a map. -/
structure Stands (m d : Int64) (t : Trie) (map : KeyMap UInt8 UInt64) : Prop where
  multiplier : t.multiplier = m
  divider : t.divider = d
  represents : t.Represents map

/-- Insertions into an empty trie of any scaling build up the map, and never panic. -/
theorem insertAll_stands (m d : Int64) (calls : List InsertCall) :
    ∃ t, (new.clone m d).insertAll calls = some t ∧ t.Stands m d (storeCalls calls) := by
  -- One insertion follows the abstract map, so a whole run does.
  have initial : (new.clone m d).Stands m d KeyMap.empty :=
    ⟨rfl, rfl, ⟨new_represents.name, new_represents.holds⟩⟩
  refine run_simulates (Stands m d) initial ?_ calls
  intro t map call stands
  obtain ⟨root, inserted, represents⟩ :=
    insert_represents stands.represents call.key call.value call.merge
  exact ⟨_, inserted, stands.multiplier, stands.divider, represents⟩

/-- Insertions into a new trie build up the map. -/
theorem insertAll_new_stands (calls : List InsertCall) :
    ∃ t, new.insertAll calls = some t ∧ t.Stands 1 1 (storeCalls calls) :=
  -- A new trie is not scaled.
  insertAll_stands 1 1 calls

/-- The two work lists in step list the positive entries of every pending subtree in turn. -/
theorem iterateLoop_eq (pending : List (TrieNode × Bytes)) :
    iterateLoop (pending.map (·.1)) (pending.map (·.2)) =
      some (pending.flatMap fun work => (entries work.2 work.1).filter (·.2 > 0)) := by
  -- Every round replaces one pending node by its children.
  induction count : sizeAll (pending.map (·.1)) using Nat.strongRecOn generalizing pending with
  | ind count ih =>
    cases pending with
    | nil => simp [iterateLoop]
    | cons work rest =>
      obtain ⟨⟨name, value, children⟩, leading⟩ := work
      have lists : ∀ nodes : List TrieNode,
          entriesAll (leading ++ name) nodes =
            (nodes.map fun child => (child, leading ++ name)).flatMap fun work =>
              entries work.2 work.1 := by
        intro nodes
        induction nodes with
        | nil => rfl
        | cons node nodes more => simp [entriesAll, more]
      have next := ih _ (by
          rw [← count]
          simp [sizeAll, size_eq, Function.comp_def])
        (children.map (fun child => (child, leading ++ name)) ++ rest) rfl
      simp only [List.map_append, List.map_map, Function.comp_def, List.map_id', List.map_const']
        at next
      simp only [List.map_cons, iterateLoop, children_mk, name_mk, value_mk, next, Option.map_some,
        List.flatMap_append, List.flatMap_cons, entries, lists, List.filter_cons,
        List.filter_flatMap]
      by_cases positive : value > 0 <;> simp [positive]

/-- Iteration lists the positive entries of the whole tree in pre-order. -/
theorem iterate_eq (t : Trie) : t.iterate = some ((entries [] t.root).filter (·.2 > 0)) := by
  -- The loop starts with the root and an empty key.
  simpa [iterate] using iterateLoop_eq [(t.root, [])]

/-- What a trie reports under a key: the value `iterate` calls back with, or zero. -/
def get (t : Trie) (key : Bytes) : UInt64 :=
  (((t.iterate.getD []).find? fun entry => entry.1 == key).map (·.2)).getD 0

/-- A call back reports a stored key with its positive value, and nothing else. -/
theorem mem_iterate {t : Trie} {map : KeyMap UInt8 UInt64} (represents : t.Represents map)
    {out : List (Bytes × UInt64)} (iterated : t.iterate = some out) (key : Bytes) (value : UInt64) :
    (key, value) ∈ out ↔ 0 < value ∧ (map key).getD 0 = value := by
  -- The entries are filtered for positive values, and absent keys have none.
  rw [iterate_eq, Option.some.injEq] at iterated
  rw [← iterated, List.mem_filter]
  simp only [gt_iff_lt, decide_eq_true_eq]
  constructor
  · rintro ⟨member, positive⟩
    have nonzero : value ≠ 0 := fun zero => by simp [zero] at positive
    obtain ⟨rest, rfl, stored⟩ := (represents.holds.mem_entries [] nonzero).mp member
    exact ⟨positive, by simp [represents.name, stored]⟩
  · rintro ⟨positive, stored⟩
    have nonzero : value ≠ 0 := fun zero => by simp [zero] at positive
    refine ⟨(represents.holds.mem_entries [] nonzero).mpr ⟨key, by simp [represents.name], ?_⟩,
      positive⟩
    -- An absent key counts as zero, which is no positive value.
    cases found : map key with
    | none => simp [found] at stored; exact absurd stored.symm nonzero
    | some held => simpa [found] using stored

/-- The calls back come in strictly increasing order of the keys. -/
theorem iterate_increases {t : Trie} {map : KeyMap UInt8 UInt64} (represents : t.Represents map)
    {out : List (Bytes × UInt64)} (iterated : t.iterate = some out) :
    out.Pairwise fun first second => first.1 < second.1 := by
  -- Leaving entries out keeps the order of the others.
  rw [iterate_eq, Option.some.injEq] at iterated
  exact iterated ▸ (represents.holds.entries_increase []).filter _

/-- The finite map a call leaves: it adds to or overwrites its own key, an absent one being zero. -/
def applyCall (counts : Bytes → UInt64) (call : InsertCall) : Bytes → UInt64 := fun key =>
  if key = call.key then
    if call.merge.head?.getD false then counts key + call.value else call.value
  else counts key

/-- The finite map a sequence of calls folds up to. -/
def foldCalls (calls : List InsertCall) : Bytes → UInt64 :=
  calls.foldl applyCall fun _ => 0

/-- Reading the stored map with absent keys as zero gives the folded map. -/
theorem storeCalls_getD (calls : List InsertCall) (key : Bytes) :
    (storeCalls calls key).getD 0 = foldCalls calls key := by
  -- Both folds are followed in step, from maps that agree.
  have general : ∀ (calls : List InsertCall) (map : KeyMap UInt8 UInt64) (counts : Bytes → UInt64),
      (∀ key, (map key).getD 0 = counts key) →
      ∀ key, (calls.foldl storeCall map key).getD 0 = calls.foldl applyCall counts key := by
    intro calls
    induction calls with
    | nil => exact fun map counts agree => agree
    | cons call rest ih =>
      intro map counts agree
      refine ih _ _ fun other => ?_
      by_cases same : other = call.key
      · simp [storeCall, KeyMap.store, applyCall, insertValue, same, agree]
      · simp [storeCall, KeyMap.store, applyCall, same, agree]
  exact general calls _ _ (fun _ => rfl) key

/--
Every sequence of insertions into a new trie refines a finite map.

Iteration calls back once for each key with a positive count, in increasing order of the keys.
One more insertion changes what is reported for no other key.
-/
theorem iterate_refines_map (calls : List InsertCall) :
    ∃ t out, new.insertAll calls = some t ∧ t.iterate = some out ∧
      (∀ key value, (key, value) ∈ out ↔ 0 < value ∧ foldCalls calls key = value) ∧
      out.Pairwise (fun first second => first.1 < second.1) ∧
      ∀ call : InsertCall, ∃ t' out', t.insert call.key call.value call.merge = some t' ∧
        t'.iterate = some out' ∧
        ∀ key value, key ≠ call.key → ((key, value) ∈ out' ↔ (key, value) ∈ out) := by
  -- The trie stands for the map of the calls, and for one more call after it.
  obtain ⟨t, built, stands⟩ := insertAll_new_stands calls
  have represents := stands.represents
  refine ⟨t, _, built, t.iterate_eq, ?_, iterate_increases represents t.iterate_eq, ?_⟩
  · intro key value
    rw [mem_iterate represents t.iterate_eq, storeCalls_getD]
  · intro call
    obtain ⟨root, inserted, after⟩ := insert_represents represents call.key call.value call.merge
    refine ⟨_, _, inserted, iterate_eq _, fun key value other => ?_⟩
    rw [mem_iterate after (iterate_eq _), mem_iterate represents t.iterate_eq]
    simp [KeyMap.store, other]

end Trie

end Spycat
