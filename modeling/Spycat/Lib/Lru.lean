import Mathlib.Algebra.Ring.Nat
import Mathlib.Data.List.Basic
import Mathlib.Data.List.Nodup

/-! Caches of a fixed size that evict the entry that was not used for longest. -/

namespace Spycat.Lib

/-- A package of such caches. What it evicts or removes is what its callback is called with. -/
structure Lru (K V : Type) where
  State : Type
  new : Int → Option State
  get : State → K → State × Option V
  add : State → K → V → State × List (K × V)
  remove : State → K → State × List (K × V)
  keys : State → List K
  /-- The size it was made with. -/
  size : State → Nat
  /-- What it holds, from the entry that was used last to the one that was not for longest. -/
  entries : State → List (K × V)

namespace Lru

variable {K V : Type} [DecidableEq K]

/-- The entries with that of a key in front. -/
def touch (k : K) (entries : List (K × V)) : List (K × V) :=
  entries.filter (·.1 = k) ++ entries.filter (·.1 ≠ k)

/-- What such a package does. -/
structure Laws (lru : Lru K V) : Prop where
  new_isSome : ∀ n, (lru.new n).isSome ↔ 0 < n
  new_entries : ∀ {n s}, lru.new n = some s → lru.entries s = [] ∧ (lru.size s : Int) = n
  get_found : ∀ s k, (lru.get s k).2 = ((lru.entries s).find? (·.1 = k)).map (·.2)
  get_entries : ∀ s k, lru.entries (lru.get s k).1 = touch k (lru.entries s)
  get_size : ∀ s k, lru.size (lru.get s k).1 = lru.size s
  add_entries : ∀ s k v, (∀ entry ∈ lru.entries s, entry.1 ≠ k) →
    lru.entries (lru.add s k v).1 = ((k, v) :: lru.entries s).take (lru.size s)
  add_evicted : ∀ s k v, (∀ entry ∈ lru.entries s, entry.1 ≠ k) →
    (lru.add s k v).2 = ((k, v) :: lru.entries s).drop (lru.size s)
  add_size : ∀ s k v, lru.size (lru.add s k v).1 = lru.size s
  remove_entries : ∀ s k, lru.entries (lru.remove s k).1 = (lru.entries s).filter (·.1 ≠ k)
  remove_removed : ∀ s k, (lru.remove s k).2 = (lru.entries s).filter (·.1 = k)
  remove_size : ∀ s k, lru.size (lru.remove s k).1 = lru.size s
  keys_eq : ∀ s, lru.keys s = ((lru.entries s).map (·.1)).reverse

/-- The package that keeps its entries in a list. -/
def list (K V : Type) [DecidableEq K] : Lru K V where
  State := Nat × List (K × V)
  new n := if 0 < n then some (n.toNat, []) else none
  get s k := ((s.1, touch k s.2), (s.2.find? (·.1 = k)).map (·.2))
  add s k v :=
    let entries := (k, v) :: s.2.filter (·.1 ≠ k)
    ((s.1, entries.take s.1), entries.drop s.1)
  remove s k := ((s.1, s.2.filter (·.1 ≠ k)), s.2.filter (·.1 = k))
  keys s := (s.2.map (·.1)).reverse
  size s := s.1
  entries s := s.2

/-- The package with the list does what such a package does. -/
theorem list_laws (K V : Type) [DecidableEq K] : (list K V).Laws := by
  -- A key that is not there leaves nothing to filter.
  have absent : ∀ (s : List (K × V)) (k : K), (∀ entry ∈ s, entry.1 ≠ k) →
      s.filter (·.1 ≠ k) = s := by
    intro s k none_there
    exact List.filter_eq_self.mpr fun entry inside => by simpa using none_there entry inside
  constructor
  · intro n
    by_cases positive : 0 < n <;> simp [list, positive]
  · intro n s made
    by_cases positive : 0 < n
    · have same : some (n.toNat, []) = some s := by simpa [list, positive] using made
      obtain rfl := Option.some.inj same
      exact ⟨rfl, Int.toNat_of_nonneg (Int.le_of_lt positive)⟩
    · exact absurd made (by simp [list, positive])
  · exact fun s k => rfl
  · exact fun s k => rfl
  · exact fun s k => rfl
  · intro s k v none_there
    exact congrArg (fun rest => ((k, v) :: rest).take s.1) (absent s.2 k none_there)
  · intro s k v none_there
    exact congrArg (fun rest => ((k, v) :: rest).drop s.1) (absent s.2 k none_there)
  · exact fun s k v => rfl
  · exact fun s k => rfl
  · exact fun s k => rfl
  · exact fun s k => rfl
  · exact fun s => rfl

/-- Moving an entry to the front keeps the entries. -/
theorem touch_perm (k : K) (entries : List (K × V)) : (touch k entries).Perm entries := by
  -- The entry that was used goes to one end, and the others keep their order.
  have parts := List.filter_append_perm (fun entry : K × V => decide (entry.1 = k)) entries
  simpa [touch] using parts

/-- A key that is found has an entry with the value. -/
theorem Laws.mem_of_get {lru : Lru K V} (laws : lru.Laws) {s : lru.State} {k : K} {v : V}
    (found : (lru.get s k).2 = some v) : (k, v) ∈ lru.entries s := by
  -- What is found is the first entry with the key.
  rw [laws.get_found] at found
  obtain ⟨entry, first, rfl⟩ := Option.map_eq_some_iff.mp found
  have key : entry.1 = k := by simpa using List.find?_some first
  subst key
  exact List.mem_of_find?_eq_some first

/-- A key that is not found has no entry. -/
theorem Laws.absent_of_get {lru : Lru K V} (laws : lru.Laws) {s : lru.State} {k : K}
    (missing : (lru.get s k).2 = none) : ∀ entry ∈ lru.entries (lru.get s k).1, entry.1 ≠ k := by
  -- Nothing was found, and looking it up only moves entries.
  rw [laws.get_found, Option.map_eq_none_iff, List.find?_eq_none] at missing
  intro entry inside
  rw [laws.get_entries] at inside
  simpa using missing entry ((touch_perm k _).mem_iff.mp inside)

end Lru

end Spycat.Lib
