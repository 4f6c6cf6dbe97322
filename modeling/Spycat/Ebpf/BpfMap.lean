import Spycat.Lib.Assoc

/-! The operations that kernel and user programs share on hash maps of a fixed capacity. -/

namespace Spycat.Bpf

open Lib

/-- When an update stores its value. -/
inductive UpdateFlag where
  | any
  | noExist
  deriving DecidableEq, Repr

section Operations

variable {κ ν : Type} [DecidableEq κ]

/-- Store a value under a key; absent where the update is refused. -/
def updateElem (maxEntries : Nat) (map : Assoc κ ν) (key : κ) (value : ν) (flag : UpdateFlag) :
    Option (Assoc κ ν) :=
  match map.lookup key with
  | some _ =>
    -- An update of a present key needs no room, but the flag can forbid it.
    if flag = .noExist then none else some (map.insert key value)
  | none =>
    -- A new key needs room.
    if map.size < maxEntries then some (map.insert key value) else none

/-- Store a value where the caller ignores whether that worked. -/
def tryUpdateElem (maxEntries : Nat) (map : Assoc κ ν) (key : κ) (value : ν)
    (flag : UpdateFlag) : Assoc κ ν :=
  (updateElem maxEntries map key value flag).getD map

/-- Remove a key; absent where there is none. -/
def deleteElem (map : Assoc κ ν) (key : κ) : Option (Assoc κ ν) :=
  (map.lookup key).map fun _ => map.erase key

/-- A new key is stored where there is room. -/
theorem tryUpdateElem_new {maxEntries : Nat} {map : Assoc κ ν} {key : κ} (value : ν)
    (flag : UpdateFlag) (absent : map.lookup key = none) (room : map.size < maxEntries) :
    tryUpdateElem maxEntries map key value flag = map.insert key value := by
  -- There is room for a new entry, which both flags allow.
  simp [tryUpdateElem, updateElem, absent, room]

/-- A present key is overwritten by an update that may. -/
theorem tryUpdateElem_any {maxEntries : Nat} {map : Assoc κ ν} {key : κ} {old : ν} (value : ν)
    (present : map.lookup key = some old) :
    tryUpdateElem maxEntries map key value .any = map.insert key value := by
  -- An entry that is there needs no room.
  simp [tryUpdateElem, updateElem, present]

/-- A key is present after an update that may overwrite it, unless the map is full. -/
theorem tryUpdateElem_present {maxEntries : Nat} {map : Assoc κ ν} (key : κ) (value : ν) :
    ((tryUpdateElem maxEntries map key value .any).lookup key).isSome ∨
      maxEntries ≤ (tryUpdateElem maxEntries map key value .any).size := by
  -- An update is refused only for a new key in a full map.
  cases found : map.lookup key with
  | some old =>
    rw [tryUpdateElem_any value found, AList.lookup_insert]
    exact .inl rfl
  | none =>
    by_cases room : map.size < maxEntries
    · rw [tryUpdateElem_new value .any found room, AList.lookup_insert]
      exact .inl rfl
    · right
      simp only [tryUpdateElem, updateElem, found, room, if_false, Option.getD_none]
      omega

/-- No key goes away by an update, and a full map stays full. -/
theorem tryUpdateElem_keeps {maxEntries : Nat} {map : Assoc κ ν} (key : κ) (value : ν) (other : κ)
    (kept : (map.lookup other).isSome ∨ maxEntries ≤ map.size) :
    ((tryUpdateElem maxEntries map key value .any).lookup other).isSome ∨
      maxEntries ≤ (tryUpdateElem maxEntries map key value .any).size := by
  -- The key that is stored is present or has no room, and the others are not touched.
  by_cases same : other = key
  · subst same
    exact tryUpdateElem_present other value
  · cases found : map.lookup key with
    | some old =>
      rw [tryUpdateElem_any value found, AList.lookup_insert_ne same, Assoc.size_insert _ found]
      exact kept
    | none =>
      by_cases room : map.size < maxEntries
      · rw [tryUpdateElem_new value .any found room, AList.lookup_insert_ne same,
          Assoc.size_insert_new _ found]
        exact kept.imp_right fun full => by omega
      · simpa only [tryUpdateElem, updateElem, found, room, if_false, Option.getD_none] using kept

/-- An update that may overwrite stores its value, unless the key is new and the map full. -/
theorem tryUpdateElem_cases (maxEntries : Nat) (map : Assoc κ ν) (key : κ) (value : ν) :
    tryUpdateElem maxEntries map key value .any = map.insert key value ∨
      map.lookup key = none ∧ maxEntries ≤ map.size ∧
        tryUpdateElem maxEntries map key value .any = map := by
  -- A key that is present needs no room.
  cases found : map.lookup key with
  | some old => exact .inl (tryUpdateElem_any value found)
  | none =>
    by_cases room : map.size < maxEntries
    · exact .inl (tryUpdateElem_new value .any found room)
    · refine .inr ⟨rfl, by omega, ?_⟩
      simp [tryUpdateElem, updateElem, found, room]

/-- A present key can be removed. -/
theorem deleteElem_present {map : Assoc κ ν} {key : κ} {value : ν}
    (present : map.lookup key = some value) : deleteElem map key = some (map.erase key) := by
  -- Only a missing entry is an error.
  simp [deleteElem, present]

/-- What becomes of a map when a value is changed where there is one, and else stored. -/
inductive Upserted (maxEntries : Nat) (map : Assoc κ ν) (key : κ) (fresh : ν) (change : ν → ν) :
    Assoc κ ν → Prop
  | changed {old : ν} (present : map.lookup key = some old) :
      Upserted maxEntries map key fresh change (map.insert key (change old))
  | added (absent : map.lookup key = none) (room : map.size < maxEntries) :
      Upserted maxEntries map key fresh change (map.insert key fresh)
  | refused (absent : map.lookup key = none) (full : maxEntries ≤ map.size) :
      Upserted maxEntries map key fresh change map

/-- A lookup that is followed by an update does one of these. -/
theorem upserted (maxEntries : Nat) (map : Assoc κ ν) (key : κ) (fresh : ν) (change : ν → ν) :
    Upserted maxEntries map key fresh change
      (match map.lookup key with
        | some old => map.insert key (change old)
        | none => tryUpdateElem maxEntries map key fresh .any) := by
  -- Only a new value can lack room.
  cases found : map.lookup key with
  | some old => exact .changed found
  | none =>
    by_cases room : map.size < maxEntries
    · simp only [tryUpdateElem_new fresh .any found room]
      exact .added found room
    · have kept : tryUpdateElem maxEntries map key fresh .any = map := by
        simp [tryUpdateElem, updateElem, found, room]
      simp only [kept]
      exact .refused found (by omega)

/-- Other keys keep their values. -/
theorem Upserted.other {maxEntries : Nat} {map map' : Assoc κ ν} {key other : κ} {fresh : ν}
    {change : ν → ν} (upserted : Upserted maxEntries map key fresh change map')
    (different : other ≠ key) : map'.lookup other = map.lookup other := by
  -- Each way writes under the key alone, or not at all.
  cases upserted with
  | changed | added => exact AList.lookup_insert_ne different
  | refused => rfl

/-- No value goes away. -/
theorem Upserted.size_le {maxEntries : Nat} {map map' : Assoc κ ν} {key : κ} {fresh : ν}
    {change : ν → ν} (upserted : Upserted maxEntries map key fresh change map') :
    map.size ≤ map'.size := by
  -- No way removes a key.
  cases upserted with
  | changed present => exact (Assoc.size_insert _ present).ge
  | added absent => rw [Assoc.size_insert_new _ absent]; omega
  | refused => exact le_refl _

/-- No more than one value is new. -/
theorem Upserted.size_le_succ {maxEntries : Nat} {map map' : Assoc κ ν} {key : κ} {fresh : ν}
    {change : ν → ν} (upserted : Upserted maxEntries map key fresh change map') :
    map'.size ≤ map.size + 1 := by
  -- Only a key that was absent adds a value.
  cases upserted with
  | changed present => rw [Assoc.size_insert _ present]; omega
  | added absent => exact (Assoc.size_insert_new _ absent).le
  | refused => omega

end Operations

end Spycat.Bpf
