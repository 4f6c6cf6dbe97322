import Mathlib.Data.List.Basic

/-! Records as one value for each of a list of named fields, and copying one into another. -/

namespace Spycat.Lib

/-- Named fields, each of a kind. -/
abbrev Fields (κ : Type) := List (String × κ)

/-- A value for each field. -/
def Record {κ : Type} (Value : κ → Type) : Fields κ → Type
  | [] => Unit
  | field :: rest => Value field.2 × Record Value rest

namespace Record

variable {κ : Type} {Value : κ → Type}

/-- The kind and the value of the first field of a name. -/
def field? (name : String) :
    (fields : Fields κ) → Record Value fields → Option ((kind : κ) × Value kind)
  | [], _ => none
  | field :: rest, record =>
    if field.1 = name then some ⟨field.2, record.1⟩ else field? name rest record.2

/-- Overwrite the fields of a record by those of another, position by position. -/
def copyInto [DecidableEq κ] :
    (source target : Fields κ) → Record Value source → Record Value target →
      Option (Record Value target)
  | [], _, _, record => some record
  -- There is no field at the position, or it is of another kind.
  | _ :: _, [], _, _ => none
  | first :: source, second :: target, values, record =>
    if same : first.2 = second.2 then
      (copyInto source target values.2 record.2).map fun rest => (same ▸ values.1, rest)
    else none

/-- Two records agree: whatever both have a field for, they have the same value for. -/
def Agrees {source target : Fields κ} (values : Record Value source)
    (record : Record Value target) : Prop :=
  ∀ name value other, values.field? name = some value → record.field? name = some other →
    value = other

section Laws

variable [DecidableEq κ]

/-- Copying goes through exactly where the kinds are the first ones of the target. -/
theorem copyInto_isSome_iff {source target : Fields κ} (values : Record Value source)
    (record : Record Value target) :
    (copyInto source target values record).isSome ↔
      source.map (·.2) <+: target.map (·.2) := by
  -- The fields are passed one by one, from the front of both lists.
  induction source generalizing target with
  | nil => simp [copyInto]
  | cons first source ih =>
    cases target with
    | nil => simp [copyInto]
    | cons second target =>
      by_cases same : first.2 = second.2
      · have goes : (copyInto (first :: source) (second :: target) values record).isSome =
            (copyInto source target values.2 record.2).isSome := by
          rw [copyInto, dif_pos same]
          exact Option.isSome_map
        rw [goes, ih, List.map_cons, List.map_cons, same, List.cons_prefix_cons]
        simp
      · simp [copyInto, same, List.cons_prefix_cons]

/-- A record that is copied over one of the same fields replaces it. -/
theorem copyInto_same (fields : Fields κ) (values record : Record Value fields) :
    copyInto fields fields values record = some values := by
  -- Every field takes the value that it is given.
  induction fields with
  | nil => rfl
  | cons field rest ih =>
    rw [copyInto, dif_pos rfl, ih]
    rfl

end Laws

/-- A record agrees with itself. -/
theorem agrees_self {fields : Fields κ} (record : Record Value fields) : record.Agrees record := by
  -- A field has one value.
  intro name value other first second
  exact Option.some.inj (first.symm.trans second)

/-- A field is found exactly under the names of the record. -/
theorem field?_isSome_iff {fields : Fields κ} (record : Record Value fields) (name : String) :
    (record.field? name).isSome ↔ name ∈ fields.map (·.1) := by
  -- The induction is on the fields, of which the first with the name counts.
  induction fields with
  | nil => simp [field?]
  | cons field rest ih =>
    by_cases same : field.1 = name
    · simp [field?, same]
    · simp [field?, same, ih, Ne.symm same]

/-- A record with distinct names is given by the values under its names. -/
theorem eq_of_agrees {fields : Fields κ} (distinct : (fields.map (·.1)).Nodup)
    {values record : Record Value fields} (agrees : values.Agrees record) : values = record := by
  -- The first field is the only one of its name, so the other names read the other fields.
  induction fields with
  | nil => rfl
  | cons field rest ih =>
    rw [List.map_cons, List.nodup_cons] at distinct
    have first : values.1 = record.1 := by
      have same := agrees field.1 ⟨field.2, values.1⟩ ⟨field.2, record.1⟩ (if_pos rfl) (if_pos rfl)
      simpa using same
    have others : values.2 = record.2 := by
      refine ih distinct.2 fun name value other found found' => ?_
      have inside : name ∈ rest.map (·.1) :=
        (field?_isSome_iff values.2 name).mp (by simp [found])
      have different : field.1 ≠ name := fun same => distinct.1 (same ▸ inside)
      exact agrees name value other (by simp [field?, different, found])
        (by simp [field?, different, found'])
    exact Prod.ext first others

end Record

end Spycat.Lib
