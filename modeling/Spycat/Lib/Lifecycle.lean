import Spycat.Lib.Run

/-! Resources that are opened once, used while they are open, and closed at most once. -/

namespace Spycat.Lib

variable {α : Type}

/-- What happens to a resource. -/
inductive Use (α : Type) where
  | opened
  | used (value : α)
  | closed
  deriving DecidableEq, Repr

/-- Whether it is closed by this. -/
def Use.closes : Use α → Bool
  | .closed => true
  | .opened | .used _ => false

/-- How far a resource has come. -/
inductive Phase where
  | unopened
  | opened
  | closed
  deriving DecidableEq, Repr

/-- The phase after a use, absent where the use is a mistake. -/
def Phase.next : Phase → Use α → Option Phase
  | .unopened, .opened => some .opened
  | .opened, .used _ => some .opened
  | .opened, .closed => some .closed
  | _, _ => none

/-- The phase that uses lead to, absent where one of them is a mistake. -/
def phase (uses : List (Use α)) : Option Phase := run Phase.next .unopened uses

/-- A resource is open: it was opened, and it was not closed. -/
def IsOpen (uses : List (Use α)) : Prop := .opened ∈ uses ∧ .closed ∉ uses

/-- Further uses go on from the phase so far. -/
theorem phase_append (before after : List (Use α)) :
    phase (before ++ after) = (phase before).bind fun p => run Phase.next p after :=
  -- The phase is a run over the uses.
  run_append before after

/-- What the phases say about the uses that led to them. -/
theorem phase_spec {uses : List (Use α)} {p : Phase} (reached : phase uses = some p) :
    (.opened ∈ uses ↔ p ≠ .unopened) ∧
      uses.countP Use.closes = if p = .closed then 1 else 0 := by
  -- The uses are taken apart from the end.
  induction uses using List.reverseRecOn generalizing p with
  | nil =>
    obtain rfl : Phase.unopened = p := Option.some.inj reached
    exact ⟨by simp, rfl⟩
  | append_singleton before use ih =>
    rw [phase_append] at reached
    obtain ⟨q, earlier, last⟩ := Option.bind_eq_some_iff.mp reached
    obtain ⟨was_opened, closings⟩ := ih earlier
    have step : Phase.next q use = some p := by simpa using last
    rw [List.mem_append, List.countP_append, was_opened, closings]
    cases q <;> cases use <;> simp [Phase.next] at step <;> subst step <;> simp [Use.closes]

/-- A resource is open exactly in the phase in between. -/
theorem isOpen_iff {uses : List (Use α)} {p : Phase} (reached : phase uses = some p) :
    IsOpen uses ↔ p = .opened := by
  -- A value that was closed has a closing among its uses, and no other has one.
  obtain ⟨was_opened, closings⟩ := phase_spec reached
  have never : .closed ∉ uses ↔ p ≠ .closed := by
    constructor
    · intro absent is
      rw [if_pos is] at closings
      have one : 0 < uses.countP Use.closes := by omega
      obtain ⟨use, inside, closes⟩ := List.countP_pos_iff.mp one
      cases use <;> simp [Use.closes] at closes
      exact absent inside
    · intro other inside
      rw [if_neg other] at closings
      have none_closes := List.countP_eq_zero.mp closings .closed inside
      exact none_closes rfl
  rw [IsOpen, was_opened, never]
  cases p <;> simp

/-- A resource is used only while it is open. -/
theorem isOpen_of_used {before after : List (Use α)} {value : α} {p : Phase}
    (reached : phase (before ++ .used value :: after) = some p) : IsOpen before := by
  -- Only an open value can be used.
  rw [phase_append] at reached
  obtain ⟨q, earlier, later⟩ := Option.bind_eq_some_iff.mp reached
  rw [run_cons] at later
  obtain ⟨r, use, -⟩ := Option.bind_eq_some_iff.mp later
  rw [isOpen_iff earlier]
  cases q <;> simp [Phase.next] at use ⊢

/-- A resource is in the hands of an owner: it is open just while it is held, it was closed once if
it was opened and is not held any more, never twice, and it was used only while it was open. -/
structure Kept (uses : List (Use α)) (held : Prop) : Prop where
  isOpen_iff : IsOpen uses ↔ held
  closed_once : .opened ∈ uses → ¬ held → uses.countP Use.closes = 1
  not_twice : uses.countP Use.closes ≤ 1
  used_open : ∀ before value after, uses = before ++ .used value :: after → IsOpen before

/-- A resource is kept if its phase says whether it is held. -/
theorem kept_of_phase {uses : List (Use α)} {p : Phase} {held : Prop}
    (reached : phase uses = some p) (holds : p = .opened ↔ held) : Kept uses held := by
  -- The phase says whether the value was opened, and how often it was closed.
  obtain ⟨was_opened, closings⟩ := phase_spec reached
  constructor
  · rw [Lib.isOpen_iff reached, holds]
  · intro opened free
    have other : p ≠ .opened := fun is => free (holds.mp is)
    have begun := was_opened.mp opened
    rw [closings]
    cases p <;> simp at other begun ⊢
  · rw [closings]
    split <;> omega
  · intro before value after split
    subst split
    exact isOpen_of_used reached

end Spycat.Lib
