import Spycat.Core.AttributeMaps
import Spycat.Lib.Run

/-! Label maps have their values to themselves, as long as nothing is overwritten after a merge. -/

namespace Spycat.AttributeMaps

open Lib

variable {ι : Type} [DecidableEq ι]

/-- Every kind of value is stored in one way. -/
theorem addValue_eq (maps : AttributeMaps ι) (a : ι) (key : String) (value : AttributeValue) :
    maps.addValue a key value = maps.put a key value := by
  -- The three setters differ in the type of the value alone.
  cases value <;> rfl

/-- The default of a default is the default. -/
theorem reset_again (value : AttributeValue) : value.reset.reset = value.reset := by
  -- The value that is left has the same type.
  cases value <;> rfl

/-- A call writes behind references of one map alone. -/
def Unshared (maps : AttributeMaps ι) : Call ι → Prop
  | .updateAddString a key _ | .updateAddInt a key _ | .updateAddBool a key _ =>
    ∀ cell, (maps.maps a).lookup key = some cell → maps.Own a cell
  | .reset _ a => ∀ key cell, (maps.maps a).lookup key = some cell → maps.Own a cell
  | _ => True

omit [DecidableEq ι] in
/-- Where no reference is shared, every call writes behind references of one map. -/
theorem unshared_of_apart {maps : AttributeMaps ι} (apart : maps.Apart) (call : Call ι) :
    maps.Unshared call := by
  -- Where no cell is shared, the ones that a call writes are not.
  cases call with
  | updateAddString a key _ | updateAddInt a key _ | updateAddBool a key _ =>
    exact fun cell stored => apart a key cell stored
  | reset _ a => exact fun key cell stored => apart a key cell stored
  | new | add | merge | remove | clear | clone => trivial

omit [DecidableEq ι] in
/-- A call that writes behind no reference does not mind whether they are shared. -/
theorem unshared_of_not_writes {call : Call ι} (quiet : ¬ call.Writes) (maps : AttributeMaps ι) :
    maps.Unshared call := by
  -- A call that writes no cell asks for nothing.
  cases call with
  | updateAddString | updateAddInt | updateAddBool | reset => exact absurd trivial quiet
  | new | add | merge | remove | clear | clone => trivial

section Update

variable {maps : AttributeMaps ι}

/-- What overwriting or storing makes of a map. -/
theorem updateAddValue_cases {a : ι} {key : String} {value : AttributeValue}
    {next : AttributeMaps ι} (updated : maps.updateAddValue a key value = some next) :
    (∃ cell, (maps.maps a).lookup key = some cell ∧ next = maps.write cell value) ∨
      (maps.maps a).lookup key = none ∧ next = maps.put a key value := by
  -- There is a reference, whose value has the type, or there is none.
  rw [updateAddValue] at updated
  split at updated
  · rename_i cell stored
    split at updated
    · exact .inl ⟨cell, stored, (Option.some.inj updated).symm⟩
    · cases updated
  · rename_i absent
    rw [addValue_eq] at updated
    exact .inr ⟨absent, (Option.some.inj updated).symm⟩

/-- Overwriting or storing a value is read in the one map; it panics where a type is another. -/
theorem updateAddValue_values (sound : maps.Sound) {a : ι} {key : String} (value : AttributeValue)
    (own : ∀ cell, (maps.maps a).lookup key = some cell → maps.Own a cell) :
    (maps.updateAddValue a key value).map CellMaps.value =
      AttributeValues.updateAdd maps.value a key value := by
  -- What is under the name decides, and then the type of the value there.
  rw [updateAddValue, AttributeValues.updateAdd, CellMaps.value]
  cases stored : (maps.maps a).lookup key with
  | none =>
    simp only [addValue_eq, Option.map_some, Option.bind_none, Option.all_none, if_true]
    congr 1
    funext other key'
    exact CellMaps.value_put a other key key' sound.bounded value
  | some cell =>
    have inside := sound.bounded a key cell stored
    simp only [Option.bind_some, List.getElem?_eq_getElem inside, Option.map_some,
      Option.some.injEq, Option.all_some, decide_eq_true_eq]
    split
    · rw [Option.map_some]
      congr 1
      funext other key'
      exact CellMaps.value_write a other key key' sound stored (own cell stored) value
    · rfl

end Update

section Steps

variable {maps next : AttributeMaps ι} {call : Call ι}

/-- A call on maps with their own references makes of the values what it is for. -/
theorem step_values (sound : maps.Sound) (unshared : maps.Unshared call) :
    (maps.step call).map CellMaps.value = AttributeValues.step maps.value call := by
  -- What each function does to the values was said of the cells.
  cases call with
  | new target | clear target =>
    refine congrArg some (funext₂ fun other key => ?_)
    exact CellMaps.value_clear target other key
  | add a key value =>
    refine congrArg some (funext₂ fun other key' => ?_)
    rw [addValue_eq]
    exact CellMaps.value_put a other key key' sound.bounded value
  | updateAddString a key value => exact updateAddValue_values sound (.string value) unshared
  | updateAddInt a key value => exact updateAddValue_values sound (.int value) unshared
  | updateAddBool a key value => exact updateAddValue_values sound (.bool value) unshared
  | merge order a other =>
    cases other with
    | none => rfl
    | some other =>
      refine congrArg some (funext₂ fun map key => ?_)
      exact CellMaps.value_adopt a map key sound.bounded order other
  | remove a key =>
    refine congrArg some (funext₂ fun other key' => ?_)
    exact CellMaps.value_remove a other key key'
  | reset order a =>
    refine congrArg some (funext₂ fun other key => ?_)
    exact CellMaps.value_change a other key order reset_again unshared
  | clone order a target =>
    refine congrArg some (funext₂ fun other key => ?_)
    exact CellMaps.value_copy sound order a target other key

/-- Overwriting or storing keeps every reference under one name. -/
theorem updateAddValue_sound (sound : maps.Sound) {a : ι} {key : String} {value : AttributeValue}
    (updated : maps.updateAddValue a key value = some next) : next.Sound := by
  -- A cell is written, or a new one put in.
  rcases updateAddValue_cases updated with ⟨cell, _, rfl⟩ | ⟨_, rfl⟩
  · exact CellMaps.sound_write sound cell value
  · exact CellMaps.sound_put sound a key value

/-- Every call keeps each reference under one name. -/
theorem step_sound (sound : maps.Sound) (taken : maps.step call = some next) : next.Sound := by
  -- No function puts a reference under another name.
  cases call with
  | updateAddString | updateAddInt | updateAddBool => exact updateAddValue_sound sound taken
  | new target | clear target =>
    cases taken
    exact CellMaps.sound_clear sound target
  | add a key value =>
    cases taken
    rw [addValue_eq]
    exact CellMaps.sound_put sound a key value
  | merge order a other =>
    cases taken
    cases other with
    | none => exact sound
    | some other => exact CellMaps.sound_adopt sound order a other
  | remove a key =>
    cases taken
    exact CellMaps.sound_remove sound a key
  | reset order a =>
    cases taken
    exact CellMaps.sound_change sound order a _
  | clone order a target =>
    cases taken
    exact (CellMaps.copied_copy sound order a target).sound

/-- Overwriting or storing shares no reference. -/
theorem updateAddValue_apart (sound : maps.Sound) (apart : maps.Apart) {a : ι} {key : String}
    {value : AttributeValue} (updated : maps.updateAddValue a key value = some next) :
    next.Apart := by
  -- A cell that is written stays where it is, and a new one is in one map only.
  rcases updateAddValue_cases updated with ⟨cell, _, rfl⟩ | ⟨_, rfl⟩
  · exact apart.of_known fun _ _ _ stored => stored
  · exact CellMaps.apart_put sound.bounded apart a key value

/-- Only a merge shares references. -/
theorem step_apart (sound : maps.Sound) (apart : maps.Apart) (alone : ¬ call.Shares)
    (taken : maps.step call = some next) : next.Apart := by
  -- All functions but the merge take new references, or none.
  cases call with
  | updateAddString | updateAddInt | updateAddBool => exact updateAddValue_apart sound apart taken
  | new target | clear target =>
    cases taken
    exact apart.of_known (CellMaps.clear_known target)
  | add a key value =>
    cases taken
    rw [addValue_eq]
    exact CellMaps.apart_put sound.bounded apart a key value
  | merge order a other =>
    cases taken
    cases other with
    | none => exact apart
    | some other => exact absurd trivial alone
  | remove a key =>
    cases taken
    exact apart.of_known (CellMaps.remove_known a key)
  | reset order a =>
    cases taken
    exact apart.of_known fun _ _ _ stored => stored
  | clone order a target =>
    cases taken
    exact CellMaps.apart_copy sound apart order a target

end Steps

/-- Calls of which none writes after one has shared, are never told apart by what they share. -/
theorem allowed_calm {maps : AttributeMaps ι} (sound : maps.Sound) (apart : maps.Apart)
    {calls : List (Call ι)} (calm : calls.Pairwise fun first later =>
      first.Shares → ¬ later.Writes) : Allowed step Unshared maps calls := by
  -- Until the first merge no reference is shared, and from then on nothing is overwritten.
  induction calls generalizing maps with
  | nil => trivial
  | cons call rest ih =>
    obtain ⟨here, later⟩ := List.pairwise_cons.mp calm
    refine ⟨unshared_of_apart apart call, fun next taken => ?_⟩
    by_cases shares : call.Shares
    · exact allowed_everywhere fun other member =>
        unshared_of_not_writes (here other member shares)
    · exact ih (step_sound sound taken) (step_apart sound apart shares taken) later

/-- Calls on maps with their own references make of the values what they are for. -/
theorem run_allowed {maps : AttributeMaps ι} (sound : maps.Sound) {calls : List (Call ι)}
    (allowed : Allowed step Unshared maps calls) :
    (run step maps calls).map CellMaps.value = run AttributeValues.step maps.value calls := by
  -- The induction follows the calls, with the maps that each of them leaves.
  induction calls generalizing maps with
  | nil => rfl
  | cons call rest ih =>
    obtain ⟨unshared, later⟩ := allowed
    rw [run_cons, run_cons, ← step_values sound unshared]
    cases taken : maps.step call with
    | none => rfl
    | some next => exact ih (step_sound sound taken) (later next taken)

/--
As long as no value is overwritten after a merge, label maps have their values to themselves.

The calls panic exactly where a value of another type is stored, and otherwise give every map the
values that it would have alone; a clone has the values of its map and no reference of it.
-/
theorem run_values {calls : List (Call ι)}
    (calm : calls.Pairwise fun first later => first.Shares → ¬ later.Writes) :
    (run step CellMaps.empty calls).map CellMaps.value =
      run AttributeValues.step (fun _ _ => none) calls :=
  -- At the start there are no cells, so none is shared.
  run_allowed CellMaps.sound_empty (allowed_calm CellMaps.sound_empty CellMaps.apart_empty calm)

/-- A label is overwritten in a clone. -/
def overwrittenClone : List (Call Bool) :=
  [.new false, .add false "pid" (.int 1), .clone .listed false true, .updateAddInt true "pid" 2]

/-- The map that was cloned keeps its label. -/
theorem run_values_clone :
    (run step CellMaps.empty overwrittenClone).map
        (fun maps => (maps.value false "pid", maps.value true "pid")) =
      some (some (.int 1), some (.int 2)) := by
  -- The clone has cells of its own, so overwriting it leaves the first map alone.
  have calm : overwrittenClone.Pairwise fun first later => first.Shares → ¬ later.Writes := by
    simp [overwrittenClone, Call.Shares]
  have same := congrArg (Option.map fun values => (values false "pid", values true "pid"))
    (run_values calm)
  rw [Option.map_map] at same
  exact same

/-- After a merge the other map has what is overwritten. -/
example : ((run step CellMaps.empty [.add true "pid" (.int 1), .merge .listed false (some true),
    .updateAddInt false "pid" 2]).bind fun maps => maps.value true "pid") = some (.int 2) := rfl

end Spycat.AttributeMaps
