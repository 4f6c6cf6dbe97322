import Mathlib.Data.List.Basic
import Mathlib.Data.List.Induction

/-! Runs of a step function that may refuse a step, and the induction rules over them. -/

namespace Spycat.Lib

variable {σ α μ : Type}

/-- Take a sequence of steps one after the other; a refused step refuses the run. -/
def run (step : σ → α → Option σ) (start : σ) (actions : List α) : Option σ :=
  actions.foldlM step start

/-- Every step of a run is allowed in the state it is taken in. -/
def Allowed (step : σ → α → Option σ) (allows : σ → α → Prop) : σ → List α → Prop
  | _, [] => True
  | state, action :: rest =>
    allows state action ∧ ∀ next, step state action = some next → Allowed step allows next rest

/-- A run passes through a state: it is there at the start or after some of the steps. -/
def Visited (step : σ → α → Option σ) (start : σ) (actions : List α) (state : σ) : Prop :=
  ∃ before, before <+: actions ∧ run step start before = some state

/-- What is observed of the steps of a run, each in the state that it is taken in. -/
def observed {β : Type} (step : σ → α → Option σ) (observe : σ → α → Option β) :
    σ → List α → List β
  | _, [] => []
  | state, action :: rest =>
    (observe state action).toList ++
      (step state action).elim [] fun next => observed step observe next rest

section Rules

variable {step : σ → α → Option σ} {start finish : σ}

@[simp] theorem run_nil : run step start [] = some start := rfl

@[simp] theorem run_cons (action : α) (rest : List α) :
    run step start (action :: rest) = (step start action).bind fun next => run step next rest := rfl

/-- A run can be cut at any point. -/
theorem run_append (first second : List α) :
    run step start (first ++ second) =
      (run step start first).bind fun next => run step next second := by
  -- The induction follows the steps of the first part.
  induction first generalizing start with
  | nil => rfl
  | cons action rest ih =>
    simp only [List.cons_append, run_cons]
    cases step start action with
    | none => rfl
    | some next => exact ih

/-- A run that goes one step further passes through one more state. -/
theorem visited_append {actions : List α} {action : α} {next : σ}
    (ran : run step start actions = some finish) (taken : step finish action = some next)
    (state : σ) :
    Visited step start (actions ++ [action]) state ↔
      Visited step start actions state ∨ state = next := by
  -- A run that stops before the last step is a run of the past, and the others have all steps.
  have further : run step start (actions ++ [action]) = some next := by
    simp [run_append, ran, taken]
  constructor
  · rintro ⟨before, inside, reached⟩
    rcases List.prefix_concat_iff.mp inside with rfl | earlier
    · exact .inr (Option.some.inj (reached.symm.trans further))
    · exact .inl ⟨before, earlier, reached⟩
  · rintro (⟨before, earlier, reached⟩ | rfl)
    · exact ⟨before, earlier.trans (List.prefix_append ..), reached⟩
    · exact ⟨_, List.prefix_refl _, further⟩

/-- A run passes through the state that it ends in. -/
theorem visited_finish {actions : List α} (ran : run step start actions = some finish) :
    Visited step start actions finish := ⟨actions, List.prefix_refl _, ran⟩

/-- What an allowed step carries along the actions taken so far, an allowed run carries. -/
theorem run_history_allowed {allows : σ → α → Prop} (holds : List α → σ → Prop)
    (initial : holds [] start)
    (preserved : ∀ past state action next, holds past state → allows state action →
      step state action = some next → holds (past ++ [action]) next)
    {actions : List α} (allowed : Allowed step allows start actions)
    (ran : run step start actions = some finish) : holds actions finish := by
  -- The actions already taken stay quantified while the rest of the run is consumed.
  have general : ∀ (rest past : List α) (state : σ), holds past state →
      Allowed step allows state rest → run step state rest = some finish →
      holds (past ++ rest) finish := by
    intro rest
    induction rest with
    | nil =>
      intro past state carried _ done
      simp only [run_nil, Option.some.injEq] at done
      simpa [← done] using carried
    | cons action rest ih =>
      intro past state carried ⟨allowed, later⟩ done
      obtain ⟨next, taken, done⟩ := Option.bind_eq_some_iff.mp done
      have kept := preserved past state action next carried allowed taken
      simpa using ih (past ++ [action]) next kept (later next taken) done
  exact general actions [] start initial allowed ran

/-- Steps that are allowed in every state make an allowed run. -/
theorem allowed_everywhere {allows : σ → α → Prop} {actions : List α}
    (everywhere : ∀ action ∈ actions, ∀ state, allows state action) :
    Allowed step allows start actions := by
  -- Whatever state a step reaches, the next one is allowed there too.
  induction actions generalizing start with
  | nil => trivial
  | cons action rest ih =>
    exact ⟨everywhere action (by simp) start,
      fun next _ => ih fun later member => everywhere later (by simp [member])⟩

/-- A run without restrictions is allowed. -/
theorem allowed_any (actions : List α) : Allowed step (fun _ _ => True) start actions :=
  -- Every step is allowed.
  allowed_everywhere fun _ _ _ => trivial

/-- A run with one more step is allowed when the run is and the step is allowed where it ends. -/
theorem allowed_append {allows : σ → α → Prop} (past : List α) (action : α) :
    Allowed step allows start (past ++ [action]) ↔
      Allowed step allows start past ∧
        ∀ state, run step start past = some state → allows state action := by
  -- The run is consumed from its front, up to the one step.
  induction past generalizing start with
  | nil => simp [Allowed]
  | cons first rest ih =>
    simp only [List.cons_append, Allowed, ih, run_cons]
    constructor
    · rintro ⟨allowed, later⟩
      refine ⟨⟨allowed, fun next taken => (later next taken).1⟩, fun state ran => ?_⟩
      obtain ⟨next, taken, ran⟩ := Option.bind_eq_some_iff.mp ran
      exact (later next taken).2 state ran
    · rintro ⟨⟨allowed, later⟩, last⟩
      refine ⟨allowed, fun next taken => ⟨later next taken, fun state ran => ?_⟩⟩
      exact last state (by simp [taken, ran])

/-- A run that goes one step further is observed in one step more. -/
theorem observed_append {β : Type} (observe : σ → α → Option β) {past : List α}
    (ran : run step start past = some finish) (action : α) :
    observed step observe start (past ++ [action]) =
      observed step observe start past ++ (observe finish action).toList := by
  -- The run is consumed from its front, down to the state that it ends in.
  induction past generalizing start with
  | nil =>
    obtain rfl := Option.some.inj ran
    simp only [List.nil_append, observed]
    cases step start action <;> exact List.append_nil _
  | cons first rest ih =>
    obtain ⟨next, taken, ran⟩ := Option.bind_eq_some_iff.mp ran
    simp only [List.cons_append, observed, taken, Option.elim_some, ih ran, List.append_assoc]

/-- What one step carries along the actions taken so far, a whole run carries. -/
theorem run_history (holds : List α → σ → Prop) (initial : holds [] start)
    (preserved : ∀ past state action next,
      holds past state → step state action = some next → holds (past ++ [action]) next)
    {actions : List α} (ran : run step start actions = some finish) : holds actions finish :=
  -- Every run is allowed when nothing is forbidden.
  run_history_allowed holds initial
    (fun past state action next carried _ => preserved past state action next carried)
    (allowed_any actions) ran

/-- An invariant of every step is an invariant of every run. -/
theorem run_invariant (holds : σ → Prop) (initial : holds start)
    (preserved : ∀ state action next, holds state → step state action = some next → holds next)
    {actions : List α} (ran : run step start actions = some finish) : holds finish :=
  -- An invariant is a history that forgets what happened.
  run_history (fun _ state => holds state) initial
    (fun _ state action next => preserved state action next) ran

/--
What one step keeps exactly where it is allowed holds in all states of exactly the allowed runs.

The invariant is what every step keeps, allowed or not.
-/
theorem always_iff_allowed {good : σ → Prop} {allows : σ → α → Prop} (holds : σ → Prop)
    (initial : holds start) (first : good start)
    (preserved : ∀ state action next, holds state → step state action = some next → holds next)
    (exact_ : ∀ state action next, holds state → good state → step state action = some next →
      (good next ↔ allows state action))
    {actions : List α} (ran : run step start actions = some finish) :
    (∀ state, Visited step start actions state → good state) ↔
      Allowed step allows start actions := by
  -- Both sides grow by one condition with every step.
  have carried : run step start actions = some finish ∧ holds finish ∧
      ((∀ state, Visited step start actions state → good state) ↔
        Allowed step allows start actions) := by
    refine run_history (fun past state => run step start past = some state ∧ holds state ∧
      ((∀ passed, Visited step start past passed → good passed) ↔
        Allowed step allows start past)) ?_ ?_ ran
    · refine ⟨rfl, initial, fun _ => trivial, fun _ state visited => ?_⟩
      obtain ⟨before, inside, reached⟩ := visited
      obtain rfl : before = [] := List.prefix_nil.mp inside
      exact Option.some.inj reached ▸ first
    · rintro past state action next ⟨reached, carried, equal⟩ taken
      refine ⟨by simp [run_append, reached, taken], preserved state action next carried taken, ?_⟩
      rw [allowed_append, ← equal]
      simp only [visited_append reached taken]
      constructor
      · intro always
        have before : ∀ passed, Visited step start past passed → good passed :=
          fun passed visited => always passed (.inl visited)
        refine ⟨before, fun other same => ?_⟩
        obtain rfl : state = other := Option.some.inj (reached.symm.trans same)
        exact (exact_ state action next carried (before state (visited_finish reached)) taken).mp
          (always next (.inr rfl))
      · rintro ⟨before, allowed⟩ passed (visited | rfl)
        · exact before passed visited
        · have right := before state (visited_finish reached)
          exact (exact_ state action passed carried right taken).mpr (allowed state reached)
  exact carried.2.2

/-- A run gets through where no step refuses a state that carries its history. -/
theorem run_progress (holds : List α → σ → Prop) (initial : holds [] start)
    (accepted : ∀ past state action, holds past state →
      ∃ next, step state action = some next ∧ holds (past ++ [action]) next)
    (actions : List α) : ∃ finish, run step start actions = some finish ∧ holds actions finish := by
  -- The run is built from its front, with the actions already taken in the invariant.
  have general : ∀ (rest past : List α) (state : σ), holds past state →
      ∃ finish, run step state rest = some finish ∧ holds (past ++ rest) finish := by
    intro rest
    induction rest with
    | nil => exact fun past state carried => ⟨state, rfl, by simpa using carried⟩
    | cons action rest ih =>
      intro past state carried
      obtain ⟨next, taken, kept⟩ := accepted past state action carried
      obtain ⟨finish, ran, reached⟩ := ih (past ++ [action]) next kept
      exact ⟨finish, by simp [taken, ran], by simpa using reached⟩
  exact general actions [] start initial

/--
A run gets through exactly where none of its steps is refused after the steps before it.

The history that the states carry decides which steps these are.
-/
theorem run_goes_iff {allows : List α → α → Prop} (holds : List α → σ → Prop)
    (initial : holds [] start)
    (preserved : ∀ past state action next,
      holds past state → step state action = some next → holds (past ++ [action]) next)
    (goes : ∀ past state action, holds past state →
      ((∃ next, step state action = some next) ↔ allows past action))
    (actions : List α) :
    (∃ finish, run step start actions = some finish) ↔
      ∀ past action, past ++ [action] <+: actions → allows past action := by
  -- The last step is the one that the run with it has to get through besides the others.
  induction actions using List.reverseRecOn with
  | nil => simp
  | append_singleton past action ih =>
    constructor
    · intro ⟨finish, whole⟩ before taken inside
      obtain ⟨state, ran, last⟩ := Option.bind_eq_some_iff.mp ((run_append ..).symm.trans whole)
      rcases List.prefix_concat_iff.mp inside with same | earlier
      · obtain ⟨rfl, same⟩ := List.append_inj' same rfl
        obtain rfl : taken = action := by simpa using same
        obtain ⟨next, stepped, _⟩ := Option.bind_eq_some_iff.mp last
        exact (goes before state taken (run_history holds initial preserved ran)).mp
          ⟨next, stepped⟩
      · exact ih.mp ⟨state, ran⟩ before taken earlier
    · intro allowed
      obtain ⟨state, ran⟩ := ih.mpr fun before taken earlier =>
        allowed before taken (earlier.trans (List.prefix_append ..))
      obtain ⟨next, stepped⟩ := (goes past state action
        (run_history holds initial preserved ran)).mpr (allowed past action (List.prefix_refl _))
      exact ⟨next, by simp [run_append, ran, stepped]⟩

/-- A step function that never refuses and follows an abstract one refines it over whole runs. -/
theorem run_simulates (related : σ → μ → Prop) {abstract : μ → α → μ} {model : μ}
    (initial : related start model)
    (follows : ∀ state image action, related state image →
      ∃ next, step state action = some next ∧ related next (abstract image action))
    (actions : List α) :
    ∃ finish, run step start actions = some finish ∧
      related finish (actions.foldl abstract model) := by
  -- Each step of the run is matched by a step of the other system.
  induction actions generalizing start model with
  | nil => exact ⟨start, rfl, initial⟩
  | cons action rest ih =>
    obtain ⟨next, taken, carried⟩ := follows start model action initial
    obtain ⟨finish, ran, reached⟩ := ih carried
    exact ⟨finish, by simp [taken, ran], reached⟩

end Rules

end Spycat.Lib
