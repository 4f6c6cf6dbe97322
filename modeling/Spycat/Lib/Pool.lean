import Mathlib.Data.List.Perm.Basic

/-! What queues and pools of workers hold, and how elements move between them. -/

namespace Spycat.Lib

variable {ε ω : Type}

/-- Two lists hold the same elements, and in the same order where that is promised. -/
structure Reordered (ordered : Prop) (xs ys : List ε) : Prop where
  perm : xs.Perm ys
  same : ordered → xs = ys

namespace Reordered

variable {ordered : Prop} {xs ys zs xs' ys' : List ε}

/-- Equal lists are in the same order. -/
theorem of_eq (equal : xs = ys) : Reordered ordered xs ys :=
  -- A list is a permutation of itself.
  ⟨equal ▸ List.Perm.refl _, fun _ => equal⟩

/-- A list is in its own order. -/
theorem refl : Reordered ordered xs xs := of_eq rfl

/-- Moves follow one another. -/
theorem trans (first : Reordered ordered xs ys) (second : Reordered ordered ys zs) :
    Reordered ordered xs zs :=
  -- Permutations compose, and so do equalities.
  ⟨first.perm.trans second.perm, fun kept => (first.same kept).trans (second.same kept)⟩

/-- What is in front and behind moves on its own. -/
theorem append (front : Reordered ordered xs ys) (back : Reordered ordered xs' ys') :
    Reordered ordered (xs ++ xs') (ys ++ ys') :=
  -- The two parts are moved for themselves.
  ⟨front.perm.append back.perm, fun kept => by rw [front.same kept, back.same kept]⟩

/-- What moves behind other elements. -/
theorem behind (moved : Reordered ordered xs ys) (front : List ε) :
    Reordered ordered (front ++ xs) (front ++ ys) := refl.append moved

/-- What moves in front of other elements. -/
theorem ahead (moved : Reordered ordered xs ys) (back : List ε) :
    Reordered ordered (xs ++ back) (ys ++ back) := moved.append refl

/-- An order that is promised less often is kept as well. -/
theorem weaken {less : Prop} (moved : Reordered ordered xs ys) (implies : less → ordered) :
    Reordered less xs ys :=
  -- A stronger promise still gives the equality.
  ⟨moved.perm, fun promised => moved.same (implies promised)⟩

end Reordered

section Pool

/-- What a pool of workers holds, worker by worker. -/
def contents (held : ω → List ε) (pool : List ω) : List ε := pool.flatMap held

variable (held : ω → List ε) {pool : List ω} {i : Nat} {w : ω}

/-- What a pool holds is what one worker holds, between what the others hold. -/
theorem contents_set (stands : pool[i]? = some w) :
    ∃ before after, contents held pool = before ++ (held w ++ after) ∧
      (∀ w', contents held (pool.set i w') = before ++ (held w' ++ after)) ∧
      (pool.length ≤ 1 → before = [] ∧ after = []) := by
  -- The worker is walked to from the front of the pool.
  induction pool generalizing i with
  | nil => simp at stands
  | cons first rest ih =>
    cases i with
    | zero =>
      obtain rfl : first = w := by simpa using stands
      refine ⟨[], rest.flatMap held, by simp [contents], by simp [contents], fun single => ?_⟩
      have alone : rest = [] := List.length_eq_zero_iff.mp (by simpa using single)
      exact ⟨rfl, by simp [alone]⟩
    | succ i =>
      have later : rest[i]? = some w := by simpa using stands
      obtain ⟨before, after, now, changed, _⟩ := ih later
      have now' : rest.flatMap held = before ++ (held w ++ after) := now
      have changed' : ∀ w', (rest.set i w').flatMap held = before ++ (held w' ++ after) := changed
      refine ⟨held first ++ before, after, by simp [contents, now'], by simp [contents, changed'],
        fun single => ?_⟩
      -- There is another worker in front of this one.
      obtain ⟨bound, _⟩ := List.getElem?_eq_some_iff.mp later
      simp only [List.length_cons] at single
      omega

/-- A worker that holds nothing takes the next elements of a queue. -/
theorem contents_take (w' : ω) (stands : pool[i]? = some w) (free : held w = [])
    (rest : List ε) :
    Reordered (pool.length ≤ 1) (contents held (pool.set i w') ++ rest)
      (contents held pool ++ (held w' ++ rest)) := by
  -- The worker stands between the others, who keep what they hold.
  obtain ⟨before, after, now, changed, alone⟩ := contents_set held stands
  rw [now, changed w', free]
  constructor
  · -- What the other workers behind hold is passed by.
    simp only [List.nil_append, List.append_assoc]
    refine List.Perm.append_left before ?_
    simp only [← List.append_assoc]
    exact List.Perm.append_right rest List.perm_append_comm
  · intro single
    obtain ⟨rfl, rfl⟩ := alone single
    simp

/-- A worker puts the first elements that it holds behind a queue. -/
theorem contents_put (w' : ω) (stands : pool[i]? = some w) (out : List ε)
    (gives : held w = out ++ held w') (queue : List ε) :
    Reordered (pool.length ≤ 1) ((queue ++ out) ++ contents held (pool.set i w'))
      (queue ++ contents held pool) := by
  -- The worker stands between the others, who keep what they hold.
  obtain ⟨before, after, now, changed, alone⟩ := contents_set held stands
  rw [now, changed w', gives]
  constructor
  · -- What the other workers in front hold is passed by.
    simp only [List.append_assoc]
    refine List.Perm.append_left queue ?_
    simp only [← List.append_assoc]
    exact List.Perm.append_right _ (List.Perm.append_right _ List.perm_append_comm)
  · intro single
    obtain ⟨rfl, rfl⟩ := alone single
    simp

/-- A worker that goes on holding the same leaves what the pool holds. -/
theorem contents_keep (w' : ω) (stands : pool[i]? = some w) (keeps : held w' = held w) :
    contents held (pool.set i w') = contents held pool := by
  -- Nothing changes at the one place that could.
  obtain ⟨before, after, now, changed, _⟩ := contents_set held stands
  rw [now, changed w', keeps]

/-- What a worker holds is held by the pool. -/
theorem mem_contents (stands : pool[i]? = some w) {x : ε} (holds : x ∈ held w) :
    x ∈ contents held pool :=
  -- The worker is one of the pool.
  List.mem_flatMap.mpr ⟨w, List.mem_of_getElem? stands, holds⟩

/-- A worker that holds nothing new adds nothing to what the pool holds. -/
theorem contents_subset (w' : ω) (stands : pool[i]? = some w) (less : held w' ⊆ held w) :
    contents held (pool.set i w') ⊆ contents held pool := by
  -- Every worker of the new pool is an old one or the one that changed.
  intro x member
  obtain ⟨worker, inside, holds⟩ := List.mem_flatMap.mp member
  rcases List.mem_or_eq_of_mem_set inside with old | rfl
  · exact List.mem_flatMap.mpr ⟨worker, old, holds⟩
  · exact mem_contents held stands (less holds)

/-- A new worker that holds nothing adds nothing. -/
theorem contents_append (pool : List ω) (free : held w = []) :
    contents held (pool ++ [w]) = contents held pool := by
  -- The new worker holds nothing.
  simp [contents, free]

end Pool

end Spycat.Lib
