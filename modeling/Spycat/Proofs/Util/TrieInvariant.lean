import Spycat.Proofs.Util.TrieMap
import Spycat.Util.TrieWalk

/-! The shape every trie keeps, and why the walk to a key returns from exactly one callback. -/

namespace Spycat

open Lib RadixNode

/-- Within the label the comparison indexes nothing past its end. -/
theorem compareLead_eq {leadKey key : Bytes} (i : Nat) (within : i ≤ leadKey.length) :
    compareLead leadKey key i = some (matchLead leadKey key i) := by
  -- The position stops at the end of the label, where the test for it comes first.
  induction i using matchLead.induct leadKey key with
  | case1 more => rw [compareLead, matchLead, dif_pos more, if_pos more, if_pos rfl, if_pos rfl]
  | case2 i more notEnd differ =>
    have inside : i < leadKey.length := by omega
    rw [compareLead, matchLead, dif_pos more, if_pos more, if_neg notEnd, if_neg notEnd,
      if_pos differ]
    have apart : leadKey[i] ≠ key[i] := by
      simpa [List.getElem?_eq_getElem, inside, more] using differ
    simp [List.getElem?_eq_getElem inside, apart]
  | case3 i more notEnd alike ih =>
    have inside : i < leadKey.length := by omega
    rw [compareLead, matchLead, dif_pos more, if_pos more, if_neg notEnd, if_neg notEnd,
      if_neg alike, ← ih inside]
    have same : leadKey[i] = key[i] := by
      simpa [List.getElem?_eq_getElem, inside, more] using alike
    simp [List.getElem?_eq_getElem inside, same]
  | case4 i ended unequal =>
    rw [compareLead, matchLead, dif_neg ended, if_neg ended, if_pos unequal, if_pos unequal]
  | case5 i ended same =>
    rw [compareLead, matchLead, dif_neg ended, if_neg ended, if_neg same, if_neg same]

/-- A cut within label and key makes the split node and drops the part of the key above it. -/
theorem splitTurn_eq {place : TriePlace} {lead : Nat} {child : TrieNode} {key : Bytes} {i : Nat}
    (inLabel : i ≤ child.name.length) (inKey : i ≤ key.length) :
    splitTurn place lead child key i =
      some (.restarts (place.setChild lead (splitLead child i)) (key.drop i)) := by
  -- The bounds of both slices are inside.
  simp [splitTurn, sliceAt, inLabel, inKey, splitLead]

/-- What a turn comes to at a lead child, by how the key runs along its label. -/
def leadTurn (place : TriePlace) (lead : Nat) (child : TrieNode) (key : Bytes) :
    LeadMatch → Turn
  | .longer => .restarts (place.setChild lead child) (key.drop child.name.length)
  | .differs i => .restarts (place.setChild lead (splitLead child i)) (key.drop i)
  | .shorter =>
    .restarts (place.setChild lead (splitLead child key.length)) (key.drop key.length)
  | .equal => .calls (place.setChild lead child)

section OneTurn

variable {place : TriePlace} {first : UInt8} {lead : Nat} {child : TrieNode} (rest : Bytes)

/-- Without a lead the turn adds a child for the whole key. -/
theorem turn_absent (found : findLead first place.node.children 0 none = some none) :
    findNodeAtTurn place (first :: rest) =
      some (.calls (place.insert (newTrieNode (first :: rest)))) := by
  -- No child begins with the byte, so a leaf is put in.
  simp [findNodeAtTurn, found]

/-- At a lead child no index and no slice is out of range. -/
theorem turn_lead (found : findLead first place.node.children 0 none = some (some lead))
    (located : place.node.children[lead]? = some child) {outcome : LeadMatch}
    (reported : matchLead child.name (first :: rest) 0 = outcome) :
    findNodeAtTurn place (first :: rest) =
      some (leadTurn place lead child (first :: rest) outcome) := by
  -- What the comparison reports puts every cut within the strings it cuts.
  have compared : compareLead child.name (first :: rest) 0 =
      some (matchLead child.name (first :: rest) 0) := compareLead_eq 0 (Nat.zero_le _)
  have described := matchLead_describes child.name (first :: rest)
  rw [reported] at compared described
  cases outcome with
  | longer =>
    obtain ⟨tail, _, spelled⟩ := described
    have within : child.name.length ≤ (first :: rest).length := by simp [spelled]
    simp only [findNodeAtTurn, found, located, compared, Option.bind_eq_bind,
      Option.bind_some, sliceAt, if_pos within, leadTurn]
    rfl
  | differs i =>
    obtain ⟨shared, a, restA, b, restB, length, _, label, spelled⟩ := described
    have inLabel : i ≤ child.name.length := by simp [label, ← length]
    have inKey : i ≤ (first :: rest).length := by simp [spelled, ← length]
    simp only [findNodeAtTurn, found, located, compared, Option.bind_eq_bind,
      Option.bind_some, splitTurn_eq inLabel inKey, leadTurn]
  | shorter =>
    obtain ⟨tail, _, label⟩ := described
    have inLabel : (first :: rest).length ≤ child.name.length := by simp [label]
    simp only [findNodeAtTurn, found, located, compared, Option.bind_eq_bind,
      Option.bind_some, splitTurn_eq inLabel (Nat.le_refl _), leadTurn]
  | equal =>
    simp only [findNodeAtTurn, found, located, compared, Option.bind_eq_bind,
      Option.bind_some, leadTurn]
    rfl

end OneTurn

/-- What a turn does to the string that the path so far and the key spell together. -/
def Turn.Follows (place : TriePlace) (key : Bytes) : Turn → Prop
  | .calls called => called.path = place.path ++ key
  | .restarts next rest => rest.length < key.length ∧ next.path ++ rest = place.path ++ key

/-- At a lead child the key gets strictly shorter, and what it loses is the label walked along. -/
theorem leadTurn_follows {place : TriePlace} {first : UInt8} {rest : Bytes} {lead : Nat}
    {child : TrieNode} (head : child.name.head? = some first) :
    (leadTurn place lead child (first :: rest) (matchLead child.name (first :: rest) 0)).Follows
      place (first :: rest) := by
  -- The label's part on the way and the rest of the key are the key itself.
  have described := matchLead_describes child.name (first :: rest)
  cases reported : matchLead child.name (first :: rest) 0 with
  | longer =>
    rw [reported] at described
    obtain ⟨tail, _, spelled⟩ := described
    have labelled := length_pos_of_head head
    constructor
    · rw [List.length_drop, List.length_cons]
      omega
    · simp [TriePlace.setChild, spelled]
  | differs i =>
    have positive := matchLead_differs_pos reported head rfl
    rw [reported] at described
    obtain ⟨shared, a, restA, b, restB, length, _, label, spelled⟩ := described
    constructor
    · rw [List.length_drop, List.length_cons]
      omega
    · simp [TriePlace.setChild, splitLead, label, spelled, ← length]
  | shorter =>
    rw [reported] at described
    obtain ⟨tail, _, label⟩ := described
    constructor
    · rw [List.length_drop, List.length_cons]
      omega
    · simp [TriePlace.setChild, splitLead, label]
  | equal =>
    rw [reported] at described
    have same : first :: rest = child.name := described
    show (place.setChild lead child).path = place.path ++ (first :: rest)
    simp [TriePlace.setChild, same]

/-- Every turn calls `fn` where the key ends, or starts over with a strictly shorter key. -/
theorem turn_follows {place : TriePlace} {key : Bytes} {turn : Turn}
    (turned : findNodeAtTurn place key = some turn) : turn.Follows place key := by
  cases key with
  | nil =>
    obtain rfl : Turn.calls place = turn := Option.some.inj turned
    exact (List.append_nil _).symm
  | cons first rest =>
    cases found : findLead first place.node.children 0 none with
    | none => simp [findNodeAtTurn, found] at turned
    | some scanned =>
      cases scanned with
      | none =>
        -- The new child carries the whole key as its label.
        rw [turn_absent rest found, Option.some.injEq] at turned
        subst turned
        rfl
      | some lead =>
        obtain ⟨child, located, head⟩ := findLead_located found
        rw [turn_lead rest found located rfl, Option.some.injEq] at turned
        exact turned ▸ leadTurn_follows head

/-- A turn that starts over leaves the rest of the turns to what comes after it. -/
theorem loop_restarts {σ : Type} (fn : NodeCallback σ) (state : σ) {place next : TriePlace}
    {key rest : Bytes} {turns : Nat}
    (turned : findNodeAtTurn place key = some (.restarts next rest)) (enough : key.length < turns) :
    ∃ more, rest.length < more ∧
      findNodeAtLoop fn turns state place key = findNodeAtLoop fn more state next rest := by
  -- The rest of the key is shorter by at least the one turn that was used.
  obtain ⟨more, rfl⟩ := Nat.exists_eq_add_one_of_ne_zero (show turns ≠ 0 by omega)
  have shorter : rest.length < key.length := (turn_follows turned).1
  exact ⟨more, by omega, by simp [findNodeAtLoop, turned]⟩

/--
With more turns than bytes in the key the loop ends, panicking or after one callback.

Which of the two it is, and on which node, does not depend on the callback.
-/
theorem loop_ends (place : TriePlace) (key : Bytes) :
    (∀ turns, key.length < turns → ∀ {σ : Type} (fn : NodeCallback σ) (state : σ),
      findNodeAtLoop fn turns state place key = .panicked) ∨
    ∃ called : TriePlace, called.path = place.path ++ key ∧
      ∀ turns, key.length < turns → ∀ {σ : Type} (fn : NodeCallback σ) (state : σ),
        findNodeAtLoop fn turns state place key =
          .returned (fn state called.node).1 (called.put (fn state called.node).2) := by
  -- The induction is on the length of the key, which every restart shortens.
  induction length : key.length using Nat.strongRecOn generalizing place key with
  | ind count ih =>
    subst length
    cases turned : findNodeAtTurn place key with
    | none =>
      left
      intro turns enough σ fn state
      obtain ⟨more, rfl⟩ := Nat.exists_eq_add_one_of_ne_zero (show turns ≠ 0 by omega)
      simp [findNodeAtLoop, turned]
    | some turn =>
      have follows := turn_follows turned
      cases turn with
      | calls called =>
        right
        refine ⟨called, follows, ?_⟩
        intro turns enough σ fn state
        obtain ⟨more, rfl⟩ := Nat.exists_eq_add_one_of_ne_zero (show turns ≠ 0 by omega)
        simp [findNodeAtLoop, turned]
      | restarts next rest =>
        obtain ⟨shorter, spelled⟩ := follows
        -- The turns left are still more than the bytes left.
        rcases ih rest.length shorter next rest rfl with panics | ⟨called, path, returns⟩
        · left
          intro turns enough σ fn state
          obtain ⟨more, left, same⟩ := loop_restarts fn state turned enough
          rw [same]
          exact panics more left fn state
        · right
          refine ⟨called, path.trans spelled, ?_⟩
          intro turns enough σ fn state
          obtain ⟨more, left, same⟩ := loop_restarts fn state turned enough
          rw [same]
          exact returns more left fn state

namespace TriePlace

variable (place : TriePlace)

/-- Changing an inserted node but not its label is inserting the changed one. -/
theorem tree_insert {t2 changed : TrieNode} (label : changed.name = t2.name) :
    ((place.insert t2).put changed).tree =
      (place.put (TrieNode.insert place.node changed)).tree := by
  -- The label alone decides the position.
  rw [insert, place.tree_put_enter, TrieNode.insert, label]

/-- Changing the node put in a child's position is putting the changed one there. -/
theorem tree_setChild {lead : Nat} {old : TrieNode} (child changed : TrieNode)
    (located : place.node.children[lead]? = some old) :
    ((place.setChild lead child).put changed).tree =
      (place.put (TrieNode.setChild place.node lead changed)).tree := by
  -- The position is one of the list, so the siblings are those on either side of it.
  have inside : lead < place.node.children.length := (List.getElem?_eq_some_iff.mp located).1
  rw [setChild, place.tree_put_enter, TrieNode.setChild, List.set_eq_take_append_cons_drop,
    if_pos inside]

end TriePlace

/-- A callback without a state of its own. -/
def pureCallback (fn : TrieNode → TrieNode) : NodeCallback Unit := fun _ tn => ((), fn tn)

/-- A turn that goes on below a child leaves the child's part of the walk to the loop from there. -/
theorem restart_tree {fn : TrieNode → TrieNode} {place : TriePlace} {lead turns : Nat}
    {old child : TrieNode} {key rest : Bytes} (located : place.node.children[lead]? = some old)
    (turned : findNodeAtTurn place key = some (.restarts (place.setChild lead child) rest))
    (enough : key.length < turns)
    (below : ∀ next : TriePlace, next.node = child → ∀ turns, rest.length < turns →
      (findNodeAtLoop (pureCallback fn) turns () next rest).tree =
        (findNodeAt fn child rest).map fun node => (next.put node).tree) :
    (findNodeAtLoop (pureCallback fn) turns () place key).tree =
      ((findNodeAt fn child rest).map (TrieNode.setChild place.node lead)).map
        fun node => (place.put node).tree := by
  -- What the rest of the walk makes of the child is put in the child's position.
  obtain ⟨more, left, same⟩ := loop_restarts (pureCallback fn) () turned enough
  rw [same, below _ rfl more left, Option.map_map]
  refine Option.map_congr fun node _ => ?_
  exact place.tree_setChild child node located

/-- The loop leaves the tree that the walk by recursion on the key does, or panics with it. -/
theorem loop_tree (fn : TrieNode → TrieNode) (keeps : ∀ tn, (fn tn).name = tn.name)
    (tn : TrieNode) (key : Bytes) :
    ∀ place : TriePlace, place.node = tn → ∀ turns, key.length < turns →
      (findNodeAtLoop (pureCallback fn) turns () place key).tree =
        (findNodeAt fn tn key).map fun node => (place.put node).tree := by
  -- The induction follows the restarts, and each case leaves one outcome of the comparison.
  fun_induction findNodeAt fn tn key with
  | case1 tn =>
    intro place here turns enough
    obtain ⟨more, rfl⟩ := Nat.exists_eq_add_one_of_ne_zero (show turns ≠ 0 by omega)
    subst here
    rfl
  | case2 tn first rest found =>
    intro place here turns enough
    obtain ⟨more, rfl⟩ := Nat.exists_eq_add_one_of_ne_zero (show turns ≠ 0 by omega)
    subst here
    simp [findNodeAtLoop, findNodeAtTurn, found, WalkEnd.tree]
  | case3 tn first rest found =>
    intro place here turns enough
    obtain ⟨more, rfl⟩ := Nat.exists_eq_add_one_of_ne_zero (show turns ≠ 0 by omega)
    subst here
    rw [findNodeAtLoop, turn_absent rest found]
    exact congrArg some (place.tree_insert (keeps _))
  | case4 tn first rest lead found located =>
    intro place here turns enough
    subst here
    obtain ⟨child, present, _⟩ := findLead_located found
    simp [located] at present
  | case5 tn first rest lead found child located reported ih =>
    intro place here turns enough
    subst here
    rw [restart_tree located (turn_lead rest found located reported) enough ih]
    split <;> simp_all
  | case6 tn first rest lead found child located i reported ih =>
    intro place here turns enough
    subst here
    rw [restart_tree located (turn_lead rest found located reported) enough ih]
    split <;> simp_all
  | case7 tn first rest lead found child located reported ih =>
    intro place here turns enough
    subst here
    rw [restart_tree located (turn_lead rest found located reported) enough ih]
    split <;> simp_all
  | case8 tn first rest lead found child located reported =>
    intro place here turns enough
    obtain ⟨more, rfl⟩ := Nat.exists_eq_add_one_of_ne_zero (show turns ≠ 0 by omega)
    subst here
    have returned : findNodeAtLoop (pureCallback fn) (more + 1) () place (first :: rest) =
        .returned () ((place.setChild lead child).put (fn child)) := by
      rw [findNodeAtLoop, turn_lead rest found located reported]
      rfl
    rw [returned, WalkEnd.tree, place.tree_setChild child (fn child) located]
    split <;> simp_all

namespace Trie

/-- The stored keys are those of the calls. -/
theorem storeCalls_isSome (calls : List InsertCall) (key : Bytes) :
    (storeCalls calls key).isSome ↔ ∃ call ∈ calls, call.key = key := by
  -- The last call stores its own key and leaves the others as the calls before it did.
  induction calls using List.reverseRecOn with
  | nil => simp [storeCalls, KeyMap.empty]
  | append_singleton before call ih =>
    have last : storeCalls (before ++ [call]) = storeCall (storeCalls before) call := by
      simp [storeCalls]
    rw [last, storeCall, KeyMap.store]
    by_cases same : key = call.key
    · simp [same]
    · rw [if_neg same, ih]
      simp [Ne.symm same]

/-- An insertion is one walk to the key that updates the value of the node there. -/
theorem insert_walk (t : Trie) (key : Bytes) (value : UInt64) (merge : List Bool) :
    t.insert key value merge =
      (findNodeAt (fun tn => tn.withValue (insertValue value merge tn.value)) t.root key).map
        fun root => { t with root := root } := by
  -- Both ways of inserting differ in the update only.
  cases isMerge : merge.head?.getD false with
  | true => simp [insert, insertValue, isMerge]
  | false => simp [insert, insertValue, isMerge]

/-- On a trie that stands for a map the walk to any key returns from one callback. -/
theorem walk_returns {t : Trie} {map : KeyMap UInt8 UInt64} (represents : t.Represents map)
    (key : Bytes) :
    ∃ called : TriePlace, called.path = key ∧
      ∀ turns, key.length < turns → ∀ {σ : Type} (fn : NodeCallback σ) (state : σ),
        findNodeAtLoop fn turns state (.top t.root) key =
          .returned (fn state called.node).1 (called.put (fn state called.node).2) := by
  -- The loop ends either way, and the walk by recursion never panics.
  rcases loop_ends (.top t.root) key with panics | ⟨called, path, returns⟩
  · obtain ⟨result, walked, _⟩ := findNodeAt_stored id t.root key represents.holds
    have trees := loop_tree (fun tn => tn.withValue (id tn.value)) (fun _ => by simp) t.root key
      (.top t.root) rfl (key.length + 1) (Nat.lt_succ_self _)
    rw [panics _ (Nat.lt_succ_self _), walked] at trees
    simp [WalkEnd.tree] at trees
  · exact ⟨called, by simpa [represents.name] using path, returns⟩

/--
Every trie built by insertions is compressed over the inserted keys, so walks never panic.

A restart shortens the key, and the loop ends after one callback, at the path that spells the key.
An insertion leaves the tree around the node called there, with the value updated.
-/
theorem insertAll_compressed (calls : List InsertCall) :
    ∃ t, new.insertAll calls = some t ∧
      Compressed (fun key => ∃ call ∈ calls, call.key = key) t.root ∧
      (∀ place key next rest,
        findNodeAtTurn place key = some (.restarts next rest) → rest.length < key.length) ∧
      ∀ key, ∃ called : TriePlace, called.path = key ∧
        (∀ turns, key.length < turns → ∀ {σ : Type} (fn : NodeCallback σ) (state : σ),
          findNodeAtLoop fn turns state (.top t.root) key =
            .returned (fn state called.node).1 (called.put (fn state called.node).2)) ∧
        ∀ value merge, t.insert key value merge = some { t with
          root := (called.put
            (called.node.withValue (insertValue value merge called.node.value))).tree } := by
  -- The trie stands for the map of the calls, which says all about its shape.
  obtain ⟨t, built, stands⟩ := insertAll_new_stands calls
  have represents := stands.represents
  refine ⟨t, built, ?_, fun place key next rest turned => (turn_follows turned).1, ?_⟩
  · have shape := represents.holds.compressed represents.name
    simpa only [storeCalls_isSome] using shape
  · intro key
    obtain ⟨called, path, returns⟩ := walk_returns represents key
    refine ⟨called, path, returns, ?_⟩
    intro value merge
    -- The update is a callback that keeps the label, so the loop leaves what the walk does.
    have trees := loop_tree (fun tn => tn.withValue (insertValue value merge tn.value))
      (fun _ => by simp) t.root key (.top t.root) rfl (key.length + 1) (Nat.lt_succ_self _)
    rw [returns _ (Nat.lt_succ_self _), WalkEnd.tree] at trees
    obtain ⟨root, walked, same⟩ := Option.map_eq_some_iff.mp trees.symm
    have left : root = (called.put
        (called.node.withValue (insertValue value merge called.node.value))).tree := same
    rw [insert_walk, walked, left]
    rfl

end Trie

end Spycat
