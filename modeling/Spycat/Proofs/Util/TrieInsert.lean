import Mathlib.Data.UInt
import Spycat.Util.Trie

/-! One insertion stores one key: the tree it leaves stands for the updated map. -/

namespace Spycat

open Lib RadixNode

/-- Before the insertion position every name is smaller than the key, from it on none is. -/
theorem insertPos_spec {names : List Bytes} (sorted : names.Pairwise (· < ·)) (key : Bytes) :
    insertPos names key ≤ names.length ∧
      (∀ name ∈ names.take (insertPos names key), name < key) ∧
      (∀ name ∈ names.drop (insertPos names key), key ≤ name) := by
  -- In a sorted list the test `key ≤ name` never turns false again.
  have monotone : TestMonotone names.length
      fun i => (names[i]?.map fun name => decide (key ≤ name)).getD false := by
    intro i j ordered inNames holds
    have before : i < names.length := by omega
    simp only [List.getElem?_eq_getElem before, List.getElem?_eq_getElem inNames, Option.map_some,
      Option.getD_some, decide_eq_true_eq] at holds ⊢
    rcases Nat.eq_or_lt_of_le ordered with same | less
    · subst same
      exact holds
    · exact List.le_trans holds
        (List.le_of_lt (List.pairwise_iff_getElem.mp sorted i j before inNames less))
  obtain ⟨within, below, above⟩ := searchFirst_spec monotone
  refine ⟨within, ?_, ?_⟩
  · intro name member
    obtain ⟨i, inTake, rfl⟩ := List.mem_iff_getElem.mp member
    have inside : i < names.length := by simp at inTake; omega
    have failed := below i (by simp at inTake; exact inTake.1)
    simpa [List.getElem?_eq_getElem inside] using failed
  · intro name member
    obtain ⟨i, inDrop, rfl⟩ := List.mem_iff_getElem.mp member
    have inside : insertPos names key + i < names.length := by simp at inDrop; omega
    have passed := above (insertPos names key + i) (by simp [insertPos]) inside
    simpa [List.getElem?_eq_getElem inside] using passed

/-- Ordered siblings have sorted names. -/
theorem names_sorted {children : List TrieNode} (ordered : children.Pairwise LeadBefore) :
    (children.map (·.name)).Pairwise (· < ·) := by
  -- The order of the first letters decides the order of the whole labels.
  rw [List.pairwise_map]
  exact ordered.imp fun before => before.name_lt

/-- A child that does not lead to a key starts with another byte. -/
theorem other_lead {map : KeyMap UInt8 UInt64} {tn child : TrieNode} (holds : Holds map tn)
    {first : UInt8} (inside : child ∈ tn.children) (apart : child.name.head? ≠ some first) :
    ∃ byte bytes, child.name = byte :: bytes ∧ byte ≠ first := by
  -- Every child is named, so it has a first byte.
  cases label : child.name with
  | nil => exact absurd label (holds.named child inside)
  | cons byte bytes => exact ⟨byte, bytes, rfl, by simpa [label] using apart⟩

/-- Inserting a leaf that no child leads to keeps the invariant. -/
theorem insert_holds {map : KeyMap UInt8 UInt64} {tn : TrieNode} (holds : Holds map tn)
    {first : UInt8} {rest : Bytes} (value : UInt64)
    (noLead : ∀ child ∈ tn.children, child.name.head? ≠ some first) :
    Holds (map.store (first :: rest) value) (tn.insert (.mk (first :: rest) value [])) := by
  -- The position splits the children into those with smaller names and the others.
  obtain ⟨name, held, children⟩ := tn
  obtain ⟨_, lower, upper⟩ := insertPos_spec (names_sorted holds.ordered) (first :: rest)
  rw [← List.map_take] at lower
  rw [← List.map_drop] at upper
  have split := List.take_append_drop (insertPos (children.map (·.name)) (first :: rest)) children
  refine Holds.add_leaf (split.symm ▸ holds) (List.cons_ne_nil _ _) ?_ ?_
  · -- A smaller name with another first byte has a smaller first byte.
    intro child member
    have inside : child ∈ children := List.mem_of_mem_take member
    obtain ⟨byte, bytes, label, apart⟩ := other_lead holds inside (noLead child inside)
    have less := lower child.name (List.mem_map_of_mem member)
    rw [label, List.cons_lt_cons_iff] at less
    exact ⟨byte, by simp [label], first, by simp, by simpa [apart] using less⟩
  · -- A name that is not smaller and has another first byte has a larger first byte.
    intro child member
    have inside : child ∈ children := List.mem_of_mem_drop member
    obtain ⟨byte, bytes, label, apart⟩ := other_lead holds inside (noLead child inside)
    have less := upper child.name (List.mem_map_of_mem member)
    rw [label, List.cons_le_cons_iff] at less
    exact ⟨first, by simp, byte, by simp [label], by simpa [Ne.symm apart] using less⟩

/-- Inserting adds exactly one child. -/
theorem insert_children_length {tn t2 : TrieNode} :
    (tn.insert t2).children.length = tn.children.length + 1 := by
  -- Nothing is lost where the children are split.
  simp only [TrieNode.insert, children_withChildren, List.length_append, List.length_cons,
    List.length_take, List.length_drop]
  omega

/-- Named children never make the scan for a lead panic. -/
theorem findLead_total {first : UInt8} {children : List TrieNode}
    (named : ∀ child ∈ children, child.name ≠ []) (k : Nat) (old : Option Nat) :
    ∃ lead, findLead first children k old = some lead := by
  -- The induction follows the scan, which only looks at first bytes.
  induction children generalizing k old with
  | nil => exact ⟨old, rfl⟩
  | cons v rest ih =>
    cases label : v.name with
    | nil => exact absurd label (named v (by simp))
    | cons byte bytes =>
      simpa [findLead, label] using ih (fun child member => named child (by simp [member])) _ _

/-- A scan that keeps no position has seen no child with the key's first byte. -/
theorem findLead_absent {first : UInt8} {children : List TrieNode} {k : Nat} {old : Option Nat}
    (scanned : findLead first children k old = some none) :
    old = none ∧ ∀ child ∈ children, child.name.head? ≠ some first := by
  -- A child with the key's first byte would have left its position.
  induction children generalizing k old with
  | nil => simpa [findLead] using scanned
  | cons v rest ih =>
    cases label : v.name with
    | nil => simp [findLead, label] at scanned
    | cons byte bytes =>
      simp only [findLead, label] at scanned
      obtain ⟨kept, absent⟩ := ih scanned
      by_cases same : byte = first
      · simp [same] at kept
      · refine ⟨by simpa [same] using kept, ?_⟩
        intro child member
        rcases List.mem_cons.mp member with rfl | later
        · simpa [label] using same
        · exact absent child later

/-- A found lead is a position among the children. -/
theorem findLead_located {first : UInt8} {children : List TrieNode} {lead : Nat}
    (found : findLead first children 0 none = some (some lead)) :
    ∃ child, children[lead]? = some child ∧ child.name.head? = some first := by
  -- Nothing was recorded before the scan, so the position comes from a child.
  rcases findLead_found found with absent | ⟨j, child, at_, member, head⟩
  · simp at absent
  · exact ⟨child, by simpa [at_] using member, head⟩

/-- Replacing one child by one with a leading part of its label, at its position in the list. -/
theorem setChild_holds {map changed : KeyMap UInt8 UInt64} {tn child replaced : TrieNode}
    {lead : Nat} (holds : Holds map tn) (located : tn.children[lead]? = some child)
    (shortened : replaced.name <+: child.name) (nonempty : replaced.name ≠ [])
    (outside : ∀ other, ¬ replaced.name <+: other → changed other = map other)
    (needed : (changed replaced.name).isSome ∨ 2 ≤ replaced.children.length)
    (nested : Holds (changed.below replaced.name) replaced) :
    Holds changed (tn.setChild lead replaced) := by
  -- The replaced child stands between those before and those behind it.
  obtain ⟨name, held, children⟩ := tn
  obtain ⟨inside, rfl⟩ : ∃ inside : lead < children.length, children[lead] = child :=
    List.getElem?_eq_some_iff.mp located
  have split : children = children.take lead ++ children[lead] :: children.drop (lead + 1) := by
    rw [List.getElem_cons_drop, List.take_append_drop]
  have edited : TrieNode.setChild (.mk name held children) lead replaced =
      .mk name held (children.take lead ++ replaced :: children.drop (lead + 1)) := by
    simp [TrieNode.setChild, withChildren, List.set_eq_take_append_cons_drop, inside]
  rw [edited]
  rw [split] at holds
  exact holds.replace_child shortened nonempty outside needed nested

/-- What a walk to a key leaves behind: the key stored, and no child lost. -/
structure Stored (map : KeyMap UInt8 UInt64) (tn : TrieNode) (key : Bytes) (value : UInt64)
    (result : TrieNode) : Prop where
  name : result.name = tn.name
  holds : Holds (map.store key value) result
  keeps : tn.children.length ≤ result.children.length
  adds : key ≠ [] → (∀ child ∈ tn.children, child.name.head? ≠ key.head?) →
    result.children.length = tn.children.length + 1

section Lead

variable {map : KeyMap UInt8 UInt64} {tn child replaced : TrieNode} {lead : Nat}
  {key upper lower : Bytes} {value : UInt64}

/-- Storing the rest of a key below a leading part of the lead's label stores the whole key. -/
theorem setChild_stored (holds : Holds map tn) (located : tn.children[lead]? = some child)
    (head : child.name.head? = key.head?) (named : replaced.name = upper) (nonempty : upper ≠ [])
    (shortened : upper <+: child.name) (spelled : key = upper ++ lower)
    (needed : (map.store key value upper).isSome ∨ 2 ≤ replaced.children.length)
    (below : Holds ((map.below upper).store lower value) replaced) :
    Stored map tn key value (tn.setChild lead replaced) := by
  -- The label's leading part stays, so the child keeps its place among its siblings.
  subst named
  refine ⟨by simp [TrieNode.setChild], ?_, by simp [TrieNode.setChild], ?_⟩
  · refine setChild_holds holds located shortened nonempty ?_ needed ?_
    · -- Keys that do not continue the replaced label are other keys.
      intro other apart
      have differs : other ≠ key := fun same => apart (same ▸ spelled ▸ List.prefix_append _ _)
      simp [KeyMap.store, differs]
    · rw [spelled, KeyMap.store_below]
      exact below
  · -- The lead child rules out the case of a fresh sibling.
    intro _ noLead
    exact absurd head (noLead child (List.mem_of_getElem? located))

/-- All keys that share a leading part of the lead's label run through the lead. -/
theorem lead_covers (holds : Holds map tn) (member : child ∈ tn.children) (nonempty : upper ≠ [])
    (label : child.name = upper ++ lower) (rest : Bytes) (present : (map (upper ++ rest)).isSome) :
    lower <+: rest := by
  -- The first letter of the shared part already singles out the child.
  obtain ⟨owner, inOwner, starts⟩ := holds.covered (upper ++ rest) (by simp [nonempty]) present
  have alike : owner.name.head? = child.name.head? := by
    rw [head_of_start (holds.named owner inOwner) starts nonempty, label]
    cases upper with
    | nil => exact absurd rfl nonempty
    | cons _ _ => simp
  have same := lead_unique holds.ordered inOwner member alike
  rw [same, label] at starts
  exact (List.prefix_append_right_inj upper).mp starts

/-- The split lead stands for the keys below the cut. -/
theorem splitLead_holds (holds : Holds map tn) (member : child ∈ tn.children)
    (nonempty : upper ≠ []) (lowerNonempty : lower ≠ []) (label : child.name = upper ++ lower) :
    Holds (map.below upper) (splitLead child upper.length) := by
  -- The node at the cut has the old child as its only one.
  have cut : splitLead child upper.length = .mk upper 0 [child.withName lower] := by
    simp [splitLead, label]
  rw [cut]
  refine Holds.cut_edge (label ▸ holds.nested child member) lowerNonempty ?_ ?_
  · exact label ▸ holds.needed child member
  · exact fun rest present => lead_covers holds member nonempty label rest present

end Lead

/-- A key that no child leads to is not stored. -/
theorem absent_of_noLead {map : KeyMap UInt8 UInt64} {tn : TrieNode} (holds : Holds map tn)
    {first : UInt8} {rest : Bytes} (noLead : ∀ child ∈ tn.children, child.name.head? ≠ some first) :
    map (first :: rest) = none := by
  -- A stored key runs through a child, which then starts with the key's first byte.
  cases stored : map (first :: rest) with
  | none => rfl
  | some held =>
    obtain ⟨child, member, starts⟩ := holds.covered (first :: rest) (by simp) (by simp [stored])
    have alike : child.name.head? = (first :: rest).head? :=
      head_of_start (holds.named child member)
        ((List.append_nil (first :: rest)).symm ▸ starts) (List.cons_ne_nil first rest)
    exact absurd alike (noLead child member)

/--
Walking to a key with an update of the node's value stores the updated value under that key.

The walk never panics on a tree that stands for a map.
-/
theorem findNodeAt_stored (f : UInt64 → UInt64) (tn : TrieNode) (key : Bytes)
    {map : KeyMap UInt8 UInt64} (holds : Holds map tn) :
    ∃ result, findNodeAt (fun n => n.withValue (f n.value)) tn key = some result ∧
      Stored map tn key (f ((map key).getD 0)) result := by
  -- The induction follows the restarts of the outer loop.
  fun_induction findNodeAt (fun n => n.withValue (f n.value)) tn key generalizing map with
  | case1 tn =>
    -- The key ends here, so the node's own value is updated.
    refine ⟨_, rfl, by simp, ?_, by simp, by simp⟩
    rw [← holds.stored]
    exact holds.write_value _
  | case2 tn first rest found =>
    -- No child is without a name, so the scan does not panic.
    obtain ⟨lead, scanned⟩ : ∃ lead, findLead first tn.children 0 none = some lead :=
      findLead_total holds.named 0 none
    simp [found] at scanned
  | case3 tn first rest found =>
    obtain ⟨_, noLead⟩ := findLead_absent found
    refine ⟨_, rfl, by simp [TrieNode.insert], ?_, ?_, fun _ _ => insert_children_length⟩
    · -- Without a lead the key is not stored yet, so the update starts from zero.
      rw [absent_of_noLead holds noLead]
      exact insert_holds holds _ noLead
    · rw [insert_children_length]
      exact Nat.le_succ _
  | case4 tn first rest lead found located =>
    -- A lead that was found is among the children.
    obtain ⟨child, present, _⟩ := findLead_located found
    simp [located] at present
  | case5 tn first rest lead found child located reported ih =>
    -- The label ends first, and the walk goes on below the child.
    have member := List.mem_of_getElem? located
    have head := findLead_head found located
    have described := matchLead_describes child.name (first :: rest)
    rw [reported] at described
    obtain ⟨tail, tailNonempty, spelled⟩ := described
    have dropped : (first :: rest).drop child.name.length = tail := by simp [spelled]
    obtain ⟨result, walked, stored⟩ := ih (holds.nested child member)
    simp only [dropped, KeyMap.below_apply, ← spelled] at walked stored
    refine ⟨tn.setChild lead result, ?_, ?_⟩
    · split <;> simp_all
    · refine setChild_stored holds located head stored.name (holds.named child member)
        (List.prefix_refl _) spelled ?_ stored.holds
      -- A child that was needed before keeps its key or its branches.
      rcases holds.needed child member with own | branching
      · left
        simp only [KeyMap.store]
        split <;> simp [own]
      · exact .inr (Nat.le_trans branching stored.keeps)
  | case6 tn first rest lead found child located i reported ih =>
    -- Label and key part, so the label is cut where they do.
    have member := List.mem_of_getElem? located
    have head := findLead_head found located
    have positive := matchLead_differs_pos reported head rfl
    have described := matchLead_describes child.name (first :: rest)
    rw [reported] at described
    obtain ⟨shared, a, restA, b, restB, length, different, label, spelled⟩ := described
    subst length
    have nonempty : shared ≠ [] := List.ne_nil_of_length_pos positive
    have dropped : (first :: rest).drop shared.length = b :: restB := by simp [spelled]
    obtain ⟨result, walked, stored⟩ :=
      ih (splitLead_holds holds member nonempty (List.cons_ne_nil a restA) label)
    simp only [dropped, KeyMap.below_apply, ← spelled] at walked stored
    refine ⟨tn.setChild lead result, ?_, ?_⟩
    · split <;> simp_all
    · refine setChild_stored holds located head (by simp [stored.name, splitLead, label]) nonempty
        (label ▸ List.prefix_append _ _) spelled ?_ stored.holds
      -- The key leaves the cut by another byte than the old label, so two branches meet there.
      right
      rw [stored.adds (List.cons_ne_nil b restB) (by simp [splitLead, label, different])]
      simp [splitLead]
  | case7 tn first rest lead found child located reported ih =>
    -- The key ends inside the label, so the label is cut there and the key stored at the cut.
    have member := List.mem_of_getElem? located
    have head := findLead_head found located
    have described := matchLead_describes child.name (first :: rest)
    rw [reported] at described
    obtain ⟨tail, tailNonempty, label⟩ := described
    obtain ⟨result, walked, stored⟩ :=
      ih (splitLead_holds holds member (List.cons_ne_nil first rest) tailNonempty label)
    rw [List.drop_length] at walked stored
    simp only [KeyMap.below_apply, List.append_nil] at walked stored
    refine ⟨tn.setChild lead result, ?_, ?_⟩
    · split <;> simp_all
    · refine setChild_stored holds located head
        (by simp [stored.name, splitLead, label]) (List.cons_ne_nil first rest)
        (label ▸ List.prefix_append _ _) (List.append_nil _).symm (.inl (by simp [KeyMap.store]))
        stored.holds
  | case8 tn first rest lead found child located reported =>
    -- Key and label are the same, so the child's own value is updated.
    have member := List.mem_of_getElem? located
    have head := findLead_head found located
    have described := matchLead_describes child.name (first :: rest)
    rw [reported] at described
    have same : first :: rest = child.name := described
    refine ⟨tn.setChild lead (child.withValue (f child.value)), ?_, ?_⟩
    · split <;> simp_all
    · have below := holds.nested child member
      refine setChild_stored holds located head (by simp [same])
        (List.cons_ne_nil first rest) (same ▸ List.prefix_refl _) (List.append_nil _).symm
        (.inl (by simp [KeyMap.store])) ?_
      rw [same, show (map child.name).getD 0 = child.value by simp [below.stored]]
      exact below.write_value _

end Spycat
