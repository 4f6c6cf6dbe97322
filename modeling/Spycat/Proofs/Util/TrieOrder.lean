import Spycat.Proofs.Util.TrieMap
import Spycat.Util.TrieCodec

/-! The trie of a set of stack samples does not depend on the order they came in. -/

namespace Spycat

open Lib RadixNode

namespace Trie

/-- Two tries that stand for one map under one scaling are the same trie. -/
theorem Stands.unique {m d : Int64} {left right : Trie} {map : KeyMap UInt8 UInt64}
    (first : left.Stands m d map) (second : right.Stands m d map) : left = right := by
  -- The map fixes the tree, and the scaling fixes the rest.
  obtain ⟨values, shapes⟩ := first.represents.holds.unique second.represents.holds
  have names := first.represents.name.trans second.represents.name.symm
  have roots : left.root = right.root := RadixNode.ext names values shapes
  have multipliers := first.multiplier.trans second.multiplier.symm
  have dividers := first.divider.trans second.divider.symm
  cases left
  cases right
  simp_all

/-- Two merging insertions can be exchanged. -/
theorem storeCall_comm {first second : InsertCall} (firstMerges : first.merge = [true])
    (secondMerges : second.merge = [true]) (map : KeyMap UInt8 UInt64) :
    storeCall (storeCall map first) second = storeCall (storeCall map second) first := by
  -- Under another key each insertion sees the map as it was.
  funext key
  simp only [storeCall, KeyMap.store, insertValue, firstMerges, secondMerges, List.head?_cons,
    Option.getD_some, if_true]
  by_cases same : first.key = second.key
  · -- Under a common key both orders add both values.
    simp only [same, if_true, Option.getD_some]
    rw [UInt64.add_assoc, UInt64.add_comm first.value, ← UInt64.add_assoc]
    split <;> rfl
  · simp only [same, Ne.symm same, if_false]
    by_cases atFirst : key = first.key
    · simp [atFirst, same]
    · simp [atFirst]

/-- Permuted merging insertions store the same map. -/
theorem storeCalls_perm {first second : List InsertCall} (permuted : first.Perm second)
    (merging : ∀ call ∈ first, call.merge = [true]) : storeCalls first = storeCalls second :=
  -- A fold of steps that can be exchanged does not depend on their order.
  permuted.foldl_eq' (fun left inLeft right inRight =>
    storeCall_comm (merging left inLeft) (merging right inRight)) KeyMap.empty

/-- Permuted merging insertions into two fresh tries build the same trie and the same bytes. -/
theorem bytes_of_permuted (m d : Int64) {first second : List InsertCall}
    (permuted : first.Perm second) (merging : ∀ call ∈ first, call.merge = [true]) :
    ∃ left right, (new.clone m d).insertAll first = some left ∧
      (new.clone m d).insertAll second = some right ∧ left = right ∧ left.bytes = right.bytes := by
  -- Both tries stand for the same map, and the map fixes the trie.
  obtain ⟨left, builtLeft, standsLeft⟩ := insertAll_stands m d first
  obtain ⟨right, builtRight, standsRight⟩ := insertAll_stands m d second
  rw [← storeCalls_perm permuted merging] at standsRight
  have same := standsLeft.unique standsRight
  exact ⟨left, right, builtLeft, builtRight, same, congrArg bytes same⟩

/-- A key inserted before or after the key it continues ends up in the same trie. -/
theorem bytes_of_permuted_continued :
    ∃ left right,
      (new.clone 3 2).insertAll [⟨[1, 2], 5, [true], by decide⟩, ⟨[1], 7, [true], by decide⟩] =
        some left ∧
      (new.clone 3 2).insertAll [⟨[1], 7, [true], by decide⟩, ⟨[1, 2], 5, [true], by decide⟩] =
        some right ∧ left = right ∧ left.bytes = right.bytes :=
  -- Two calls are exchanged.
  bytes_of_permuted 3 2 (List.Perm.swap _ _ []) (by simp)

end Trie

end Spycat
