import Mathlib.Data.List.Lex
import Mathlib.Data.List.Sort

/-! Compressed prefix trees over an ordered alphabet, and the finite maps they stand for. -/

namespace Spycat.Lib

/-- A tree node: the label of the edge into it, the value it holds, and its subtrees. -/
inductive RadixNode (α β : Type) where
  | mk (name : List α) (value : β) (children : List (RadixNode α β))

namespace RadixNode

variable {α β γ : Type}

/-- The label of the edge that leads to the node. -/
def name : RadixNode α β → List α
  | .mk name _ _ => name

/-- The value stored at the node. -/
def value : RadixNode α β → β
  | .mk _ value _ => value

/-- The subtrees below the node. -/
def children : RadixNode α β → List (RadixNode α β)
  | .mk _ _ children => children

/-- The node under another edge label. -/
def withName (label : List α) : RadixNode α β → RadixNode α β
  | .mk _ value children => .mk label value children

/-- The node holding another value. -/
def withValue (stored : β) : RadixNode α β → RadixNode α β
  | .mk name _ children => .mk name stored children

/-- The node over another list of subtrees. -/
def withChildren (below : List (RadixNode α β)) : RadixNode α β → RadixNode α β
  | .mk name value _ => .mk name value below

@[simp] theorem name_mk (name : List α) (value : β) (children : List (RadixNode α β)) :
    (mk name value children).name = name := rfl

@[simp] theorem value_mk (name : List α) (value : β) (children : List (RadixNode α β)) :
    (mk name value children).value = value := rfl

@[simp] theorem children_mk (name : List α) (value : β) (children : List (RadixNode α β)) :
    (mk name value children).children = children := rfl

@[simp] theorem name_withName (label : List α) (node : RadixNode α β) :
    (node.withName label).name = label := by cases node; rfl

@[simp] theorem value_withName (label : List α) (node : RadixNode α β) :
    (node.withName label).value = node.value := by cases node; rfl

@[simp] theorem children_withName (label : List α) (node : RadixNode α β) :
    (node.withName label).children = node.children := by cases node; rfl

@[simp] theorem name_withValue (stored : β) (node : RadixNode α β) :
    (node.withValue stored).name = node.name := by cases node; rfl

@[simp] theorem value_withValue (stored : β) (node : RadixNode α β) :
    (node.withValue stored).value = stored := by cases node; rfl

@[simp] theorem children_withValue (stored : β) (node : RadixNode α β) :
    (node.withValue stored).children = node.children := by cases node; rfl

@[simp] theorem name_withChildren (below : List (RadixNode α β)) (node : RadixNode α β) :
    (node.withChildren below).name = node.name := by cases node; rfl

@[simp] theorem value_withChildren (below : List (RadixNode α β)) (node : RadixNode α β) :
    (node.withChildren below).value = node.value := by cases node; rfl

@[simp] theorem children_withChildren (below : List (RadixNode α β)) (node : RadixNode α β) :
    (node.withChildren below).children = below := by cases node; rfl

/-- Two nodes with the same label, value, and subtrees are the same node. -/
theorem ext {left right : RadixNode α β} (names : left.name = right.name)
    (values : left.value = right.value) (below : left.children = right.children) :
    left = right := by
  -- A node is nothing more than its three fields.
  cases left
  cases right
  simp_all

/-- A property that passes from all subtrees to the node holds of every tree. -/
theorem induct {motive : RadixNode α β → Prop}
    (node : ∀ name value children, (∀ child ∈ children, motive child) →
      motive (.mk name value children)) (tree : RadixNode α β) : motive tree := by
  -- The generated principle carries a second motive for the list of subtrees.
  refine RadixNode.rec (motive_1 := motive)
    (motive_2 := fun trees => ∀ tree ∈ trees, motive tree) node ?_ ?_ tree
  · exact fun tree member => absurd member List.not_mem_nil
  · intro head tail first rest tree member
    rcases List.mem_cons.mp member with same | later
    · exact same ▸ first
    · exact rest tree later

mutual
/-- The number of nodes in a tree. -/
def size : RadixNode α β → Nat
  | .mk _ _ children => sizeAll children + 1
/-- The number of nodes in a list of trees. -/
def sizeAll : List (RadixNode α β) → Nat
  | [] => 0
  | tree :: rest => size tree + sizeAll rest
end

@[simp] theorem sizeAll_append (left right : List (RadixNode α β)) :
    sizeAll (left ++ right) = sizeAll left + sizeAll right := by
  -- Sizes add up tree by tree.
  induction left with
  | nil => simp [sizeAll]
  | cons tree rest ih => simp [sizeAll, ih, Nat.add_assoc]

theorem size_eq (tree : RadixNode α β) : tree.size = sizeAll tree.children + 1 := by
  -- Written out, the size is that of the children and one for the node.
  cases tree
  rfl

/-- Every tree of a list has a node at least. -/
theorem length_le_sizeAll (trees : List (RadixNode α β)) : trees.length ≤ sizeAll trees := by
  -- The induction is on the list, and the root of each tree is one of its nodes.
  induction trees with
  | nil => exact Nat.le_refl 0
  | cons tree rest ih =>
    have root := size_eq tree
    rw [List.length_cons, sizeAll]
    omega

mutual
/-- The tree with every value replaced by its image. -/
def mapValues (image : β → γ) : RadixNode α β → RadixNode α γ
  | .mk name value children => .mk name (image value) (mapAll image children)
/-- A list of trees with every value replaced by its image. -/
def mapAll (image : β → γ) : List (RadixNode α β) → List (RadixNode α γ)
  | [] => []
  | tree :: rest => mapValues image tree :: mapAll image rest
end

theorem mapAll_eq_map (image : β → γ) (trees : List (RadixNode α β)) :
    mapAll image trees = trees.map (mapValues image) := by
  -- The second function of the pair is the plain map of the first.
  induction trees with
  | nil => rfl
  | cons tree rest ih => simp [mapAll, ih]

/-- Replacing every value by itself changes nothing. -/
theorem mapValues_id (tree : RadixNode α β) : tree.mapValues id = tree := by
  -- By induction every child stays as it is.
  induction tree using RadixNode.induct with
  | node name value children ih =>
    rw [mapValues, mapAll_eq_map, List.map_congr_left ih, List.map_id', id_eq]

mutual
/-- Every node of a tree in pre-order, with the path that leads to it. -/
def entries (path : List α) : RadixNode α β → List (List α × β)
  | .mk name value children => (path ++ name, value) :: entriesAll (path ++ name) children
/-- The entries of a list of trees, one tree after the other. -/
def entriesAll (path : List α) : List (RadixNode α β) → List (List α × β)
  | [] => []
  | tree :: rest => entries path tree ++ entriesAll path rest
end

theorem mem_entriesAll {path : List α} {trees : List (RadixNode α β)} {entry : List α × β} :
    entry ∈ entriesAll path trees ↔ ∃ tree ∈ trees, entry ∈ entries path tree := by
  -- An entry of the whole list belongs to the tree it was read from.
  induction trees with
  | nil => simp [entriesAll]
  | cons tree rest ih => simp [entriesAll, ih]

/-- Every entry's key continues the path that was walked so far and the node's label. -/
theorem entries_path (tree : RadixNode α β) :
    ∀ (path : List α) (entry : List α × β), entry ∈ entries path tree →
      ∃ below, entry.1 = path ++ tree.name ++ below := by
  -- The node itself adds nothing to its label, and a child adds its own label and what follows.
  induction tree using RadixNode.induct with
  | node name value children ih =>
    intro path entry member
    rw [entries, List.mem_cons, mem_entriesAll] at member
    rcases member with rfl | ⟨child, inside, member⟩
    · exact ⟨[], by simp⟩
    · obtain ⟨below, spelled⟩ := ih child inside (path ++ name) entry member
      exact ⟨child.name ++ below, by simp [spelled, List.append_assoc]⟩

end RadixNode

/-- A finite map over key strings; `none` marks a key that was never stored. -/
abbrev KeyMap (α β : Type) := List α → Option β

namespace KeyMap

variable {α β : Type}

/-- The map with no keys. -/
def empty : KeyMap α β := fun _ => none

/-- The part of a map under one leading string, read from there on. -/
def below (map : KeyMap α β) (path : List α) : KeyMap α β := fun key => map (path ++ key)

/-- The map with one key stored afresh. -/
def store [DecidableEq α] (map : KeyMap α β) (key : List α) (value : β) : KeyMap α β :=
  fun other => if other = key then some value else map other

@[simp] theorem below_apply (map : KeyMap α β) (path key : List α) :
    map.below path key = map (path ++ key) := rfl

@[simp] theorem below_nil (map : KeyMap α β) : map.below [] = map := rfl

theorem below_below (map : KeyMap α β) (outer inner : List α) :
    (map.below outer).below inner = map.below (outer ++ inner) := by
  -- Both sides look up the two strings and the key in a row.
  funext key
  simp [below, List.append_assoc]

/-- Storing below a path is storing the whole key above it. -/
theorem store_below [DecidableEq α] (map : KeyMap α β) (path key : List α) (value : β) :
    (map.store (path ++ key) value).below path = (map.below path).store key value := by
  -- A key below the path is the stored one just when the whole keys are the same.
  funext other
  simp [below, store]

/-- A path the stored key does not run through sees no change. -/
theorem store_below_other [DecidableEq α] (map : KeyMap α β) {path key : List α} (value : β)
    (apart : ¬ path <+: key) : (map.store key value).below path = map.below path := by
  -- The stored key is none of the keys that continue the path.
  funext other
  have differs : path ++ other ≠ key := fun same => apart ⟨other, same⟩
  simp [below, store, differs]

end KeyMap

end Spycat.Lib
