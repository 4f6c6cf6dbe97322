import Spycat.Lib.RadixMap

/-! Places in a compressed prefix tree, and what its shape comes to at every one of them. -/

namespace Spycat.Lib

open RadixNode

variable {α β : Type}

/-- What surrounds a child: its parent's own data and the siblings on either side. -/
structure RadixFrame (α β : Type) where
  name : List α
  value : β
  before : List (RadixNode α β)
  after : List (RadixNode α β)

/-- A node of a tree, with what surrounds it on every level up to the root, innermost first. -/
structure RadixPlace (α β : Type) where
  node : RadixNode α β
  above : List (RadixFrame α β)

namespace RadixFrame

/-- The parent with a child put back between its siblings. -/
def fill (frame : RadixFrame α β) (child : RadixNode α β) : RadixNode α β :=
  .mk frame.name frame.value (frame.before ++ child :: frame.after)

@[simp] theorem name_fill (frame : RadixFrame α β) (child : RadixNode α β) :
    (frame.fill child).name = frame.name := rfl

@[simp] theorem children_fill (frame : RadixFrame α β) (child : RadixNode α β) :
    (frame.fill child).children = frame.before ++ child :: frame.after := rfl

/-- The labels on the way from the root to a parent, in a row. -/
def leading : List (RadixFrame α β) → List α
  | [] => []
  | frame :: outer => leading outer ++ frame.name

end RadixFrame

namespace RadixPlace

/-- The place of the root. -/
def top (tree : RadixNode α β) : RadixPlace α β := ⟨tree, []⟩

/-- The whole tree around a place. -/
def tree (place : RadixPlace α β) : RadixNode α β :=
  place.above.foldl (fun below frame => frame.fill below) place.node

/-- The labels on the way from the root to the node, its own included. -/
def path (place : RadixPlace α β) : List α :=
  RadixFrame.leading place.above ++ place.node.name

/-- The same place with another node there. -/
def put (place : RadixPlace α β) (node : RadixNode α β) : RadixPlace α β := ⟨node, place.above⟩

/-- The place of a child, whose siblings are listed on either side. -/
def enter (place : RadixPlace α β) (before : List (RadixNode α β)) (child : RadixNode α β)
    (after : List (RadixNode α β)) : RadixPlace α β :=
  ⟨child, ⟨place.node.name, place.node.value, before, after⟩ :: place.above⟩

@[simp] theorem node_top (tree : RadixNode α β) : (top tree).node = tree := rfl

@[simp] theorem tree_top (whole : RadixNode α β) : (top whole).tree = whole := rfl

@[simp] theorem path_top (tree : RadixNode α β) : (top tree).path = tree.name := rfl

@[simp] theorem node_put (place : RadixPlace α β) (node : RadixNode α β) :
    (place.put node).node = node := rfl

@[simp] theorem put_put (place : RadixPlace α β) (first second : RadixNode α β) :
    (place.put first).put second = place.put second := rfl

@[simp] theorem node_enter (place : RadixPlace α β) (before : List (RadixNode α β))
    (child : RadixNode α β) (after : List (RadixNode α β)) :
    (place.enter before child after).node = child := rfl

/-- A child continues its parent's path with its own label. -/
@[simp] theorem path_enter (place : RadixPlace α β) (before : List (RadixNode α β))
    (child : RadixNode α β) (after : List (RadixNode α β)) :
    (place.enter before child after).path = place.path ++ child.name := rfl

/-- Around a child stands the tree around its parent with these children. -/
theorem tree_enter (place : RadixPlace α β) (before : List (RadixNode α β))
    (child : RadixNode α β) (after : List (RadixNode α β)) :
    (place.enter before child after).tree =
      (place.put (place.node.withChildren (before ++ child :: after))).tree := by
  -- The innermost frame, filled, is the parent over the listed children.
  obtain ⟨⟨name, value, children⟩, above⟩ := place
  rfl

/-- Changing a child changes the tree around it as changing its parent does. -/
theorem tree_put_enter (place : RadixPlace α β) (before : List (RadixNode α β))
    (child replaced : RadixNode α β) (after : List (RadixNode α β)) :
    ((place.enter before child after).put replaced).tree =
      (place.put (place.node.withChildren (before ++ replaced :: after))).tree :=
  -- Going up from the child puts it back between its neighbours.
  place.tree_enter before replaced after

end RadixPlace

/-- At every place of a tree, the node stands for the part of the map below its path. -/
theorem Holds.at_place [LT α] [Zero β] {map : KeyMap α β} {whole : RadixNode α β}
    (holds : Holds map whole) {place : RadixPlace α β} (inside : place.tree = whole) :
    ∃ below, place.path = whole.name ++ below ∧ Holds (map.below below) place.node := by
  -- The induction goes up from the node to the root, one parent after the other.
  obtain ⟨node, above⟩ := place
  induction above generalizing node with
  | nil =>
    have same : node = whole := inside
    exact ⟨[], by simp [RadixPlace.path, RadixFrame.leading, same], by simpa [same] using holds⟩
  | cons frame outer ih =>
    obtain ⟨below, spelled, parent⟩ := ih (frame.fill node) inside
    refine ⟨below ++ node.name, ?_, ?_⟩
    · have up : RadixFrame.leading outer ++ frame.name = whole.name ++ below := spelled
      simp [RadixPlace.path, RadixFrame.leading, up]
    · rw [← KeyMap.below_below]
      exact parent.nested node (by simp)

/--
The shape of a tree that keeps its nodes for a set of keys.

Every node but the root is named, siblings differ in their first letter and are sorted by name.
A node below the root carries one of the keys or is a branching point.
-/
structure Compressed [LT α] (keys : List α → Prop) (whole : RadixNode α β) : Prop where
  named : ∀ place : RadixPlace α β, place.tree = whole → place.above ≠ [] → place.node.name ≠ []
  distinct : ∀ place : RadixPlace α β, place.tree = whole →
    place.node.children.Pairwise fun left right => left.name.head? ≠ right.name.head?
  sorted : ∀ place : RadixPlace α β, place.tree = whole →
    place.node.children.Pairwise fun left right => left.name < right.name
  needed : ∀ place : RadixPlace α β, place.tree = whole → place.above ≠ [] →
    keys place.path ∨ 2 ≤ place.node.children.length

/-- A tree that stands for a map keeps its nodes for the map's keys. -/
theorem Holds.compressed [LT α] [Zero β] [Std.Irrefl (α := α) (· < ·)] {map : KeyMap α β}
    {whole : RadixNode α β} (holds : Holds map whole) (unnamed : whole.name = []) :
    Compressed (fun key => (map key).isSome) whole where
  named := by
    -- A node below the root is a child of the node around it.
    intro place inside below
    obtain ⟨node, above⟩ := place
    cases above with
    | nil => exact absurd rfl below
    | cons frame outer =>
      have around : (⟨frame.fill node, outer⟩ : RadixPlace α β).tree = whole := inside
      obtain ⟨_, _, parent⟩ := holds.at_place around
      exact parent.named node (by simp)
  distinct := by
    intro place inside
    obtain ⟨_, _, here⟩ := holds.at_place inside
    exact here.ordered.imp fun before => before.head_ne
  sorted := by
    intro place inside
    obtain ⟨_, _, here⟩ := holds.at_place inside
    exact here.ordered.imp fun before => before.name_lt
  needed := by
    -- The parent says what its children are kept for, in terms of its own part of the map.
    intro place inside below
    obtain ⟨node, above⟩ := place
    cases above with
    | nil => exact absurd rfl below
    | cons frame outer =>
      have around : (⟨frame.fill node, outer⟩ : RadixPlace α β).tree = whole := inside
      obtain ⟨path, spelled, parent⟩ := holds.at_place around
      have up : RadixFrame.leading outer ++ frame.name = path := by
        simpa [RadixPlace.path, unnamed] using spelled
      simpa [RadixPlace.path, RadixFrame.leading, up] using parent.needed node (by simp)

end Spycat.Lib
