import Spycat.Lib.RadixPlace
import Spycat.Util.Trie

/-! The loop of the stack-sample trie, turn by turn, with every index and slice it checks. -/

namespace Spycat

open Lib

/-- The place in a tree that the loop's `tn` points at. -/
abbrev TriePlace := RadixPlace UInt8 UInt64

/-- Both parts of a byte string cut at a position, absent where the source slices past its end. -/
def sliceAt (bytes : Bytes) (i : Nat) : Option (Bytes × Bytes) :=
  if i ≤ bytes.length then some (bytes.take i, bytes.drop i) else none

/--
Compare the key with the label byte by byte from a position on.

The result is absent where the source indexes past the label.
-/
def compareLead (leadKey key : Bytes) (i : Nat) : Option LeadMatch :=
  if more : i < key.length then
    if i = leadKey.length then some .longer
    else
      match leadKey[i]? with
      | none => none
      | some byte => if byte ≠ key[i] then some (.differs i) else compareLead leadKey key (i + 1)
  else if key ≠ leadKey then some .shorter
  else some .equal
termination_by key.length - i

namespace TriePlace

/-- Put a subtree among the children and stand at it. -/
def insert (place : TriePlace) (t2 : TrieNode) : TriePlace :=
  let tn := place.node
  let i := insertPos (tn.children.map (·.name)) t2.name
  place.enter (tn.children.take i) t2 (tn.children.drop i)

/-- Put a node in one child's position and stand at it. -/
def setChild (place : TriePlace) (index : Nat) (child : TrieNode) : TriePlace :=
  place.enter (place.node.children.take index) child (place.node.children.drop (index + 1))

end TriePlace

/-- What one turn of the outer loop comes to. -/
inductive Turn where
  /-- `fn` is called on the node there, and the walk returns. -/
  | calls (place : TriePlace)
  /-- The loop starts over at the node there, with what is left of the key. -/
  | restarts (place : TriePlace) (key : Bytes)

/-- Cut the lead child's label, put a fresh node above the cut, and go on from there. -/
def splitTurn (place : TriePlace) (leadIndex : Nat) (child : TrieNode) (key : Bytes) (i : Nat) :
    Option Turn := do
  let (a, b) ← sliceAt child.name i
  let (_, rest) ← sliceAt key i
  return .restarts (place.setChild leadIndex (.mk a 0 [child.withName b])) rest

/-- One turn of the outer loop, absent where the source panics. -/
def findNodeAtTurn (place : TriePlace) (key : Bytes) : Option Turn :=
  match key with
  | [] => some (.calls place)
  | first :: _ => do
    match ← findLead first place.node.children 0 none with
    | none => return .calls (place.insert (newTrieNode key))
    | some leadIndex =>
      let child ← place.node.children[leadIndex]?
      match ← compareLead child.name key 0 with
      | .longer =>
        let (_, rest) ← sliceAt key child.name.length
        return .restarts (place.setChild leadIndex child) rest
      | .differs i => splitTurn place leadIndex child key i
      | .shorter => splitTurn place leadIndex child key key.length
      | .equal => return .calls (place.setChild leadIndex child)

/-- A callback over the state it captures: it is given a node and may change both. -/
abbrev NodeCallback (σ : Type) := σ → TrieNode → σ × TrieNode

/-- How a walk has come out after a number of turns. -/
inductive WalkEnd (σ : Type) where
  | panicked
  | unfinished
  /-- The state the callbacks leave, and the place the walk returned from. -/
  | returned (state : σ) (place : TriePlace)

namespace WalkEnd

variable {σ : Type}

/-- The tree a walk leaves, where it returned. -/
def tree : WalkEnd σ → Option TrieNode
  | .panicked | .unfinished => none
  | .returned _ place => some place.tree

end WalkEnd

/-- The outer loop for a number of turns. -/
def findNodeAtLoop {σ : Type} (fn : NodeCallback σ) :
    Nat → σ → TriePlace → Bytes → WalkEnd σ
  | 0, _, _, _ => .unfinished
  | turns + 1, state, place, key =>
    match findNodeAtTurn place key with
    | none => .panicked
    | some (.calls called) =>
      let (state, tn) := fn state called.node
      .returned state (called.put tn)
    | some (.restarts next rest) => findNodeAtLoop fn turns state next rest

end Spycat
