import Mathlib.Data.Fintype.Card
import Spycat.Proofs.Util.TrieMap
import Spycat.Util.TrieCodec

/-! The bytes of a trie follow its shape, and every trie built by insertions fits the format. -/

namespace Spycat

open Lib RadixNode

mutual
/-- The bytes of one tree, with the value at each node replaced by its image. -/
def encode (image : UInt64 → UInt64) : TrieNode → Bytes
  | .mk name value children =>
    putUvarint (UInt64.ofNat name.length) ++ (name ++ (putUvarint (image value) ++
      (putUvarint (UInt64.ofNat children.length) ++ encodeAll image children)))
/-- The bytes of a list of trees, one tree after the other. -/
def encodeAll (image : UInt64 → UInt64) : List TrieNode → Bytes
  | [] => []
  | tree :: rest => encode image tree ++ encodeAll image rest
end

/-- The bytes of a node in front of those of its children. -/
def nodeHead (name : Bytes) (value : UInt64) (count : Nat) : Bytes :=
  putUvarint (UInt64.ofNat name.length) ++ (name ++ (putUvarint value ++
    putUvarint (UInt64.ofNat count)))

/-- The bytes of a tree start with those of its root. -/
theorem encode_head (name : Bytes) (value : UInt64) (children : List TrieNode) :
    encode id (.mk name value children) =
      nodeHead name value children.length ++ encodeAll id children := by
  -- A node comes in front of its children.
  simp [encode, nodeHead]

mutual
/-- The bytes of the nodes of a tree, each without those of its children. -/
def headsOf : TrieNode → List Bytes
  | .mk name value children => nodeHead name value children.length :: headsAll children
/-- The bytes of the nodes of a list of trees. -/
def headsAll : List TrieNode → List Bytes
  | [] => []
  | tree :: rest => headsOf tree ++ headsAll rest
end

theorem encodeAll_append (image : UInt64 → UInt64) (left right : List TrieNode) :
    encodeAll image (left ++ right) = encodeAll image left ++ encodeAll image right := by
  -- Bytes are written tree by tree.
  induction left with
  | nil => rfl
  | cons tree rest ih => simp [encodeAll, ih]

namespace Trie

/-- A writer that can scale every value writes the pending trees one after the other. -/
theorem serializeLoop_eq {t : Trie} {image : UInt64 → UInt64}
    (scales : ∀ value, t.writtenValue value = some (image value)) (nodes : List TrieNode) :
    t.serializeLoop nodes = some (encodeAll image nodes) := by
  -- The induction follows the work list.
  induction nodes using serializeLoop.induct with
  | case1 => simp [serializeLoop, encodeAll]
  | case2 tn nodes ih =>
    -- The children go in front of the pending nodes, as they do in the bytes.
    obtain ⟨name, value, children⟩ := tn
    rw [serializeLoop, scales, ih, encodeAll_append]
    simp [encodeAll, encode]

/-- The bytes of a trie whose values can all be scaled. -/
theorem serialize_eq {t : Trie} {image : UInt64 → UInt64}
    (scales : ∀ value, t.writtenValue value = some (image value)) :
    t.serialize = some (encode image t.root) := by
  -- The loop starts with the root alone.
  simp [serialize, serializeLoop_eq scales, encodeAll]

/-- A trie with neutral scaling writes its values as they are. -/
theorem writtenValue_neutral {t : Trie} (multiplier : t.multiplier = 1) (divider : t.divider = 1)
    (value : UInt64) : t.writtenValue value = some value := by
  -- The source leaves values alone when both factors are one.
  simp [writtenValue, multiplier, divider]

end Trie

/-- A tree that fits the format: allocatable labels in order, and counts that fit their integers. -/
inductive Fits : TrieNode → Prop
  | node {name : Bytes} {value : UInt64} {children : List TrieNode}
      (short : name.length ≤ maxAlloc) (few : children.length < 2 ^ 63)
      (named : ∀ child ∈ children, child.name ≠ [])
      (sorted : (children.map (·.name)).Pairwise (· < ·))
      (below : ∀ child ∈ children, Fits child) : Fits (.mk name value children)

/-- Siblings that differ in their first byte are no more than there are bytes. -/
theorem children_few {children : List TrieNode} (ordered : children.Pairwise LeadBefore) :
    children.length ≤ 256 := by
  -- The first bytes increase, so they are pairwise different.
  have leads : (children.map fun child => (child.name.head?.getD 0).toFin).Nodup := by
    refine List.pairwise_map.mpr (ordered.imp fun {left right} before same => ?_)
    obtain ⟨a, leadA, b, leadB, less⟩ := before
    rw [Option.mem_def] at leadA leadB
    simp only [leadA, leadB, Option.getD_some] at same
    rw [UInt8.toFin_inj.mp same] at less
    exact Std.Irrefl.irrefl _ less
  simpa using leads.length_le_card

/-- A label of a tree for allocatable keys can be allocated. -/
theorem fits_of_holds {map : KeyMap UInt8 UInt64} {tree : TrieNode} (holds : Holds map tree)
    (short : tree.name.length ≤ maxAlloc)
    (allocated : ∀ key, (map key).isSome → key.length ≤ maxAlloc) : Fits tree := by
  -- The induction follows the tree, with the keys that are stored below each node.
  induction holds with
  | @node map name value children stored ordered named needed covered nested ih =>
    have holds : Holds map (.mk name value children) :=
      .node stored ordered named needed covered nested
    have few := children_few ordered
    refine .node short (by omega) named (names_sorted ordered) fun child member => ?_
    -- The child's label is the start of a stored key.
    obtain ⟨rest, present⟩ := holds.exists_key_below member
    have bound := allocated _ present
    rw [List.length_append] at bound
    refine ih child member (by omega) fun key present => ?_
    have whole := allocated _ present
    rw [List.length_append] at whole
    omega

/-- Only keys that were inserted are stored, so every stored key could be allocated. -/
theorem storeCalls_allocated (calls : List InsertCall) (key : Bytes)
    (present : (Trie.storeCalls calls key).isSome) : key.length ≤ maxAlloc := by
  -- Each call stores its own key, which could be allocated.
  revert key
  refine List.foldlRecOn (motive := fun map : KeyMap UInt8 UInt64 =>
    ∀ key, (map key).isSome → key.length ≤ maxAlloc) calls Trie.storeCall ?_ ?_
  · intro key present
    simp [KeyMap.empty] at present
  · intro map bounded call _ key present
    by_cases same : key = call.key
    · exact same ▸ call.allocated
    · exact bounded key (by simpa [Trie.storeCall, KeyMap.store, same] using present)

/-- Every trie built by insertions fits the format. -/
theorem Trie.Stands.fits {m d : Int64} {t : Trie} {calls : List InsertCall}
    (stands : t.Stands m d (storeCalls calls)) : Fits t.root :=
  -- The trie stands for keys that could be allocated.
  fits_of_holds stands.represents.holds (by simp [stands.represents.name])
    (storeCalls_allocated calls)

end Spycat
