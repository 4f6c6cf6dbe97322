import Spycat.Proofs.Util.TrieIterateRaw

/-! Where the streaming iterator notices that the bytes of a trie were cut off. -/

namespace Spycat

open Lib RadixNode

mutual
/-- The bytes of a tree are those of its nodes, one after the other. -/
theorem encode_flatten : ∀ tree : TrieNode, encode id tree = (headsOf tree).flatten
  -- The two inductions follow the tree, each node in front of its children.
  | .mk name value children => by
    rw [encode_head, headsOf, List.flatten_cons, encodeAll_flatten children]
/-- The bytes of a list of trees are those of their nodes. -/
theorem encodeAll_flatten : ∀ trees : List TrieNode, encodeAll id trees = (headsAll trees).flatten
  -- The trees of the list are written one after the other.
  | [] => rfl
  | tree :: rest => by
    rw [encodeAll, headsAll, List.flatten_append, encode_flatten tree, encodeAll_flatten rest]
end

/-- Bytes that end with one of the pieces, or before all of them. -/
def Between (pieces : List Bytes) (p : Bytes) : Prop := ∃ j, p = (pieces.take j).flatten

theorem between_nil (pieces : List Bytes) : Between pieces [] := ⟨0, rfl⟩

/-- Behind the first piece, the cut is between the others. -/
theorem between_cons {piece : Bytes} (some_ : piece ≠ []) {pieces : List Bytes} {p : Bytes} :
    Between (piece :: pieces) (piece ++ p) ↔ Between pieces p := by
  -- Taking one more piece is taking the first one and then the others.
  constructor
  · intro between
    obtain ⟨j, split⟩ := between
    cases j with
    | zero => exact absurd (List.append_eq_nil_iff.mp split).1 some_
    | succ j => exact ⟨j, List.append_cancel_left split⟩
  · intro between
    obtain ⟨j, rfl⟩ := between
    exact ⟨j + 1, rfl⟩

/-- A cut inside the first piece is not between the pieces. -/
theorem not_between {piece p missing : Bytes} {pieces : List Bytes} (split : piece = p ++ missing)
    (some_ : p ≠ []) (short : missing ≠ []) : ¬Between (piece :: pieces) p := by
  intro between
  obtain ⟨j, taken⟩ := between
  cases j with
  | zero => exact some_ taken
  | succ j =>
    -- The first piece is at most as long as what it was cut to.
    have length := congrArg List.length taken
    have whole := congrArg List.length split
    have lost := List.length_pos_of_ne_nil short
    simp only [List.take_succ_cons, List.flatten_cons, List.length_append] at length whole
    omega

/-- A front of two parts covers the first part, or leaves some of it out. -/
theorem cut_append {first second p missing : Bytes} (split : first ++ second = p ++ missing) :
    (∃ more, p = first ++ more ∧ second = more ++ missing) ∨
      ∃ lost, lost ≠ [] ∧ first = p ++ lost := by
  -- Either part of the front may be empty, and then the cut is behind the first part.
  rcases List.append_eq_append_iff.mp split with ⟨more, rfl, rest⟩ | ⟨lost, whole, rest⟩
  · exact .inl ⟨more, rfl, rest⟩
  · by_cases none_ : lost = []
    · subst none_
      exact .inl ⟨[], by simpa using whole.symm, by simpa using rest.symm⟩
    · exact .inr ⟨lost, none_, whole⟩

/-- A node of which some bytes are missing, and some are there, is not read. -/
theorem readRawNode_cut {name : Bytes} {value : UInt64} {count : Nat} {p missing : Bytes}
    (split : nodeHead name value count = p ++ missing) (some_ : p ≠ []) (short : missing ≠ [])
    (allocated : name.length ≤ maxAlloc) (b : Bytes) {copied : Int}
    (unnamed : name = [] → copied = 0) :
    ∃ err, readRawNode p b copied = .error (some err) := by
  -- The cut is in one of the four parts, and those in front of it are read.
  rcases cut_append split with ⟨q, rfl, named⟩ | ⟨lost, ne, split⟩
  · rcases cut_append named with ⟨r, rfl, valued⟩ | ⟨lost, ne, split⟩
    · have read_ := Frames.readName_append r b allocated unnamed
      rcases cut_append valued with ⟨u, rfl, counted⟩ | ⟨lost, ne, split⟩
      · obtain ⟨err, failed, _⟩ := readUvarint_cut counted short
        rcases read : readUvarint u with ⟨count, result, rest⟩
        obtain rfl : result = some err := by simpa [read] using failed
        exact ⟨err, by simp only [readRawNode, readUvarint_putUvarint, read_, read]⟩
      · obtain ⟨err, failed, _⟩ := readUvarint_cut split ne
        rcases read : readUvarint r with ⟨value, result, rest⟩
        obtain rfl : result = some err := by simpa [read] using failed
        exact ⟨err, by simp only [readRawNode, readUvarint_putUvarint, read_, read]⟩
    · -- The name takes what there is, and nothing is left for the value.
      have named : name ≠ [] := by
        rintro rfl
        exact ne (List.append_eq_nil_iff.mp split.symm).2
      have fewer : q.length ≤ name.length := by simp [split]
      refine ⟨.eof, ?_⟩
      simp only [readRawNode, readUvarint_putUvarint, readName,
        if_pos (Frames.length_ne_zero allocated named), Frames.nameLimit_length allocated,
        List.drop_eq_nil_of_le fewer]
      rfl
  · obtain ⟨err, failed, notEnd⟩ := readUvarint_cut split ne
    rcases read : readUvarint p with ⟨length, result, rest⟩
    obtain rfl : result = some err := by simpa [read] using failed
    -- The input was not at its end, so the error is not taken for one.
    have inside := notEnd some_
    refine ⟨err, ?_⟩
    unfold readRawNode
    rw [read]
    cases err with
    | eof => exact absurd rfl inside
    | unexpectedEof => rfl
    | overflow => rfl

/-- How an iteration ends over bytes that are cut off at a boundary or elsewhere. -/
def Ends (boundary : Prop) : Except Failure Unit → Prop
  | .ok _ => boundary
  | .error .panic => False
  | .error (.error _) => ¬boundary

namespace Frames

/-- Bytes of a node that are cut off end the iteration with an error. -/
theorem iterateRawLoop_broken {p b : Bytes} {copied : Int} {err : ReadError}
    (broken : readRawNode p b copied = .error (some err)) (offsets : List Offset) :
    iterateRawLoop p b offsets copied = ([], .error (.error err)) := by
  -- The round ends where its node cannot be read.
  rw [iterateRawLoop]
  split <;> simp_all

theorem nodeHead_ne_nil (name : Bytes) (value : UInt64) (count : Nat) :
    nodeHead name value count ≠ [] := by
  -- A node has at least the bytes of its length.
  intro empty
  have read := readUvarint_putUvarint (UInt64.ofNat name.length)
    (name ++ (putUvarint value ++ putUvarint (UInt64.ofNat count)))
  rw [show putUvarint (UInt64.ofNat name.length) ++ (name ++ (putUvarint value ++
    putUvarint (UInt64.ofNat count))) = [] from empty] at read
  have failed := congrArg (·.2.1) read
  simp [readUvarint, maxVarintLen64, readUvarintLoop] at failed

/-- The bytes of pending nodes can be cut off between two of them without an error. -/
theorem iterateRawLoop_cut {offsets : List Offset} {frames : List Frame}
    (reading : Reading offsets frames) (copied : Int) {p : Bytes} (cut : p <+: input frames) :
    Ends (Between (heads frames) p) (iterateRawLoop p (path frames) offsets copied).2 := by
  -- Every round either is cut short or leaves the cut to the rounds behind it.
  induction count : remaining frames using Nat.strongRecOn
    generalizing offsets frames copied p with
  | ind count ih =>
    by_cases none_ : p = []
    · subst none_
      rw [iterateRawLoop_end]
      exact between_nil _
    · obtain ⟨missing, split⟩ := cut
      rcases reading.round with ⟨label, rfl⟩ | ⟨offsets', frames', name, value, _, round⟩
      · exact absurd (List.append_eq_nil_iff.mp split).1 none_
      · rw [round.input] at split
        rw [round.heads]
        rcases cut_append split.symm with ⟨more, rfl, rest⟩ | ⟨lost, ne, split⟩
        · -- The first node is read, and the cut is behind it.
          rw [round.goes, between_cons (nodeHead_ne_nil _ _ _)]
          exact ih _ (count ▸ round.fewer) round.reading _ ⟨missing, rest.symm⟩ rfl
        · obtain ⟨err, broken⟩ := readRawNode_cut split none_ ne round.short (path frames)
            fun empty => absurd empty round.named
          rw [iterateRawLoop_broken broken]
          exact not_between split none_ ne

/-- The bytes of a whole tree can be cut off between two nodes without an error. -/
theorem iterateRaw_cut {root : TrieNode} (fits : Fits root) (unnamed : root.name = [])
    (buf : Bytes) {p : Bytes} (cut : p <+: encode id root) :
    Ends (Between (headsOf root) p) (iterateRaw p buf).2 := by
  -- The root is read on its own, with no ancestors to be cut.
  obtain ⟨name, value, children⟩ := root
  obtain rfl : name = [] := unnamed
  have reading := reading_children fits buf
  by_cases none_ : p = []
  · subst none_
    rw [iterateRaw, iterateRawLoop_end]
    exact between_nil _
  · obtain ⟨missing, split⟩ := cut
    rw [encode_head] at split
    rw [iterateRaw, headsOf]
    cases fits with
    | node short few =>
      rcases cut_append split.symm with ⟨more, rfl, rest⟩ | ⟨lost, ne, split⟩
      · rw [between_cons (nodeHead_ne_nil _ _ _)]
        by_cases inner : children = []
        · -- The root is the only node, so nothing is left of the input.
          subst inner
          obtain rfl := (List.append_eq_nil_iff.mp rest.symm).1
          have cut : cutLeaf (buf ++ []) (([] : Bytes).length : Int) [] = some (buf, []) := by
            rw [cutLeaf, truncate_append, Option.bind_some]
          rw [List.length_nil, iterateRawLoop_leaf short (fun _ => rfl) cut, iterateRawLoop_end]
          exact between_nil _
        · have below : more <+: Frames.input [⟨buf, children⟩] :=
            ⟨missing, by simpa [input] using rest.symm⟩
          have walked := iterateRawLoop_cut reading 0 below
          rw [iterateRawLoop_inner short (fun _ => rfl) few
            fun none_ => inner (List.eq_nil_of_length_eq_zero none_)]
          simpa [heads, path, report] using walked
      · obtain ⟨err, broken⟩ := readRawNode_cut split none_ ne short buf fun _ => rfl
        rw [iterateRawLoop_broken broken]
        exact not_between split none_ ne

end Frames

namespace Trie

/--
The bytes of a trie that were cut off make an error exactly where the cut is not between two nodes.

The label buffer may start with any contents.
-/
theorem iterateRaw_truncated (inserts : List InsertCall) :
    ∃ t bytes, new.insertAll inserts = some t ∧ t.serialize = some bytes ∧
      bytes = (headsOf t.root).flatten ∧
      ∀ buf p, p <+: bytes → p ≠ [] → p ≠ bytes →
        ((∃ err, (iterateRaw p buf).2 = .error (.error err)) ↔ ¬Between (headsOf t.root) p) := by
  -- The bytes are those of the nodes in pre-order, so a cut between two of them is known.
  obtain ⟨t, built, stands⟩ := insertAll_new_stands inserts
  have scales : ∀ value, t.writtenValue value = some (id value) :=
    writtenValue_neutral stands.multiplier stands.divider
  refine ⟨t, _, built, serialize_eq scales, encode_flatten t.root, fun buf p cut _ _ => ?_⟩
  have ends := Frames.iterateRaw_cut stands.fits stands.represents.name buf cut
  cases outcome : (iterateRaw p buf).2 with
  | ok =>
    rw [outcome] at ends
    exact iff_of_false (by simp) (not_not.mpr ends)
  | error failure =>
    rw [outcome] at ends
    cases failure with
    | panic => exact ends.elim
    | error err => exact iff_of_true ⟨err, rfl⟩ ends

/-- A trie with one key, of whose two nodes only the first is left, is iterated over well. -/
theorem iterateRaw_one_node_left :
    ∃ t, new.insertAll [⟨[97], 3, [true], by decide⟩] = some t ∧
      t.serialize = some [0, 0, 1, 1, 97, 3, 0] ∧ [0, 0, 1] <+: [0, 0, 1, 1, 97, 3, 0] ∧
        (iterateRaw [0, 0, 1] []).2 = .ok () := by
  -- The trie and its bytes are evaluated, and then the first three bytes are read.
  have built : new.insertAll [⟨[97], 3, [true], by decide⟩] =
      some { new with root := .mk [] 0 [.mk [97] 3 []] } := by
    simp [insertAll, run, insert, findNodeAt, findLead, new, newTrieNode, RadixNode.children,
      TrieNode.insert, insertPos, searchFirst, withChildren, withValue, RadixNode.value,
      RadixNode.name]
  have scales : ∀ value, writtenValue { new with root := .mk [] 0 [.mk [97] 3 []] } value =
      some (id value) := fun _ => rfl
  have head : nodeHead [] 0 1 = [0, 0, 1] := by simp [nodeHead, putUvarint]
  refine ⟨_, built, ?_, by decide, ?_⟩
  · rw [serialize_eq scales]
    simp [encode, encodeAll, putUvarint]
  · -- The root announces a child, and the input is at its end where the child should be.
    rw [iterateRaw, ← head, ← List.append_nil (nodeHead _ _ _),
      Frames.iterateRawLoop_inner (by decide) (fun _ => rfl) (by decide) (by decide),
      Frames.iterateRawLoop_end]
    rfl

end Trie

end Spycat
