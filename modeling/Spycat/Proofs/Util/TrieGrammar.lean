import Spycat.Proofs.Util.TrieDeserialize

/-! What the grammar of serialized tries derives, and what deserializing accepts. -/

namespace Spycat

open Lib

mutual
/-- The bytes of a complete node: the length of its name, the name, its value, its children. -/
inductive NodeBytes : Bytes → Prop
  | node {nameLen value childrenLen : UInt64} {len name val count children : Bytes}
      (measured : Uvarint nameLen len) (named : name.length = nameLen.toNat)
      (valued : Uvarint value val) (counted : Uvarint childrenLen count)
      (complete : NodesBytes childrenLen.toNat children) :
      NodeBytes (len ++ (name ++ (val ++ (count ++ children))))
/-- The bytes of a number of complete nodes. -/
inductive NodesBytes : Nat → Bytes → Prop
  | nil : NodesBytes 0 []
  | cons {count : Nat} {first rest : Bytes} (node : NodeBytes first)
      (nodes : NodesBytes count rest) : NodesBytes (count + 1) (first ++ rest)
end

/-- Bytes that start with a complete node. -/
def StartsWithNode (b : Bytes) : Prop := ∃ node rest, NodeBytes node ∧ b = node ++ rest

/-- Where reading node after node gets to, with how many nodes pending. -/
inductive Reaches : Nat → Bytes → Nat → Bytes → Prop
  | here (pending : Nat) (input : Bytes) : Reaches pending input pending input
  | next {pending pending' : Nat} {input input' : Bytes} {header : NodeHeader}
      (read : nodeHeader input = .ok header)
      (further : Reaches (header.childrenLen.toNat + pending) header.rest pending' input') :
      Reaches (pending + 1) input pending' input'

/-- Every node that is reached starts with bytes of a kind. -/
def Throughout (kind : Bytes → Prop) (pending : Nat) (input : Bytes) : Prop :=
  ∀ pending' input', Reaches pending input (pending' + 1) input' → kind input'

/-- The pending nodes that are reached never are more than a slice of pointers holds. -/
def Spacious (pending : Nat) (input : Bytes) : Prop :=
  ∀ pending' input', Reaches pending input pending' input' → pending' ≤ maxPointers

/-- All pending nodes can be read. -/
def Complete (pending : Nat) (input : Bytes) : Prop := ∃ rest, Reaches pending input 0 rest

/-- The length of the first name, as it is gathered, can be allocated. -/
def Allocated (input : Bytes) : Prop := (readUvarint input).1.toNat ≤ maxAlloc

instance : DecidablePred Allocated := fun _ => inferInstanceAs (Decidable (_ ≤ _))

/-- The length of the first name does not overflow. -/
def Bounded (input : Bytes) : Prop := (readUvarint input).2.1 ≠ some .overflow

instance : DecidablePred Bounded := fun _ => inferInstanceAs (Decidable (_ ≠ _))

section Reaches

variable {pending pending' : Nat} {input input' : Bytes} {kind : Bytes → Prop}

theorem reaches_zero : Reaches 0 input pending' input' ↔ pending' = 0 ∧ input' = input := by
  -- Without a pending node no fields are read.
  constructor
  · intro reaches
    cases reaches
    exact ⟨rfl, rfl⟩
  · intro same
    obtain ⟨rfl, rfl⟩ := same
    exact .here 0 input'

theorem reaches_succ :
    Reaches (pending + 1) input pending' input' ↔
      (pending' = pending + 1 ∧ input' = input) ∨
        ∃ header, nodeHeader input = .ok header ∧
          Reaches (header.childrenLen.toNat + pending) header.rest pending' input' := by
  -- Reading stays where it is, or goes on behind the fields of the first node.
  constructor
  · intro reaches
    cases reaches with
    | here => exact .inl ⟨rfl, rfl⟩
    | next read further => exact .inr ⟨_, read, further⟩
  · intro way
    rcases way with ⟨rfl, rfl⟩ | ⟨header, read, further⟩
    · exact .here _ _
    · exact .next read further

/-- No node is reached where none is pending. -/
theorem throughout_zero : Throughout kind 0 input := by
  -- Reading gets nowhere, so it meets no node.
  intro pending' input' reaches
  simp [reaches_zero] at reaches

/-- What holds of all nodes holds of the first one and of those behind its fields. -/
theorem throughout_succ :
    Throughout kind (pending + 1) input ↔ kind input ∧
      ∀ header, nodeHeader input = .ok header →
        Throughout kind (header.childrenLen.toNat + pending) header.rest := by
  -- The first node is reached at once, and every other one behind its fields.
  constructor
  · intro always
    exact ⟨always _ _ (.here _ _), fun header read _ _ further => always _ _ (.next read further)⟩
  · intro both pending' input' reaches
    obtain ⟨first, others⟩ := both
    rcases reaches_succ.mp reaches with ⟨_, rfl⟩ | ⟨header, read, further⟩
    · exact first
    · exact others header read _ _ further

/-- Where no node is pending, none gets pending. -/
theorem spacious_zero : Spacious 0 input := by
  -- Reading gets nowhere.
  intro pending' input' reaches
  rw [(reaches_zero.mp reaches).1]
  exact Nat.zero_le _

/-- The pending nodes are few enough here and behind the fields of the first one. -/
theorem spacious_succ :
    Spacious (pending + 1) input ↔ pending + 1 ≤ maxPointers ∧
      ∀ header, nodeHeader input = .ok header →
        Spacious (header.childrenLen.toNat + pending) header.rest := by
  -- As for every node that is reached, reading stays here or goes on behind the fields.
  constructor
  · intro always
    exact ⟨always _ _ (.here _ _), fun header read _ _ further => always _ _ (.next read further)⟩
  · intro both pending' input' reaches
    obtain ⟨few, others⟩ := both
    rcases reaches_succ.mp reaches with ⟨rfl, _⟩ | ⟨header, read, further⟩
    · exact few
    · exact others header read _ _ further

theorem complete_zero : Complete 0 input := ⟨input, .here 0 input⟩

theorem complete_succ :
    Complete (pending + 1) input ↔ ∃ header, nodeHeader input = .ok header ∧
      Complete (header.childrenLen.toNat + pending) header.rest := by
  -- Reading cannot end in front of a pending node.
  simp only [Complete, reaches_succ]
  constructor
  · intro complete
    rcases complete with ⟨rest, ⟨absurd_, _⟩ | ⟨header, read, further⟩⟩
    · cases absurd_
    · exact ⟨header, read, rest, further⟩
  · intro complete
    obtain ⟨header, read, rest, further⟩ := complete
    exact ⟨rest, .inr ⟨header, read, further⟩⟩

/-- The fields of a node are read in one way only. -/
theorem forall_header_iff {P : NodeHeader → Prop} {header : NodeHeader}
    (read : nodeHeader input = .ok header) :
    (∀ other, nodeHeader input = .ok other → P other) ↔ P header := by
  -- Whatever else is read is the same.
  constructor
  · intro always
    exact always header read
  · intro holds other again
    obtain rfl := Except.ok.inj (read.symm.trans again)
    exact holds

/-- What holds of all nodes holds of the first one and of those behind the fields that it has. -/
theorem throughout_next {header : NodeHeader} (read : nodeHeader input = .ok header) :
    Throughout kind (pending + 1) input ↔
      kind input ∧ Throughout kind (header.childrenLen.toNat + pending) header.rest := by
  -- Nothing else is behind the first node.
  rw [throughout_succ, forall_header_iff read]

theorem spacious_next {header : NodeHeader} (read : nodeHeader input = .ok header) :
    Spacious (pending + 1) input ↔ pending + 1 ≤ maxPointers ∧
      Spacious (header.childrenLen.toNat + pending) header.rest := by
  -- As for every node that is reached.
  rw [spacious_succ, forall_header_iff read]

theorem complete_next {header : NodeHeader} (read : nodeHeader input = .ok header) :
    Complete (pending + 1) input ↔
      Complete (header.childrenLen.toNat + pending) header.rest := by
  -- The fields that reading goes on behind are those that the first node has.
  rw [complete_succ]
  constructor
  · intro complete
    obtain ⟨other, again, others⟩ := complete
    obtain rfl := Except.ok.inj (read.symm.trans again)
    exact others
  · intro others
    exact ⟨header, read, others⟩

/-- Where the fields of the first node cannot be read, no other node is reached. -/
theorem throughout_stuck {err : ReadError} (failed : nodeHeader input = .error err) :
    Throughout kind (pending + 1) input ↔ kind input := by
  -- Nothing is read behind the first node.
  rw [throughout_succ]
  simp [failed]

theorem spacious_stuck {err : ReadError} (failed : nodeHeader input = .error err) :
    Spacious (pending + 1) input ↔ pending + 1 ≤ maxPointers := by
  -- As for every node that is reached.
  rw [spacious_succ]
  simp [failed]

theorem not_complete_stuck {err : ReadError} (failed : nodeHeader input = .error err) :
    ¬Complete (pending + 1) input := by
  -- The first node stays pending.
  rw [complete_succ]
  simp [failed]

end Reaches

/-- A read that ends for want of bytes leaves none. -/
theorem readUvarintLoop_short {left : Nat} {x s v : UInt64} {input rest : Bytes} {err : ReadError}
    (read : readUvarintLoop left x s input = (v, some err, rest)) (short : err ≠ .overflow) :
    rest = [] := by
  -- Every byte before the end has its high bit set, and is taken.
  induction left generalizing x s input with
  | zero =>
    simp only [readUvarintLoop, Prod.mk.injEq, Option.some.injEq] at read
    exact absurd read.2.1.symm short
  | succ left ih =>
    cases input with
    | nil =>
      simp only [readUvarintLoop, Prod.mk.injEq] at read
      exact read.2.2.symm
    | cons byte input =>
      rw [readUvarintLoop] at read
      split at read
      · split at read
        · simp only [Prod.mk.injEq, Option.some.injEq] at read
          exact absurd read.2.1.symm short
        · simp at read
      · exact ih read

/-- A buffer is filled exactly from an input that starts with as many bytes. -/
theorem readAtLeast_iff {input buffer rest : Bytes} {size : Nat} :
    readAtLeast input size = .ok (buffer, rest) ↔
      buffer.length = size ∧ input = buffer ++ rest := by
  -- The buffer is filled with the first bytes, and the others are left.
  constructor
  · intro read
    unfold readAtLeast at read
    split at read
    · rename_i enough
      simp only [Except.ok.injEq, Prod.mk.injEq] at read
      obtain ⟨rfl, rfl⟩ := read
      exact ⟨List.length_take_of_le enough, (List.take_append_drop size input).symm⟩
    · split at read <;> simp at read
  · intro whole
    obtain ⟨rfl, rfl⟩ := whole
    exact readAtLeast_append buffer rest

/-- What the fields of a node are read from. -/
theorem nodeHeader_ok_iff {input : Bytes} {header : NodeHeader} :
    nodeHeader input = .ok header ↔ ∃ afterName afterValue,
      header.name.length = (readUvarint input).1.toNat ∧
        (readUvarint input).2.2 = header.name ++ afterName ∧
          readUvarint afterName = (header.value, none, afterValue) ∧
            readUvarint afterValue = (header.childrenLen, none, header.rest) := by
  -- No read but the first one may fail.
  constructor
  · intro read
    unfold nodeHeader at read
    split at read
    · cases read
    · rename_i name afterName named
      split at read
      · cases read
      · rename_i value afterValue valued
        split at read
        · cases read
        · rename_i childrenLen rest counted
          obtain rfl := Except.ok.inj read
          obtain ⟨length, split⟩ := readAtLeast_iff.mp named
          exact ⟨afterName, afterValue, length, split, valued, counted⟩
  · intro fields
    obtain ⟨afterName, afterValue, length, split, valued, counted⟩ := fields
    have named := readAtLeast_iff.mpr ⟨length, split⟩
    simp only [nodeHeader, named, valued, counted]

/-- The fields of a node take bytes off the input. -/
theorem nodeHeader_shortens {input : Bytes} {header : NodeHeader}
    (read : nodeHeader input = .ok header) : header.rest.length < input.length := by
  -- The value takes at least one byte, and the name none that are not there.
  obtain ⟨afterName, afterValue, _, split, valued, counted⟩ := nodeHeader_ok_iff.mp read
  have first : (readUvarint input).2.2.length ≤ input.length := readUvarint_keeps rfl
  have second := readUvarint_shortens valued
  have third := readUvarint_shortens counted
  rw [split, List.length_append] at first
  omega

/-- Behind a length that is no integer and does not overflow, no node can be read. -/
theorem bounded_iff {input : Bytes} {header : NodeHeader} (read : nodeHeader input = .ok header) :
    Bounded input ↔ (readUvarint input).2.1 = none := by
  -- A length that is cut off leaves nothing to read a value from.
  constructor
  · intro bounded
    cases failed : (readUvarint input).2.1 with
    | none => rfl
    | some err =>
      have short : err ≠ .overflow := by
        rintro rfl
        exact bounded failed
      -- The input is used up, so there is no value to be read.
      have used : (readUvarint input).2.2 = [] :=
        readUvarintLoop_short (Prod.ext rfl (Prod.ext failed rfl)) short
      obtain ⟨afterName, afterValue, _, split, valued, _⟩ := nodeHeader_ok_iff.mp read
      rw [used] at split
      obtain rfl := (List.append_eq_nil_iff.mp split.symm).2
      have ended := congrArg (·.2.1) valued
      simp [readUvarint, maxVarintLen64, readUvarintLoop] at ended
  · intro fine
    simp [Bounded, fine]

/-- As many nodes as a sum are as many as one summand and then as many as the other. -/
theorem nodesBytes_add {first second : Nat} {bytes : Bytes} :
    NodesBytes (first + second) bytes ↔
      ∃ left right, NodesBytes first left ∧ NodesBytes second right ∧ bytes = left ++ right := by
  -- The nodes of the first summand are taken one by one.
  induction first generalizing bytes with
  | zero =>
    rw [Nat.zero_add]
    constructor
    · intro nodes
      exact ⟨[], bytes, .nil, nodes, rfl⟩
    · intro parts
      obtain ⟨left, right, none_, nodes, rfl⟩ := parts
      cases none_
      exact nodes
  | succ first ih =>
    rw [Nat.add_right_comm]
    constructor
    · intro nodes
      cases nodes with
      | cons node nodes =>
        obtain ⟨left, right, before, after, rfl⟩ := ih.mp nodes
        exact ⟨_, right, .cons node before, after, (List.append_assoc ..).symm⟩
    · intro parts
      obtain ⟨left, right, before, after, rfl⟩ := parts
      cases before with
      | cons node before =>
        rw [List.append_assoc]
        exact .cons node (ih.mpr ⟨_, right, before, after, rfl⟩)

/-- The input starts with a number of complete nodes. -/
def StartsWith (pending : Nat) (input : Bytes) : Prop :=
  ∃ nodes rest, NodesBytes pending nodes ∧ input = nodes ++ rest

/-- Complete nodes start with the fields of the first one, of which none overflows. -/
theorem startsWith_succ {pending : Nat} {input : Bytes} :
    StartsWith (pending + 1) input ↔ ∃ header, nodeHeader input = .ok header ∧
      (readUvarint input).2.1 = none ∧
        StartsWith (header.childrenLen.toNat + pending) header.rest := by
  constructor
  · intro starts
    obtain ⟨nodes, rest, complete, rfl⟩ := starts
    cases complete with
    | @cons _ _ others node complete =>
      cases node with
      | @node nameLen value childrenLen len name val count children measured named valued counted
          below =>
        -- The bytes are those of the fields and then those of the children and the other nodes.
        have length := (readUvarint_iff _
          (name ++ (val ++ (count ++ (children ++ (others ++ rest))))) nameLen).mpr
          ⟨len, measured, rfl⟩
        have held := (readUvarint_iff _ (count ++ (children ++ (others ++ rest))) value).mpr
          ⟨val, valued, rfl⟩
        have many := (readUvarint_iff _ (children ++ (others ++ rest)) childrenLen).mpr
          ⟨count, counted, rfl⟩
        simp only [List.append_assoc, length]
        refine ⟨⟨name, value, childrenLen, children ++ (others ++ rest)⟩,
          nodeHeader_ok_iff.mpr ⟨_, _, ?_, ?_, held, many⟩, trivial, children ++ others, rest,
          nodesBytes_add.mpr ⟨children, others, below, complete, rfl⟩,
          (List.append_assoc ..).symm⟩
        · rw [length]
          exact named
        · rw [length]
  · intro starts
    obtain ⟨header, read, fine, nodes, rest, complete, split⟩ := starts
    obtain ⟨afterName, afterValue, named, cut, valued, counted⟩ := nodeHeader_ok_iff.mp read
    obtain ⟨children, others, below, others_, rfl⟩ := nodesBytes_add.mp complete
    obtain ⟨len, measured, first⟩ :=
      (readUvarint_iff input _ _).mp (Prod.ext rfl (Prod.ext fine rfl))
    obtain ⟨val, valued, second⟩ := (readUvarint_iff _ _ _).mp valued
    obtain ⟨count, counted, third⟩ := (readUvarint_iff _ _ _).mp counted
    refine ⟨_, rest, .cons (.node measured named valued counted below) others_, ?_⟩
    have all : input =
        len ++ (header.name ++ (val ++ (count ++ (children ++ others ++ rest)))) := by
      rw [← split, ← third, ← second, ← cut]
      exact first
    rw [all]
    simp only [List.append_assoc]

/-- The grammar derives a start of the input exactly where reading is complete and in bounds. -/
theorem startsWith_iff (pending : Nat) (input : Bytes) :
    StartsWith pending input ↔ Complete pending input ∧ Throughout Bounded pending input := by
  -- The induction is on what is left of the input, which the fields of a node take bytes off.
  induction size : input.length using Nat.strongRecOn generalizing pending input with
  | ind size ih =>
    subst size
    cases pending with
    | zero => exact iff_of_true ⟨[], input, .nil, rfl⟩ ⟨complete_zero, throughout_zero⟩
    | succ pending =>
      rw [startsWith_succ, complete_succ, throughout_succ]
      constructor
      · intro starts
        obtain ⟨header, read, fine, starts⟩ := starts
        obtain ⟨complete, bounded⟩ := (ih _ (nodeHeader_shortens read) _ _ rfl).mp starts
        exact ⟨⟨header, read, complete⟩, (bounded_iff read).mpr fine,
          (forall_header_iff read).mpr bounded⟩
      · intro both
        obtain ⟨⟨header, read, complete⟩, first, others⟩ := both
        exact ⟨header, read, (bounded_iff read).mp first,
          (ih _ (nodeHeader_shortens read) _ _ rfl).mpr ⟨complete, others header read⟩⟩

/-- One complete node is a number of them. -/
theorem startsWithNode_iff (b : Bytes) : StartsWithNode b ↔ StartsWith 1 b := by
  -- A list of one node is the node with nothing behind it.
  constructor
  · intro starts
    obtain ⟨node, rest, complete, rfl⟩ := starts
    exact ⟨node ++ [], rest, .cons complete .nil, by rw [List.append_nil]⟩
  · intro starts
    obtain ⟨nodes, rest, complete, rfl⟩ := starts
    cases complete with
    | cons node none_ =>
      cases none_
      exact ⟨_, rest, node, by rw [List.append_nil]⟩

/-- What an outcome of reading the pending nodes says about the input. -/
def Tells (pending : Nat) (input : Bytes) : Except Failure Heap → Prop
  | .ok _ =>
    (Throughout Allocated pending input ∧ Spacious pending input) ∧ Complete pending input
  | .error .panic => ¬(Throughout Allocated pending input ∧ Spacious pending input)
  | .error (.error _) =>
    (Throughout Allocated pending input ∧ Spacious pending input) ∧ ¬Complete pending input

/-- An outcome says about the input what it says about the rest behind the first fields. -/
theorem tells_next {pending : Nat} {input : Bytes} {header : NodeHeader}
    (read : nodeHeader input = .ok header) (first : Allocated input)
    (few : pending + 1 ≤ maxPointers) (outcome : Except Failure Heap) :
    Tells (pending + 1) input outcome ↔
      Tells (header.childrenLen.toNat + pending) header.rest outcome := by
  -- There is room for the first node, and its fields are there.
  have allocated : Throughout Allocated (pending + 1) input ↔
      Throughout Allocated (header.childrenLen.toNat + pending) header.rest :=
    (throughout_next read).trans (and_iff_right first)
  have spacious : Spacious (pending + 1) input ↔
      Spacious (header.childrenLen.toNat + pending) header.rest :=
    (spacious_next read).trans (and_iff_right few)
  unfold Tells
  simp only [allocated, spacious, complete_next read]

/-- With one parent taken off, there is room for the others. -/
theorem within_tail {parent : Nat} {parents : List Nat}
    (few : (parent :: parents).length ≤ maxPointers) :
    Within (some maxPointers) parents.length := by
  -- They are fewer than before.
  rw [within_some]
  exact (Nat.le_succ _).trans few

/-- Reading the pending nodes ends as the input has it, whatever was read before. -/
theorem deserializeLoop_tells (heap : Heap) (parents : List Nat) (input : Bytes)
    (few : parents.length ≤ maxPointers) :
    Tells parents.length input (deserializeLoop (some maxPointers) heap parents input) := by
  -- Each round takes the fields of a node off the input.
  induction size : input.length using Nat.strongRecOn generalizing heap parents input with
  | ind size ih =>
    subst size
    cases parents with
    | nil =>
      rw [deserializeLoop]
      exact ⟨⟨throughout_zero, spacious_zero⟩, complete_zero⟩
    | cons parent parents =>
      rw [deserializeLoop_header heap parent (within_tail few), List.length_cons]
      split
      · rename_i huge
        exact fun roomy => absurd (throughout_succ.mp roomy.1).1 (Nat.not_le.mpr huge)
      · rename_i small
        have first : Allocated input := Nat.not_lt.mp small
        cases read : nodeHeader input with
        | error err =>
          -- There are no fields, so nothing behind them is reached.
          exact ⟨⟨(throughout_stuck read).mpr first, (spacious_stuck read).mpr few⟩,
            not_complete_stuck read⟩
        | ok header =>
          rw [tells_next read first few]
          -- The children may be too many for the slice of pending parents.
          by_cases fits : Within (some maxPointers) (header.childrenLen.toNat + parents.length)
          · have length : (List.replicate header.childrenLen.toNat heap.length ++ parents).length =
                header.childrenLen.toNat + parents.length := by
              rw [List.length_append, List.length_replicate]
            have below := ih _ (nodeHeader_shortens read)
              (linked heap parent header.name header.value)
              (List.replicate header.childrenLen.toNat heap.length ++ parents) header.rest
              (length ▸ within_some.mp fits) rfl
            simp only [if_pos fits]
            exact length ▸ below
          · simp only [if_neg fits]
            intro roomy
            exact fits (within_some.mpr (roomy.2 _ _ (.here _ _)))

/-- The extra root has a child. -/
def Rooted (heap : Heap) : Prop := ∃ cell, heap[0]? = some cell ∧ cell.children ≠ []

/-- Linking keeps the extra root's child, and gives it one where the extra root is the parent. -/
theorem linked_rooted {heap : Heap} {parent : Nat} (inside : 0 < heap.length)
    (has : parent = 0 ∨ Rooted heap) (label : Bytes) (held : UInt64) :
    Rooted (linked heap parent label held) := by
  -- The extra root is the first cell, and the fresh node is not.
  obtain ⟨cell, first⟩ : ∃ cell, heap[0]? = some cell := ⟨_, List.getElem?_eq_getElem inside⟩
  have fresh : heap.length ≠ 0 := by omega
  by_cases top : parent = 0
  · -- The fresh node is among the children of the extra root.
    subst top
    have here : (heap ++ [{ name := label, value := 0, children := [] }])[0]? = some cell := by
      rw [List.getElem?_append_left inside, first]
    have linkedCell := congrArg (·[0]?) (linked.eq_1 heap 0 label held)
    simp only [Heap.insert, List.getElem?_modify, fresh, if_false, if_true, here]
      at linkedCell
    exact ⟨_, linkedCell, by simp⟩
  · obtain ⟨cell, there, children⟩ := has.resolve_left top
    exact ⟨cell, (linked_frame label held 0 inside (Ne.symm top)).trans there, children⟩

/-- Once the extra root has a child, it has one until the end. -/
theorem deserializeLoop_rooted {heap heap' : Heap} {parents : List Nat} {input : Bytes}
    (inside : 0 < heap.length) (has : Rooted heap ∨ parents.head? = some 0)
    (few : parents.length ≤ maxPointers)
    (read : deserializeLoop (some maxPointers) heap parents input = .ok heap') :
    Rooted heap' := by
  -- The first round links its node to the extra root, and later ones keep it.
  induction size : input.length using Nat.strongRecOn generalizing heap parents input with
  | ind size ih =>
    subst size
    cases parents with
    | nil =>
      rw [deserializeLoop, Except.ok.injEq] at read
      exact read ▸ has.resolve_right (by simp)
    | cons parent parents =>
      rw [deserializeLoop_header heap parent (within_tail few)] at read
      split at read
      · cases read
      · split at read
        · cases read
        · rename_i header fields
          split at read
          · rename_i fits
            have rooted : Rooted (linked heap parent header.name header.value) :=
              linked_rooted inside (has.elim .inr fun top => .inl (by simpa using top)) _ _
            have longer : 0 < (linked heap parent header.name header.value).length := by
              simp [linked, Heap.insert]
            have pending : (List.replicate header.childrenLen.toNat heap.length ++
                parents).length ≤ maxPointers := by
              rw [List.length_append, List.length_replicate]
              exact within_some.mp fits
            exact ih _ (nodeHeader_shortens fields) longer (.inl rooted) pending read rfl
          · cases read

/-- Deserializing says the same about the input as reading its one pending node. -/
theorem deserialize_tells (b : Bytes) :
    match deserialize (some maxPointers) b with
    | .ok _ => (Throughout Allocated 1 b ∧ Spacious 1 b) ∧ Complete 1 b
    | .error .panic => ¬(Throughout Allocated 1 b ∧ Spacious 1 b)
    | .error (.error _) => (Throughout Allocated 1 b ∧ Spacious 1 b) ∧ ¬Complete 1 b := by
  have few : [0].length ≤ maxPointers := by decide
  have tells := deserializeLoop_tells [{ name := [], value := 0, children := [] }] [0] b few
  rw [deserialize]
  cases read : deserializeLoop (some maxPointers) [{ name := [], value := 0, children := [] }]
    [0] b with
  | error failure =>
    rw [read] at tells
    cases failure <;> exact tells
  | ok heap =>
    -- The extra root got the first node as its child, so there is one to be returned.
    obtain ⟨cell, first, children⟩ := deserializeLoop_rooted (by simp) (.inr rfl) few read
    obtain ⟨root, rest, shape⟩ := List.exists_cons_of_ne_nil children
    rw [read] at tells
    simp only [Except.bind, first, Option.bind_some, shape, List.head?_cons]
    exact tells

/-- Input is parsed right: a trie is made of a complete node, and everything else is an error. -/
structure Parsed (b : Bytes) : Prop where
  accepted : StartsWithNode b → ∃ t, deserialize (some maxPointers) b = .ok t
  refused : ¬StartsWithNode b → ∃ err, deserialize (some maxPointers) b = .error (.error err)

/-- Where a name or the pending nodes take too much room, the runtime panics. -/
theorem deserialize_panics {b : Bytes} (full : ¬(Throughout Allocated 1 b ∧ Spacious 1 b)) :
    deserialize (some maxPointers) b = .error .panic := by
  -- Every other outcome says that there was room.
  have tells := deserialize_tells b
  cases outcome : deserialize (some maxPointers) b with
  | ok t =>
    rw [outcome] at tells
    exact absurd tells.1 full
  | error failure =>
    rw [outcome] at tells
    cases failure with
    | panic => rfl
    | error err => exact absurd tells.1 full

/--
Deserializing accepts exactly what starts with a complete node, and never panics, exactly where
every name length that is reached can be allocated, the pending nodes always fit into a slice, and
no name length overflows in front of complete nodes.
-/
theorem deserialize_parsed_iff (b : Bytes) :
    Parsed b ↔ Throughout Allocated 1 b ∧ Spacious 1 b ∧
      (Complete 1 b → Throughout Bounded 1 b) := by
  -- The grammar is compared with where reading gets to, and so is the loop.
  have starts : StartsWithNode b ↔ Complete 1 b ∧ Throughout Bounded 1 b :=
    (startsWithNode_iff b).trans (startsWith_iff 1 b)
  have tells := deserialize_tells b
  constructor
  · intro parsed
    by_cases derives : StartsWithNode b
    · obtain ⟨t, made⟩ := parsed.accepted derives
      rw [made] at tells
      exact ⟨tells.1.1, tells.1.2, fun _ => (starts.mp derives).2⟩
    · obtain ⟨err, failed⟩ := parsed.refused derives
      rw [failed] at tells
      exact ⟨tells.1.1, tells.1.2, fun complete => absurd complete tells.2⟩
  · intro condition
    obtain ⟨allocated, spacious, bounded⟩ := condition
    have derives : Complete 1 b ↔ StartsWithNode b :=
      ⟨fun complete => starts.mpr ⟨complete, bounded complete⟩,
        fun derived => (starts.mp derived).1⟩
    rw [derives] at tells
    cases outcome : deserialize (some maxPointers) b with
    | ok t =>
      rw [outcome] at tells
      exact ⟨fun _ => ⟨t, outcome⟩, fun absent => absurd tells.2 absent⟩
    | error failure =>
      rw [outcome] at tells
      cases failure with
      | panic => exact absurd ⟨allocated, spacious⟩ tells
      | error err => exact ⟨fun present => absurd present tells.2, fun _ => ⟨err, outcome⟩⟩

/-- A length of ten bytes that overflows, with no bits, then an empty node. -/
def overflowing : Bytes := [128, 128, 128, 128, 128, 128, 128, 128, 128, 2, 0, 0]

/-- Eight bytes of a length that is cut off. -/
def cutOff : Bytes := [255, 255, 255, 255, 255, 255, 255, 255]

/-- An empty name, no value, and the largest number of children. -/
def crowded : Bytes := [0, 0, 255, 255, 255, 255, 255, 255, 255, 255, 255, 1]

/--
A length that overflows is accepted, and the runtime panics over one that is cut off.

It also panics over a number of children that no slice has room for.
-/
theorem overflowing_accepted :
    (¬StartsWithNode overflowing ∧ ∃ t, deserialize (some maxPointers) overflowing = .ok t) ∧
      (¬StartsWithNode cutOff ∧ deserialize (some maxPointers) cutOff = .error .panic) ∧
      ¬StartsWithNode crowded ∧ deserialize (some maxPointers) crowded = .error .panic := by
  -- The inputs are read by hand, as the loop would read them.
  have derives : ∀ b, StartsWithNode b → Complete 1 b ∧ Throughout Bounded 1 b := fun b derived =>
    (startsWith_iff 1 b).mp ((startsWithNode_iff b).mp derived)
  have many : nodeHeader crowded = .ok ⟨[], 0, 18446744073709551615, []⟩ := rfl
  refine ⟨⟨fun derived => ?_, ?_⟩, ⟨fun derived => ?_, deserialize_panics ?_⟩,
    fun derived => ?_, deserialize_panics ?_⟩
  · exact absurd ((derives _ derived).2 0 overflowing (.here ..)) (by decide)
  · -- The bits gathered are zero, and behind the length there is an empty name.
    have read : nodeHeader overflowing = .ok ⟨[], 0, 0, []⟩ := rfl
    have complete : Complete 1 overflowing := (complete_next read).mpr complete_zero
    have allocated : Throughout Allocated 1 overflowing :=
      (throughout_next read).mpr ⟨by decide, throughout_zero⟩
    have spacious : Spacious 1 overflowing :=
      (spacious_next read).mpr ⟨by decide, spacious_zero⟩
    have tells := deserialize_tells overflowing
    cases outcome : deserialize (some maxPointers) overflowing with
    | ok t => exact ⟨t, rfl⟩
    | error failure =>
      rw [outcome] at tells
      cases failure with
      | panic => exact absurd ⟨allocated, spacious⟩ tells
      | error err => exact absurd complete tells.2
  · obtain ⟨header, read, _⟩ := complete_succ.mp (derives _ derived).1
    cases read
  · exact fun roomy => absurd (throughout_succ.mp roomy.1).1 (by decide)
  · -- The first child would start behind the end.
    have below := (complete_next many).mp (derives _ derived).1
    obtain ⟨child, cut, _⟩ := (@complete_succ 18446744073709551614 []).mp below
    cases cut
  · intro roomy
    exact absurd (((spacious_next many).mp roomy.2).2 _ _ (.here _ _)) (by decide)

end Spycat
