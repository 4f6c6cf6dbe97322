import Spycat.Lib.Uvarint
import Spycat.Util.Trie

/-! The byte form of a trie: writing it, reading it back, and iterating over it without the tree. -/

namespace Spycat

open Lib

/-- Why reading bytes ended without a result. -/
inductive Failure where
  /-- The source panics. -/
  | panic
  /-- The source returns this error. -/
  | error (err : ReadError)
  deriving DecidableEq, Repr

namespace Trie

/-- A node's value as it is written out; absent for a zero divider, where the source panics. -/
def writtenValue (t : Trie) (value : UInt64) : Option UInt64 :=
  if t.divider ≠ 1 ∨ t.multiplier ≠ 1 then
    if t.divider.toUInt64 = 0 then none
    else some (value * t.multiplier.toUInt64 / t.divider.toUInt64)
  else some value

/-- The bytes written for the pending nodes, into a writer that takes everything. -/
def serializeLoop (t : Trie) : List TrieNode → Option Bytes
  | [] => some []
  | tn :: nodes =>
    (t.writtenValue tn.value).bind fun value =>
      (serializeLoop t (tn.children ++ nodes)).map fun rest =>
        putUvarint (UInt64.ofNat tn.name.length) ++ tn.name ++ putUvarint value ++
          putUvarint (UInt64.ofNat tn.children.length) ++ rest
termination_by nodes => RadixNode.sizeAll nodes
decreasing_by
  simp [RadixNode.sizeAll, RadixNode.size_eq]

/-- The nodes in pre-order: name length, name, value, and number of children. -/
def serialize (t : Trie) : Option Bytes := t.serializeLoop [t.root]

/-- The serialized trie; the buffer it is written to never fails. -/
def bytes (t : Trie) : Option Bytes := t.serialize

end Trie

/-- A node on the way down: how many children are still to come, and how long its label is. -/
structure Offset where
  descCount : Int64
  suffixLen : Int
  deriving DecidableEq, Repr

/-- Cut a buffer to a length; absent where the source panics. -/
def truncate (buffer : Bytes) (length : Int) : Option Bytes :=
  if length < 0 ∨ buffer.length < length then none else some (buffer.take length.toNat)

/--
Cut the labels of the parents that have no more children, except the root's.

The last offset of the source's slice is the head of the list.
-/
def cutParents : Bytes → List Offset → Option (Bytes × List Offset)
  | b, top :: parent :: rest =>
    if top.descCount ≠ 0 then some (b, top :: parent :: rest)
    else
      (truncate b (b.length - top.suffixLen)).bind fun b =>
        if rest.isEmpty then cutParents b (parent :: rest)
        else cutParents b ({ parent with descCount := parent.descCount - 1 } :: rest)
  | b, offsets => some (b, offsets)
termination_by _ offsets => offsets.length

/-- What a leaf does to the buffer and the offsets once it has been reported. -/
def cutLeaf (b : Bytes) (copied : Int) (offsets : List Offset) : Option (Bytes × List Offset) :=
  (truncate b (b.length - copied)).bind fun b =>
    match offsets with
    | [] => some (b, [])
    | top :: rest => cutParents b ({ top with descCount := top.descCount - 1 } :: rest)

/-- The bytes read into the label buffer: at most the announced length, read as a signed number. -/
def nameLimit (nameLen : UInt64) : Nat := nameLen.toInt64.toInt.toNat

/-- One node as the streaming iterator reads it, with the label buffer after its name. -/
structure RawNode where
  b : Bytes
  copied : Int
  value : UInt64
  descCount : UInt64
  rest : Bytes

/-- The label buffer, the number of bytes copied, and the input after a name was read. -/
def readName (nameLen : UInt64) (input b : Bytes) (copied : Int) : Bytes × Int × Bytes :=
  -- An empty name leaves the number of bytes copied last as it was.
  if nameLen ≠ 0 then
    let name := input.take (nameLimit nameLen)
    (b ++ name, name.length, input.drop (nameLimit nameLen))
  else (b, copied, input)

/-- Reading a name puts no bytes back. -/
theorem readName_keeps (nameLen : UInt64) (input b : Bytes) (copied : Int) :
    (readName nameLen input b copied).2.2.length ≤ input.length := by
  -- The name is dropped from the input, or the input stays.
  unfold readName
  split <;> simp

/--
Read the next node of the input into the label buffer.

Without an error value the input was at its end before the node, which ends the iteration well.
-/
def readRawNode (input b : Bytes) (copied : Int) : Except (Option ReadError) RawNode :=
  match readUvarint input with
  | (_, some .eof, _) => .error none
  | (_, some err, _) => .error (some err)
  | (nameLen, none, afterLen) =>
    let (b, copied, afterName) := readName nameLen afterLen b copied
    match readUvarint afterName with
    | (_, some err, _) => .error (some err)
    | (value, none, afterValue) =>
      match readUvarint afterValue with
      | (_, some err, _) => .error (some err)
      | (descCount, none, rest) =>
        .ok { b := b, copied := copied, value := value, descCount := descCount, rest := rest }

/-- A node that was read took bytes off the input. -/
theorem readRawNode_shortens {input b : Bytes} {copied : Int} {node : RawNode}
    (read : readRawNode input b copied = .ok node) : node.rest.length < input.length := by
  -- The name may be empty, but each of the three integers takes at least one byte.
  unfold readRawNode at read
  split at read
  · simp at read
  · simp at read
  · rename_i nameLen afterLen readLen
    have first := readUvarint_shortens readLen
    have name := readName_keeps nameLen afterLen b copied
    rcases named : readName nameLen afterLen b copied with ⟨b, copied, afterName⟩
    simp only [named] at name read
    split at read
    · simp at read
    · rename_i value afterValue readValue
      have second := readUvarint_shortens readValue
      split at read
      · simp at read
      · rename_i descCount rest readCount
        have third := readUvarint_shortens readCount
        simp only [Except.ok.injEq] at read
        simp only [← read]
        omega

/-- The calls back made before the end, and how the iteration ended. -/
abbrev RawIteration := List (Bytes × Int64) × Except Failure Unit

-- The equation named in the match serves the termination argument only.
set_option linter.unusedVariables false in
/-- One round per node of the input, with the label buffer and the offsets of its ancestors. -/
def iterateRawLoop (input b : Bytes) (offsets : List Offset) (copied : Int) : RawIteration :=
  match read : readRawNode input b copied with
  | .error none => ([], .ok ())
  | .error (some err) => ([], .error (.error err))
  | .ok node =>
    let call := if node.value > 0 then [(node.b, node.value.toInt64)] else []
    let following : RawIteration :=
      if node.descCount ≠ 0 then
        let offset := { descCount := node.descCount.toInt64, suffixLen := node.copied }
        iterateRawLoop node.rest node.b (offset :: offsets) node.copied
      else
        match cutLeaf node.b node.copied offsets with
        | none => ([], .error .panic)
        | some (b, offsets) => iterateRawLoop node.rest b offsets node.copied
    (call ++ following.1, following.2)
termination_by input.length
decreasing_by all_goals exact readRawNode_shortens read

/-- Iterate over a serialized trie; the label buffer starts with the given contents. -/
def iterateRaw (input buf : Bytes) : RawIteration := iterateRawLoop input buf [] 0

/-- A trie node in memory: its children are addresses. -/
structure Cell where
  name : Bytes
  value : UInt64
  children : List Nat
  deriving DecidableEq, Repr

/-- The nodes allocated so far; an address is a position. -/
abbrev Heap := List Cell

namespace Heap

/-- The name stored at an address. -/
def nameAt (heap : Heap) (address : Nat) : Bytes := (heap[address]?.map (·.name)).getD []

/-- Put a node among its parent's children at the place its name asks for. -/
def insert (heap : Heap) (parent tn : Nat) : Heap :=
  heap.modify parent fun cell =>
    let i := insertPos (cell.children.map heap.nameAt) (heap.nameAt tn)
    { cell with children := cell.children.take i ++ tn :: cell.children.drop i }

/-- The tree below an address, followed down to a depth. -/
def toTree (heap : Heap) : Nat → Nat → TrieNode
  | 0, _ => newTrieNode []
  | depth + 1, address =>
    match heap[address]? with
    | none => newTrieNode []
    | some cell => .mk cell.name cell.value (cell.children.map (toTree heap depth))

end Heap

/-- Fill a buffer of the given size from the input, as `io.ReadAtLeast` does. -/
def readAtLeast (input : Bytes) (size : Nat) : Except ReadError (Bytes × Bytes) :=
  if size ≤ input.length then .ok (input.take size, input.drop size)
  else if input.isEmpty then .error .eof
  else .error .unexpectedEof

/-- Filling a buffer puts no bytes back. -/
theorem readAtLeast_keeps {input buffer rest : Bytes} {size : Nat}
    (read : readAtLeast input size = .ok (buffer, rest)) : rest.length ≤ input.length := by
  -- Where the buffer is filled, what is left is a rest of the input.
  unfold readAtLeast at read
  split at read
  · simp only [Except.ok.injEq, Prod.mk.injEq] at read
    simp [← read.2]
  · split at read <;> simp at read

/-- A count keeps to a limit, if there is one. -/
def Within (limit : Option Nat) (count : Nat) : Prop := ∀ most ∈ limit, count ≤ most

instance (limit : Option Nat) (count : Nat) : Decidable (Within limit count) :=
  inferInstanceAs (Decidable (∀ most ∈ limit, count ≤ most))

/-- The most pointers in a slice that the runtime of a 64-bit platform allocates. -/
def maxPointers : Nat := maxAlloc / 8

/--
Put a node in front of the pending parents for each of its children, in a new slice each time.

The result is absent where the slice grows over the limit and the runtime panics.
-/
def prependAll (limit : Option Nat) (tn : Nat) : Nat → List Nat → Option (List Nat)
  | 0, parents => some parents
  | more + 1, parents =>
    if Within limit (parents.length + 1) then prependAll limit tn more (tn :: parents) else none

-- The equations named in the matches below serve the termination argument only.
set_option linter.unusedVariables false in
/--
One round per node of the input: the first pending parent gets the node as a child.

A node with children becomes the next parent, once for each of them. The pending parents are a slice
of at most so many pointers as the limit says.
-/
def deserializeLoop (limit : Option Nat) (heap : Heap) (parents : List Nat) (input : Bytes) :
    Except Failure Heap :=
  match parents with
  | [] => .ok heap
  | parent :: parents =>
    -- The error of this read is overwritten, and the bits gathered are the length.
    match measured : readUvarint input with
    | (nameLen, _, afterLen) =>
    if maxAlloc < nameLen.toNat then .error .panic
    else
      match named : readAtLeast afterLen nameLen.toNat with
      | .error err => .error (.error err)
      | .ok (nameBuf, afterName) =>
        let tn := heap.length
        let heap :=
          Heap.insert (heap ++ [{ name := nameBuf, value := 0, children := [] }]) parent tn
        match valued : readUvarint afterName with
        | (_, some err, _) => .error (.error err)
        | (value, none, afterValue) =>
          let heap := heap.modify tn fun cell => { cell with value := value }
          match counted : readUvarint afterValue with
          | (_, some err, _) => .error (.error err)
          | (childrenLen, none, rest) =>
            match prependAll limit tn childrenLen.toNat parents with
            | none => .error .panic
            | some parents => deserializeLoop limit heap parents rest
termination_by input.length
decreasing_by
  have first := readUvarint_keeps measured
  have name := readAtLeast_keeps named
  have second := readUvarint_shortens valued
  have third := readUvarint_shortens counted
  omega

/--
The trie whose bytes were read, below an extra root that takes the first node as its child.

The limit is how many pointers one slice takes: `some maxPointers` on a 64-bit platform, and `none`
where memory has no end.
-/
def deserialize (limit : Option Nat) (input : Bytes) : Except Failure Trie :=
  (deserializeLoop limit [{ name := [], value := 0, children := [] }] [0] input).bind fun heap =>
    match heap[0]?.bind (·.children.head?) with
    | none => .error .panic
    | some root => .ok { Trie.new with root := heap.toTree heap.length root }

end Spycat
