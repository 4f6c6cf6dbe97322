import Spycat.Proofs.Util.TrieBytes

/-! The streaming iterator over the bytes of a trie calls back what iteration over the trie does. -/

namespace Spycat

open Lib RadixNode

/-- An ancestor of the node being read: its label and its children that are still to be read. -/
structure Frame where
  name : Bytes
  pending : List TrieNode

namespace Frames

/-- The labels of all ancestors in a row; the root's frame is the last. -/
def path : List Frame → Bytes
  | [] => []
  | frame :: frames => path frames ++ frame.name

/-- The bytes of everything still to be read. -/
def input : List Frame → Bytes
  | [] => []
  | frame :: frames => encodeAll id frame.pending ++ input frames

/-- The bytes of the nodes still to be read, each without those of its children. -/
def heads : List Frame → List Bytes
  | [] => []
  | frame :: frames => headsAll frame.pending ++ heads frames

/-- The nodes still to be read, with their keys. -/
def unread : List Frame → List (Bytes × UInt64)
  | [] => []
  | frame :: frames => entriesAll (path (frame :: frames)) frame.pending ++ unread frames

/-- How many nodes are still to be read. -/
def remaining : List Frame → Nat
  | [] => 0
  | frame :: frames => sizeAll frame.pending + remaining frames

/--
The counters of the offsets, one for every ancestor, the innermost first.

A counter covers the pending children and those being read; the root's is never looked at.
-/
inductive Counted : Nat → List Offset → List Frame → Prop
  | root {reading : Nat} {offset : Offset} {frame : Frame} : Counted reading [offset] [frame]
  | inner {reading : Nat} {offset : Offset} {frame : Frame} {offsets : List Offset}
      {frames : List Frame}
      (count : offset.descCount = Int64.ofNat (frame.pending.length + reading))
      (suffix : offset.suffixLen = frame.name.length) (below : Counted 1 offsets frames) :
      Counted reading (offset :: offsets) (frame :: frames)

/-- Every pending tree fits the format, below labels that are not empty. -/
def Readable (frames : List Frame) : Prop :=
  ∀ frame ∈ frames, frame.pending.length < 2 ^ 63 ∧
    ∀ tree ∈ frame.pending, Fits tree ∧ tree.name ≠ []

/-- Only the root's frame is left open without children to be read. -/
def Busy : List Frame → Prop
  | [] => False
  | [_] => True
  | frame :: _ => frame.pending ≠ []

/-- What the iterator calls back for the nodes of a walk. -/
def calls (entries : List (Bytes × UInt64)) : List (Bytes × Int64) :=
  (entries.filter (·.2 > 0)).map fun entry => (entry.1, entry.2.toInt64)

theorem calls_append (first second : List (Bytes × UInt64)) :
    calls (first ++ second) = calls first ++ calls second := by
  -- Entries are called back one by one.
  simp [calls]

/-- A counter that fits its integer is zero only for no children. -/
theorem ofNat_eq_zero {count : Nat} (fits : count < 2 ^ 63) (zero : Int64.ofNat count = 0) :
    count = 0 := by
  -- Small counts are not changed by being read as signed ones.
  have same := congrArg Int64.toInt zero
  rw [Int64.toInt_ofNat_of_lt fits] at same
  simpa using same

/-- Counting a finished child off leaves the counter of the pending ones. -/
theorem ofNat_pred (count : Nat) : Int64.ofNat (count + 1) - 1 = Int64.ofNat count := by
  -- Adding one and taking it off cancels out.
  rw [Int64.ofNat_add]
  exact Int64.add_sub_cancel _ _

/-- Cutting a suffix off the buffer leaves what was in front of it. -/
theorem truncate_append (buffer suffix : Bytes) :
    truncate (buffer ++ suffix) ((buffer ++ suffix).length - suffix.length) = some buffer := by
  -- The length that is kept is that of the front.
  have length : ((buffer ++ suffix).length : Int) - suffix.length = buffer.length := by
    simp
  rw [length, truncate, if_neg (by simp)]
  simp

/-- Counting off one child of the innermost ancestor. -/
theorem Counted.pred {offset : Offset} {offsets : List Offset} {frames : List Frame}
    (counted : Counted 1 (offset :: offsets) frames) :
    Counted 0 ({ offset with descCount := offset.descCount - 1 } :: offsets) frames := by
  -- The outermost counter is not looked at, and any other one is exact.
  cases counted with
  | root => exact .root
  | inner count suffix below => exact .inner (by rw [count, ofNat_pred]; rfl) suffix below

/-- Cutting the finished ancestors reads the same nodes on, with a child pending at the top. -/
theorem cutParents_spec {offsets : List Offset} {frames : List Frame}
    (counted : Counted 0 offsets frames) (readable : Readable frames) :
    ∃ offsets' frames', cutParents (path frames) offsets = some (path frames', offsets') ∧
      Counted 0 offsets' frames' ∧ Readable frames' ∧ Busy frames' ∧
      input frames' = input frames ∧ heads frames' = heads frames ∧
      unread frames' = unread frames ∧ remaining frames' = remaining frames := by
  -- The induction follows the ancestors from the innermost one outwards.
  induction frames generalizing offsets with
  | nil => cases counted
  | cons frame frames ih =>
    cases counted with
    | @root _ root =>
      exact ⟨[root], [frame], by simp [cutParents], .root, readable, trivial, rfl, rfl, rfl, rfl⟩
    | @inner _ offset _ offsets _ count suffix below =>
      obtain ⟨parent, rest, rfl⟩ : ∃ parent rest, offsets = parent :: rest := by
        cases below <;> exact ⟨_, _, rfl⟩
      obtain ⟨fewer, _⟩ := readable frame (by simp)
      by_cases finished : frame.pending = []
      · -- No child is left, so the label is cut and the parent counts this ancestor off.
        obtain ⟨parent', counted, cut⟩ : ∃ parent', Counted 0 (parent' :: rest) frames ∧
            cutParents (path (frame :: frames)) (offset :: parent :: rest) =
              cutParents (path frames) (parent' :: rest) := by
          have done : offset.descCount = 0 := by simp [count, finished]
          have truncated := truncate_append (path frames) frame.name
          rw [← suffix] at truncated
          rw [cutParents, if_neg (by simp [done]), path, truncated, Option.bind_some]
          cases rest with
          | nil =>
            cases below with
            | root => exact ⟨parent, .root, by simp⟩
            | inner _ _ none_ => cases none_
          | cons above rest => exact ⟨_, below.pred, by simp⟩
        obtain ⟨offsets', frames', result, after⟩ :=
          ih counted fun frame member => readable frame (by simp [member])
        refine ⟨offsets', frames', cut.trans result, ?_⟩
        simpa [input, heads, unread, remaining, finished, encodeAll, headsAll, entriesAll, sizeAll]
          using after
      · have counting : offset.descCount ≠ 0 := by
          intro zero
          rw [count, Nat.add_zero] at zero
          exact finished (List.eq_nil_of_length_eq_zero (ofNat_eq_zero fewer zero))
        refine ⟨offset :: parent :: rest, frame :: frames, by simp [cutParents, counting],
          .inner count suffix below, readable, ?_, rfl, rfl, rfl, rfl⟩
        cases frames with
        | nil => trivial
        | cons _ _ => exact finished

/-- The length of an allocatable name is read as it was written. -/
theorem nameLimit_length {name : Bytes} (short : name.length ≤ maxAlloc) :
    nameLimit (UInt64.ofNat name.length) = name.length := by
  -- Such a length is the same as a signed number.
  have small : name.length < 2 ^ 63 := Nat.lt_of_le_of_lt short (by decide)
  rw [nameLimit, show (UInt64.ofNat name.length).toInt64 = Int64.ofNat name.length from rfl,
    Int64.toInt_ofNat_of_lt small, Int.toNat_natCast]

/-- Only an empty name has no length. -/
theorem length_ne_zero {name : Bytes} (short : name.length ≤ maxAlloc) (named : name ≠ []) :
    UInt64.ofNat name.length ≠ 0 := by
  -- The length is read as it was written, so it is zero only for no bytes.
  intro zero
  have same := nameLimit_length short
  rw [zero] at same
  exact named (List.eq_nil_of_length_eq_zero same.symm)

/-- A name is taken by its length, and what is behind it is left. -/
theorem readName_append {name : Bytes} (behind b : Bytes) {copied : Int}
    (short : name.length ≤ maxAlloc) (unnamed : name = [] → copied = 0) :
    readName (UInt64.ofNat name.length) (name ++ behind) b copied =
      (b ++ name, (name.length : Int), behind) := by
  -- An empty name is not read at all, and copies nothing.
  rw [readName]
  by_cases named : name = []
  · simp [unnamed, named]
  · rw [if_pos (length_ne_zero short named), nameLimit_length short]
    simp only [List.take_left', List.drop_left']

/-- Reading the bytes of a node puts its label behind those of its ancestors. -/
theorem readRawNode_head (name : Bytes) (value : UInt64) (count : Nat) (rest b : Bytes)
    (copied : Int) (short : name.length ≤ maxAlloc) (unnamed : name = [] → copied = 0) :
    readRawNode (nodeHead name value count ++ rest) b copied =
      .ok { b := b ++ name, copied := name.length, value := value,
            descCount := UInt64.ofNat count, rest := rest } := by
  -- Each integer is read back, and the name is taken by its length.
  simp only [nodeHead, List.append_assoc, readRawNode, readUvarint_putUvarint,
    readName_append _ b short unnamed]

/-- A node is called back for when it has a value. -/
theorem calls_node (key : Bytes) (value : UInt64) :
    calls [(key, value)] = if value > 0 then [(key, value.toInt64)] else [] := by
  -- An entry without a value is not called back.
  by_cases positive : value > 0 <;> simp [calls, positive]

/-- A node's own call back in front of those that follow. -/
def report (key : Bytes) (value : UInt64) (following : RawIteration) : RawIteration :=
  (calls [(key, value)] ++ following.1, following.2)

/-- Reporting a node in front of a walk reports the longer walk. -/
theorem report_calls (key : Bytes) (value : UInt64) (entries : List (Bytes × UInt64))
    (ended : Except Failure Unit) :
    report key value (calls entries, ended) = (calls ((key, value) :: entries), ended) := by
  -- A call comes in front of those behind it.
  rw [report, ← calls_append, List.singleton_append]

section Round

variable {name : Bytes} {value : UInt64} {rest b : Bytes} {offsets : List Offset} {copied : Int}

/-- The iteration ends well at the end of the input. -/
theorem iterateRawLoop_end : iterateRawLoop [] b offsets copied = ([], .ok ()) := by
  -- There is no integer to read at the end of the input.
  have ended : readRawNode [] b copied = .error none := rfl
  rw [iterateRawLoop]
  split <;> simp_all

/-- A node with children becomes the innermost ancestor. -/
theorem iterateRawLoop_inner {count : Nat} (short : name.length ≤ maxAlloc)
    (unnamed : name = [] → copied = 0) (few : count < 2 ^ 63) (inner : count ≠ 0) :
    iterateRawLoop (nodeHead name value count ++ rest) b offsets copied =
      report (b ++ name) value (iterateRawLoop rest (b ++ name)
        ({ descCount := Int64.ofNat count, suffixLen := name.length } :: offsets)
        name.length) := by
  -- The number of children is not zero, so the node waits for them.
  have read := readRawNode_head name value count rest b copied short unnamed
  have nonzero : UInt64.ofNat count ≠ 0 := by
    intro zero
    exact inner (ofNat_eq_zero few (congrArg UInt64.toInt64 zero))
  rw [iterateRawLoop]
  split
  · simp_all
  · simp_all
  · rename_i node again
    rw [read, Except.ok.injEq] at again
    subst again
    rw [report, calls_node]
    simp only [if_pos nonzero]
    rfl

/-- A node without children cuts its label and the labels of the ancestors it finishes. -/
theorem iterateRawLoop_leaf (short : name.length ≤ maxAlloc) (unnamed : name = [] → copied = 0)
    {b' : Bytes} {offsets' : List Offset}
    (cut : cutLeaf (b ++ name) name.length offsets = some (b', offsets')) :
    iterateRawLoop (nodeHead name value 0 ++ rest) b offsets copied =
      report (b ++ name) value (iterateRawLoop rest b' offsets' name.length) := by
  -- No children are announced, so the label is cut at once.
  have read := readRawNode_head name value 0 rest b copied short unnamed
  rw [iterateRawLoop]
  split
  · simp_all
  · simp_all
  · rename_i node again
    rw [read, Except.ok.injEq] at again
    subst again
    simp [report, calls_node, cut]

end Round

/-- The child being read is no longer pending. -/
theorem Counted.reading {offsets : List Offset} {label : Bytes} {tree : TrieNode}
    {later : List TrieNode} {frames : List Frame}
    (counted : Counted 0 offsets (⟨label, tree :: later⟩ :: frames)) :
    Counted 1 offsets (⟨label, later⟩ :: frames) := by
  -- What is pending at the top is one fewer, and one is being read.
  cases counted with
  | root => exact .root
  | inner count suffix below => exact .inner count suffix below

/-- Frames in the middle of an iteration. -/
structure Reading (offsets : List Offset) (frames : List Frame) : Prop where
  counted : Counted 0 offsets frames
  readable : Readable frames
  busy : Busy frames

/-- What one round does: it reads the next node and goes on behind its bytes. -/
structure Round (offsets : List Offset) (frames : List Frame) (offsets' : List Offset)
    (frames' : List Frame) (name : Bytes) (value : UInt64) (count : Nat) : Prop where
  reading : Reading offsets' frames'
  short : name.length ≤ maxAlloc
  named : name ≠ []
  input : input frames = nodeHead name value count ++ input frames'
  heads : heads frames = nodeHead name value count :: heads frames'
  unread : unread frames = (path frames ++ name, value) :: unread frames'
  fewer : remaining frames' < remaining frames
  goes : ∀ rest copied, iterateRawLoop (nodeHead name value count ++ rest) (path frames) offsets
      copied =
    report (path frames ++ name) value (iterateRawLoop rest (path frames') offsets' name.length)

/-- The iteration is at its end, or there is a round. -/
theorem Reading.round {offsets : List Offset} {frames : List Frame}
    (reading : Reading offsets frames) :
    (∃ label, frames = [⟨label, []⟩]) ∨ ∃ offsets' frames' name value count,
      Round offsets frames offsets' frames' name value count := by
  -- The next node is the first one pending in the innermost frame.
  obtain ⟨counted, readable, busy⟩ := reading
  match frames, busy with
  | [⟨label, []⟩], _ => exact .inl ⟨label, rfl⟩
  | ⟨label, .mk name value children :: later⟩ :: frames, _ =>
    obtain ⟨fewer, each⟩ := readable _ List.mem_cons_self
    obtain ⟨fits, named⟩ := each (.mk name value children) List.mem_cons_self
    have kept : Readable (⟨label, later⟩ :: frames) := by
      intro frame member
      rcases List.mem_cons.mp member with rfl | outer
      · exact ⟨Nat.lt_of_succ_lt fewer,
          fun tree inside => each tree (List.mem_cons_of_mem _ inside)⟩
      · exact readable frame (List.mem_cons_of_mem _ outer)
    have counting := counted.reading
    cases fits with
    | node short few childNamed _ below =>
      have unnamed : ∀ {copied : Int}, name = [] → copied = 0 := fun empty => absurd empty named
      by_cases inner : children = []
      · -- A leaf is counted off by its parent, and finished ancestors are cut with it.
        subst inner
        obtain ⟨offset, outer, rfl⟩ : ∃ offset outer, offsets = offset :: outer := by
          cases counted <;> exact ⟨_, _, rfl⟩
        obtain ⟨offsets', frames', cut, counted', readable', busy', left, ahead, same, size⟩ :=
          cutParents_spec counting.pred kept
        have leaf : cutLeaf (path (⟨label, later⟩ :: frames) ++ name) name.length
            (offset :: outer) = some (path frames', offsets') := by
          rw [cutLeaf, truncate_append, Option.bind_some]
          exact cut
        refine .inr ⟨offsets', frames', name, value, 0, ⟨counted', readable', busy'⟩, short,
          named, ?_, ?_, ?_, ?_, fun rest copied => ?_⟩
        · rw [left]
          simp [input, encodeAll, encode_head]
        · rw [ahead]
          simp [heads, headsAll, headsOf]
        · rw [same]
          simp [unread, entriesAll, entries, path]
        · rw [size]
          simp only [remaining, sizeAll, RadixNode.size]
          omega
        · exact iterateRawLoop_leaf short unnamed leaf
      · have open_ : Readable (⟨name, children⟩ :: ⟨label, later⟩ :: frames) := by
          intro frame member
          rcases List.mem_cons.mp member with rfl | outer
          · exact ⟨few, fun tree inside => ⟨below tree inside, childNamed tree inside⟩⟩
          · exact kept frame outer
        have opened : Counted 0 (⟨Int64.ofNat children.length, name.length⟩ :: offsets)
            (⟨name, children⟩ :: ⟨label, later⟩ :: frames) := .inner rfl rfl counting
        refine .inr ⟨_, _, name, value, children.length, ⟨opened, open_, inner⟩, short, named, ?_,
          ?_, ?_, ?_, fun rest copied => ?_⟩
        · simp [input, encodeAll, encode_head]
        · simp [heads, headsAll, headsOf]
        · simp [unread, entriesAll, entries, path]
        · simp only [remaining, sizeAll, RadixNode.size]
          omega
        · exact iterateRawLoop_inner short unnamed few
            fun none_ => inner (List.eq_nil_of_length_eq_zero none_)

/-- The iterator calls back for every node that is still to be read, and ends without an error. -/
theorem iterateRawLoop_spec {offsets : List Offset} {frames : List Frame}
    (reading : Reading offsets frames) (copied : Int) :
    iterateRawLoop (input frames) (path frames) offsets copied =
      (calls (unread frames), .ok ()) := by
  -- Every round reads one node and leaves its children pending in front of the others.
  induction count : remaining frames using Nat.strongRecOn generalizing offsets frames copied with
  | ind count ih =>
    rcases reading.round with ⟨label, rfl⟩ | ⟨offsets', frames', name, value, _, round⟩
    · exact iterateRawLoop_end
    · rw [round.input, round.goes, round.unread, ← report_calls]
      exact congrArg _ (ih _ (count ▸ round.fewer) round.reading _ rfl)

/-- The bytes of a tree are read with its children pending below a label. -/
theorem reading_children {name : Bytes} {value : UInt64} {children : List TrieNode}
    (fits : Fits (.mk name value children)) (label : Bytes) :
    Reading [⟨Int64.ofNat children.length, 0⟩] [⟨label, children⟩] := by
  -- The only frame is that of the children, and none of them has been read.
  cases fits with
  | node short few childNamed _ below =>
    refine ⟨.root, fun frame member => ?_, trivial⟩
    obtain rfl := List.mem_singleton.mp member
    exact ⟨few, fun tree inside => ⟨below tree inside, childNamed tree inside⟩⟩

/-- The bytes of a whole tree are iterated over from an empty buffer. -/
theorem iterateRaw_encode {root : TrieNode} (fits : Fits root) (unnamed : root.name = []) :
    iterateRaw (encode id root) [] = (calls (entries [] root), .ok ()) := by
  -- The root's name is empty, so it adds nothing to the label buffer.
  obtain ⟨name, value, children⟩ := root
  obtain rfl : name = [] := unnamed
  have reading := reading_children fits []
  cases fits with
  | node short few =>
    rw [iterateRaw, entries, ← report_calls, encode_head]
    by_cases inner : children = []
    · subst inner
      have cut : cutLeaf ([] ++ []) (([] : Bytes).length : Int) [] = some ([], []) := rfl
      rw [List.length_nil, iterateRawLoop_leaf short (fun _ => rfl) cut, encodeAll,
        iterateRawLoop_end]
      simp [entriesAll, calls]
    · -- The root is the outermost ancestor of everything that follows.
      have walked := iterateRawLoop_spec reading 0
      rw [iterateRawLoop_inner short (fun _ => rfl) few
        fun none_ => inner (List.eq_nil_of_length_eq_zero none_)]
      simpa [input, path, unread] using congrArg (report [] value) walked

end Frames

namespace Trie

/--
Iterating over the bytes of a trie with neutral scaling agrees with iterating over the trie.

The calls come in the same order with the same keys, and every value below 2^63 comes out as it is.
-/
theorem iterateRaw_serialize (inserts : List InsertCall) :
    ∃ t out bytes, new.insertAll inserts = some t ∧ t.iterate = some out ∧
      t.serialize = some bytes ∧
      iterateRaw bytes [] = (out.map fun entry => (entry.1, entry.2.toInt64), .ok ()) ∧
      ∀ entry ∈ out, entry.2.toNat < 2 ^ 63 → entry.2.toInt64.toInt = entry.2.toNat := by
  -- A built trie fits the format, and its scaling is neutral.
  obtain ⟨t, built, stands⟩ := insertAll_new_stands inserts
  have scales : ∀ value, t.writtenValue value = some (id value) :=
    writtenValue_neutral stands.multiplier stands.divider
  refine ⟨t, _, _, built, t.iterate_eq, serialize_eq scales, ?_, ?_⟩
  · exact Frames.iterateRaw_encode stands.fits stands.represents.name
  · intro entry _ small
    have read : entry.2.toInt64 = Int64.ofNat entry.2.toNat := by
      rw [← UInt64.toInt64_ofNat', UInt64.ofNat_toNat]
    rw [read, Int64.toInt_ofNat_of_lt small]

end Trie

end Spycat
