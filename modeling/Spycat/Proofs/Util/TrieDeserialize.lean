import Spycat.Proofs.Util.TrieBytes

/-! Reading the bytes of a trie rebuilds its tree in memory. -/

namespace Spycat

open Lib RadixNode

namespace Heap

mutual
/-- A tree is laid out at an address, every child at a larger address than its parent. -/
def Lays (heap : Heap) : TrieNode → Nat → Prop
  | .mk name value children, address =>
    ∃ pointers, heap[address]? = some { name := name, value := value, children := pointers } ∧
      LaysAll heap address children pointers
/-- The trees of a list are laid out at the addresses of a list, all larger than a bound. -/
def LaysAll (heap : Heap) (bound : Nat) : List TrieNode → List Nat → Prop
  | [], [] => True
  | tree :: trees, pointer :: pointers =>
    bound < pointer ∧ Lays heap tree pointer ∧ LaysAll heap bound trees pointers
  | _, _ => False
end

mutual
/-- What is laid out at an address only depends on the cells from there on. -/
theorem Lays.frame {heap changed : Heap} :
    ∀ {tree : TrieNode} {address : Nat}, heap.Lays tree address →
      (∀ i, address ≤ i → i < heap.length → changed[i]? = heap[i]?) → changed.Lays tree address
  -- The two inductions follow the tree, whose cells are all from the address on.
  | .mk name value children, address, ⟨pointers, cell, below⟩, same => by
    have inside : address < heap.length := (List.getElem?_eq_some_iff.mp cell).1
    refine ⟨pointers, (same address (Nat.le_refl _) inside).trans cell, ?_⟩
    exact LaysAll.frame below fun i after => same i (Nat.le_of_lt after)
/-- What is laid out above a bound only depends on the cells above it. -/
theorem LaysAll.frame {heap changed : Heap} {bound : Nat} :
    ∀ {trees : List TrieNode} {pointers : List Nat}, heap.LaysAll bound trees pointers →
      (∀ i, bound < i → i < heap.length → changed[i]? = heap[i]?) →
      changed.LaysAll bound trees pointers
  -- Each tree of the list is laid out above the bound.
  | [], [], _, _ => trivial
  | _ :: _, _ :: _, ⟨above, first, rest⟩, same =>
    ⟨above, first.frame fun i after => same i (Nat.lt_of_lt_of_le above after), rest.frame same⟩
end

/-- The names at the addresses of laid out trees are the trees' names. -/
theorem LaysAll.names {heap : Heap} {bound : Nat} :
    ∀ {trees : List TrieNode} {pointers : List Nat}, heap.LaysAll bound trees pointers →
      pointers.map heap.nameAt = trees.map (·.name)
  -- The induction is on the trees, each of which has a cell with its name.
  | [], [], _ => rfl
  | .mk name value children :: trees, pointer :: pointers, ⟨_, ⟨below, cell, _⟩, rest⟩ => by
    rw [List.map_cons, List.map_cons, rest.names]
    simp [Heap.nameAt, cell]

/-- Two lists of trees laid out above a bound are laid out together. -/
theorem LaysAll.append {heap : Heap} {bound : Nat} {second : List TrieNode} {after : List Nat} :
    ∀ {first : List TrieNode} {before : List Nat}, heap.LaysAll bound first before →
      heap.LaysAll bound second after → heap.LaysAll bound (first ++ second) (before ++ after)
  -- The induction is on the trees in front.
  | [], [], _, laid => laid
  | _ :: _, _ :: _, ⟨above, first, rest⟩, laid => ⟨above, first, rest.append laid⟩

mutual
/-- Following the children down from a tree's address gives the tree back. -/
theorem Lays.toTree {heap : Heap} :
    ∀ {tree : TrieNode} {address depth : Nat}, heap.Lays tree address →
      heap.length ≤ address + depth → heap.toTree depth address = tree
  -- Children are at larger addresses, so the depth that is left is enough for them.
  | .mk name value children, address, depth, ⟨pointers, cell, below⟩, deep => by
    have inside : address < heap.length := (List.getElem?_eq_some_iff.mp cell).1
    match depth with
    | 0 => omega
    | depth + 1 =>
      rw [Heap.toTree, cell]
      exact congrArg _ (LaysAll.toTree below (by omega))
/-- Following a list of addresses gives the trees laid out there. -/
theorem LaysAll.toTree {heap : Heap} {bound depth : Nat} :
    ∀ {trees : List TrieNode} {pointers : List Nat}, heap.LaysAll bound trees pointers →
      heap.length ≤ bound + 1 + depth → pointers.map (heap.toTree depth) = trees
  -- Each tree of the list is followed for itself.
  | [], [], _, _ => rfl
  | tree :: trees, pointer :: pointers, ⟨above, first, rest⟩, deep => by
    rw [List.map_cons, first.toTree (by omega), rest.toTree deep]
end

end Heap

/-- A name larger than all others goes to the end. -/
theorem insertPos_last {names : List Bytes} {key : Bytes}
    (sorted : (names ++ [key]).Pairwise (· < ·)) :
    insertPos names key = names.length := by
  -- The position splits the names into smaller ones and others.
  obtain ⟨sortedNames, _, smaller⟩ := List.pairwise_append.mp sorted
  obtain ⟨within, _, upper⟩ := insertPos_spec sortedNames key
  -- Anything behind the position would be both smaller and not smaller than the key.
  by_contra before
  have inside : insertPos names key < names.length := by omega
  have member : names[insertPos names key] ∈ names.drop (insertPos names key) :=
    List.mem_iff_getElem.mpr ⟨0, by simp [inside], by simp⟩
  have less := smaller _ (List.mem_of_mem_drop member) key (by simp)
  exact absurd less (List.not_lt.mpr (upper _ member))

/-- What reading children does: their parent has them, and no other old cell is touched. -/
structure Reads (heap : Heap) (parent : Nat) (tree : TrieNode) (heap' : Heap) : Prop where
  grows : heap.length ≤ heap'.length
  lays : heap'.Lays tree parent
  frame : ∀ i, i < heap.length → i ≠ parent → heap'[i]? = heap[i]?

/-- The memory after a fresh node was linked to its parent and got its value. -/
def linked (heap : Heap) (parent : Nat) (label : Bytes) (held : UInt64) : Heap :=
  (Heap.insert (heap ++ [{ name := label, value := 0, children := [] }]) parent heap.length).modify
    heap.length fun cell => { cell with value := held }

section Linked

variable {heap : Heap} {parent : Nat} {name : Bytes} {value : UInt64} {done : List TrieNode}
  {pointers : List Nat} (label : Bytes) (held : UInt64)

/-- The fresh node is the last cell. -/
theorem linked_fresh (inside : parent < heap.length) :
    (linked heap parent label held).length = heap.length + 1 ∧
      (linked heap parent label held)[heap.length]? = some ⟨label, held, []⟩ := by
  -- The new cell is appended, and linking modifies cells in place.
  constructor
  · simp [linked, Heap.insert]
  · simp [linked, Heap.insert, Nat.ne_of_lt inside]

/-- Linking touches no old cell but the parent's. -/
theorem linked_frame (i : Nat) (old : i < heap.length) (other : i ≠ parent) :
    (linked heap parent label held)[i]? = heap[i]? := by
  -- Linking modifies the parent's cell and the fresh one.
  have differs : heap.length ≠ i := by omega
  simp [linked, Heap.insert, differs, Ne.symm other, List.getElem?_append_left old]

/-- A node with a larger name goes behind the children its parent has so far. -/
theorem linked_parent (cell : heap[parent]? = some ⟨name, value, pointers⟩)
    (below : heap.LaysAll parent done pointers)
    (sorted : (done.map (·.name) ++ [label]).Pairwise (· < ·)) :
    (linked heap parent label held)[parent]? = some ⟨name, value, pointers ++ [heap.length]⟩ := by
  have inside : parent < heap.length := (List.getElem?_eq_some_iff.mp cell).1
  have differs : heap.length ≠ parent := by omega
  have atParent : (heap ++ [⟨label, 0, []⟩])[parent]? = some ⟨name, value, pointers⟩ := by
    rw [List.getElem?_append_left inside, cell]
  -- The names it is compared with are those of the trees laid out so far.
  have names : pointers.map (Heap.nameAt (heap ++ [⟨label, 0, []⟩])) = done.map (·.name) :=
    (below.frame fun i _ old => List.getElem?_append_left old).names
  have fresh : Heap.nameAt (heap ++ [⟨label, 0, []⟩]) heap.length = label := by
    simp [Heap.nameAt]
  have count : pointers.length = (done.map (·.name)).length := by
    rw [← names, List.length_map]
  simp [linked, Heap.insert, atParent, differs, fresh, names, insertPos_last sorted, ← count]

end Linked

/-- A smaller count keeps to a limit that a larger one keeps to. -/
theorem Within.mono {limit : Option Nat} {count more : Nat} (within : Within limit more)
    (less : count ≤ more) : Within limit count := by
  -- The limit is the same for both.
  intro most limited
  exact less.trans (within most limited)

/-- A limit that is there is the most a count may be. -/
theorem within_some {most count : Nat} : Within (some most) count ↔ count ≤ most := by
  -- The limit has one member.
  simp [Within]

/-- As long as the slice keeps to the limit, the node is pending once for each of its children. -/
theorem prependAll_eq {limit : Option Nat} {parents : List Nat}
    (within : Within limit parents.length) (tn more : Nat) :
    prependAll limit tn more parents =
      if Within limit (more + parents.length) then some (List.replicate more tn ++ parents)
      else none := by
  -- The induction is on the turns of the loop, each of which makes the slice longer by one.
  induction more generalizing parents with
  | zero => simp [prependAll, within]
  | succ more ih =>
    have length : more + (tn :: parents).length = more + 1 + parents.length := by
      rw [List.length_cons]
      omega
    rw [prependAll]
    by_cases next : Within limit (parents.length + 1)
    · have longer : Within limit (tn :: parents).length := next
      rw [if_pos next, ih longer, length, List.replicate_succ', List.append_assoc]
      rfl
    · -- Where the next turn is too much already, so are all of them.
      have all : ¬Within limit (more + 1 + parents.length) := fun fits =>
        next (fits.mono (by omega))
      rw [if_neg next, if_neg all]

/-- Reading the bytes of a tree links it behind the children its parent has so far. -/
def ReadsBack (limit : Option Nat) (image : UInt64 → UInt64) (tree : TrieNode) : Prop :=
  ∀ (heap : Heap) (parent : Nat) (parents : List Nat) (name : Bytes) (value : UInt64)
    (done : List TrieNode) (rest : Bytes), heap.Lays (.mk name value done) parent →
    (done.map (·.name) ++ [tree.name]).Pairwise (· < ·) →
    Within limit (tree.size + parents.length) →
    ∃ heap', deserializeLoop limit heap (parent :: parents) (encode image tree ++ rest) =
        deserializeLoop limit heap' parents rest ∧
      Reads heap parent (.mk name value (done ++ [tree.mapValues image])) heap'

@[simp] theorem name_mapValues (image : UInt64 → UInt64) (tree : TrieNode) :
    (tree.mapValues image).name = tree.name := by
  -- Only values are replaced.
  cases tree
  rfl

/-- Trees that can be read one by one can be read one after the other below one parent. -/
theorem reads_forest {limit : Option Nat} {image : UInt64 → UInt64} {trees : List TrieNode}
    (each : ∀ tree ∈ trees, ReadsBack limit image tree) (heap : Heap) (parent : Nat)
    (parents : List Nat) (name : Bytes) (value : UInt64) (done : List TrieNode) (rest : Bytes)
    (lays : heap.Lays (.mk name value done) parent)
    (sorted : (done.map (·.name) ++ trees.map (·.name)).Pairwise (· < ·))
    (within : Within limit (sizeAll trees + parents.length)) :
    ∃ heap', deserializeLoop limit heap (List.replicate trees.length parent ++ parents)
        (encodeAll image trees ++ rest) = deserializeLoop limit heap' parents rest ∧
      Reads heap parent (.mk name value (done ++ mapAll image trees)) heap' := by
  -- The parent is pending once for each tree, and each tree takes one of its turns.
  induction trees generalizing heap done with
  | nil =>
    exact ⟨heap, rfl, Nat.le_refl _, by simpa [mapAll] using lays, fun _ _ _ => rfl⟩
  | cons tree trees ih =>
    have sortedFirst : (done.map (·.name) ++ [tree.name]).Pairwise (· < ·) :=
      sorted.sublist (List.Sublist.append_left (by simp) _)
    -- Of the trees behind the first one only the roots are pending while it is read.
    have withinFirst : Within limit
        (tree.size + (List.replicate trees.length parent ++ parents).length) := by
      have roots := length_le_sizeAll trees
      apply within.mono
      rw [List.length_append, List.length_replicate, sizeAll]
      omega
    have withinRest : Within limit (sizeAll trees + parents.length) := by
      apply within.mono
      rw [sizeAll]
      omega
    obtain ⟨middle, readFirst, first⟩ := each tree (by simp) heap parent
      (List.replicate trees.length parent ++ parents) name value done
      (encodeAll image trees ++ rest) lays sortedFirst withinFirst
    obtain ⟨heap', readRest, second⟩ := ih (fun other member => each other (by simp [member]))
      middle _ first.lays (by simpa using sorted) withinRest
    refine ⟨heap', ?_, Nat.le_trans first.grows second.grows, ?_, ?_⟩
    · rw [← readRest, ← readFirst]
      simp [encodeAll, List.replicate_succ]
    · simpa [mapAll] using second.lays
    · intro i old other
      rw [second.frame i (Nat.lt_of_lt_of_le old first.grows) other, first.frame i old other]

/-- Filling a buffer takes exactly the bytes that were written for it. -/
theorem readAtLeast_append (buffer rest : Bytes) :
    readAtLeast (buffer ++ rest) buffer.length = .ok (buffer, rest) := by
  -- There are enough bytes for the buffer.
  simp [readAtLeast]

/-- The fields of a node in front of its children, and the bytes behind them. -/
structure NodeHeader where
  name : Bytes
  value : UInt64
  childrenLen : UInt64
  rest : Bytes

/-- The fields of the first node, with the bits gathered as its length where that is no integer. -/
def nodeHeader (input : Bytes) : Except ReadError NodeHeader :=
  match readAtLeast (readUvarint input).2.2 (readUvarint input).1.toNat with
  | .error err => .error err
  | .ok (name, afterName) =>
    match readUvarint afterName with
    | (_, some err, _) => .error err
    | (value, none, afterValue) =>
      match readUvarint afterValue with
      | (_, some err, _) => .error err
      | (childrenLen, none, rest) =>
        .ok { name := name, value := value, childrenLen := childrenLen, rest := rest }

/-- One round panics, fails, or links the first node and turns to its children. -/
theorem deserializeLoop_header {limit : Option Nat} (heap : Heap) (parent : Nat)
    {parents : List Nat} (within : Within limit parents.length) (input : Bytes) :
    deserializeLoop limit heap (parent :: parents) input =
      if maxAlloc < (readUvarint input).1.toNat then .error .panic
      else match nodeHeader input with
        | .error err => .error (.error err)
        | .ok header =>
          if Within limit (header.childrenLen.toNat + parents.length) then
            deserializeLoop limit (linked heap parent header.name header.value)
              (List.replicate header.childrenLen.toNat heap.length ++ parents) header.rest
          else .error .panic := by
  -- The error of the first read is not looked at, on either side.
  rw [deserializeLoop]
  split
  rename_i nameLen err afterLen measured
  rw [nodeHeader, measured]
  split
  · rfl
  · -- Each match of the round is one of those that read the fields.
    split
    · rename_i failed
      simp only [failed]
    · rename_i name afterName named
      simp only [named]
      split
      · rename_i valued
        simp only [valued]
      · rename_i value afterValue valued
        simp only [valued]
        split
        · rename_i counted
          simp only [counted]
        · rename_i childrenLen rest counted
          simp only [counted, prependAll_eq within]
          by_cases fits : Within limit (childrenLen.toNat + parents.length)
          · simp only [if_pos fits]
            rfl
          · simp only [if_neg fits]

/-- One round reads one node that was written and turns to its children. -/
theorem deserializeLoop_node {limit : Option Nat} (heap : Heap) (parent : Nat)
    {parents : List Nat} (label : Bytes) (held count : UInt64) (rest : Bytes)
    (short : label.length ≤ maxAlloc) (within : Within limit (count.toNat + parents.length)) :
    deserializeLoop limit heap (parent :: parents) (putUvarint (UInt64.ofNat label.length) ++
        (label ++ (putUvarint held ++ (putUvarint count ++ rest)))) =
      deserializeLoop limit (linked heap parent label held)
        (List.replicate count.toNat heap.length ++ parents) rest := by
  have length : (UInt64.ofNat label.length).toNat = label.length :=
    UInt64.toNat_ofNat_of_lt' (Nat.lt_of_le_of_lt short (by decide))
  -- Each field is read back as it was written.
  have fields : nodeHeader (putUvarint (UInt64.ofNat label.length) ++
      (label ++ (putUvarint held ++ (putUvarint count ++ rest)))) =
        .ok ⟨label, held, count, rest⟩ := by
    simp only [nodeHeader, readUvarint_putUvarint, length, readAtLeast_append]
  have small : ¬maxAlloc < (readUvarint (putUvarint (UInt64.ofNat label.length) ++
      (label ++ (putUvarint held ++ (putUvarint count ++ rest))))).1.toNat := by
    rw [readUvarint_putUvarint, length]
    exact Nat.not_lt.mpr short
  rw [deserializeLoop_header heap parent (within.mono (Nat.le_add_left _ _)), if_neg small, fields]
  exact if_pos within

/-- A tree that fits the format is read back below any parent. -/
theorem Fits.readsBack {tree : TrieNode} (fits : Fits tree) (limit : Option Nat)
    (image : UInt64 → UInt64) : ReadsBack limit image tree := by
  -- The induction follows the tree, each child read into the memory of those before it.
  induction fits with
  | @node label held children short few named sortedBelow below ih =>
    intro heap parent parents name value done rest lays sorted within
    obtain ⟨pointers, cell, laid⟩ := lays
    have inside : parent < heap.length := (List.getElem?_eq_some_iff.mp cell).1
    obtain ⟨length, fresh⟩ := linked_fresh label (image held) inside
    have count : (UInt64.ofNat children.length).toNat = children.length :=
      UInt64.toNat_ofNat_of_lt' (Nat.lt_of_lt_of_le few (by decide))
    have withinBelow : Within limit (sizeAll children + parents.length) := by
      apply within.mono
      rw [RadixNode.size]
      omega
    have withinRoots : Within limit
        ((UInt64.ofNat children.length).toNat + parents.length) := by
      have roots := length_le_sizeAll children
      apply withinBelow.mono
      omega
    -- The fresh node is the parent while its children are read.
    obtain ⟨heap', readBelow, reads⟩ := reads_forest ih (linked heap parent label (image held))
      heap.length parents label (image held) [] rest ⟨[], fresh, trivial⟩
      (by simpa using sortedBelow) withinBelow
    refine ⟨heap', ?_, by have := reads.grows; omega, ?_, ?_⟩
    · rw [← readBelow, encode]
      simp only [List.append_assoc, deserializeLoop_node _ _ _ _ _ _ short withinRoots]
      rw [count]
    · have linkedCell := linked_parent label (image held) cell laid sorted
      refine ⟨pointers ++ [heap.length], ?_, ?_⟩
      · rw [reads.frame parent (by omega) (by omega), linkedCell]
      · have old : ∀ i, parent < i → i < heap.length → heap'[i]? = heap[i]? := by
          intro i after before
          rw [reads.frame i (by omega) (by omega),
            linked_frame label (image held) i before (by omega)]
        exact (laid.frame old).append ⟨inside, reads.lays, trivial⟩
    · intro i old other
      rw [reads.frame i (by omega) (by omega), linked_frame label (image held) i old other]

namespace Trie

/-- The value written for a node: scaled up modulo 2^64, then down. -/
def scaled (m d : Int64) (value : UInt64) : UInt64 :=
  UInt64.ofNat (value.toNat * m.toInt.toNat % 2 ^ 64 / d.toInt.toNat)

/-- Neutral scaling changes no value. -/
@[simp] theorem scaled_neutral : scaled 1 1 = id := by
  -- A 64-bit value is its own remainder.
  funext value
  have bound := value.toNat_lt
  simp [scaled, Nat.mod_eq_of_lt bound]

/-- A multiplier from zero and a divider from one scale every value. -/
theorem writtenValue_scaled {t : Trie} {m d : Int64} (multiplier : t.multiplier = m)
    (divider : t.divider = d) (nonneg : 0 ≤ m) (positive : 1 ≤ d) (value : UInt64) :
    t.writtenValue value = some (scaled m d value) := by
  -- The source leaves values alone when both factors are one.
  rw [writtenValue, multiplier, divider]
  split
  · -- Neither factor is negative, so the unsigned factors are the signed ones.
    have divides : d.toUInt64.toNat = d.toInt.toNat :=
      Int64.toNat_toUInt64_of_le (Int64.le_trans (by decide) positive)
    have multiplies : m.toUInt64.toNat = m.toInt.toNat := Int64.toNat_toUInt64_of_le nonneg
    have atLeast : 1 ≤ d.toInt := Int64.le_iff_toInt_le.mp positive
    have nonzero : d.toUInt64 ≠ 0 := by
      intro zero
      have absent : d.toUInt64.toNat = 0 := by rw [zero]; rfl
      omega
    rw [if_neg nonzero, scaled, ← divides, ← multiplies, ← UInt64.toNat_mul, ← UInt64.toNat_div,
      UInt64.ofNat_toNat]
  · rename_i neutral
    obtain ⟨rfl, rfl⟩ : d = 1 ∧ m = 1 := by simpa using neutral
    simp

/-- The bytes of a tree that fits the format give the tree back. -/
theorem deserialize_encode {limit : Option Nat} {image : UInt64 → UInt64} {tree : TrieNode}
    (fits : Fits tree) (within : Within limit tree.size) :
    deserialize limit (encode image tree) = .ok { new with root := tree.mapValues image } := by
  -- The extra root gets the tree as its one child.
  have empty : Heap.Lays [⟨[], 0, []⟩] (.mk [] 0 []) 0 := ⟨[], rfl, trivial⟩
  obtain ⟨heap, read, reads⟩ := fits.readsBack limit image [⟨[], 0, []⟩] 0 [] [] 0 [] [] empty
    (by simp) within
  obtain ⟨pointers, cell, laid⟩ := reads.lays
  match pointers, laid with
  | [pointer], ⟨above, lays, _⟩ =>
    rw [List.append_nil] at read
    have followed : heap.toTree heap.length pointer = tree.mapValues image :=
      lays.toTree (Nat.le_add_left _ _)
    rw [deserialize, read, deserializeLoop]
    simp [Except.bind, cell, followed]

/--
Reading what a scaled clone wrote gives the trie back with every value scaled.

The tree has the same labels and the same children in the same order. No slice of the reader holds
more pointers than the trie has nodes. A node takes 56 bytes, so a trie that is in memory has fewer
than `maxPointers`.
-/
theorem deserialize_serialize (calls : List InsertCall) (m d : Int64) (nonneg : 0 ≤ m)
    (positive : 1 ≤ d) :
    ∃ t bytes t', new.insertAll calls = some t ∧ (t.clone m d).serialize = some bytes ∧
      (∀ limit, Within limit t.root.size → deserialize limit bytes = .ok t') ∧
      t'.root = t.root.mapValues (scaled m d) ∧ (m = 1 → d = 1 → t'.root = t.root) := by
  -- A built trie fits the format, so what is written is read back.
  obtain ⟨t, built, stands⟩ := insertAll_new_stands calls
  have scales : ∀ value, (t.clone m d).writtenValue value = some (scaled m d value) :=
    writtenValue_scaled rfl rfl nonneg positive
  refine ⟨t, _, _, built, serialize_eq scales, fun _ => deserialize_encode stands.fits, rfl, ?_⟩
  rintro rfl rfl
  simp [mapValues_id]

/-- A trie with one branching point survives tripling and halving its values. -/
theorem deserialize_serialize_halved :
    ∃ t bytes t',
      new.insertAll [⟨[1, 2], 5, [true], by decide⟩, ⟨[1, 3], 7, [true], by decide⟩] = some t ∧
      (t.clone 3 2).serialize = some bytes ∧
      (∀ limit, Within limit t.root.size → deserialize limit bytes = .ok t') ∧
      t'.root = t.root.mapValues (scaled 3 2) ∧
      ((3 : Int64) = 1 → (2 : Int64) = 1 → t'.root = t.root) :=
  -- Two keys with a common start make the branching point.
  deserialize_serialize [⟨[1, 2], 5, [true], by decide⟩, ⟨[1, 3], 7, [true], by decide⟩] 3 2
    (by decide) (by decide)

end Trie

end Spycat
