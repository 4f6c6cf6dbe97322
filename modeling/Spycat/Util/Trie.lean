import Spycat.Lib.Run
import Spycat.Lib.Search
import Spycat.Lib.RadixMap

/-! The stack-sample trie: insertion with edge splitting, cloning, and iteration. -/

namespace Spycat

open Lib

/-- A byte string. -/
abbrev Bytes := List UInt8

/-- A trie node: its edge label, its sample count, and its children. -/
abbrev TrieNode := RadixNode UInt8 UInt64

/-- A fresh node under one label, holding nothing. -/
def newTrieNode (name : Bytes) : TrieNode := .mk name 0 []

/-- Where a name goes among sorted names: in front of the first that is not smaller. -/
def insertPos (names : List Bytes) (key : Bytes) : Nat :=
  searchFirst names.length fun i => (names[i]?.map fun name => decide (key ≤ name)).getD false

namespace TrieNode

/-- Put a subtree among the children at the place its name asks for. -/
def insert (tn t2 : TrieNode) : TrieNode :=
  let i := insertPos (tn.children.map (·.name)) t2.name
  tn.withChildren (tn.children.take i ++ t2 :: tn.children.drop i)

/-- Replace the child at one position. -/
def setChild (tn : TrieNode) (index : Nat) (child : TrieNode) : TrieNode :=
  tn.withChildren (tn.children.set index child)

end TrieNode

/--
Scan the children for the last one whose first byte is the key's.

The outer result is absent when a child has no first byte, where the source panics.
-/
def findLead (first : UInt8) : List TrieNode → Nat → Option Nat → Option (Option Nat)
  | [], _, leadIndex => some leadIndex
  | v :: rest, k, leadIndex =>
    match v.name with
    | [] => none
    | byte :: _ => findLead first rest (k + 1) (if byte = first then some k else leadIndex)

/-- How a key runs along the label of its lead child. -/
inductive LeadMatch where
  /-- The label ends while the key goes on. -/
  | longer
  /-- Label and key differ at a position. -/
  | differs (at_ : Nat)
  /-- The key ends inside the label. -/
  | shorter
  /-- Key and label are the same string. -/
  | equal
  deriving DecidableEq

/-- Compare the key with the label byte by byte from a position on. -/
def matchLead (leadKey key : Bytes) (i : Nat) : LeadMatch :=
  if i < key.length then
    if i = leadKey.length then .longer
    else if leadKey[i]? ≠ key[i]? then .differs i
    else matchLead leadKey key (i + 1)
  else if key ≠ leadKey then .shorter
  else .equal
termination_by key.length - i

/-- The lead child's label split at a position, with a fresh node above the cut. -/
def splitLead (child : TrieNode) (i : Nat) : TrieNode :=
  .mk (child.name.take i) 0 [child.withName (child.name.drop i)]

/-- A lead found by the scan either was there before or starts with the key's first byte. -/
theorem findLead_found {first : UInt8} {children : List TrieNode} {k : Nat} {old : Option Nat}
    {lead : Nat} (found : findLead first children k old = some (some lead)) :
    old = some lead ∨
      ∃ j child, lead = k + j ∧ children[j]? = some child ∧ child.name.head? = some first := by
  -- The induction follows the scan, which forgets a lead only for a later one.
  induction children generalizing k old with
  | nil => exact .inl (by simpa [findLead] using found)
  | cons v rest ih =>
    cases label : v.name with
    | nil => simp [findLead, label] at found
    | cons byte bytes =>
      simp only [findLead, label] at found
      rcases ih found with kept | ⟨j, child, at_, member, head⟩
      · by_cases same : byte = first
        · rw [if_pos same, Option.some.injEq] at kept
          exact .inr ⟨0, v, by omega, by simp, by simp [label, same]⟩
        · exact .inl (by simpa [same] using kept)
      · exact .inr ⟨j + 1, child, by omega, by simpa using member, head⟩

/-- The lead child begins with the key's first byte. -/
theorem findLead_head {first : UInt8} {children : List TrieNode} {lead : Nat} {child : TrieNode}
    (found : findLead first children 0 none = some (some lead))
    (located : children[lead]? = some child) : child.name.head? = some first := by
  -- Nothing was recorded before the scan, so the position comes from a child it looked at.
  rcases findLead_found found with absent | ⟨j, other, at_, member, head⟩
  · simp at absent
  · have same : j = lead := by omega
    rw [same, located, Option.some.injEq] at member
    exact member ▸ head

/-- What each outcome of the comparison says about label and key. -/
def LeadMatch.Describes (leadKey key : Bytes) : LeadMatch → Prop
  | .longer => ∃ rest, rest ≠ [] ∧ key = leadKey ++ rest
  | .differs at_ => ∃ shared a restA b restB, shared.length = at_ ∧ a ≠ b ∧
      leadKey = shared ++ a :: restA ∧ key = shared ++ b :: restB
  | .shorter => ∃ rest, rest ≠ [] ∧ leadKey = key ++ rest
  | .equal => key = leadKey

/-- The comparison describes its arguments, whatever common part it has already passed. -/
theorem matchLead_describes_from {leadKey key : Bytes} (i : Nat)
    (passed : leadKey.take i = key.take i) (inLead : i ≤ leadKey.length) (inKey : i ≤ key.length) :
    (matchLead leadKey key i).Describes leadKey key := by
  induction i using matchLead.induct leadKey key with
  | case1 more =>
    -- The label is used up, so what is left of the key is the continuation.
    rw [matchLead, if_pos more, if_pos rfl]
    refine ⟨key.drop leadKey.length, by simp [more], ?_⟩
    conv_lhs => rw [← List.take_append_drop leadKey.length key, ← passed, List.take_length]
  | case2 i more notEnd differ =>
    rw [matchLead, if_pos more, if_neg notEnd, if_pos differ]
    have inside : i < leadKey.length := by omega
    refine ⟨key.take i, leadKey[i], leadKey.drop (i + 1), key[i], key.drop (i + 1), ?_, ?_, ?_, ?_⟩
    · simp [inKey]
    · simpa [List.getElem?_eq_getElem, inside, more] using differ
    · rw [← passed, List.getElem_cons_drop, List.take_append_drop]
    · rw [List.getElem_cons_drop, List.take_append_drop]
  | case3 i more notEnd alike ih =>
    rw [matchLead, if_pos more, if_neg notEnd, if_neg alike]
    have inside : i < leadKey.length := by omega
    refine ih ?_ inside more
    have same : leadKey[i] = key[i] := by
      simpa [List.getElem?_eq_getElem, inside, more] using alike
    rw [List.take_add_one, List.take_add_one, passed]
    simp [inside, more, same]
  | case4 i ended unequal =>
    rw [matchLead, if_neg ended, if_pos unequal]
    have whole : leadKey.take key.length = key := by
      rw [show key.length = i by omega, passed, show i = key.length by omega, List.take_length]
    refine ⟨leadKey.drop key.length, ?_, ?_⟩
    · intro used
      rw [← List.take_append_drop key.length leadKey, used, whole, List.append_nil] at unequal
      exact unequal rfl
    · conv_lhs => rw [← List.take_append_drop key.length leadKey, whole]
  | case5 i ended same =>
    rw [matchLead, if_neg ended, if_neg same]
    exact not_not.mp same

/-- Started at the front, the comparison describes its arguments. -/
theorem matchLead_describes (leadKey key : Bytes) :
    (matchLead leadKey key 0).Describes leadKey key :=
  matchLead_describes_from 0 rfl (Nat.zero_le _) (Nat.zero_le _)

/-- A difference from a lead with the same first byte lies past that byte. -/
theorem matchLead_differs_pos {leadKey key : Bytes} {at_ : Nat} {first : UInt8} {rest : Bytes}
    (reported : matchLead leadKey key 0 = .differs at_) (lead : leadKey.head? = some first)
    (shape : key = first :: rest) : 0 < at_ := by
  -- A difference at the front would be one between the first bytes.
  have described := matchLead_describes leadKey key
  rw [reported] at described
  obtain ⟨shared, a, restA, b, restB, length, different, labelled, spelled⟩ := described
  cases shared with
  | nil =>
    simp only [List.nil_append] at labelled spelled
    rw [labelled, List.head?_cons, Option.some.injEq] at lead
    rw [shape, List.cons.injEq] at spelled
    exact absurd (lead.trans spelled.1) different
  | cons _ _ => simp [← length]

/-- A label with a first byte is not empty. -/
theorem length_pos_of_head {label : Bytes} {first : UInt8} (head : label.head? = some first) :
    0 < label.length := by
  cases label with
  | nil => simp at head
  | cons _ _ => exact Nat.succ_pos _

-- The equations named in the matches below serve the termination argument only.
set_option linter.unusedVariables false in
/--
Walk to the node whose path spells the key, making it where needed, and apply `fn` to it.

The result is the tree after the walk, absent where the source panics.
Each restart of the source's outer loop is one recursive call on a strictly shorter key.
-/
def findNodeAt (fn : TrieNode → TrieNode) (tn : TrieNode) (key : Bytes) : Option TrieNode :=
  match spelled : key with
  | [] => some (fn tn)
  | first :: _ =>
    match found : findLead first tn.children 0 none with
    | none => none
    -- No lead: a new child takes the whole rest of the key.
    | some none => some (tn.insert (fn (newTrieNode key)))
    | some (some lead) =>
      match located : tn.children[lead]? with
      | none => none
      | some child =>
        match reported : matchLead child.name key 0 with
        -- The key goes on below the existing child.
        | .longer => (findNodeAt fn child (key.drop child.name.length)).map (tn.setChild lead)
        -- The label is cut where it stops agreeing, or where the key stops.
        | .differs i => (findNodeAt fn (splitLead child i) (key.drop i)).map (tn.setChild lead)
        | .shorter =>
          (findNodeAt fn (splitLead child key.length) (key.drop key.length)).map (tn.setChild lead)
        | .equal => some (tn.setChild lead (fn child))
termination_by key.length
decreasing_by
  -- Each restart drops at least one byte of the key; what is left is arithmetic of lengths.
  · have labelled := length_pos_of_head (findLead_head found located)
    rw [spelled, List.length_drop, List.length_cons]
    omega
  · have positive := matchLead_differs_pos reported (findLead_head found located) spelled
    rw [spelled, List.length_drop, List.length_cons]
    omega
  · rw [spelled, List.length_drop, List.length_cons]
    omega

/-- A trie with the scaling its values are written out with. -/
structure Trie where
  multiplier : Int64
  divider : Int64
  root : TrieNode

namespace Trie

/-- A new initialized empty trie. -/
def new : Trie where
  multiplier := 1
  divider := 1
  root := newTrieNode []

/-- The same tree under another scaling. -/
def clone (t : Trie) (m d : Int64) : Trie where
  multiplier := m
  divider := d
  root := t.root

/-- Store a value under a key; a leading `true` among the optional arguments adds it instead. -/
def insert (t : Trie) (key : Bytes) (value : UInt64) (merge : List Bool) : Option Trie :=
  let isMerge := merge.head?.getD false
  let root :=
    if isMerge then findNodeAt (fun tn => tn.withValue (tn.value + value)) t.root key
    else findNodeAt (fun tn => tn.withValue value) t.root key
  root.map fun root => { t with root := root }

/--
The callback's arguments in call order, read off two work lists that run in step.

The result is absent when the list of prefixes runs out first, where the source panics.
-/
def iterateLoop : List TrieNode → List Bytes → Option (List (Bytes × UInt64))
  | [], _ => some []
  | _ :: _, [] => none
  | tn :: nodes, leading :: prefixes =>
    -- Siblings share the memory behind their prefix, and each is done before the next one writes.
    let name := leading ++ tn.name
    (iterateLoop (tn.children ++ nodes) (List.replicate tn.children.length name ++ prefixes)).map
      fun calls => if tn.value > 0 then (name, tn.value) :: calls else calls
termination_by nodes => RadixNode.sizeAll nodes
decreasing_by
  simp [RadixNode.sizeAll, RadixNode.size_eq]

/-- Every key with a positive value, with that value. -/
def iterate (t : Trie) : Option (List (Bytes × UInt64)) :=
  iterateLoop [t.root] [[]]

/-- Whether nothing has been inserted below the root. -/
def isEmpty (t : Trie) : Bool := t.root.children.length == 0

end Trie

/-- The longest byte slice the runtime of a 64-bit platform allocates. -/
def maxAlloc : Nat := 2 ^ 48

/-- The arguments of one insertion; the key is a byte slice, so it could be allocated. -/
structure InsertCall where
  key : Bytes
  value : UInt64
  merge : List Bool
  allocated : key.length ≤ maxAlloc

/-- Insert a sequence of calls one after the other. -/
def Trie.insertAll (t : Trie) (calls : List InsertCall) : Option Trie :=
  run (fun t call => t.insert call.key call.value call.merge) t calls

end Spycat
