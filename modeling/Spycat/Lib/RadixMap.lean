import Spycat.Lib.Radix

/-! When a compressed prefix tree stands for a finite map, and the edits that keep it so. -/

namespace Spycat.Lib

open RadixNode

variable {α β : Type}

/-- The first letter of the left label comes before the first letter of the right one. -/
def LeadBefore [LT α] (left right : RadixNode α β) : Prop :=
  ∃ a ∈ left.name.head?, ∃ b ∈ right.name.head?, a < b

/--
A tree stands for a map of the keys that continue its own path.

Siblings differ in their first letter and stand in that order.
A node below the root is kept only for a stored key or for a branching point.
-/
inductive Holds [LT α] [Zero β] : KeyMap α β → RadixNode α β → Prop
  | node {map : KeyMap α β} {name : List α} {value : β} {children : List (RadixNode α β)}
      (stored : value = (map []).getD 0)
      (ordered : children.Pairwise LeadBefore)
      (named : ∀ child ∈ children, child.name ≠ [])
      (needed : ∀ child ∈ children, (map child.name).isSome ∨ 2 ≤ child.children.length)
      (covered : ∀ key, key ≠ [] → (map key).isSome → ∃ child ∈ children, child.name <+: key)
      (nested : ∀ child ∈ children, Holds (map.below child.name) child) :
      Holds map (.mk name value children)

section Reading

variable [LT α] [Zero β] {map : KeyMap α β} {tree : RadixNode α β}

theorem Holds.stored (holds : Holds map tree) : tree.value = (map []).getD 0 := by
  -- It is the first part of what a node needs.
  cases holds with | node stored _ _ _ _ _ => exact stored

theorem Holds.ordered (holds : Holds map tree) : tree.children.Pairwise LeadBefore := by
  -- It is the part about the order of the children.
  cases holds with | node _ ordered _ _ _ _ => exact ordered

theorem Holds.named (holds : Holds map tree) : ∀ child ∈ tree.children, child.name ≠ [] := by
  -- It is the part about the names of the children.
  cases holds with | node _ _ named _ _ _ => exact named

theorem Holds.needed (holds : Holds map tree) :
    ∀ child ∈ tree.children, (map child.name).isSome ∨ 2 ≤ child.children.length := by
  -- It is the part that forbids chains.
  cases holds with | node _ _ _ needed _ _ => exact needed

theorem Holds.covered (holds : Holds map tree) :
    ∀ key, key ≠ [] → (map key).isSome → ∃ child ∈ tree.children, child.name <+: key := by
  -- It is the part that leaves no key out.
  cases holds with | node _ _ _ _ covered _ => exact covered

theorem Holds.nested (holds : Holds map tree) :
    ∀ child ∈ tree.children, Holds (map.below child.name) child := by
  -- It is the part about the children themselves.
  cases holds with | node _ _ _ _ _ nested => exact nested

/-- The label of the edge into a node is not part of what it stands for. -/
theorem Holds.withName (holds : Holds map tree) (label : List α) :
    Holds map (tree.withName label) := by
  -- All conditions are about the value and the children.
  cases holds with
  | node stored ordered named needed covered nested =>
    exact .node stored ordered named needed covered nested

end Reading

/-- A single node without subtrees stands for the map of at most its own key. -/
theorem holds_leaf [LT α] [Zero β] {map : KeyMap α β} {name : List α} {value : β}
    (stored : value = (map []).getD 0) (alone : ∀ key, key ≠ [] → map key = none) :
    Holds map (.mk name value []) :=
  -- Without children there is nothing to be ordered, named or covered.
  .node stored .nil (by simp) (by simp)
    (fun key nonempty present => by simp [alone key nonempty] at present) (by simp)

/-- A nonempty label that starts a string shares its first letter. -/
theorem head_of_start {label string rest : List α} (nonempty : label ≠ [])
    (starts : label <+: string ++ rest) (stringNonempty : string ≠ []) :
    label.head? = string.head? := by
  -- Both are nonempty, so the start has a first letter and it is that of both.
  obtain ⟨tail, spelled⟩ := starts
  cases label with
  | nil => exact absurd rfl nonempty
  | cons a as =>
    cases string with
    | nil => exact absurd rfl stringNonempty
    | cons b bs =>
      simp only [List.cons_append, List.cons.injEq] at spelled
      simp [spelled.1]

/-- A letter that comes first orders the whole labels. -/
theorem LeadBefore.name_lt [LT α] {left right : RadixNode α β} (before : LeadBefore left right) :
    left.name < right.name := by
  -- The order of the first letters decides the order of the labels.
  obtain ⟨a, leadA, b, leadB, less⟩ := before
  obtain ⟨tailA, labelA⟩ := List.head?_eq_some_iff.mp leadA
  obtain ⟨tailB, labelB⟩ := List.head?_eq_some_iff.mp leadB
  rw [labelA, labelB]
  exact List.Lex.rel less

/-- Ordered siblings have different first letters. -/
theorem LeadBefore.head_ne [LT α] [Std.Irrefl (α := α) (· < ·)] {left right : RadixNode α β}
    (before : LeadBefore left right) : left.name.head? ≠ right.name.head? := by
  -- A shared first letter would come before itself.
  intro same
  obtain ⟨a, leadA, b, leadB, less⟩ := before
  rw [same, leadB] at leadA
  rw [Option.some.inj leadA] at less
  exact Std.Irrefl.irrefl _ less

section Ordered

variable [LT α] [Std.Asymm (α := α) (· < ·)] {left right : RadixNode α β}

/-- Strings that run through two ordered siblings have no first letter in common. -/
theorem LeadBefore.no_common_start (before : LeadBefore left right) {string restA restB : List α}
    (nonempty : string ≠ []) (first : string <+: left.name ++ restA)
    (second : string <+: right.name ++ restB) : False := by
  -- The first letter of the string would be the first letter of both labels.
  obtain ⟨a, leadA, b, leadB, less⟩ := before
  obtain ⟨tailA, labelA⟩ := List.head?_eq_some_iff.mp leadA
  obtain ⟨tailB, labelB⟩ := List.head?_eq_some_iff.mp leadB
  cases string with
  | nil => exact nonempty rfl
  | cons letter letters =>
    rw [labelA, List.cons_append, List.cons_prefix_cons] at first
    rw [labelB, List.cons_append, List.cons_prefix_cons] at second
    rw [← first.1, ← second.1] at less
    exact Std.Irrefl.irrefl _ less

/-- Two ordered siblings cannot both start a common string. -/
theorem LeadBefore.apart (before : LeadBefore left right) {key : List α}
    (first : left.name <+: key) (second : right.name <+: key) : False := by
  -- The string itself is the common start, and it holds at least one label's first letter.
  obtain ⟨restA, spelledA⟩ := first
  obtain ⟨restB, spelledB⟩ := second
  have nonempty : key ≠ [] := by
    obtain ⟨a, leadA, _⟩ := before
    obtain ⟨tailA, labelA⟩ := List.head?_eq_some_iff.mp leadA
    simp [← spelledA, labelA]
  have startsA : key <+: left.name ++ restA := spelledA ▸ List.prefix_refl _
  have startsB : key <+: right.name ++ restB := spelledB ▸ List.prefix_refl _
  exact before.no_common_start nonempty startsA startsB

/-- Among ordered siblings the first letter alone singles out the node. -/
theorem lead_unique {children : List (RadixNode α β)} (ordered : children.Pairwise LeadBefore)
    (inLeft : left ∈ children) (inRight : right ∈ children)
    (same : left.name.head? = right.name.head?) : left = right := by
  -- In an ordered list a node's first letter differs from that of every later one.
  induction children with
  | nil => simp at inLeft
  | cons head tail ih =>
    obtain ⟨headBefore, tailOrdered⟩ := List.pairwise_cons.mp ordered
    have strict : ∀ node ∈ tail, head.name.head? ≠ node.name.head? :=
      fun node member => (headBefore node member).head_ne
    rcases List.mem_cons.mp inLeft with rfl | leftLater
    · rcases List.mem_cons.mp inRight with rfl | rightLater
      · rfl
      · exact absurd same (strict _ rightLater)
    · rcases List.mem_cons.mp inRight with rfl | rightLater
      · exact absurd same.symm (strict _ leftLater)
      · exact ih tailOrdered leftLater rightLater

/-- Ordering by first letters never holds both ways. -/
instance : Std.Asymm (LeadBefore (α := α) (β := β)) where
  asymm := fun left right before after => by
    obtain ⟨a, leadA, b, leadB, less⟩ := before
    obtain ⟨c, leadC, d, leadD, more⟩ := after
    rw [leadA] at leadD
    rw [leadB] at leadC
    cases leadC
    cases leadD
    exact Std.Asymm.asymm _ _ less more

end Ordered

section Edits

variable [LT α] [Zero β] {map : KeyMap α β} {name key : List α} {value fresh : β}
  {before after : List (RadixNode α β)}

/-- Writing the node's own value stores the empty rest of the key. -/
theorem Holds.write_value [DecidableEq α] {tree : RadixNode α β} (holds : Holds map tree)
    (fresh : β) :
    Holds (map.store [] fresh) (tree.withValue fresh) := by
  -- No child's path ends at the node itself, so only its own value changes.
  cases holds with
  | node stored ordered named needed covered nested =>
    refine .node (by simp [KeyMap.store]) ordered named ?_ ?_ ?_
    · intro child member
      simpa [KeyMap.store, named child member] using needed child member
    · intro other nonempty present
      exact covered other nonempty (by simpa [KeyMap.store, nonempty] using present)
    · intro child member
      rw [KeyMap.store_below_other map fresh (by simpa using named child member)]
      exact nested child member

/-- A new sibling at its place in the order stores a key that no child started. -/
theorem Holds.add_leaf [Std.Asymm (α := α) (· < ·)] [DecidableEq α]
    (holds : Holds map (.mk name value (before ++ after))) (nonempty : key ≠ [])
    (lower : ∀ child ∈ before, LeadBefore child (.mk key fresh []))
    (upper : ∀ child ∈ after, LeadBefore (.mk key fresh []) child) :
    Holds (map.store key fresh) (.mk name value (before ++ .mk key fresh [] :: after)) := by
  have old : ∀ child, child ∈ before ∨ child ∈ after → child ∈ before ++ after :=
    fun child => List.mem_append.mpr
  -- The new label and an old one never start the same string.
  have apart : ∀ child ∈ before ++ after, ∀ string, child.name <+: string → ¬ key <+: string := by
    intro child member string first second
    rcases List.mem_append.mp member with low | high
    · exact (lower child low).apart first second
    · exact (upper child high).apart second first
  have absent : ∀ rest, map (key ++ rest) = none := by
    intro rest
    cases found : map (key ++ rest) with
    | none => rfl
    | some held =>
      obtain ⟨child, member, starts⟩ :=
        holds.covered (key ++ rest) (by simp [nonempty]) (by simp [found])
      exact (apart child member _ starts (List.prefix_append key rest)).elim
  have unchanged : ∀ child ∈ before ++ after, ¬ child.name <+: key :=
    fun child member starts => apart child member key starts (List.prefix_refl key)
  have split : ∀ child, child ∈ before ++ .mk key fresh [] :: after →
      child ∈ before ++ after ∨ child = .mk key fresh [] := by
    intro child member
    simp only [List.mem_append, List.mem_cons] at member ⊢
    tauto
  refine .node ?_ ?_ ?_ ?_ ?_ ?_
  · simpa [KeyMap.store, Ne.symm nonempty] using holds.stored
  · have ordered := List.pairwise_append.mp holds.ordered
    refine List.pairwise_append.mpr ⟨ordered.1, List.pairwise_cons.mpr ⟨upper, ordered.2.1⟩, ?_⟩
    intro low inBefore high inRest
    rcases List.mem_cons.mp inRest with rfl | inAfter
    · exact lower low inBefore
    · exact ordered.2.2 low inBefore high inAfter
  · intro child member
    rcases split child member with member | rfl
    · exact holds.named child member
    · exact nonempty
  · intro child member
    rcases split child member with member | rfl
    · have differs : child.name ≠ key :=
        fun same => unchanged child member (same ▸ List.prefix_refl _)
      simpa [KeyMap.store, differs] using holds.needed child member
    · simp [KeyMap.store]
  · intro other otherNonempty present
    by_cases same : other = key
    · exact ⟨.mk key fresh [], by simp, by simp [same]⟩
    · obtain ⟨child, member, starts⟩ :=
        holds.covered other otherNonempty (by simpa [KeyMap.store, same] using present)
      refine ⟨child, ?_, starts⟩
      simp only [List.mem_append, List.mem_cons, children_mk] at member ⊢
      tauto
  · intro child member
    rcases split child member with member | rfl
    · rw [KeyMap.store_below_other map fresh (unchanged child member)]
      exact holds.nested child member
    · refine holds_leaf (by simp [KeyMap.store]) ?_
      intro rest restNonempty
      simp [KeyMap.store, restNonempty, absent]

/-- Replacing a child by one with a leading part of its label changes only the keys below it. -/
theorem Holds.replace_child [Std.Asymm (α := α) (· < ·)] {changed : KeyMap α β}
    {child replaced : RadixNode α β}
    (holds : Holds map (.mk name value (before ++ child :: after)))
    (shortened : replaced.name <+: child.name) (nonempty : replaced.name ≠ [])
    (outside : ∀ other, ¬ replaced.name <+: other → changed other = map other)
    (needed : (changed replaced.name).isSome ∨ 2 ≤ replaced.children.length)
    (nested : Holds (changed.below replaced.name) replaced) :
    Holds changed (.mk name value (before ++ replaced :: after)) := by
  -- Shortening the label to a nonempty part keeps its first letter, and with it the order.
  have sameLead : replaced.name.head? = child.name.head? := by
    obtain ⟨rest, spelled⟩ := shortened
    cases label : replaced.name with
    | nil => exact absurd label nonempty
    | cons x xs => simp [← spelled, label]
  have ordered : before.Pairwise LeadBefore ∧ (child :: after).Pairwise LeadBefore ∧
      ∀ low ∈ before, ∀ high ∈ child :: after, LeadBefore low high :=
    List.pairwise_append.mp holds.ordered
  obtain ⟨childBefore, afterOrdered⟩ := List.pairwise_cons.mp ordered.2.1
  have lower : ∀ low ∈ before, LeadBefore low replaced := by
    intro low member
    simpa [LeadBefore, sameLead] using ordered.2.2 low member child (by simp)
  have upper : ∀ high ∈ after, LeadBefore replaced high := by
    intro high member
    simpa [LeadBefore, sameLead] using childBefore high member
  -- A sibling's keys never continue the replaced label, so their entries are the old ones.
  have sibling : ∀ other, other ∈ before ∨ other ∈ after →
      other ∈ before ++ child :: after ∧
        ∀ rest, ¬ replaced.name <+: other.name ++ rest := by
    rintro other (low | high)
    · exact ⟨by simp [low],
        fun rest starts => (lower other low).apart (List.prefix_append _ _) starts⟩
    · exact ⟨by simp [high],
        fun rest starts => (upper other high).apart starts (List.prefix_append _ _)⟩
  have split : ∀ other, other ∈ before ++ replaced :: after →
      (other ∈ before ∨ other ∈ after) ∨ other = replaced := by
    intro other member
    simp only [List.mem_append, List.mem_cons] at member
    tauto
  refine .node ?_ ?_ ?_ ?_ ?_ ?_
  · rw [outside [] (by simpa using nonempty)]
    exact holds.stored
  · refine List.pairwise_append.mpr ⟨ordered.1, List.pairwise_cons.mpr ⟨upper, afterOrdered⟩, ?_⟩
    intro low inBefore high inRest
    rcases List.mem_cons.mp inRest with rfl | inAfter
    · exact lower low inBefore
    · exact ordered.2.2 low inBefore high (by simp [inAfter])
  · intro other member
    rcases split other member with kept | rfl
    · exact holds.named other (sibling other kept).1
    · exact nonempty
  · intro other member
    rcases split other member with kept | rfl
    · obtain ⟨old, apart⟩ := sibling other kept
      rw [outside other.name (by simpa using apart [])]
      exact holds.needed other old
    · exact needed
  · intro other otherNonempty present
    by_cases starts : replaced.name <+: other
    · exact ⟨replaced, by simp, starts⟩
    · rw [outside other starts] at present
      obtain ⟨owner, member, ownerStarts⟩ := holds.covered other otherNonempty present
      refine ⟨owner, ?_, ownerStarts⟩
      simp only [children_mk, List.mem_append, List.mem_cons] at member ⊢
      rcases member with low | rfl | high
      · exact .inl low
      · exact absurd (shortened.trans ownerStarts) starts
      · exact .inr (.inr high)
  · intro other member
    rcases split other member with kept | rfl
    · obtain ⟨old, apart⟩ := sibling other kept
      have same : changed.below other.name = map.below other.name :=
        funext fun rest => outside _ (apart rest)
      rw [same]
      exact holds.nested other old
    · exact nested

/-- Cutting an edge in two puts a node without a key of its own at the cut. -/
theorem Holds.cut_edge {child : RadixNode α β} {upper lower label : List α}
    (holds : Holds (map.below (upper ++ lower)) child) (nonempty : lower ≠ [])
    (needed : (map (upper ++ lower)).isSome ∨ 2 ≤ child.children.length)
    (only : ∀ rest, (map (upper ++ rest)).isSome → lower <+: rest) :
    Holds (map.below upper) (.mk label 0 [child.withName lower]) := by
  -- The node at the cut has one child, and every key through the cut goes to it.
  refine .node ?_ (List.pairwise_singleton _ _) (by simpa using nonempty) ?_ ?_ ?_
  · -- The cut itself is no stored key, because every key runs on past it.
    cases found : map upper with
    | none => simp [found]
    | some held =>
      have runsOn := only [] (by simp [found])
      exact absurd (List.prefix_nil.mp runsOn) nonempty
  · simpa [KeyMap.below] using needed
  · intro rest _ present
    exact ⟨child.withName lower, by simp, by simpa using only rest present⟩
  · intro other member
    have same : other = child.withName lower := by simpa using member
    subst same
    rw [name_withName, KeyMap.below_below]
    exact holds.withName lower

end Edits

section Lookup

variable [LT α] [Zero β] {map : KeyMap α β} {tree : RadixNode α β}

/-- Every subtree below the root holds at least one stored key. -/
theorem Holds.exists_key (holds : Holds map tree)
    (needed : (map []).isSome ∨ 2 ≤ tree.children.length) : ∃ rest, (map rest).isSome := by
  -- The node has a key of its own, or else a child that is needed for some key.
  induction holds with
  | @node map name value children stored ordered named kept covered nested ih =>
    rcases needed with own | branching
    · exact ⟨[], own⟩
    · -- A branching node has a child, and that child holds a key.
      cases children with
      | nil => simp at branching
      | cons child others =>
        obtain ⟨rest, present⟩ := ih child (by simp) (by simpa using kept child (by simp))
        exact ⟨child.name ++ rest, present⟩

/-- Below a child there is a stored key that continues its label. -/
theorem Holds.exists_key_below (holds : Holds map tree) {child : RadixNode α β}
    (member : child ∈ tree.children) : ∃ rest, (map (child.name ++ rest)).isSome :=
  -- The child stands for the keys behind its name, of which there is one.
  (holds.nested child member).exists_key (by simpa using holds.needed child member)

/-- Stored keys with a value of their own are read off the pre-order entries. -/
theorem Holds.mem_entries (holds : Holds map tree) (path : List α) {key : List α} {value : β}
    (nonzero : value ≠ 0) :
    (key, value) ∈ entries path tree ↔
      ∃ rest, key = path ++ tree.name ++ rest ∧ map rest = some value := by
  induction holds generalizing path with
  | @node map name held children stored ordered named kept covered nested ih =>
    rw [entries, List.mem_cons, mem_entriesAll]
    constructor
    · rintro (here | ⟨child, member, later⟩)
      · obtain ⟨rfl, rfl⟩ := Prod.mk.inj here
        refine ⟨[], by simp, ?_⟩
        -- A nonzero value comes from a stored key.
        cases found : map [] with
        | none => simp [stored, found] at nonzero
        | some own => simp [stored, found]
      · obtain ⟨rest, spelled, present⟩ := (ih child member (path ++ name)).mp later
        exact ⟨child.name ++ rest, by simp [spelled, List.append_assoc], present⟩
    · rintro ⟨rest, spelled, present⟩
      by_cases atNode : rest = []
      · subst atNode
        exact .inl (by simp [spelled, stored, present])
      · obtain ⟨child, member, tail, continued⟩ := covered rest atNode (by simp [present])
        refine .inr ⟨child, member, (ih child member (path ++ name)).mpr ⟨tail, ?_, ?_⟩⟩
        · simp [spelled, ← continued, List.append_assoc]
        · simpa [KeyMap.below, continued] using present

/-- The pre-order entries come out in strictly increasing lexicographic order. -/
theorem Holds.entries_increase (holds : Holds map tree) (path : List α) :
    (entries path tree).Pairwise fun first second => first.1 < second.1 := by
  -- A node comes before its subtrees, and the subtrees come in the order of their labels.
  induction holds generalizing path with
  | @node map name held children stored ordered named kept covered nested ih =>
    rw [entries, List.pairwise_cons]
    constructor
    · -- Every later key continues the node's own key by a nonempty label.
      intro entry member
      obtain ⟨child, inside, later⟩ := mem_entriesAll.mp member
      obtain ⟨rest, spelled⟩ := entries_path child (path ++ name) entry later
      cases label : child.name with
      | nil => exact absurd label (named child inside)
      | cons letter letters =>
        rw [spelled, label, List.append_assoc]
        have longer : ([] : List α) < letter :: (letters ++ rest) := List.nil_lt_cons _ _
        simpa using (List.append_left_lt longer : path ++ name ++ [] < path ++ name ++ _)
    · clear stored kept covered
      induction children with
      | nil => simp [entriesAll]
      | cons child others more =>
        obtain ⟨childBefore, othersOrdered⟩ := List.pairwise_cons.mp ordered
        rw [entriesAll, List.pairwise_append]
        refine ⟨ih child (by simp) (path ++ name), ?_, ?_⟩
        · exact more othersOrdered (fun other member => named other (by simp [member]))
            (fun other member => nested other (by simp [member]))
            (fun other member => ih other (by simp [member]))
        · -- Keys of two siblings part at the first letters of their labels.
          intro first inFirst second inSecond
          obtain ⟨other, inside, inSecond⟩ := mem_entriesAll.mp inSecond
          obtain ⟨restA, spelledA⟩ := entries_path child (path ++ name) first inFirst
          obtain ⟨restB, spelledB⟩ := entries_path other (path ++ name) second inSecond
          obtain ⟨a, leadA, b, leadB, less⟩ := childBefore other inside
          obtain ⟨tailA, labelA⟩ := List.head?_eq_some_iff.mp leadA
          obtain ⟨tailB, labelB⟩ := List.head?_eq_some_iff.mp leadB
          rw [spelledA, spelledB, labelA, labelB, List.append_assoc (path ++ name),
            List.append_assoc (path ++ name)]
          exact List.append_left_lt (List.cons_lt_cons_iff.mpr (.inl less))

end Lookup

section Canonical

variable [LT α] [Std.Asymm (α := α) (· < ·)] [Zero β] {map : KeyMap α β}
  {left right : RadixNode α β}

/-- A label covering all keys of a needed child cannot run past that child's own label. -/
theorem Holds.label_prefix (holds : Holds map left) {child : RadixNode α β}
    (member : child ∈ left.children) {label : List α}
    (coversAll : ∀ rest, (map (child.name ++ rest)).isSome → label <+: child.name ++ rest) :
    label <+: child.name := by
  -- A needed child has a key that ends with it, or two keys that part right behind it.
  rcases holds.needed child member with own | branching
  · simpa using coversAll [] (by simpa using own)
  · -- Two branches leave the child by different letters, and the label starts both.
    have inner := holds.nested child member
    match shape : child.children, branching with
    | first :: second :: others, _ =>
      obtain ⟨restA, presentA⟩ :=
        inner.exists_key_below (show first ∈ child.children by simp [shape])
      obtain ⟨restB, presentB⟩ :=
        inner.exists_key_below (show second ∈ child.children by simp [shape])
      have startsA := coversAll _ presentA
      have startsB := coversAll _ presentB
      rcases List.prefix_or_prefix_of_prefix startsA (List.prefix_append child.name _) with
        done | ⟨extra, spelled⟩
      · exact done
      · subst spelled
        by_cases stops : extra = []
        · simp [stops]
        · have apart : LeadBefore first second := by
            have ordered := inner.ordered
            rw [shape] at ordered
            exact (List.pairwise_cons.mp ordered).1 second (by simp)
          exact (apart.no_common_start stops ((List.prefix_append_right_inj _).mp startsA)
            ((List.prefix_append_right_inj _).mp startsB)).elim

/-- Each child of one tree has a child of the same label in any other tree for the map. -/
theorem Holds.matching_child (first : Holds map left) (second : Holds map right)
    {child : RadixNode α β} (member : child ∈ left.children) :
    ∃ other ∈ right.children, other.name = child.name := by
  -- Some key runs through the child, and the other tree covers it by a child of its own.
  obtain ⟨rest, present⟩ := first.exists_key_below member
  have childNamed := first.named child member
  obtain ⟨other, inOther, starts⟩ :=
    second.covered (child.name ++ rest) (by simp [childNamed]) present
  have otherNamed := second.named other inOther
  -- Both labels begin alike, so every key under one of them runs through the other.
  have sameLead : child.name.head? = other.name.head? := by
    obtain ⟨tail, spelled⟩ := starts
    cases labelA : child.name with
    | nil => exact absurd labelA childNamed
    | cons a as =>
      cases labelB : other.name with
      | nil => exact absurd labelB otherNamed
      | cons b bs =>
        simp only [labelA, labelB, List.cons_append, List.cons.injEq] at spelled
        simp [spelled.1]
  have forward : other.name <+: child.name := by
    refine first.label_prefix member fun string stored => ?_
    obtain ⟨owner, inOwner, owns⟩ :=
      second.covered (child.name ++ string) (by simp [childNamed]) stored
    have same : owner = other := lead_unique second.ordered inOwner inOther
      ((head_of_start (second.named owner inOwner) owns childNamed).trans sameLead)
    exact same ▸ owns
  have backward : child.name <+: other.name := by
    refine second.label_prefix inOther fun string stored => ?_
    obtain ⟨owner, inOwner, owns⟩ :=
      first.covered (other.name ++ string) (by simp [otherNamed]) stored
    have same : owner = child := lead_unique first.ordered inOwner member
      ((head_of_start (first.named owner inOwner) owns otherNamed).trans sameLead.symm)
    exact same ▸ owns
  exact ⟨other, inOther, forward.eq_of_length_le backward.length_le⟩

/-- A map determines its tree: values, labels, and the order of siblings are all forced. -/
theorem Holds.unique (first : Holds map left) (second : Holds map right) :
    left.value = right.value ∧ left.children = right.children := by
  induction first generalizing right with
  | @node map name value children stored ordered named needed covered nested ih =>
    have whole : Holds map (.mk name value children) :=
      .node stored ordered named needed covered nested
    refine ⟨stored.trans second.stored.symm, ?_⟩
    -- Children matched by label agree below it, so both lists have the same members.
    have agree : ∀ child ∈ children, ∀ other ∈ right.children,
        other.name = child.name → child = other := by
      intro child inLeft other inRight same
      have below : Holds (map.below child.name) other := same ▸ second.nested other inRight
      obtain ⟨values, shapes⟩ := ih child inLeft below
      exact RadixNode.ext same.symm values shapes
    refine List.Pairwise.eq_of_mem_iff ordered second.ordered fun child => ⟨?_, ?_⟩
    · intro member
      obtain ⟨other, inOther, same⟩ := whole.matching_child second member
      exact agree child member other inOther same ▸ inOther
    · intro member
      obtain ⟨other, inOther, same⟩ := second.matching_child whole member
      exact agree other inOther child member same.symm ▸ inOther

end Canonical

end Spycat.Lib
