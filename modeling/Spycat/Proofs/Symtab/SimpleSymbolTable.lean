import Mathlib.Data.List.Chain
import Spycat.Symtab.SimpleSymbolTable

/-! The binary search finds the function that a linear scan finds. -/

namespace Spycat

open Lib

/-- Whether an address is in the function of an entry. -/
def SimpleSymbolTableEntry.Contains (symbol : SimpleSymbolTableEntry) (addr : UInt64) : Prop :=
  symbol.entry ≤ addr ∧ addr < symbol.endAddr

instance (symbol : SimpleSymbolTableEntry) (addr : UInt64) : Decidable (symbol.Contains addr) :=
  inferInstanceAs (Decidable (_ ∧ _))

namespace SimpleSymbolTable

/-- The name of the first function that an address is in, empty where it is in none. -/
def scan (symbols : List SimpleSymbolTableEntry) (addr : UInt64) : Bytes :=
  ((symbols.find? fun symbol => symbol.Contains addr).map (·.name)).getD []

/-- The entries are in order, and there is no gap between two of them. -/
structure Adjacent (symbols : List SimpleSymbolTableEntry) : Prop where
  ordered : ∀ symbol ∈ symbols, symbol.entry ≤ symbol.endAddr
  adjacent : symbols.IsChain fun symbol next => symbol.endAddr = next.entry

/-- The functions of a program are adjacent. -/
theorem adjacent_symbols (table : GoSymTable) : Adjacent table.symbols := by
  -- Each symbol has the bounds of its function.
  constructor
  · intro symbol inside
    obtain ⟨func, member, rfl⟩ := List.mem_map.mp inside
    exact table.ordered func member
  · rw [GoSymTable.symbols, List.isChain_map]
    exact table.adjacent

variable {symbols : List SimpleSymbolTableEntry}

/-- An entry begins where the one in front of it ends. -/
theorem Adjacent.endAddr_eq (adjacent : Adjacent symbols) {i : Nat}
    (inside : i + 1 < symbols.length) : symbols[i].endAddr = symbols[i + 1].entry :=
  -- The two are neighbours.
  List.isChain_iff_getElem.mp adjacent.adjacent i inside

/-- An entry ends before a later one begins. -/
theorem Adjacent.endAddr_le_entry (adjacent : Adjacent symbols) {i j : Nat} (before : i < j)
    (inside : j < symbols.length) : symbols[i].endAddr ≤ symbols[j].entry := by
  induction j with
  | zero => exact absurd before (Nat.not_lt_zero i)
  | succ j ih =>
    rw [← adjacent.endAddr_eq inside]
    rcases Nat.lt_or_eq_of_le (Nat.le_of_lt_succ before) with earlier | rfl
    · -- The entry in between begins before it ends.
      have between := adjacent.ordered symbols[j] (List.getElem_mem (by omega))
      exact UInt64.le_trans (ih earlier (by omega)) between
    · exact UInt64.le_refl _

/-- The ends of entries are in order. -/
theorem Adjacent.endAddr_le (adjacent : Adjacent symbols) {i j : Nat} (before : i ≤ j)
    (inside : j < symbols.length) : symbols[i].endAddr ≤ symbols[j].endAddr := by
  -- A later function ends behind its own entry, which is behind the end of the first.
  rcases Nat.lt_or_eq_of_le before with earlier | rfl
  · have between := adjacent.ordered symbols[j] (List.getElem_mem inside)
    exact UInt64.le_trans (adjacent.endAddr_le_entry earlier inside) between
  · exact UInt64.le_refl _

/-- The beginnings of entries are in order. -/
theorem Adjacent.entry_le (adjacent : Adjacent symbols) {i j : Nat} (before : i ≤ j)
    (inside : j < symbols.length) : symbols[i].entry ≤ symbols[j].entry := by
  -- A later function begins behind the end of the first, which is behind its entry.
  rcases Nat.lt_or_eq_of_le before with earlier | rfl
  · have first := adjacent.ordered symbols[i] (List.getElem_mem (by omega))
    exact UInt64.le_trans first (adjacent.endAddr_le_entry earlier inside)
  · exact UInt64.le_refl _

/-- An address is in one entry at most. -/
theorem Adjacent.contains_unique (adjacent : Adjacent symbols) {i j : Nat}
    (first : i < symbols.length) (second : j < symbols.length) {addr : UInt64}
    (inFirst : symbols[i].Contains addr) (inSecond : symbols[j].Contains addr) : i = j := by
  -- Of two entries, the address is behind the one and in front of the other.
  have apart : ∀ {i j : Nat} (first : i < symbols.length) (second : j < symbols.length),
      symbols[i].Contains addr → symbols[j].Contains addr → ¬ i < j := by
    intro i j first second inFirst inSecond before
    have ended := UInt64.le_trans (adjacent.endAddr_le_entry before second) inSecond.1
    exact UInt64.not_le.mpr inFirst.2 ended
  have forward := apart first second inFirst inSecond
  have backward := apart second first inSecond inFirst
  omega

/-- An address in an entry is neither in front of the first one nor behind the last one. -/
theorem Adjacent.between_of_contains (adjacent : Adjacent symbols) {addr : UInt64} {i : Nat}
    (inside : i < symbols.length) (contains : symbols[i].Contains addr) :
    symbols[0].entry ≤ addr ∧ addr < symbols[symbols.length - 1].endAddr :=
  -- The function begins behind the first one, and ends in front of the end of the last.
  ⟨UInt64.le_trans (adjacent.entry_le (Nat.zero_le i) inside) contains.1,
    UInt64.lt_of_lt_of_le contains.2
      (adjacent.endAddr_le (Nat.le_sub_one_of_lt inside) (by omega))⟩

/-- The first of some entries. -/
theorem head?_symbols (nonempty : 0 < symbols.length) : symbols.head? = some symbols[0] := by
  -- There is a first symbol.
  rw [List.head?_eq_getElem?, List.getElem?_eq_getElem nonempty]

/-- The last of some entries. -/
theorem getLast?_symbols (nonempty : 0 < symbols.length) :
    symbols.getLast? = some symbols[symbols.length - 1] := by
  -- There is a last symbol.
  rw [List.getLast?_eq_getElem?, List.getElem?_eq_getElem (by omega)]

/-- The test at an entry. -/
theorem endsBehind_eq (addr : UInt64) {i : Nat} (inside : i < symbols.length) :
    endsBehind symbols addr i = decide (addr < symbols[i].endAddr) := by
  -- The search only asks for symbols that are there.
  rw [endsBehind, List.getElem?_eq_getElem inside]

/-- The test stays true once it is. -/
theorem Adjacent.testMonotone (adjacent : Adjacent symbols) (addr : UInt64) :
    TestMonotone symbols.length (endsBehind symbols addr) := by
  -- The ends do not decrease, so an address in front of one is in front of all later ones.
  intro i j before inside holds
  rw [endsBehind_eq addr (by omega), decide_eq_true_iff] at holds
  rw [endsBehind_eq addr inside, decide_eq_true_iff]
  exact UInt64.lt_of_lt_of_le holds (adjacent.endAddr_le before inside)

/-- The search finds the entry that an address is in. -/
theorem Adjacent.searchFirst_of_contains (adjacent : Adjacent symbols) {addr : UInt64} {i : Nat}
    (inside : i < symbols.length) (contains : symbols[i].Contains addr) :
    searchFirst symbols.length (endsBehind symbols addr) = i := by
  obtain ⟨-, below, above⟩ := searchFirst_spec (adjacent.testMonotone addr)
  generalize searchFirst symbols.length (endsBehind symbols addr) = found at below above
  have passes : endsBehind symbols addr i = true := by
    rw [endsBehind_eq addr inside]
    exact decide_eq_true contains.2
  -- The test is true at the entry, and false in front of it.
  have atMost : ¬ i < found := by
    intro before
    rw [below i before] at passes
    exact absurd passes (by decide)
  have atLeast : ¬ found < i := by
    intro before
    have holds := above found (Nat.le_refl found) (by omega)
    rw [endsBehind_eq addr (by omega), decide_eq_true_iff] at holds
    have ended := UInt64.le_trans (adjacent.endAddr_le_entry before inside) contains.1
    exact UInt64.not_le.mpr holds ended
  omega

/-- From the beginning of the first entry on, the search finds an entry that the address is in,
or none at all. -/
theorem Adjacent.contains_searchFirst (adjacent : Adjacent symbols) {addr : UInt64}
    (nonempty : 0 < symbols.length) (begun : symbols[0].entry ≤ addr)
    (found : searchFirst symbols.length (endsBehind symbols addr) < symbols.length) :
    (symbols[searchFirst symbols.length (endsBehind symbols addr)]).Contains addr := by
  obtain ⟨-, below, above⟩ := searchFirst_spec (adjacent.testMonotone addr)
  generalize searchFirst symbols.length (endsBehind symbols addr) = i at found below above
  have holds := above i (Nat.le_refl i) found
  rw [endsBehind_eq addr found, decide_eq_true_iff] at holds
  refine ⟨?_, holds⟩
  cases i with
  | zero => exact begun
  | succ i =>
    -- The entry in front ends where this one begins, and the address is not in front of that.
    have fails := below i (Nat.lt_succ_self i)
    rw [endsBehind_eq addr (by omega), decide_eq_false_iff_not, UInt64.not_lt,
      adjacent.endAddr_eq found] at fails
    exact fails

/-- What the search comes to, between a first and a last entry. -/
theorem resolve_of_ends (t : SimpleSymbolTable) {first last : SimpleSymbolTableEntry}
    (head : t.symbols.head? = some first) (tail : t.symbols.getLast? = some last) (addr : UInt64) :
    t.resolve addr =
      if addr - t.base < first.entry ∨ last.endAddr < addr - t.base then []
      else (t.symbols[searchFirst t.symbols.length
        (endsBehind t.symbols (addr - t.base))]?.map (·.name)).getD [] := by
  -- The two bounds are checked, and then the search decides.
  simp only [resolve, head, tail]
  by_cases outside : addr - t.base < first.entry ∨ last.endAddr < addr - t.base
  · rw [if_pos outside, if_pos outside]
  · rw [if_neg outside, if_neg outside]
    cases t.symbols[searchFirst t.symbols.length (endsBehind t.symbols (addr - t.base))]? <;> rfl

/-- What the search in a table with entries comes to. -/
theorem resolve_eq (nonempty : 0 < symbols.length) (base addr : UInt64) :
    ((new symbols).rebase base).resolve addr =
      if addr - base < symbols[0].entry ∨ symbols[symbols.length - 1].endAddr < addr - base then []
      else (symbols[searchFirst symbols.length
        (endsBehind symbols (addr - base))]?.map (·.name)).getD [] :=
  -- There is a first and a last symbol.
  resolve_of_ends ((new symbols).rebase base) (head?_symbols nonempty) (getLast?_symbols nonempty)
    addr

/-- A function is found by its addresses. -/
theorem Adjacent.resolve_of_contains (adjacent : Adjacent symbols) (base addr : UInt64) {i : Nat}
    (inside : i < symbols.length) (contains : symbols[i].Contains (addr - base)) :
    ((new symbols).rebase base).resolve addr = symbols[i].name := by
  -- The address is between the bounds, and the search stops at its function.
  have nonempty : 0 < symbols.length := by omega
  obtain ⟨begun, ends⟩ := adjacent.between_of_contains inside contains
  have within : ¬ (addr - base < symbols[0].entry ∨
      symbols[symbols.length - 1].endAddr < addr - base) := by
    intro outside
    rcases outside with early | late
    · exact UInt64.not_lt.mpr begun early
    · exact UInt64.lt_irrefl _ (UInt64.lt_trans ends late)
  rw [resolve_eq nonempty, if_neg within, adjacent.searchFirst_of_contains inside contains,
    List.getElem?_eq_getElem inside]
  rfl

/-- No function is found for any other address. -/
theorem Adjacent.resolve_of_not_contains (adjacent : Adjacent symbols) (base addr : UInt64)
    (outside : ∀ symbol ∈ symbols, ¬ symbol.Contains (addr - base)) :
    ((new symbols).rebase base).resolve addr = [] := by
  rcases Nat.eq_zero_or_pos symbols.length with empty | nonempty
  · obtain rfl := List.length_eq_zero_iff.mp empty
    rfl
  · rw [resolve_eq nonempty]
    split
    · rfl
    · next within =>
      -- What the search found would be an entry that the address is in.
      have begun : symbols[0].entry ≤ addr - base :=
        UInt64.not_lt.mp fun early => within (.inl early)
      have nothing : symbols.length ≤
          searchFirst symbols.length (endsBehind symbols (addr - base)) := by
        by_contra found
        exact outside _ (List.getElem_mem (by omega))
          (adjacent.contains_searchFirst nonempty begun (by omega))
      rw [List.getElem?_eq_none nothing]
      rfl

/-- An address is in no function in front of the first one and from the end of the last one on. -/
theorem Adjacent.not_contains_iff (adjacent : Adjacent symbols) (addr : UInt64) :
    (∀ symbol ∈ symbols, ¬ symbol.Contains addr) ↔
      symbols = [] ∨ (∃ first, symbols.head? = some first ∧ addr < first.entry) ∨
        ∃ last, symbols.getLast? = some last ∧ last.endAddr ≤ addr := by
  rcases Nat.eq_zero_or_pos symbols.length with empty | nonempty
  · obtain rfl := List.length_eq_zero_iff.mp empty
    simp
  · have some_symbol : symbols ≠ [] := List.ne_nil_of_length_pos nonempty
    simp only [head?_symbols nonempty, getLast?_symbols nonempty, some_symbol, false_or,
      Option.some.injEq, exists_eq_left']
    constructor
    · intro outside
      by_contra within
      rw [not_or, UInt64.not_lt, UInt64.not_le] at within
      -- Between the two ends the search stops at an entry.
      have passes : endsBehind symbols addr (symbols.length - 1) = true := by
        rw [endsBehind_eq addr (by omega)]
        exact decide_eq_true within.2
      have found : searchFirst symbols.length (endsBehind symbols addr) < symbols.length := by
        obtain ⟨-, below, -⟩ := searchFirst_spec (adjacent.testMonotone addr)
        by_contra beyond
        rw [below (symbols.length - 1) (by omega)] at passes
        exact absurd passes (by decide)
      exact outside _ (List.getElem_mem found)
        (adjacent.contains_searchFirst nonempty within.1 found)
    · intro outside symbol member contains
      obtain ⟨i, inside, rfl⟩ := List.getElem_of_mem member
      obtain ⟨begun, ends⟩ := adjacent.between_of_contains inside contains
      rcases outside with early | late
      · exact UInt64.not_lt.mpr begun early
      · exact UInt64.not_lt.mpr late ends

/-- For the functions of every program, loaded at any address, the search gives the name of the one
function that an address is in, no name where there is none, and so what the linear scan gives. -/
theorem resolve_eq_scan (table : GoSymTable) (base addr : UInt64) :
    (∀ (i : Nat) (symbol : SimpleSymbolTableEntry), table.symbols[i]? = some symbol →
      symbol.Contains (addr - base) →
        ((new table.symbols).rebase base).resolve addr = symbol.name ∧
        ∀ (j : Nat) (other : SimpleSymbolTableEntry), table.symbols[j]? = some other →
          other.Contains (addr - base) → j = i) ∧
    ((∀ symbol ∈ table.symbols, ¬ symbol.Contains (addr - base)) →
      ((new table.symbols).rebase base).resolve addr = []) ∧
    ((∀ symbol ∈ table.symbols, ¬ symbol.Contains (addr - base)) ↔
      table.symbols = [] ∨
        (∃ first, table.symbols.head? = some first ∧ addr - base < first.entry) ∨
        ∃ last, table.symbols.getLast? = some last ∧ last.endAddr ≤ addr - base) ∧
    ((new table.symbols).rebase base).resolve addr = scan table.symbols (addr - base) := by
  -- Where a function has the address it is the only one, so the order of the search is no matter.
  have adjacent := adjacent_symbols table
  refine ⟨?_, adjacent.resolve_of_not_contains base addr, adjacent.not_contains_iff (addr - base),
    ?_⟩
  · intro i symbol at_i contains
    obtain ⟨inside, rfl⟩ := List.getElem?_eq_some_iff.mp at_i
    refine ⟨adjacent.resolve_of_contains base addr inside contains, ?_⟩
    intro j other at_j contains'
    obtain ⟨inside', rfl⟩ := List.getElem?_eq_some_iff.mp at_j
    exact adjacent.contains_unique inside' inside contains' contains
  · unfold scan
    cases scanned : table.symbols.find? fun symbol => symbol.Contains (addr - base) with
    | none =>
      have outside := List.find?_eq_none.mp scanned
      exact adjacent.resolve_of_not_contains base addr fun symbol member contains =>
        outside symbol member (decide_eq_true contains)
    | some symbol =>
      have contains : symbol.Contains (addr - base) := by simpa using List.find?_some scanned
      obtain ⟨i, inside, rfl⟩ := List.getElem_of_mem (List.mem_of_find?_eq_some scanned)
      exact adjacent.resolve_of_contains base addr inside contains

/-- Two functions with an empty one between them. -/
def emptyBetween : GoSymTable where
  funcs := [⟨4096, 4112, [97]⟩, ⟨4112, 4112, [98]⟩, ⟨4112, 4128, [99]⟩]
  ordered := by decide
  adjacent := by decide

/-- In a program that was moved, an empty function hides none, and behind the last is nothing. -/
theorem resolve_eq_scan_moved :
    ((new emptyBetween.symbols).rebase 4194304).resolve (4194304 + 4112) = [99] ∧
      ((new emptyBetween.symbols).rebase 4194304).resolve (4194304 + 4128) = [] := by
  -- The first address is that of two functions, of which one has no address at all.
  obtain ⟨inside, _⟩ := resolve_eq_scan emptyBetween 4194304 (4194304 + 4112)
  obtain ⟨_, outside, without, _⟩ := resolve_eq_scan emptyBetween 4194304 (4194304 + 4128)
  constructor
  · exact (inside 2 _ rfl (by decide)).1
  · exact outside (without.mpr (.inr (.inr ⟨_, rfl, by decide⟩)))

/-- The table that is made for a program is that of its functions. -/
theorem tab_newGoSymbolTable {file : Bytes} {table : GoSymTable} {go : GoSymbolTable}
    (made : newGoSymbolTable file table = .ok go) : go.tab = new table.symbols := by
  -- A table is made only where there is a function.
  unfold newGoSymbolTable at made
  split at made
  · exact absurd made (by simp)
  · exact congrArg GoSymbolTable.tab (Except.ok.inj made).symm

end SimpleSymbolTable

end Spycat
