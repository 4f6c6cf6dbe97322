import Mathlib.Data.List.TakeWhile
import Spycat.Util.KprobeExists

/-! Which functions of a kernel are found, from the lists as a kernel writes them. -/

namespace Spycat

/-- A symbol of the kernel or of one of its modules. -/
structure KernelSymbol where
  address : Bytes
  type : Bytes
  name : Bytes
  module : Option Bytes

/-- The name of a module in brackets, behind a byte. -/
def moduleText (behind : UInt8) : Option Bytes → Bytes
  | some name => behind :: 91 :: (name ++ [93])
  | none => []

/-- The line of a symbol, which has a tab before the module. -/
def KernelSymbol.line (symbol : KernelSymbol) : Bytes :=
  symbol.address ++ 32 :: (symbol.type ++ 32 :: (symbol.name ++ moduleText 9 symbol.module))

/-- A function of the kernel or of one of its modules that must not be probed. -/
structure ForbiddenFunction where
  addresses : Bytes
  name : Bytes
  module : Option Bytes

/-- The line of a function, which has a tab before the name. -/
def ForbiddenFunction.line (function : ForbiddenFunction) : Bytes :=
  function.addresses ++ 9 :: (function.name ++ moduleText 32 function.module)

/-- The text of lines, each with a newline behind it. -/
def textOf (lines : List Bytes) : Bytes := lines.flatMap (· ++ [10])

/-- A word has neither a blank in it nor a bracket. -/
def Word (word : Bytes) : Prop := ∀ byte ∈ word, byte ∉ [9, 10, 13, 32, 91]

instance : DecidablePred Word :=
  fun word => inferInstanceAs (Decidable (∀ byte ∈ word, byte ∉ [9, 10, 13, 32, 91]))

/-- A line that a scanner finds as it is. -/
structure Line (line : Bytes) : Prop where
  newline : 10 ∉ line
  carriage : 13 ∉ line
  short : line.length < maxScanTokenSize

/-- A symbol as the kernel has it. -/
structure KernelSymbol.Plain (symbol : KernelSymbol) : Prop where
  address : Word symbol.address
  type : Word symbol.type
  name : Word symbol.name
  module : ∀ module ∈ symbol.module, Word module
  short : symbol.line.length < maxScanTokenSize

/-- A function as the kernel has it. -/
structure ForbiddenFunction.Plain (function : ForbiddenFunction) : Prop where
  addresses : Word function.addresses
  name : Word function.name
  module : ∀ module ∈ function.module, Word module
  short : function.line.length < maxScanTokenSize

/-- A byte that is a blank is not in a word. -/
theorem Word.not_mem {word : Bytes} (plain : Word word) {byte : UInt8}
    (blank : byte ∈ [9, 10, 13, 32, 91]) : byte ∉ word := fun member => plain byte member blank

/-- Another blank is not in the brackets of a module. -/
theorem moduleText_not_mem {module : Option Bytes} (plain : ∀ name ∈ module, Word name)
    {behind byte : UInt8} (blank : byte ∈ [9, 10, 13, 32]) (other : byte ≠ behind) :
    byte ∉ moduleText behind module := by
  -- The text is the byte in front, the brackets, and the name between them.
  cases module with
  | none => exact List.not_mem_nil
  | some name =>
    have inside : byte ∉ name := (plain name rfl).not_mem (by simp at blank ⊢; tauto)
    have brackets : byte ≠ 91 ∧ byte ≠ 93 := by
      simp only [List.mem_cons, List.not_mem_nil, or_false] at blank
      rcases blank with rfl | rfl | rfl | rfl <;> decide
    simp [moduleText, other, inside, brackets]

/-- A byte that ends a line is a blank, and is none that stands before a module. -/
theorem lineEnd {byte : UInt8} (end_ : byte ∈ [10, 13]) :
    byte ∈ [9, 10, 13, 32, 91] ∧ byte ∈ [9, 10, 13, 32] ∧ byte ≠ 9 ∧ byte ≠ 32 := by
  -- There are two such bytes.
  simp only [List.mem_cons, List.not_mem_nil, or_false] at end_
  rcases end_ with rfl | rfl <;> decide

/-- The lines of a text are found. -/
theorem scanLines_textOf {lines : List Bytes} (plain : ∀ line ∈ lines, Line line) :
    scanLines (textOf lines) = lines := by
  -- The text is split behind every line, and nothing is behind the last one.
  have split : (textOf lines).splitOn 10 = lines ++ [[]] := by
    induction lines with
    | nil => rfl
    | cons line rest ih =>
      have here := (plain line (by simp)).newline
      have text : textOf (line :: rest) = line ++ 10 :: textOf rest := by simp [textOf]
      rw [text, List.splitOn_append_cons_self_of_not_mem here,
        ih fun other member => plain other (by simp [member])]
      rfl
  have short : lines.takeWhile (·.length < maxScanTokenSize) = lines := by
    rw [List.takeWhile_eq_self_iff]
    exact fun line member => decide_eq_true (plain line member).short
  have kept : ∀ line ∈ lines, dropCR line = line := by
    intro line member
    refine if_neg fun last => (plain line member).carriage ?_
    exact List.mem_of_getLast? last
  rw [scanLines, split]
  simp only [List.getLast?_concat, if_true, List.dropLast_concat, short]
  exact List.map_congr_left kept |>.trans (List.map_id lines)

/-- The line of a symbol is found as it is. -/
theorem KernelSymbol.Plain.found {symbol : KernelSymbol} (plain : symbol.Plain) :
    Line symbol.line := by
  -- Neither of the bytes that end a line is in any part of it.
  have apart (byte : UInt8) (end_ : byte ∈ [10, 13]) : byte ∉ symbol.line := by
    obtain ⟨inWord, blank, tab, space⟩ := lineEnd end_
    simp [KernelSymbol.line, plain.address.not_mem inWord, plain.type.not_mem inWord,
      plain.name.not_mem inWord, moduleText_not_mem plain.module blank tab, space]
  exact ⟨apart 10 (by decide), apart 13 (by decide), plain.short⟩

/-- The words of the line of a symbol: the third one has the module in it. -/
theorem KernelSymbol.Plain.words {symbol : KernelSymbol} (plain : symbol.Plain) :
    symbol.line.splitOn 32 =
      [symbol.address, symbol.type, symbol.name ++ moduleText 9 symbol.module] := by
  -- The line is cut at its two blanks, and there is no other.
  have third : 32 ∉ symbol.name ++ moduleText 9 symbol.module := by
    rw [List.mem_append, not_or]
    exact ⟨plain.name.not_mem (by decide),
      moduleText_not_mem plain.module (by decide) (by decide)⟩
  rw [KernelSymbol.line,
    List.splitOn_append_cons_self_of_not_mem (plain.address.not_mem (by decide)),
    List.splitOn_append_cons_self_of_not_mem (plain.type.not_mem (by decide)),
    List.splitOn_eq_singleton third]

/-- The line of a function is found as it is. -/
theorem ForbiddenFunction.Plain.found {function : ForbiddenFunction} (plain : function.Plain) :
    Line function.line := by
  -- Neither of the bytes that end a line is in any part of it.
  have apart (byte : UInt8) (end_ : byte ∈ [10, 13]) : byte ∉ function.line := by
    obtain ⟨inWord, blank, tab, space⟩ := lineEnd end_
    simp [ForbiddenFunction.line, plain.addresses.not_mem inWord, plain.name.not_mem inWord,
      moduleText_not_mem plain.module blank space, tab]
  exact ⟨apart 10 (by decide), apart 13 (by decide), plain.short⟩

/-- What is read of the line of a function is never a word, for its name is behind a tab. -/
theorem ForbiddenFunction.Plain.words {function : ForbiddenFunction} (plain : function.Plain)
    {first second : Bytes} (read : function.line.splitOn 32 = [first, second]) : 91 ∈ second := by
  have named : 32 ∉ function.addresses ++ 9 :: function.name := by
    simp [plain.addresses.not_mem (show 32 ∈ [9, 10, 13, 32, 91] by decide),
      plain.name.not_mem (show 32 ∈ [9, 10, 13, 32, 91] by decide)]
  cases held : function.module with
  | none =>
    -- The line is one word.
    rw [ForbiddenFunction.line, held, moduleText, List.append_nil,
      List.splitOn_eq_singleton named] at read
    cases read
  | some module =>
    -- The second word is the module in brackets.
    have brackets : 32 ∉ 91 :: (module ++ [93]) := by
      have inside := (plain.module module held).not_mem (show 32 ∈ [9, 10, 13, 32, 91] by decide)
      simp [inside]
    have line : function.line =
        (function.addresses ++ 9 :: function.name) ++ 32 :: 91 :: (module ++ [93]) := by
      simp [ForbiddenFunction.line, held, moduleText]
    rw [line, List.splitOn_append_cons_self_of_not_mem named,
      List.splitOn_eq_singleton brackets] at read
    cases read
    simp

section Lists

variable {functions : List ForbiddenFunction} {symbols : List KernelSymbol} {name : Bytes}

/-- No function is found in the list of those that must not be probed. -/
theorem readKprobeBlacklist_lines (plain : ∀ function ∈ functions, function.Plain)
    (word : Word name) :
    ∃ names, readKprobeBlacklist (some (textOf (functions.map (·.line)))) = some names ∧
      name ∉ names := by
  -- What is read of a line has a bracket, and the name has none.
  have lines : ∀ line ∈ functions.map (·.line), Line line := by
    intro line member
    obtain ⟨function, inside, rfl⟩ := List.mem_map.mp member
    exact (plain function inside).found
  refine ⟨_, rfl, fun member => ?_⟩
  change name ∈ (scanLines (textOf (functions.map (·.line)))).filterMap _ at member
  rw [scanLines_textOf lines] at member
  obtain ⟨line, inside, read⟩ := List.mem_filterMap.mp member
  obtain ⟨function, listed, rfl⟩ := List.mem_map.mp inside
  split at read
  · rename_i first second split
    cases read
    exact word.not_mem (by decide) ((plain function listed).words split)
  · cases read

/-- Exactly the symbols of the kernel itself are found, and none of a module. -/
theorem checkKallsyms_lines (plain : ∀ symbol ∈ symbols, symbol.Plain) (word : Word name) :
    checkKallsyms (some (textOf (symbols.map (·.line)))) name = true ↔
      ∃ symbol ∈ symbols, symbol.name = name ∧ symbol.module = none := by
  -- What is compared is the third word of each line.
  have lines : ∀ line ∈ symbols.map (·.line), Line line := by
    intro line member
    obtain ⟨symbol, inside, rfl⟩ := List.mem_map.mp member
    exact (plain symbol inside).found
  -- The tab before a module is in no name.
  have third (symbol : KernelSymbol) :
      symbol.name ++ moduleText 9 symbol.module = name ↔
        symbol.name = name ∧ symbol.module = none := by
    cases symbol.module with
    | none => simp [moduleText]
    | some module =>
      refine ⟨fun same => ?_, fun ⟨_, absent⟩ => by cases absent⟩
      have tab : 9 ∈ name := by rw [← same]; simp [moduleText]
      exact absurd tab (word.not_mem (by decide))
  rw [checkKallsyms, scanLines_textOf lines, List.any_map, List.any_eq_true]
  constructor
  · rintro ⟨symbol, member, found⟩
    rw [Function.comp_apply, (plain symbol member).words] at found
    exact ⟨symbol, member, (third symbol).mp (of_decide_eq_true found)⟩
  · rintro ⟨symbol, member, found⟩
    refine ⟨symbol, member, ?_⟩
    rw [Function.comp_apply, (plain symbol member).words]
    exact decide_eq_true ((third symbol).mpr found)

/-- A function is taken for one that can be probed where the kernel lists it, forbidden or not. -/
theorem kprobeExists_lines (plainF : ∀ function ∈ functions, function.Plain)
    (plain : ∀ symbol ∈ symbols, symbol.Plain) (word : Word name) :
    kprobeExists (some (textOf (functions.map (·.line)))) (some (textOf (symbols.map (·.line))))
        name = true ↔
      ∃ symbol ∈ symbols, symbol.name = name ∧ symbol.module = none := by
  -- The first list forbids nothing, so the second one decides.
  obtain ⟨names, read, absent⟩ := readKprobeBlacklist_lines plainF word
  have none_ : names.any (· = name) = false := by
    rw [List.any_eq_false]
    rintro other member same
    exact absent (of_decide_eq_true same ▸ member)
  rw [kprobeExists, read]
  simp only [none_, Bool.false_eq_true, if_false]
  exact checkKallsyms_lines plain word

end Lists

end Spycat
