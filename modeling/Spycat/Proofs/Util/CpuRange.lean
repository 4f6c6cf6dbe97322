import Mathlib.Data.List.TakeWhile
import Spycat.Proofs.Processor.LabelKeys
import Spycat.Util.CpuRange

/-! The lists of CPUs that are accepted are those of a grammar, and stand for what it says. -/

namespace Spycat

open Lib

/-- The byte of a decimal digit. -/
def digitByte (d : Nat) : UInt8 := UInt8.ofNat (48 + d)

/-- The decimal digits of a number. -/
inductive Decimal : Bytes → Nat → Prop where
  | digit {d : Nat} (small : d < 10) : Decimal [digitByte d] d
  | more {text : Bytes} {n d : Nat} (front : Decimal text n) (small : d < 10) :
    Decimal (text ++ [digitByte d]) (10 * n + d)

/-- The CPUs from one number to another one, both included. -/
def cpusBetween (n m : Nat) : List UInt64 := (List.range' n (m + 1 - n)).map UInt64.ofNat

/-- A number below `2 ^ 32`, or two of them with a dash between, and the CPUs it stands for. -/
inductive CpuItem : Bytes → List UInt64 → Prop where
  | single {text : Bytes} {n : Nat} (number : Decimal text n) (small : n < 2 ^ 32) :
    CpuItem text [UInt64.ofNat n]
  | range {text text' : Bytes} {n m : Nat} (first : Decimal text n) (small : n < 2 ^ 32)
    (last : Decimal text' m) (small' : m < 2 ^ 32) :
    CpuItem (text ++ 45 :: text') (cpusBetween n m)

/-- One item, or more of them with commas between, and the CPUs of all of them in their order. -/
inductive CpuItems : Bytes → List UInt64 → Prop where
  | one {text : Bytes} {cpus : List UInt64} (item : CpuItem text cpus) : CpuItems text cpus
  | more {text rest : Bytes} {cpus others : List UInt64} (item : CpuItem text cpus)
    (items : CpuItems rest others) : CpuItems (text ++ 44 :: rest) (cpus ++ others)

/-- One more digit behind the value of those before. -/
def digitStep (value : Nat) (byte : UInt8) : Option Nat :=
  if 48 ≤ byte.toNat ∧ byte.toNat ≤ 57 then some (10 * value + (byte.toNat - 48)) else none

/-- The value of digits is that of their run. -/
theorem parseDigits_eq (text : Bytes) :
    parseDigits text = if text = [] then none else text.foldlM digitStep 0 :=
  rfl

/-- The digits are the bytes from 48 on. -/
theorem toNat_digitByte {d : Nat} (small : d < 10) : (digitByte d).toNat = 48 + d :=
  -- The byte is below 256.
  UInt8.toNat_ofNat_of_lt' (by simp only [UInt8.size]; omega)

/-- The byte of a digit adds the digit. -/
theorem digitStep_digit (value : Nat) {d : Nat} (small : d < 10) :
    digitStep value (digitByte d) = some (10 * value + d) := by
  -- The byte is between 48 and 57, and what it adds is its distance from 48.
  rw [digitStep, toNat_digitByte small, if_pos (by omega)]
  simp

/-- A byte that is a digit is that of a number below ten. -/
theorem digitStep_eq_some {value next : Nat} {byte : UInt8}
    (step : digitStep value byte = some next) :
    ∃ d < 10, byte = digitByte d ∧ next = 10 * value + d := by
  -- The digit is the distance of the byte from 48.
  unfold digitStep at step
  split at step
  · obtain rfl := Option.some.inj step
    refine ⟨byte.toNat - 48, by omega, ?_, rfl⟩
    apply UInt8.toNat_inj.mp
    rw [toNat_digitByte (by omega)]
    omega
  · exact absurd step (by simp)

/-- A text has a value exactly as it is the digits of that number. -/
theorem decimal_iff (text : Bytes) (n : Nat) : Decimal text n ↔ parseDigits text = some n := by
  rw [parseDigits_eq]
  constructor
  · intro number
    -- The digits are read one by one, up to the last of them.
    induction number with
    | digit small => simp [digitStep_digit 0 small]
    | more front small ih =>
      rw [if_neg (by simp), List.foldlM_append]
      split at ih
      · exact absurd ih (by simp)
      · rw [ih]
        simp [digitStep_digit _ small]
  · intro value
    -- What is in front of the last digit is no digit at all, or digits again.
    induction text using List.reverseRecOn generalizing n with
    | nil => exact absurd value (by simp)
    | append_singleton front last ih =>
      rw [if_neg (by simp), List.foldlM_append] at value
      obtain ⟨before, reads, step⟩ := Option.bind_eq_some_iff.mp value
      rw [List.foldlM_cons] at step
      obtain ⟨next, adds, same⟩ := Option.bind_eq_some_iff.mp step
      obtain rfl : next = n := by simpa using same
      obtain ⟨d, small, rfl, rfl⟩ := digitStep_eq_some adds
      by_cases empty : front = []
      · subst empty
        obtain rfl : 0 = before := by simpa using reads
        simpa using Decimal.digit small
      · exact .more (ih before (by rwa [if_neg empty])) small

/-- The value grows with every digit. -/
theorem le_of_foldlM_digitStep {text : Bytes} {value final : Nat}
    (reads : text.foldlM digitStep value = some final) : value ≤ final := by
  -- The induction is on the digits, each of which multiplies by ten and adds.
  induction text generalizing value with
  | nil =>
    obtain rfl : value = final := by simpa using reads
    exact Nat.le_refl value
  | cons byte rest ih =>
    rw [List.foldlM_cons] at reads
    obtain ⟨next, step, reads⟩ := Option.bind_eq_some_iff.mp reads
    obtain ⟨d, -, -, rfl⟩ := digitStep_eq_some step
    have later := ih reads
    omega

/-- The loop over the digits goes through exactly where their value is one of 32 bits. -/
theorem parseUintLoop_ok_iff (num text : Bytes) (n m : UInt32) :
    parseUintLoop num n text = .ok m ↔ text.foldlM digitStep n.toNat = some m.toNat := by
  -- The induction is on the text; the loop fails at a value that needs more than 32 bits.
  induction text generalizing n with
  | nil => simp [parseUintLoop, UInt32.toNat_inj]
  | cons c rest ih =>
    rw [parseUintLoop, List.foldlM_cons, digitStep]
    by_cases digit : 48 ≤ c.toNat ∧ c.toNat ≤ 57
    · rw [if_pos digit, if_pos digit, Option.bind_eq_bind, Option.bind_some]
      by_cases large : 2 ^ 32 ≤ 10 * n.toNat + (c.toNat - 48)
      · -- A value that is too large stays too large.
        simp only [large, if_true, reduceCtorEq, false_iff]
        intro reads
        have later := le_of_foldlM_digitStep reads
        have bound := m.toNat_lt
        omega
      · have value : (UInt32.ofNat (10 * n.toNat + (c.toNat - 48))).toNat =
            10 * n.toNat + (c.toNat - 48) :=
          UInt32.toNat_ofNat_of_lt' (by simp only [UInt32.size]; omega)
        simp only [large, if_false]
        rw [ih, value]
    · rw [if_neg digit, if_neg digit]
      simp

/-- A number of 32 bits is read exactly from its digits. -/
theorem parseUint_ok_iff (text : Bytes) (m : UInt32) :
    parseUint text = .ok m ↔ Decimal text m.toNat := by
  -- The loop starts with nothing read, and an empty text is refused before it.
  rw [decimal_iff, parseDigits_eq, parseUint]
  by_cases empty : text = []
  · simp [empty]
  · rw [if_neg empty, if_neg empty]
    exact parseUintLoop_ok_iff text text 0 m

/-- A number below `2 ^ 32` is read from its digits. -/
theorem parseUint_decimal {text : Bytes} {n : Nat} (number : Decimal text n) (small : n < 2 ^ 32) :
    parseUint text = .ok (UInt32.ofNat n) := by
  -- A small number is that of its own 32 bits.
  rw [parseUint_ok_iff, UInt32.toNat_ofNat_of_lt' (by simp only [UInt32.size]; omega)]
  exact number

/-- The loop that counts gives the numbers between the two. -/
theorem countTo_eq (last : UInt32) (n : UInt64) :
    countTo last n = cpusBetween n.toNat last.toNat := by
  -- Every step takes the first number off the front.
  fun_induction countTo last n with
  | case1 n within ih =>
    obtain ⟨bound, next⟩ := toNat_counted within
    have counts : last.toNat + 1 - n.toNat = (last.toNat + 1 - (n.toNat + 1)) + 1 := by omega
    rw [ih, next, cpusBetween, cpusBetween, counts, List.range'_succ, List.map_cons,
      UInt64.ofNat_toNat]
  | case2 n past =>
    have bound : ¬ n.toNat ≤ last.toNat := by simpa [UInt64.le_iff_toNat_le] using past
    rw [cpusBetween, show last.toNat + 1 - n.toNat = 0 by omega]
    rfl

/-- The text of a number has a byte, and only those of digits. -/
theorem Decimal.digits {text : Bytes} {n : Nat} (number : Decimal text n) :
    text ≠ [] ∧ ∀ byte ∈ text, 48 ≤ byte.toNat ∧ byte.toNat ≤ 57 := by
  -- The induction follows the digits, each of which is a byte between 48 and 57.
  induction number with
  | digit small =>
    refine ⟨by simp, fun byte inside => ?_⟩
    rw [List.mem_singleton.mp inside, toNat_digitByte small]
    omega
  | more front small ih =>
    refine ⟨by simp, fun byte inside => ?_⟩
    rcases List.mem_append.mp inside with inside | inside
    · exact ih.2 byte inside
    · rw [List.mem_singleton.mp inside, toNat_digitByte small]
      omega

/-- A byte that is no digit is not in the text of a number. -/
theorem Decimal.not_mem {text : Bytes} {n : Nat} (number : Decimal text n) {byte : UInt8}
    (other : byte.toNat < 48) : byte ∉ text := by
  -- All bytes of a number are digits.
  intro inside
  have digit := number.digits.2 byte inside
  omega

/-- A text without the separator is not split. -/
theorem splitTwo_of_not_mem {sep : UInt8} {s : Bytes} (absent : sep ∉ s) :
    splitTwo sep s = (s, none) := by
  -- The search for the separator goes through the whole text.
  have passed : s.dropWhile (· ≠ sep) = [] := by
    rw [List.dropWhile_eq_nil_iff]
    intro byte inside
    have different : byte ≠ sep := fun same => absent (same ▸ inside)
    simpa using different
  rw [splitTwo, passed]

/-- A text is split at the first separator. -/
theorem splitTwo_append {sep : UInt8} {s : Bytes} (absent : sep ∉ s) (rest : Bytes) :
    splitTwo sep (s ++ sep :: rest) = (s, some rest) := by
  -- The search for the separator ends at the first one, which is in front of the rest.
  have before : ∀ byte ∈ s, decide (byte ≠ sep) = true := by
    intro byte inside
    have different : byte ≠ sep := fun same => absent (same ▸ inside)
    simpa using different
  have passed : (s ++ sep :: rest).dropWhile (· ≠ sep) = sep :: rest := by
    rw [List.dropWhile_append_of_pos before, List.dropWhile_cons_of_neg (by simp)]
  have taken : (s ++ sep :: rest).takeWhile (· ≠ sep) = s := by
    rw [List.takeWhile_append_of_pos before, List.takeWhile_cons_of_neg (by simp),
      List.append_nil]
  rw [splitTwo, passed, taken]

/-- The two ways in which a text is split. -/
theorem splitTwo_cases (sep : UInt8) (s : Bytes) :
    sep ∉ s ∧ splitTwo sep s = (s, none) ∨
    ∃ front rest, sep ∉ front ∧ s = front ++ sep :: rest ∧
      splitTwo sep s = (front, some rest) := by
  -- The text is cut at the first separator that it has.
  by_cases present : sep ∈ s
  · obtain ⟨front, rest, rfl, absent⟩ := List.eq_append_cons_of_mem present
    exact .inr ⟨front, rest, absent, rfl, splitTwo_append absent rest⟩
  · exact .inl ⟨present, splitTwo_of_not_mem present⟩

/-- A number of 32 bits is the same one in 64 bits. -/
theorem toUInt64_eq_ofNat (n : UInt32) : n.toUInt64 = UInt64.ofNat n.toNat := by
  -- Both are the same natural number.
  rw [← UInt32.toNat_toUInt64, UInt64.ofNat_toNat]

/-- Without a dash the text is read as one number. -/
theorem readCPU_single {text : Bytes} (absent : 45 ∉ text) :
    readCPU text = (parseUint text).map fun n => [UInt64.ofNat n.toNat] := by
  -- Without a dash there is one number.
  rw [readCPU, splitTwo_of_not_mem absent]
  cases parseUint text with
  | error failure => rfl
  | ok n => exact congrArg (fun cpu => Except.ok [cpu]) (toUInt64_eq_ofNat n)

/-- With a dash the text is read as two numbers. -/
theorem readCPU_range {text : Bytes} (absent : 45 ∉ text) (rest : Bytes) :
    readCPU (text ++ 45 :: rest) = (parseUint text).bind fun n =>
      (parseUint rest).map fun m => cpusBetween n.toNat m.toNat := by
  -- The text is cut at the dash, and both parts are read before anything is counted.
  rw [readCPU, splitTwo_append absent]
  show (do
    let first ← parseUint text
    let last ← parseUint rest
    return countTo last first.toUInt64) = _
  cases parseUint text with
  | error failure => rfl
  | ok n =>
    cases parseUint rest with
    | error failure => rfl
    | ok m =>
      have counts := countTo_eq m n.toUInt64
      rw [UInt32.toNat_toUInt64] at counts
      exact congrArg Except.ok counts

/-- The CPUs of one range are read exactly from an item. -/
theorem readCPU_ok_iff (text : Bytes) (cpus : List UInt64) :
    readCPU text = .ok cpus ↔ CpuItem text cpus := by
  constructor
  · intro reads
    rcases splitTwo_cases 45 text with ⟨absent, -⟩ | ⟨front, rest, absent, rfl, -⟩
    · rw [readCPU_single absent] at reads
      cases number : parseUint text with
      | error failure => exact absurd reads (by simp [number, Except.map])
      | ok n =>
        obtain rfl : [UInt64.ofNat n.toNat] = cpus := by simpa [number, Except.map] using reads
        exact .single ((parseUint_ok_iff text n).mp number) n.toNat_lt
    · rw [readCPU_range absent] at reads
      cases first : parseUint front with
      | error failure => exact absurd reads (by simp [first, Except.bind])
      | ok n =>
        cases last : parseUint rest with
        | error failure => exact absurd reads (by simp [first, last, Except.bind, Except.map])
        | ok m =>
          obtain rfl : cpusBetween n.toNat m.toNat = cpus := by
            simpa [first, last, Except.bind, Except.map] using reads
          exact .range ((parseUint_ok_iff front n).mp first) n.toNat_lt
            ((parseUint_ok_iff rest m).mp last) m.toNat_lt
  · intro item
    -- A number has no dash, so the text is split where the item says.
    cases item with
    | single number small =>
      rw [readCPU_single (number.not_mem (by decide)), parseUint_decimal number small]
      simp only [Except.map]
      rw [UInt32.toNat_ofNat_of_lt' (by simp only [UInt32.size]; omega)]
    | range first small last small' =>
      rw [readCPU_range (first.not_mem (by decide)), parseUint_decimal first small,
        parseUint_decimal last small']
      simp only [Except.bind, Except.map]
      rw [UInt32.toNat_ofNat_of_lt' (by simp only [UInt32.size]; omega),
        UInt32.toNat_ofNat_of_lt' (by simp only [UInt32.size]; omega)]

/-- The bytes of an item are digits, up to a dash behind the first of them. -/
theorem CpuItem.bytes {text : Bytes} {cpus : List UInt64} (item : CpuItem text cpus) :
    text ≠ [] ∧ ∀ byte ∈ text, byte.toNat = 45 ∨ 48 ≤ byte.toNat ∧ byte.toNat ≤ 57 := by
  -- The numbers are digits, and between two of them there is a dash.
  cases item with
  | single number small =>
    exact ⟨number.digits.1, fun byte inside => .inr (number.digits.2 byte inside)⟩
  | range first small last small' =>
    refine ⟨by simp, fun byte inside => ?_⟩
    rcases List.mem_append.mp inside with inside | inside
    · exact .inr (first.digits.2 byte inside)
    · rcases List.mem_cons.mp inside with rfl | inside
      · exact .inl (by decide)
      · exact .inr (last.digits.2 byte inside)

/-- An item has no comma. -/
theorem CpuItem.no_comma {text : Bytes} {cpus : List UInt64} (item : CpuItem text cpus) :
    44 ∉ text := by
  -- A comma is neither a dash nor a digit.
  intro inside
  have comma : (44 : UInt8).toNat = 44 := by decide
  rcases item.bytes.2 44 inside with dash | digit <;> omega

/-- The loop over the ranges goes through exactly where each of them is an item. -/
theorem readCPUs_ok_iff (parts : List Bytes) (before all : List UInt64) :
    readCPUs before parts = .ok all ↔
      ∃ items, List.Forall₂ CpuItem parts items ∧ all = before ++ items.flatten := by
  -- The induction is on the parts, whose CPUs go behind those of the parts before.
  induction parts generalizing before with
  | nil => simp [readCPUs, eq_comm]
  | cons part parts ih =>
    constructor
    · intro reads
      rw [readCPUs] at reads
      cases one : readCPU part with
      | error failure => exact absurd reads (by simp [one, Bind.bind, Except.bind])
      | ok more =>
        have rest : readCPUs (before ++ more) parts = .ok all := by
          simpa [one, Bind.bind, Except.bind] using reads
        obtain ⟨items, accepted, rfl⟩ := (ih (before ++ more)).mp rest
        exact ⟨more :: items, .cons ((readCPU_ok_iff part more).mp one) accepted, by simp⟩
    · intro accepted
      obtain ⟨items, accepted, rfl⟩ := accepted
      cases accepted with
      | cons item accepted =>
        rename_i more items
        rw [readCPUs, (readCPU_ok_iff part more).mpr item]
        apply (ih (before ++ more)).mpr
        exact ⟨items, accepted, by rw [List.flatten_cons, List.append_assoc]⟩

/-- The commas of a list of items are where it is split. -/
theorem cpuItems_iff (text : Bytes) (cpus : List UInt64) :
    CpuItems text cpus ↔
      ∃ items, List.Forall₂ CpuItem (text.splitOn 44) items ∧ cpus = items.flatten := by
  constructor
  · intro list
    induction list with
    | one item =>
      rename_i text cpus
      rw [List.splitOn_eq_singleton item.no_comma]
      exact ⟨[cpus], .cons item .nil, by simp⟩
    | more item list ih =>
      rename_i text rest cpus others
      obtain ⟨items, accepted, rfl⟩ := ih
      rw [List.splitOn_append_cons_self_of_not_mem item.no_comma]
      exact ⟨cpus :: items, .cons item accepted, rfl⟩
  · -- The parts make the text again, with the commas between them.
    have joined : ∀ (parts : List Bytes) (items : List (List UInt64)), parts ≠ [] →
        List.Forall₂ CpuItem parts items →
        CpuItems ([44].intercalate parts) items.flatten := by
      intro parts items nonempty accepted
      induction accepted with
      | nil => exact absurd rfl nonempty
      | cons item accepted ih =>
        rename_i part cpus parts items
        cases parts with
        | nil =>
          cases accepted
          simpa [List.intercalate] using CpuItems.one item
        | cons second parts =>
          have rest := CpuItems.more item (ih (by simp))
          simpa [List.intercalate] using rest
    intro accepted
    obtain ⟨items, accepted, rfl⟩ := accepted
    have list := joined _ items (List.splitOn_ne_nil 44 text) accepted
    rwa [List.intercalate_splitOn] at list

/-- Items are not empty and have no blanks. -/
theorem CpuItems.bytes {text : Bytes} {cpus : List UInt64} (list : CpuItems text cpus) :
    text ≠ [] ∧ ∀ byte ∈ text, isBlank byte = false := by
  -- Items have no blanks, and neither is a comma one.
  have solid : ∀ {text : Bytes} {cpus : List UInt64}, CpuItem text cpus →
      ∀ byte ∈ text, isBlank byte = false := by
    intro text cpus item byte inside
    have kinds := item.bytes.2 byte inside
    rw [isBlank, decide_eq_false_iff_not]
    intro blank
    rcases blank with rfl | rfl
    · exact absurd kinds (by decide)
    · exact absurd kinds (by decide)
  induction list with
  | one item => exact ⟨item.bytes.1, solid item⟩
  | more item list ih =>
    refine ⟨by simp, fun byte inside => ?_⟩
    rcases List.mem_append.mp inside with inside | inside
    · exact solid item byte inside
    · rcases List.mem_cons.mp inside with rfl | inside
      · decide
      · exact ih.2 byte inside

/-- What is trimmed off at both ends is in the set. -/
theorem trim_spec (s : Bytes) (cutset : UInt8 → Bool) :
    ∃ front back, s = front ++ trim s cutset ++ back ∧ ∀ byte ∈ front ++ back, cutset byte := by
  -- The back is what the reversed text loses, reversed again.
  let rest := s.dropWhile cutset
  have left : s.takeWhile cutset ++ rest = s := List.takeWhile_append_dropWhile
  have right : trim s cutset ++ (rest.reverse.takeWhile cutset).reverse = rest := by
    rw [trim, ← List.reverse_append, List.takeWhile_append_dropWhile, List.reverse_reverse]
  refine ⟨s.takeWhile cutset, (rest.reverse.takeWhile cutset).reverse, ?_, ?_⟩
  · rw [List.append_assoc, right, left]
  · intro byte inside
    rcases List.mem_append.mp inside with inside | inside
    · exact List.mem_takeWhile_imp inside
    · exact List.mem_takeWhile_imp (List.mem_reverse.mp inside)

/-- A text without bytes of the set is what is left when they are put around it. -/
theorem trim_append {text front back : Bytes} {cutset : UInt8 → Bool}
    (solid : ∀ byte ∈ text, cutset byte = false)
    (around : ∀ byte ∈ front ++ back, cutset byte) :
    trim (front ++ text ++ back) cutset = text := by
  -- Each of the two passes stops at the text, or drops everything if there is none.
  have dropped : ∀ (text front back : Bytes), (∀ byte ∈ text, cutset byte = false) →
      (∀ byte ∈ front, cutset byte) → text ≠ [] →
      (front ++ (text ++ back)).dropWhile cutset = text ++ back := by
    intro text front back solid around nonempty
    rw [List.dropWhile_append_of_pos around]
    cases text with
    | nil => exact absurd rfl nonempty
    | cons byte text =>
      exact List.dropWhile_cons_of_neg (by simp [solid byte List.mem_cons_self])
  by_cases empty : text = []
  · subst empty
    rw [List.append_nil, trim, List.dropWhile_eq_nil_iff.mpr around]
    rfl
  · have ends : ∀ byte ∈ back.reverse, cutset byte := fun byte inside =>
      around byte (List.mem_append_right _ (List.mem_reverse.mp inside))
    have second := dropped text.reverse back.reverse []
      (fun byte inside => solid byte (List.mem_reverse.mp inside)) ends (by simpa using empty)
    rw [List.append_nil] at second
    rw [trim, List.append_assoc,
      dropped text front back solid (fun byte inside => around byte (by simp [inside])) empty,
      List.reverse_append, second, List.reverse_reverse]

/-- A list of items with newlines and spaces at its two ends, and the CPUs it stands for. -/
def CpuList (s : Bytes) (cpus : List UInt64) : Prop :=
  ∃ front list back, s = front ++ list ++ back ∧ (∀ byte ∈ front ++ back, isBlank byte) ∧
    CpuItems list cpus

/-- The reader succeeds exactly on the lists, with their CPUs. -/
theorem readCPURange_ok_iff (s : Bytes) (cpus : List UInt64) :
    readCPURange s = .ok cpus ↔ CpuList s cpus := by
  -- Blanks around the list are cut off first, and there are none inside it.
  have reads : readCPURange s = .ok cpus ↔ CpuItems (trim s isBlank) cpus := by
    rw [readCPURange, readCPUs_ok_iff, cpuItems_iff]
    simp
  rw [reads]
  constructor
  · intro list
    obtain ⟨front, back, whole, blank⟩ := trim_spec s isBlank
    exact ⟨front, trim s isBlank, back, whole, blank, list⟩
  · intro accepted
    obtain ⟨front, list, back, rfl, blank, items⟩ := accepted
    rwa [trim_append items.bytes.2 blank]

/-- A range of CPUs. -/
structure CpuRange where
  first : UInt32
  last : UInt32
  ordered : first ≤ last

/-- The CPUs of a range. -/
def CpuRange.cpus (range : CpuRange) : List UInt64 :=
  cpusBetween range.first.toNat range.last.toNat

/-- The decimal text of a number. -/
def formatUint (n : UInt32) : Bytes := (toString n.toNat).toUTF8.toList

/-- The text of a range; one of a single CPU can be written as its number alone. -/
def CpuRange.render (short : CpuRange → Bool) (range : CpuRange) : Bytes :=
  if short range ∧ range.first = range.last then formatUint range.first
  else formatUint range.first ++ 45 :: formatUint range.last

/-- The text of a range, and of more of them with commas between. -/
def renderRanges (short : CpuRange → Bool) (first : CpuRange) : List CpuRange → Bytes
  | [] => first.render short
  | second :: rest => first.render short ++ 44 :: renderRanges short second rest

/-- The text of a number consists of its digits. -/
theorem decimal_formatUint (n : UInt32) : Decimal (formatUint n) n.toNat := by
  -- What is written is the number in base ten.
  rw [decimal_iff, formatUint]
  exact parseDigits_repr n.toNat

/-- The text of a range is an item that stands for its CPUs. -/
theorem cpuItem_render (short : CpuRange → Bool) (range : CpuRange) :
    CpuItem (range.render short) range.cpus := by
  unfold CpuRange.render
  split
  · next single =>
    -- Between a number and itself there is the number only.
    have one : range.cpus = [UInt64.ofNat range.first.toNat] := by
      rw [CpuRange.cpus, cpusBetween, ← single.2, Nat.add_sub_cancel_left]
      rfl
    rw [one]
    exact .single (decimal_formatUint range.first) range.first.toNat_lt
  · exact .range (decimal_formatUint range.first) range.first.toNat_lt
      (decimal_formatUint range.last) range.last.toNat_lt

/-- The text of ranges is a list of items that stands for the CPUs of all of them. -/
theorem cpuItems_renderRanges (short : CpuRange → Bool) (first : CpuRange)
    (rest : List CpuRange) :
    CpuItems (renderRanges short first rest) ((first :: rest).flatMap CpuRange.cpus) := by
  -- The induction is on the ranges behind the first one.
  induction rest generalizing first with
  | nil =>
    rw [List.flatMap_cons, List.flatMap_nil, List.append_nil]
    exact .one (cpuItem_render short first)
  | cons second rest ih => exact .more (cpuItem_render short first) (ih second)

/-- The reader returns the CPUs of every list of the grammar, an error for every other text, and
from the text of ranges their CPUs. -/
theorem readCPURange_grammar :
    (∀ (s : Bytes) (cpus : List UInt64), readCPURange s = .ok cpus ↔ CpuList s cpus) ∧
    (∀ s : Bytes, (∃ failure, readCPURange s = .error failure) ↔ ¬ ∃ cpus, CpuList s cpus) ∧
    ∀ (short : CpuRange → Bool) (first : CpuRange) (rest : List CpuRange),
      readCPURange (renderRanges short first rest) =
        .ok ((first :: rest).flatMap CpuRange.cpus) := by
  -- The grammar decides what is accepted, and the text of ranges is in it.
  refine ⟨readCPURange_ok_iff, fun s => ?_, fun short first rest => ?_⟩
  · simp only [← readCPURange_ok_iff]
    cases readCPURange s <;> simp
  · rw [readCPURange_ok_iff]
    exact ⟨[], renderRanges short first rest, [], by simp, by simp,
      cpuItems_renderRanges short first rest⟩

/-- The ranges that are written as `0-2,5,7-7` are read back as their CPUs. -/
theorem readCPURange_grammar_ranges :
    renderRanges (fun range => range.first = 5) ⟨0, 2, by decide⟩
        [⟨5, 5, by decide⟩, ⟨7, 7, by decide⟩] = [48, 45, 50, 44, 53, 44, 55, 45, 55] ∧
      readCPURange [48, 45, 50, 44, 53, 44, 55, 45, 55] = .ok [0, 1, 2, 5, 7] := by
  -- Only the second range is written as a number alone.
  have text : renderRanges (fun range => range.first = 5) ⟨0, 2, by decide⟩
      [⟨5, 5, by decide⟩, ⟨7, 7, by decide⟩] = [48, 45, 50, 44, 53, 44, 55, 45, 55] := by
    decide +kernel
  refine ⟨text, ?_⟩
  rw [← text, readCPURange_grammar.2.2]
  rfl

end Spycat
