import Mathlib.Tactic.Ring

/-! Unsigned integers written seven bits at a time, lowest first, and read back. -/

namespace Spycat.Lib

/-- Shifting seven bits out divides by their number of values. -/
theorem toNat_shiftRight_seven (x : UInt64) : (x >>> 7).toNat = x.toNat / 128 := by
  -- A shift is a division by a power of two.
  rw [UInt64.toNat_shiftRight, Nat.shiftRight_eq_div_pow]
  rfl

/-- Every byte but the last carries the continuation bit. -/
def putUvarint (x : UInt64) : List UInt8 :=
  if x < 0x80 then [x.toUInt8] else (x.toUInt8 ||| 0x80) :: putUvarint (x >>> 7)
termination_by x.toNat
decreasing_by
  rename_i large
  have bound : 128 ≤ x.toNat := Nat.not_lt.mp large
  rw [toNat_shiftRight_seven]
  omega

/-- Why an unsigned integer could not be read. -/
inductive ReadError where
  /-- The input was already at its end. -/
  | eof
  /-- The input ended inside the integer. -/
  | unexpectedEof
  /-- The integer does not fit into 64 bits. -/
  | overflow
  deriving DecidableEq, Repr

/-- The bytes an integer below 2^64 can take at most. -/
def maxVarintLen64 : Nat := 10

/--
Read up to `left` more bytes onto the bits gathered so far.

The value gathered is returned with every error, and so is the input that is left.
-/
def readUvarintLoop : Nat → UInt64 → UInt64 → List UInt8 → UInt64 × Option ReadError × List UInt8
  | 0, x, _, input => (x, some .overflow, input)
  | left + 1, x, _, [] =>
    (x, some (if left + 1 = maxVarintLen64 then .eof else .unexpectedEof), [])
  | left + 1, x, s, b :: rest =>
    if b < 0x80 then
      if left = 0 ∧ b > 1 then (x, some .overflow, rest)
      else (x ||| (b.toUInt64 <<< s), none, rest)
    else readUvarintLoop left (x ||| ((b &&& 0x7f).toUInt64 <<< s)) (s + 7) rest

/-- Read one unsigned integer from the front of the input. -/
def readUvarint (input : List UInt8) : UInt64 × Option ReadError × List UInt8 :=
  readUvarintLoop maxVarintLen64 0 0 input

/-- Reading never puts bytes back, and a successful read takes at least one. -/
theorem readUvarintLoop_rest (left : Nat) (x s : UInt64) (input : List UInt8) :
    (readUvarintLoop left x s input).2.2.length ≤ input.length ∧
      ((readUvarintLoop left x s input).2.1 = none →
        (readUvarintLoop left x s input).2.2.length < input.length) := by
  -- Every byte that is looked at is taken off the input.
  induction left generalizing x s input with
  | zero => simp [readUvarintLoop]
  | succ left ih =>
    cases input with
    | nil => simp [readUvarintLoop]
    | cons byte input =>
      rw [readUvarintLoop]
      split
      · split <;> simp
      · obtain ⟨kept, taken⟩ := ih (x ||| ((byte &&& 0x7f).toUInt64 <<< s)) (s + 7) input
        exact ⟨Nat.le_succ_of_le kept, fun read => Nat.lt_succ_of_lt (taken read)⟩

/-- Whatever a read reports, it leaves no more input than there was. -/
theorem readUvarint_keeps {input rest : List UInt8} {value : UInt64} {err : Option ReadError}
    (read : readUvarint input = (value, err, rest)) : rest.length ≤ input.length := by
  -- The loop is started with the whole input.
  have kept := (readUvarintLoop_rest maxVarintLen64 0 0 input).1
  rw [readUvarint] at read
  rw [read] at kept
  exact kept

/-- A successful read leaves less input than there was. -/
theorem readUvarint_shortens {input rest : List UInt8} {value : UInt64}
    (read : readUvarint input = (value, none, rest)) : rest.length < input.length := by
  -- The loop takes at least the byte that ends the integer.
  have taken := (readUvarintLoop_rest maxVarintLen64 0 0 input).2
  rw [readUvarint] at read
  rw [read] at taken
  exact taken rfl

/-- The low seven bits of a byte with the continuation bit set are those of the value. -/
theorem payload_toNat (x : UInt64) :
    ((x.toUInt8 ||| 0x80) &&& 0x7f).toUInt64.toNat = x.toNat % 128 := by
  -- Masking the continuation bit off leaves the remainder modulo 128.
  rw [UInt8.toNat_toUInt64, UInt8.toNat_and, UInt8.toNat_or, Nat.and_or_distrib_right,
    UInt64.toNat_toUInt8, show (0x7f : UInt8).toNat = 2 ^ 7 - 1 from rfl,
    Nat.and_two_pow_sub_one_eq_mod, Nat.and_two_pow_sub_one_eq_mod,
    show (0x80 : UInt8).toNat % 2 ^ 7 = 0 from rfl, Nat.or_zero]
  omega

/-- A byte with the continuation bit never ends the integer. -/
theorem continues (x : UInt64) : ¬ (x.toUInt8 ||| 0x80) < 0x80 := by
  -- The bit alone is as large as the bound.
  rw [UInt8.lt_iff_toNat_lt, UInt8.toNat_or, Nat.not_lt]
  exact Nat.right_le_or

/-- Bits placed above those gathered so far add up to the sum. -/
theorem gather_toNat (x bits s : UInt64) (shift : Nat) (at_ : s.toNat = shift) (small : shift < 64)
    (room : x.toNat < 2 ^ shift) (fits : bits.toNat * 2 ^ shift < 2 ^ 64) :
    (x ||| (bits <<< s)).toNat = x.toNat + bits.toNat * 2 ^ shift := by
  -- The new bits are above all old ones, so setting them is adding them.
  rw [UInt64.toNat_or, UInt64.toNat_shiftLeft, at_, Nat.mod_eq_of_lt small, Nat.shiftLeft_eq,
    Nat.mod_eq_of_lt fits, Nat.or_comm, Nat.mul_comm, ← Nat.two_pow_add_eq_or_of_lt room]
  omega

/-- Reading what was written continues the bits gathered so far. -/
theorem readUvarintLoop_putUvarint (left : Nat) (x s v : UInt64) (rest : List UInt8)
    (positive : 0 < left) (bounded : left ≤ maxVarintLen64)
    (at_ : s.toNat = 7 * (maxVarintLen64 - left)) (room : x.toNat < 2 ^ s.toNat)
    (fits : v.toNat * 2 ^ s.toNat < 2 ^ 64) :
    readUvarintLoop left x s (putUvarint v ++ rest) =
      (UInt64.ofNat (x.toNat + v.toNat * 2 ^ s.toNat), none, rest) := by
  -- Each byte read moves seven bits from the value into the bits gathered.
  induction left generalizing x s v with
  | zero => omega
  | succ left ih =>
    have small : s.toNat < 64 := by simp only [maxVarintLen64] at at_; omega
    rw [putUvarint]
    split
    · rename_i low
      have lowNat : v.toNat < 128 := low
      have exact_ : v.toUInt8.toUInt64 = v := by
        apply UInt64.toNat_inj.mp
        rw [UInt8.toNat_toUInt64, UInt64.toNat_toUInt8]
        omega
      have last : v.toUInt8 < 0x80 := by
        rw [UInt8.lt_iff_toNat_lt, UInt64.toNat_toUInt8]
        simp only [UInt8.reduceToNat]
        omega
      -- The tenth byte has one bit of room, and the bound on the value leaves it only that.
      have noOverflow : ¬ (left = 0 ∧ v.toUInt8 > 1) := by
        intro overflow
        obtain ⟨rfl, big⟩ := overflow
        have shift : s.toNat = 63 := by simpa [maxVarintLen64] using at_
        rw [shift] at fits
        rw [gt_iff_lt, UInt8.lt_iff_toNat_lt, UInt64.toNat_toUInt8] at big
        simp only [UInt8.reduceToNat] at big
        omega
      simp only [List.cons_append, List.nil_append, readUvarintLoop, if_pos last, if_neg noOverflow,
        exact_]
      rw [← gather_toNat x v s s.toNat rfl small room fits, UInt64.ofNat_toNat]
    · rename_i high
      have highNat : 128 ≤ v.toNat := Nat.not_lt.mp high
      simp only [List.cons_append, readUvarintLoop, if_neg (continues v)]
      have payload := payload_toNat v
      have lowFits : ((v.toUInt8 ||| 0x80) &&& 0x7f).toUInt64.toNat * 2 ^ s.toNat < 2 ^ 64 := by
        rw [payload]
        exact Nat.lt_of_le_of_lt (Nat.mul_le_mul_right _ (Nat.mod_le _ _)) fits
      have gathered := gather_toNat x _ s s.toNat rfl small room lowFits
      -- A value of more than seven bits still fits, so the shift stays below the word.
      have shallow : s.toNat + 7 < 64 := by
        by_contra deep
        have power : 2 ^ 57 ≤ 2 ^ s.toNat := Nat.pow_le_pow_right (by decide) (by omega)
        have large : 128 * 2 ^ 57 ≤ v.toNat * 2 ^ s.toNat := Nat.mul_le_mul highNat power
        omega
      have next : (s + 7).toNat = s.toNat + 7 := by
        rw [UInt64.toNat_add]
        simp only [UInt64.reduceToNat]
        omega
      have split : v.toNat * 2 ^ s.toNat =
          v.toNat % 128 * 2 ^ s.toNat + v.toNat / 128 * 2 ^ (s.toNat + 7) := by
        rw [Nat.pow_add, show (2 : Nat) ^ 7 = 128 from rfl]
        calc v.toNat * 2 ^ s.toNat
            = (v.toNat % 128 + 128 * (v.toNat / 128)) * 2 ^ s.toNat := by rw [Nat.mod_add_div]
          _ = _ := by ring
      have leftPositive : 0 < left := by
        by_contra none_
        have shift : s.toNat = 63 := by
          simp only [maxVarintLen64] at at_
          omega
        omega
      rw [ih _ (s + 7) (v >>> 7) leftPositive (by omega)]
      · rw [gathered, payload, next, toNat_shiftRight_seven, split, Nat.add_assoc]
      · rw [next, at_]
        simp only [maxVarintLen64] at *
        omega
      · rw [gathered, payload, next, Nat.pow_add, show (2 : Nat) ^ 7 = 128 from rfl]
        have digit : v.toNat % 128 * 2 ^ s.toNat ≤ 127 * 2 ^ s.toNat :=
          Nat.mul_le_mul_right _ (by omega)
        omega
      · rw [next, toNat_shiftRight_seven]
        exact Nat.lt_of_le_of_lt (by omega) fits

/-- Reading an integer that was written gives it back and leaves the rest of the input. -/
theorem readUvarint_putUvarint (v : UInt64) (rest : List UInt8) :
    readUvarint (putUvarint v ++ rest) = (v, none, rest) := by
  -- Nothing is gathered yet, and every 64-bit value fits above no bits.
  have read := readUvarintLoop_putUvarint maxVarintLen64 0 0 v rest (by decide) (Nat.le_refl _)
    (by decide) (by decide) (by simpa using v.toNat_lt)
  simpa [readUvarint] using read

/-- Bytes of which the last one ends an integer and all others go on. -/
inductive Ended : List UInt8 → Prop
  | last (byte : UInt8) (ends : byte < 0x80) : Ended [byte]
  | more (byte : UInt8) (rest : List UInt8) (goes : ¬ byte < 0x80) (ended : Ended rest) :
      Ended (byte :: rest)

/-- The number that bytes spell seven bits at a time, the lowest ones first. -/
def uvarintValue : List UInt8 → Nat
  | [] => 0
  | byte :: rest => byte.toNat % 128 + 128 * uvarintValue rest

/-- Bytes that spell an integer below 2^64 in at most ten bytes. -/
structure Uvarint (v : UInt64) (bytes : List UInt8) : Prop where
  ended : Ended bytes
  short : bytes.length ≤ maxVarintLen64
  value : uvarintValue bytes = v.toNat

/-- The low seven bits of a byte are its remainder. -/
theorem lowBits_toNat (byte : UInt8) : (byte &&& 0x7f).toUInt64.toNat = byte.toNat % 128 := by
  -- Masking with all seven low bits set is taking the remainder.
  rw [UInt8.toNat_toUInt64, UInt8.toNat_and, show (0x7f : UInt8).toNat = 2 ^ 7 - 1 from rfl,
    Nat.and_two_pow_sub_one_eq_mod]

theorem Ended.ne_nil {bytes : List UInt8} (ended : Ended bytes) : bytes ≠ [] := by
  -- There is a last byte.
  cases ended <;> simp

/-- An input starts with at most `left` bytes that spell what is missing from a number. -/
def Spells (left base unit number : Nat) (input rest : List UInt8) : Prop :=
  ∃ bytes, Ended bytes ∧ bytes.length ≤ left ∧ base + uvarintValue bytes * unit = number ∧
    input = bytes ++ rest

section Spells

variable {left base unit number : Nat} {input rest : List UInt8}

/-- There is always a last byte, so no bytes spell nothing. -/
theorem not_spells_zero : ¬ Spells 0 base unit number input rest := by
  -- A number has at least one byte.
  intro spelled
  obtain ⟨bytes, ended, short, _⟩ := spelled
  exact ended.ne_nil (List.length_eq_zero_iff.mp (Nat.le_zero.mp short))

theorem not_spells_nil : ¬ Spells left base unit number [] rest := by
  -- A number has at least one byte.
  intro spelled
  obtain ⟨bytes, ended, _, _, empty⟩ := spelled
  exact ended.ne_nil (List.append_eq_nil_iff.mp empty.symm).1

/-- A byte that ends the integer is all of what is spelled. -/
theorem spells_last {byte : UInt8} (ends : byte < 0x80) :
    Spells (left + 1) base unit number (byte :: input) rest ↔
      base + byte.toNat * unit = number ∧ input = rest := by
  -- A byte below 128 is its own remainder.
  have low : byte.toNat % 128 = byte.toNat := Nat.mod_eq_of_lt ends
  constructor
  · intro spells
    obtain ⟨bytes, ended, _, value, split⟩ := spells
    cases ended with
    | last first _ =>
      obtain ⟨rfl, below⟩ := List.cons.inj split
      simp only [uvarintValue, low, Nat.mul_zero, Nat.add_zero] at value
      exact ⟨value, below⟩
    | more first others goes _ =>
      obtain ⟨rfl, _⟩ := List.cons.inj split
      exact absurd ends goes
  · intro stands
    obtain ⟨value, rfl⟩ := stands
    refine ⟨[byte], .last byte ends, by simp, ?_, rfl⟩
    simp only [uvarintValue, low, Nat.mul_zero, Nat.add_zero]
    exact value

/-- A byte that goes on leaves the others to spell what is above its bits. -/
theorem spells_more {byte : UInt8} (goes : ¬ byte < 0x80) :
    Spells (left + 1) base unit number (byte :: input) rest ↔
      Spells left (base + byte.toNat % 128 * unit) (128 * unit) number input rest := by
  -- What the byte spells is taken out of the sum.
  have reordered : ∀ high : Nat, base + (byte.toNat % 128 + 128 * high) * unit =
      base + byte.toNat % 128 * unit + high * (128 * unit) := by
    intro high
    ring
  constructor
  · intro spells
    obtain ⟨bytes, ended, short, value, split⟩ := spells
    cases ended with
    | last first ends =>
      obtain ⟨rfl, _⟩ := List.cons.inj split
      exact absurd ends goes
    | more first others _ ended =>
      obtain ⟨rfl, below⟩ := List.cons.inj split
      rw [uvarintValue, reordered] at value
      exact ⟨others, ended, Nat.le_of_succ_le_succ short, value, below⟩
  · intro spells
    obtain ⟨bytes, ended, short, value, rfl⟩ := spells
    refine ⟨byte :: bytes, .more byte bytes goes ended, Nat.succ_le_succ short, ?_, rfl⟩
    rw [uvarintValue, reordered, value]

end Spells

/-- Reading succeeds exactly on bytes that spell the rest of an integer onto the bits gathered. -/
theorem readUvarintLoop_iff (left : Nat) (x s : UInt64) (input rest : List UInt8) (v : UInt64)
    (bounded : left ≤ maxVarintLen64) (at_ : s.toNat = 7 * (maxVarintLen64 - left))
    (room : x.toNat < 2 ^ s.toNat) :
    readUvarintLoop left x s input = (v, none, rest) ↔
      Spells left x.toNat (2 ^ s.toNat) v.toNat input rest := by
  -- Each byte read takes its seven bits from what is missing to what is gathered.
  induction left generalizing x s input with
  | zero => simp [readUvarintLoop, not_spells_zero]
  | succ left ih =>
    cases input with
    | nil => simp [readUvarintLoop, not_spells_nil]
    | cons byte input =>
      have inside := v.toNat_lt
      have small : s.toNat < 64 := by simp only [maxVarintLen64] at at_; omega
      rw [readUvarintLoop]
      by_cases ends : byte < 0x80
      · have low : byte.toNat < 128 := ends
        rw [if_pos ends, spells_last ends]
        by_cases deep : left = 0 ∧ byte > 1
        · -- The tenth byte has room for one bit only.
          have shift : s.toNat = 63 := by
            simp only [maxVarintLen64] at at_
            omega
          have two : 2 ≤ byte.toNat := deep.2
          rw [if_pos deep, shift]
          constructor
          · intro read
            simp at read
          · intro both
            obtain ⟨spelled, _⟩ := both
            omega
        · have fits : byte.toUInt64.toNat * 2 ^ s.toNat < 2 ^ 64 := by
            rw [UInt8.toNat_toUInt64]
            by_cases last : left = 0
            · have shift : s.toNat = 63 := by
                simp only [maxVarintLen64] at at_
                omega
              have one : ¬ 1 < byte.toNat := fun big => deep ⟨last, big⟩
              rw [shift]
              omega
            · have shift : s.toNat ≤ 56 := by
                simp only [maxVarintLen64] at at_
                omega
              calc byte.toNat * 2 ^ s.toNat ≤ 127 * 2 ^ 56 :=
                    Nat.mul_le_mul (by omega) (Nat.pow_le_pow_right (by decide) shift)
                _ < 2 ^ 64 := by decide
          have gathered := gather_toNat x byte.toUInt64 s s.toNat rfl small room fits
          rw [UInt8.toNat_toUInt64] at gathered
          rw [if_neg deep, ← gathered, UInt64.toNat_inj]
          simp
      · rw [if_neg ends, spells_more ends]
        by_cases last : left = 0
        · subst last
          simp [readUvarintLoop, not_spells_zero]
        · have shift : s.toNat ≤ 56 := by
            simp only [maxVarintLen64] at at_
            omega
          have digit : byte.toNat % 128 * 2 ^ s.toNat ≤ 127 * 2 ^ s.toNat :=
            Nat.mul_le_mul_right _ (by omega)
          have fits : (byte &&& 0x7f).toUInt64.toNat * 2 ^ s.toNat < 2 ^ 64 := by
            rw [lowBits_toNat]
            calc byte.toNat % 128 * 2 ^ s.toNat ≤ 127 * 2 ^ 56 :=
                  Nat.mul_le_mul (by omega) (Nat.pow_le_pow_right (by decide) shift)
              _ < 2 ^ 64 := by decide
          have gathered := gather_toNat x _ s s.toNat rfl small room fits
          rw [lowBits_toNat] at gathered
          have next : (s + 7).toNat = s.toNat + 7 := by
            rw [UInt64.toNat_add]
            simp only [UInt64.reduceToNat]
            omega
          have power : 2 ^ (s.toNat + 7) = 128 * 2 ^ s.toNat := by
            rw [Nat.pow_add, show (2 : Nat) ^ 7 = 128 from rfl, Nat.mul_comm]
          have further : (s + 7).toNat = 7 * (maxVarintLen64 - left) := by
            rw [next, at_]
            simp only [maxVarintLen64] at *
            omega
          rw [ih _ (s + 7) _ (by omega) further (by rw [gathered, next, power]; omega), gathered,
            next, power]

/-- Reading an integer succeeds exactly on inputs that start with the bytes of one. -/
theorem readUvarint_iff (input rest : List UInt8) (v : UInt64) :
    readUvarint input = (v, none, rest) ↔ ∃ bytes, Uvarint v bytes ∧ input = bytes ++ rest := by
  -- Nothing is gathered yet, so the bytes spell the whole integer.
  have read := readUvarintLoop_iff maxVarintLen64 0 0 input rest v (Nat.le_refl _) (by decide)
    (by decide)
  rw [readUvarint, read]
  constructor
  · intro found
    obtain ⟨bytes, ended, short, value, split⟩ := found
    exact ⟨bytes, ⟨ended, short, by simpa using value⟩, split⟩
  · intro found
    obtain ⟨bytes, ⟨ended, short, value⟩, split⟩ := found
    exact ⟨bytes, ended, short, by simpa using value, split⟩

/-- Bytes that follow some of an integer end inside it, and never before it. -/
theorem readUvarintLoop_ne_eof {left : Nat} (later : left < maxVarintLen64) (x s : UInt64)
    (input : List UInt8) : (readUvarintLoop left x s input).2.1 ≠ some .eof := by
  -- The end of the input is told apart by whether a byte was read before it.
  induction left generalizing x s input with
  | zero => simp [readUvarintLoop]
  | succ left ih =>
    cases input with
    | nil =>
      rw [readUvarintLoop, if_neg (by omega)]
      simp
    | cons byte input =>
      rw [readUvarintLoop]
      split
      · split <;> simp
      · exact ih (by omega) _ _ input

/-- An integer whose last bytes are missing is not read, and what is there is not taken as none. -/
theorem readUvarint_cut {v : UInt64} {part missing : List UInt8}
    (split : putUvarint v = part ++ missing) (short : missing ≠ []) :
    ∃ err, (readUvarint part).2.1 = some err ∧ (part ≠ [] → err ≠ .eof) := by
  -- Were the part read, the whole would be read with the missing bytes left.
  cases read : (readUvarint part).2.1 with
  | none =>
    -- An integer read off the part would leave the missing bytes behind when all are read.
    obtain ⟨bytes, spelled, found⟩ :=
      (readUvarint_iff part (readUvarint part).2.2 (readUvarint part).1).mp
        (Prod.ext rfl (Prod.ext read rfl))
    have whole := readUvarint_putUvarint v []
    have longer := (readUvarint_iff (part ++ missing) ((readUvarint part).2.2 ++ missing)
      (readUvarint part).1).mpr ⟨bytes, spelled, by rw [← List.append_assoc, ← found]⟩
    rw [List.append_nil, split, longer] at whole
    have none_ := congrArg (·.2.2) whole
    exact absurd (List.append_eq_nil_iff.mp none_).2 short
  | some err =>
    refine ⟨err, rfl, ?_⟩
    rintro some_ rfl
    cases part with
    | nil => exact some_ rfl
    | cons byte part =>
      rw [readUvarint, maxVarintLen64, readUvarintLoop] at read
      split at read
      · split at read <;> simp at read
      · exact readUvarintLoop_ne_eof (by decide) _ _ part read

end Spycat.Lib
