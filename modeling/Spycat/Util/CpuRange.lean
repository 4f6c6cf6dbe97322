import Mathlib.Algebra.Ring.Nat
import Spycat.Util.Trie

/-! The list of CPUs that the kernel writes, as ranges of their numbers. -/

namespace Spycat

/-- Why a text is not a number. -/
inductive NumErrorKind where
  | errSyntax
  | errRange
  deriving DecidableEq, Repr

/-- The error of reading a number, with the text it was read from. -/
structure NumError where
  num : Bytes
  err : NumErrorKind
  deriving DecidableEq, Repr

/-- The loop over the digits of a number, with the value of those before. -/
def parseUintLoop (num : Bytes) (n : UInt32) : Bytes → Except NumError UInt32
  | [] => .ok n
  | c :: rest =>
    if 48 ≤ c.toNat ∧ c.toNat ≤ 57 then
      let n1 := 10 * n.toNat + (c.toNat - 48)
      if 2 ^ 32 ≤ n1 then .error ⟨num, .errRange⟩ else parseUintLoop num (UInt32.ofNat n1) rest
    else .error ⟨num, .errSyntax⟩

/-- The decimal number of 32 bits that a text stands for. -/
def parseUint (s : Bytes) : Except NumError UInt32 :=
  if s = [] then .error ⟨s, .errSyntax⟩ else parseUintLoop s 0 s

/-- The text without the bytes of a set at its two ends. -/
def trim (s : Bytes) (cutset : UInt8 → Bool) : Bytes :=
  ((s.dropWhile cutset).reverse.dropWhile cutset).reverse

/-- The text up to the first separator, and the text behind it if there is one. -/
def splitTwo (sep : UInt8) (s : Bytes) : Bytes × Option Bytes :=
  match s.dropWhile (· ≠ sep) with
  | [] => (s, none)
  | _ :: rest => (s.takeWhile (· ≠ sep), some rest)

/-- A 64-bit counter that has not passed a 32-bit number does not overflow. -/
theorem toNat_counted {last : UInt32} {n : UInt64} (within : n ≤ last.toUInt64) :
    n.toNat ≤ last.toNat ∧ (n + 1).toNat = n.toNat + 1 := by
  -- The counter has 64 bits and the bound 32, so one more does not wrap.
  have bound : n.toNat ≤ last.toNat := by simpa [UInt64.le_iff_toNat_le] using within
  have small := last.toNat_lt
  refine ⟨bound, ?_⟩
  rw [UInt64.toNat_add]
  exact Nat.mod_eq_of_lt (by simp; omega)

/-- The numbers from one on up to a last one, which a 64-bit counter goes through. -/
def countTo (last : UInt32) (n : UInt64) : List UInt64 :=
  if n ≤ last.toUInt64 then n :: countTo last (n + 1) else []
termination_by 2 ^ 32 - n.toNat
decreasing_by
  -- The counter comes closer to the end of the 32-bit numbers.
  obtain ⟨bound, next⟩ := toNat_counted ‹n ≤ last.toUInt64›
  have small := last.toNat_lt
  omega

/-- The CPUs of one range, which is a number or two of them with a dash between. -/
def readCPU (cpuRange : Bytes) : Except NumError (List UInt64) := do
  let rangeOp := splitTwo 45 cpuRange
  let first ← parseUint rangeOp.1
  match rangeOp.2 with
  | none => return [first.toUInt64]
  | some second =>
    let last ← parseUint second
    return countTo last first.toUInt64

/-- The loop over the ranges, with the CPUs of those before. -/
def readCPUs (cpus : List UInt64) : List Bytes → Except NumError (List UInt64)
  | [] => .ok cpus
  | cpuRange :: rest => do
    let more ← readCPU cpuRange
    readCPUs (cpus ++ more) rest

/-- Whether a byte is a newline or a space. -/
def isBlank (byte : UInt8) : Bool := byte = 10 ∨ byte = 32

/-- The CPUs of a comma-separated list of ranges. -/
def readCPURange (cpuRangeStr : Bytes) : Except NumError (List UInt64) :=
  readCPUs [] ((trim cpuRangeStr isBlank).splitOn 44)

end Spycat
