import Mathlib.Algebra.Ring.Nat
import Spycat.Util.Trie

/-! Whether the kernel has a function that a probe can be attached to, as its own lists say. -/

namespace Spycat

/-- How many bytes a scanner holds: a line and the newline behind it. -/
def maxScanTokenSize : Nat := 64 * 1024

/-- A line without the carriage return at its end. -/
def dropCR (line : Bytes) : Bytes := if line.getLast? = some 13 then line.dropLast else line

/-- The lines that a scanner finds in a text; it stops at the first one that is too long. -/
def scanLines (text : Bytes) : List Bytes :=
  let pieces := text.splitOn 10
  -- There is no line behind the last newline.
  let lines := if pieces.getLast? = some [] then pieces.dropLast else pieces
  (lines.takeWhile (·.length < maxScanTokenSize)).map dropCR

/-- The functions that must not be probed; absent where the file cannot be opened. -/
def readKprobeBlacklist (file : Option Bytes) : Option (List Bytes) :=
  file.map fun text => (scanLines text).filterMap fun line =>
    match line.splitOn 32 with
    | [_, second] => some second
    | _ => none

/-- The kernel lists a symbol of a name. -/
def checkKallsyms (file : Option Bytes) (name : Bytes) : Bool :=
  match file with
  | none => false
  | some text => (scanLines text).any fun line =>
    match line.splitOn 32 with
    | _ :: _ :: third :: _ => third = name
    | _ => false

/-- A probe can be attached to a function; a list of forbidden ones that is missing is empty. -/
def kprobeExists (blacklist kallsyms : Option Bytes) (name : Bytes) : Bool :=
  match readKprobeBlacklist blacklist with
  | none => checkKallsyms kallsyms name
  | some names => if names.any (· = name) then false else checkKallsyms kallsyms name

end Spycat
