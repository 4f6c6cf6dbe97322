import Spycat.Lib.LittleEndian
import Spycat.Util.Trie

/-! Turning a recorded stack into a line of symbol names. -/

namespace Spycat

open Lib

/-- What is known about an address; the name and the module are empty where nothing is. -/
structure Symbol where
  name : Bytes
  module : Bytes
  offset : UInt64

/-- The symbol of an address in a process, as the symbol tables of the machine have it. -/
abbrev BccResolve := UInt32 → UInt64 → Int → Symbol

/-- How many addresses a recorded stack has room for. -/
def perfMaxStackDepth : Nat := 127

/-- A number in hexadecimal digits. -/
def formatHex (value : Nat) : Bytes :=
  -- The digits are the lower case ones.
  (String.ofList (Nat.toDigits 16 value)).toUTF8.toList

/-- What a frame contributes to a line; a kernel frame without a name contributes nothing. -/
def frameName (sym : Symbol) (userspace : Bool) : Option Bytes :=
  -- Kernel frames without a name are skipped before any name is made up for them.
  if userspace = false ∧ sym.name = [] then none
  -- A frame of a known module is named by its place in the module.
  else if sym.name = [] ∧ sym.module ≠ [] then
    some (sym.module ++ "+0x".toUTF8.toList ++ formatHex sym.offset.toNat ++ [59])
  -- Nothing is known about the frame.
  else if sym.name = [] then some ("[unknown]".toUTF8.toList ++ [59])
  else some (sym.name ++ [59])

/-- The frames from one on, up to the first zero address; absent where the stack ends early. -/
def stackFrames (resolve : BccResolve) (roundNumber : Int) (pid : UInt32) (userspace : Bool) :
    Nat → Bytes → Option (List Bytes)
  | 0, _ => some []
  | left + 1, stack =>
    -- Slicing past the end of the stack panics.
    if stack.length < 8 then none
    else
      let ip := UInt64.ofNat (leNat (stack.take 8))
      if ip = 0 then some []
      else
        (stackFrames resolve roundNumber pid userspace left (stack.drop 8)).map fun frames =>
          -- A skipped frame leaves no trace in the line.
          (frameName (resolve pid ip roundNumber) userspace).toList ++ frames

/-- The line with a stack's frames behind it, outermost first; absent where the source panics. -/
def walkStack (resolve : BccResolve) (roundNumber : Int) (line stack : Bytes) (pid : UInt32)
    (userspace : Bool) : Option Bytes :=
  -- A stack that could not be read leaves the line alone.
  if stack.length = 0 then some line
  else
    (stackFrames resolve roundNumber pid userspace perfMaxStackDepth stack).map fun frames =>
      line ++ frames.reverse.flatten

end Spycat
