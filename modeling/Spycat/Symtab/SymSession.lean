import Spycat.Lib.ReverseInPlace
import Spycat.Symtab.SymbolCache

/-! The session that names the frames of stacks, and its walk over one of them. -/

namespace Spycat

open Lib

/-- The bytes of a string between two indices; absent where the source panics. -/
def slice (b : Bytes) (low high : Nat) : Option Bytes :=
  if low ≤ high ∧ high ≤ b.length then some ((b.drop low).take (high - low)) else none

/-- Anything that names addresses, and changes as it does. -/
abbrev Resolver (σ : Type) := σ → UInt32 → UInt64 → Int → σ × Symbol

section Walk

variable {σ : Type}

/-- The loop over the frames of a stack, with those that were collected. -/
def walkFrames (resolve : Resolver σ) (roundNumber : Int) (stack : Bytes) (pid : UInt32)
    (userspace : Bool) (i : Nat) (cache : σ) (stackFrames : Array Bytes) :
    Option (σ × Array Bytes) :=
  if i < perfMaxStackDepth then
    match slice stack (i * 8) (i * 8 + 8) with
    | none => none
    | some it =>
      let ip := UInt64.ofNat (leNat it)
      if ip = 0 then some (cache, stackFrames)
      else
        let (cache, sym) := resolve cache pid ip roundNumber
        -- A frame of the kernel without a name is left out.
        if !userspace ∧ sym.name = [] then
          walkFrames resolve roundNumber stack pid userspace (i + 1) cache stackFrames
        else
          let name :=
            if sym.name = [] then
              if sym.module ≠ [] then
                sym.module ++ "+0x".toUTF8.toList ++ formatHex sym.offset.toNat
              else "[unknown]".toUTF8.toList
            else sym.name
          walkFrames resolve roundNumber stack pid userspace (i + 1) cache
            (stackFrames.push (name ++ [59]))
  else some (cache, stackFrames)
termination_by perfMaxStackDepth - i

/-- Write the frames of a stack behind a line, outermost first; absent where the source panics. -/
def writeStack (resolve : Resolver σ) (roundNumber : Int) (cache : σ) (line stack : Bytes)
    (pid : UInt32) (userspace : Bool) : Option (σ × Bytes) :=
  if stack.length = 0 then some (cache, line)
  else do
    let (cache, stackFrames) ←
      walkFrames resolve roundNumber stack pid userspace 0 cache #[]
    let stackFrames ← reverseInPlace stackFrames
    return (cache, stackFrames.foldl (fun line s => line ++ s) line)

end Walk

/-- A session: its cache of symbol tables, and the round it is in. -/
structure SymSession (lru : Lru UInt32 Nat) where
  symCache : SymbolCache lru
  roundNumber : Int
  cacheSize : Int

namespace SymSession

variable {lru : Lru UInt32 Nat}

/-- A session with a cache of a size, absent where the source returns an error. -/
def new (lru : Lru UInt32 Nat) (cacheSize : Int) : Option (SymSession lru) :=
  (SymbolCache.new lru cacheSize).map fun symCache =>
    { symCache := symCache, roundNumber := 10, cacheSize := cacheSize }

/-- Write the frames of a stack behind a line; absent where the source panics. -/
def walkStack (env : SymtabEnv) (s : SymSession lru) (line stack : Bytes) (pid : UInt32)
    (userspace : Bool) : Option (SymSession lru × Bytes) :=
  (writeStack (fun sc pid ip roundNumber => sc.bccResolve env pid ip roundNumber) s.roundNumber
    s.symCache line stack pid userspace).map fun written =>
      ({ s with symCache := written.1 }, written.2)

end SymSession

end Spycat
