import Spycat.Lib.Assoc
import Spycat.Lib.Layout
import Spycat.Symtab.WalkStack

/-! What the sessions of tracers do with the stacks that their kernel programs recorded. -/

namespace Spycat

open Lib

/-- How many bytes a recorded stack has. -/
def stackValueSize : Nat := perfMaxStackDepth * 8

/-- The recorded stacks, and what names their frames. -/
structure StackSession where
  resolve : BccResolve
  roundNumber : Int
  mapStacks : Assoc UInt32 (CharArray stackValueSize)

/-- What is written between the kernel's and the user's frames. -/
def stackSeparator : Bytes := "----".toUTF8.toList

namespace StackSession

/-- The stack of a number; absent where it is negative or not recorded. -/
def getStack (session : StackSession) (stackId : Int32) : Option Bytes :=
  if stackId < 0 then none
  else (session.mapStacks.lookup stackId.toUInt32).map fun stack => stack.toList

/-- Write the frames of a stack behind a text; absent where the source panics. -/
def resolveStack (session : StackSession) (syms : Bytes) (stackId : Int32) (pid : UInt32)
    (userspace : Bool) : Option Bytes :=
  match session.getStack stackId with
  -- The callers go on with the text they have.
  | none => some syms
  | some stack => walkStack session.resolve session.roundNumber syms stack pid userspace

/-- The frames of the kernel's stack and behind them those of the user's stack of a process. -/
def resolveStacks (session : StackSession) (kernStackId userStackId : Int32) (pid : UInt32) :
    Option Bytes :=
  -- The numbers of the kernel's frames belong to no process.
  (session.resolveStack [] kernStackId 0 false).bind fun syms =>
    session.resolveStack (syms ++ stackSeparator) userStackId pid true

/-- The text of a stack, empty where there is none. -/
def framesText (session : StackSession) (stackId : Int32) (pid : UInt32) (userspace : Bool) :
    Bytes :=
  (((session.getStack stackId).bind fun stack =>
    stackFrames session.resolve session.roundNumber pid userspace perfMaxStackDepth stack).map
      fun frames => frames.reverse.flatten).getD []

/-- The text of the kernel's stack, and of the user's stack behind it. -/
def stackText (session : StackSession) (kernStackId userStackId : Int32) (pid : UInt32) : Bytes :=
  session.framesText kernStackId 0 false ++ stackSeparator ++
    session.framesText userStackId pid true

end StackSession

/-- A stack that has room for so many frames can be walked that far. -/
theorem stackFrames_total (resolve : BccResolve) (roundNumber : Int) (pid : UInt32)
    (userspace : Bool) {left : Nat} {stack : Bytes} (long : left * 8 ≤ stack.length) :
    ∃ frames, stackFrames resolve roundNumber pid userspace left stack = some frames := by
  -- Every frame takes eight bytes off the stack.
  induction left generalizing stack with
  | zero => exact ⟨[], rfl⟩
  | succ left ih =>
    have enough : ¬ stack.length < 8 := by omega
    have rest : left * 8 ≤ (stack.drop 8).length := by
      rw [List.length_drop]
      omega
    obtain ⟨frames, walked⟩ := ih rest
    simp only [stackFrames, enough, if_false]
    split
    · exact ⟨[], rfl⟩
    · exact ⟨_, by rw [walked]; rfl⟩

namespace StackSession

variable (session : StackSession)

/-- The frames of a recorded stack are written behind the text, and the walk never panics. -/
theorem resolveStack_eq (syms : Bytes) (stackId : Int32) (pid : UInt32) (userspace : Bool) :
    session.resolveStack syms stackId pid userspace =
      some (syms ++ session.framesText stackId pid userspace) := by
  -- A recorded stack always has all its bytes.
  unfold resolveStack framesText
  cases recorded : session.getStack stackId with
  | none => simp
  | some stack =>
    have long : stack.length = stackValueSize := by
      simp only [getStack] at recorded
      split at recorded
      · cases recorded
      · obtain ⟨array, _, rfl⟩ := Option.map_eq_some_iff.mp recorded
        exact array.length_toList
    have whole : perfMaxStackDepth * 8 ≤ stack.length := long.ge
    obtain ⟨frames, walked⟩ := stackFrames_total session.resolve session.roundNumber pid userspace
      whole
    have filled : stack.length ≠ 0 := by
      rw [long]
      decide
    simp [walkStack, filled, walked]

/-- The text of two stacks. -/
theorem resolveStacks_eq (kernStackId userStackId : Int32) (pid : UInt32) :
    session.resolveStacks kernStackId userStackId pid =
      some (session.stackText kernStackId userStackId pid) := by
  -- Both walks write behind the text that they are given.
  simp [resolveStacks, stackText, resolveStack_eq]

end StackSession

end Spycat
