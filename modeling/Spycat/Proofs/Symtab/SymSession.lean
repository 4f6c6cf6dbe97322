import Spycat.Ebpf.StackSession
import Spycat.Symtab.SymSession

/-! The line that a walk over a stack writes. -/

namespace Spycat

open Lib

variable {σ : Type}

/-- The addresses of a recorded stack: as many as it has room for, each in eight bytes. -/
def addressesOf (stack : CharArray stackValueSize) : List UInt64 :=
  (List.range perfMaxStackDepth).map fun i =>
    UInt64.ofNat (leNat ((stack.toList.drop (i * 8)).take 8))

/-- What is written for an address: its name, or in user space its place in its module or that it is
unknown; an address of the kernel without a name is left out. -/
def frameText (sym : Symbol) (userspace : Bool) : Option Bytes :=
  if sym.name ≠ [] then some (sym.name ++ ";".toUTF8.toList)
  else if userspace then
    if sym.module ≠ [] then
      some (sym.module ++ "+0x".toUTF8.toList ++ formatHex sym.offset.toNat ++ ";".toUTF8.toList)
    else some ("[unknown];".toUTF8.toList)
  else none

/-- The frame of an address is this text. -/
theorem frameName_eq (sym : Symbol) (userspace : Bool) :
    frameName sym userspace = frameText sym userspace := by
  -- The texts differ only in whether there is a name, and a module of user space.
  have semicolon : ";".toUTF8.toList = [59] := by decide +kernel
  have unknown : "[unknown];".toUTF8.toList = "[unknown]".toUTF8.toList ++ [59] := by
    decide +kernel
  unfold frameName frameText
  rw [semicolon, unknown]
  by_cases unnamed : sym.name = []
  · cases userspace with
    | false => simp [unnamed]
    | true => by_cases unplaced : sym.module = [] <;> simp [unnamed, unplaced]
  · simp [unnamed]

/-- Name addresses one after the other. -/
def resolveAll (resolve : Resolver σ) (roundNumber : Int) (pid : UInt32) :
    σ → List UInt64 → σ × List Symbol
  | cache, [] => (cache, [])
  | cache, ip :: rest =>
    let (cache, sym) := resolve cache pid ip roundNumber
    let (cache, syms) := resolveAll resolve roundNumber pid cache rest
    (cache, sym :: syms)

/-- The bytes of a slice that is within bounds. -/
theorem slice_eq {b : Bytes} {low width : Nat} (inside : low + width ≤ b.length) :
    slice b low (low + width) = some ((b.drop low).take width) := by
  -- Both bounds are inside.
  rw [slice, if_pos ⟨by omega, inside⟩, Nat.add_sub_cancel_left]

/-- One turn of the loop: a frame that has a name is collected, and any other one is left out. -/
theorem walkFrames_step (resolve : Resolver σ) (roundNumber : Int) {stack : Bytes} (pid : UInt32)
    (userspace : Bool) {i : Nat} (turn : i < perfMaxStackDepth)
    (inside : i * 8 + 8 ≤ stack.length) (cache : σ) (frames : Array Bytes) :
    walkFrames resolve roundNumber stack pid userspace i cache frames =
      let ip := UInt64.ofNat (leNat ((stack.drop (i * 8)).take 8))
      if ip = 0 then some (cache, frames)
      else
        walkFrames resolve roundNumber stack pid userspace (i + 1)
          (resolve cache pid ip roundNumber).1
          (frames ++ (frameName (resolve cache pid ip roundNumber).2 userspace).toList) := by
  rw [walkFrames, if_pos turn, slice_eq inside]
  simp only
  split
  · rfl
  · generalize resolve cache pid _ roundNumber = named
    obtain ⟨cache', sym⟩ := named
    -- The cases of a name are those of the frame.
    unfold frameName
    by_cases unnamed : sym.name = []
    · cases userspace with
      | false => simp [unnamed]
      | true => by_cases unplaced : sym.module = [] <;> simp [unnamed, unplaced]
    · simp [unnamed]

/-- The loop stops behind the last frame that there is room for. -/
theorem walkFrames_end (resolve : Resolver σ) (roundNumber : Int) (stack : Bytes) (pid : UInt32)
    (userspace : Bool) {i : Nat} (behind : perfMaxStackDepth ≤ i) (cache : σ)
    (frames : Array Bytes) :
    walkFrames resolve roundNumber stack pid userspace i cache frames = some (cache, frames) := by
  -- The loop is bounded by the depth of a stack.
  rw [walkFrames, if_neg (by omega)]

/-- The addresses of a stack that the loop has not come to yet. -/
theorem drop_addressesOf (stack : CharArray stackValueSize) {i : Nat}
    (turn : i < perfMaxStackDepth) :
    (addressesOf stack).drop i =
      UInt64.ofNat (leNat ((stack.toList.drop (i * 8)).take 8)) ::
        (addressesOf stack).drop (i + 1) := by
  -- The next address is the next eight bytes.
  have inside : i < (addressesOf stack).length := by simpa [addressesOf] using turn
  rw [List.drop_eq_getElem_cons inside]
  simp [addressesOf]

/-- The frames that are collected for addresses. -/
def namesOf (syms : List Symbol) (userspace : Bool) : List Bytes :=
  syms.filterMap fun sym => frameText sym userspace

/-- The loop names the addresses up to the first zero, and collects their frames in order. -/
theorem walkFrames_eq (resolve : Resolver σ) (roundNumber : Int) (stack : CharArray stackValueSize)
    (pid : UInt32) (userspace : Bool) {i : Nat} (within : i ≤ perfMaxStackDepth) (cache : σ)
    (frames : Array Bytes) :
    walkFrames resolve roundNumber stack.toList pid userspace i cache frames =
      let named := resolveAll resolve roundNumber pid cache
        (((addressesOf stack).drop i).takeWhile (· ≠ 0))
      some (named.1, frames ++ namesOf named.2 userspace) := by
  -- The induction is on the frames that are left.
  generalize left : perfMaxStackDepth - i = n
  induction n generalizing i cache frames with
  | zero =>
    have full : (addressesOf stack).length ≤ i := by simp [addressesOf]; omega
    rw [walkFrames_end _ _ _ _ _ (by omega), List.drop_of_length_le full]
    simp [resolveAll, namesOf]
  | succ n ih =>
    have turn : i < perfMaxStackDepth := by omega
    have inside : i * 8 + 8 ≤ stack.toList.length := by
      rw [Vector.length_toList, stackValueSize]
      omega
    rw [walkFrames_step resolve roundNumber pid userspace turn inside, drop_addressesOf stack turn]
    simp only
    by_cases zero : UInt64.ofNat (leNat ((stack.toList.drop (i * 8)).take 8)) = 0
    · rw [if_pos zero, List.takeWhile_cons_of_neg (by simp [zero])]
      simp [resolveAll, namesOf]
    · rw [if_neg zero, List.takeWhile_cons_of_pos (by simpa using zero),
        ih (by omega) _ _ (by omega)]
      simp only [resolveAll, namesOf, List.filterMap_cons]
      rw [frameName_eq]
      cases frameText (resolve cache pid
        (UInt64.ofNat (leNat ((stack.toList.drop (i * 8)).take 8))) roundNumber).2 userspace <;>
          simp

/-- The second loop writes the frames one behind the other. -/
theorem foldl_append_eq (line : Bytes) (frames : List Bytes) :
    frames.foldl (fun line s => line ++ s) line = line ++ frames.flatten := by
  -- The induction is on the texts, which go behind the line one by one.
  induction frames generalizing line with
  | nil => simp
  | cons frame frames ih => rw [List.foldl_cons, ih, List.flatten_cons, List.append_assoc]

/-- The walk over a recorded stack. -/
theorem writeStack_stack (resolve : Resolver σ) (roundNumber : Int) (cache : σ) (line : Bytes)
    (stack : CharArray stackValueSize) (pid : UInt32) (userspace : Bool) :
    writeStack resolve roundNumber cache line stack.toList pid userspace =
      let named := resolveAll resolve roundNumber pid cache
        ((addressesOf stack).takeWhile (· ≠ 0))
      some (named.1, line ++ (namesOf named.2 userspace).reverse.flatten) := by
  -- The walk gives the frames from the innermost, and they are written the other way round.
  have filled : stack.toList.length ≠ 0 := by
    rw [Vector.length_toList]
    decide
  have walked := walkFrames_eq resolve roundNumber stack pid userspace (Nat.zero_le _) cache #[]
  rw [writeStack, if_neg filled, walked, List.drop_zero]
  simp only [Option.bind_eq_bind, Option.bind_some, reverseInPlace_eq, Option.pure_def]
  rw [← Array.foldl_toList, foldl_append_eq, Array.toList_reverse]
  simp

/-- Over every recorded stack the walk writes, behind what is in the line, the frames of the
addresses in front of the first zero, in reverse order, and it does so without a read outside the
stack; from an empty stack it writes nothing. -/
theorem writeStack_eq (resolve : Resolver σ) (roundNumber : Int) (cache : σ) (line : Bytes)
    (pid : UInt32) (userspace : Bool) :
    (∀ stack : CharArray stackValueSize,
      writeStack resolve roundNumber cache line stack.toList pid userspace =
        let named := resolveAll resolve roundNumber pid cache
          ((addressesOf stack).takeWhile (· ≠ 0))
        some (named.1, line ++ (namesOf named.2 userspace).reverse.flatten)) ∧
    writeStack resolve roundNumber cache line [] pid userspace = some (cache, line) :=
  -- A stack is as long as the map has it, or missing.
  ⟨fun stack => writeStack_stack resolve roundNumber cache line stack pid userspace, rfl⟩

/-- The loop over the frames of any bytes collects what the frames of a recorded stack are. -/
theorem walkFrames_pure (resolve : BccResolve) (roundNumber : Int) (stack : Bytes) (pid : UInt32)
    (userspace : Bool) {i : Nat} (within : i ≤ perfMaxStackDepth) (frames : Array Bytes) :
    walkFrames (fun cache pid ip roundNumber => (cache, resolve pid ip roundNumber)) roundNumber
        stack pid userspace i () frames =
      (stackFrames resolve roundNumber pid userspace (perfMaxStackDepth - i)
        (stack.drop (i * 8))).map fun (more : List Bytes) => ((), frames ++ more) := by
  generalize left : perfMaxStackDepth - i = n
  induction n generalizing i frames with
  | zero => simp [walkFrames_end _ _ _ _ _ (show perfMaxStackDepth ≤ i by omega), stackFrames]
  | succ n ih =>
    have turn : i < perfMaxStackDepth := by omega
    rw [stackFrames, List.length_drop]
    by_cases inside : i * 8 + 8 ≤ stack.length
    · rw [walkFrames_step _ roundNumber pid userspace turn inside,
        if_neg (show ¬ stack.length - i * 8 < 8 by omega)]
      have rest : (stack.drop (i * 8)).drop 8 = stack.drop ((i + 1) * 8) := by
        rw [List.drop_drop]
        congr 1
        omega
      simp only
      by_cases zero : UInt64.ofNat (leNat ((stack.drop (i * 8)).take 8)) = 0
      · rw [if_pos zero, if_pos zero]
        simp
      · rw [if_neg zero, if_neg zero, ih (by omega) _ (by omega), rest, Option.map_map]
        cases stackFrames resolve roundNumber pid userspace n (stack.drop ((i + 1) * 8)) with
        | none => rfl
        | some more =>
          simp only [Option.map_some, Function.comp_apply, Option.some.injEq, Prod.mk.injEq,
            true_and]
          apply Array.ext'
          simp
    · -- The slice is past the end of the bytes.
      have outside : slice stack (i * 8) (i * 8 + 8) = none := by
        rw [slice, if_neg (fun both => inside both.2)]
      rw [walkFrames, if_pos turn, outside, if_pos (show stack.length - i * 8 < 8 by omega)]
      rfl

/-- With a resolver that does not change, the walk over any bytes is that of the tracers. -/
theorem writeStack_pure (resolve : BccResolve) (roundNumber : Int) (line stack : Bytes)
    (pid : UInt32) (userspace : Bool) :
    (writeStack (fun cache pid ip roundNumber => (cache, resolve pid ip roundNumber)) roundNumber ()
        line stack pid userspace).map (·.2) =
      walkStack resolve roundNumber line stack pid userspace := by
  -- A resolver without a state leaves only the frames.
  unfold writeStack walkStack
  split
  · rfl
  · rw [walkFrames_pure resolve roundNumber stack pid userspace (Nat.zero_le _)]
    simp only [Nat.sub_zero, Nat.zero_mul, List.drop_zero]
    cases stackFrames resolve roundNumber pid userspace perfMaxStackDepth stack with
    | none => rfl
    | some frames =>
      simp only [Option.map_some, Option.bind_eq_bind, Option.bind_some, reverseInPlace_eq,
        Option.pure_def]
      rw [← Array.foldl_toList, foldl_append_eq, Array.toList_reverse]
      simp

/-- The session writes the line, and its cache has named the addresses. -/
theorem SymSession.walkStack_eq {lru : Lru UInt32 Nat} (env : SymtabEnv) (s : SymSession lru)
    (line : Bytes) (stack : CharArray stackValueSize) (pid : UInt32) (userspace : Bool) :
    s.walkStack env line stack.toList pid userspace =
      let named := resolveAll (fun sc pid ip roundNumber => sc.bccResolve env pid ip roundNumber)
        s.roundNumber pid s.symCache ((addressesOf stack).takeWhile (· ≠ 0))
      some ({ s with symCache := named.1 },
        line ++ (namesOf named.2 userspace).reverse.flatten) := by
  -- The session passes its round and its cache, and keeps the cache that comes back.
  rw [walkStack, writeStack_stack]
  rfl

end Spycat
