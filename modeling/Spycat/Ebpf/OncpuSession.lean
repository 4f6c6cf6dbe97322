import Spycat.Core.DataBlock
import Spycat.Ebpf.Oncpu
import Spycat.Lib.Layout
import Spycat.Symtab.WalkStack

/-! The user side of the on-CPU profiler: rounds that read counts, send events, and clear maps. -/

namespace Spycat.Oncpu

open Lib Bpf

/-- What a session uses of code outside the repository. -/
structure Machine where
  /-- The kernel's hash of a stack. -/
  stackHash : Bytes → UInt32
  /-- The symbol tables of the machine. -/
  resolve : BccResolve

/-- An entry of the counts map as a round read it. -/
abbrev Entry := ProfileKey × UInt32

/-- An entry with its stacks, ready to be sent. -/
structure Sf where
  pid : UInt32
  count : UInt32
  kStack : Bytes
  uStack : Bytes
  comm : Bytes

/-- What a round has gathered so far. -/
structure Round where
  entries : List Entry
  batch : Bool
  sfs : List Sf
  knownStacks : List UInt32

/-- Where a session stands in its round. -/
inductive Phase where
  /-- Between two rounds. -/
  | idle
  /-- In the batch call, which has taken some entries. -/
  | batch (taken : List Entry)
  /-- The iterator stands behind the entries that were read. -/
  | iterate (read : List Entry)
  /-- The iterator has given a key whose value is read next. -/
  | getValue (read : List Entry) (key : ProfileKey)
  /-- The stacks of some entries are still to be read, the user's stack of the first one next. -/
  | userStack (round : Round) (todo : List Entry)
  /-- The kernel's stack of an entry is read next. -/
  | kernelStack (round : Round) (entry : Entry) (uStack : Bytes) (todo : List Entry)
  /-- Some events are still to be sent. -/
  | send (round : Round) (todo : List Sf)
  /-- Some entries of the counts map are still to be deleted. -/
  | clearCounts (round : Round) (todo : List Entry)
  /-- The numbers of all stacks are gathered. -/
  | listStacks (listed : List UInt32)
  /-- Some stacks are still to be deleted. -/
  | clearStacks (todo : List UInt32)

/-- A session, the maps it shares with the kernel, and the events it has sent. -/
structure OncpuSession where
  maps : ProfileMaps
  roundNumber : Int
  sampleRate : UInt32
  phase : Phase
  sent : List SpyEvent

/-- One step of the kernel or of the session, with what the step finds in its environment. -/
inductive OncpuAction where
  /-- The kernel takes a sample. -/
  | sample (ctx : PerfEventData)
  /-- The ticker starts a round. -/
  | reset
  /-- The batch call reads and deletes one entry. -/
  | takeKey (key : ProfileKey)
  /-- The iterator gives a key. -/
  | next (key : ProfileKey)
  /-- A value is read, unless that fails. -/
  | getValue (failed : Bool)
  /-- A stack is read. -/
  | getStack
  /-- An event is sent at a time. -/
  | send (now : UInt64)
  /-- An entry is deleted, unless that fails. -/
  | deleteKey (failed : Bool)
  /-- The iterator over the stacks gives a number. -/
  | nextStack (id : UInt32)
  /-- A stack is deleted, unless that fails. -/
  | deleteStack (id : UInt32) (failed : Bool)
  /-- A loop or a call ends. -/
  | proceed

namespace OncpuSession

/-- The stack of a number, empty where it is negative or not recorded. -/
def getStack (mapStacks : Assoc UInt32 StackBucket) (stackId : Int32) : Bytes :=
  if stackId < 0 then []
  else ((mapStacks.lookup stackId.toUInt32).map (·.frames)).getD []

/-- The numbers of the stacks that a key names. -/
def stackIds (key : ProfileKey) : List UInt32 :=
  [key.userStack, key.kernStack].filterMap fun id =>
    if 0 ≤ id then some id.toInt32.toUInt32 else none

/-- The event for one entry; absent where the source panics. -/
def eventOf (resolve : BccResolve) (s : OncpuSession) (it : Sf) (now : UInt64) : Option SpyEvent :=
  -- The line starts with the command, and the user's frames come before the kernel's.
  (walkStack resolve s.roundNumber (it.comm ++ [59]) it.uStack it.pid true).bind fun line =>
    (walkStack resolve s.roundNumber line it.kStack 0 false).map fun line =>
      let event : SpyEvent :=
        { name := Model.onCpu
          timeStamp := now
          cls := { name := "", event := Model.onCpu }
          task := { pid := 0, tid := 0, comm := [] }
          userAttributes := []
          bounded := by simp }
      ((((event.setUserAttributeWithByteBuf "stack" line).setUserAttributeWithUint32 "count"
        it.count).setUserAttributeWithUint32 "pid" it.pid).setUserAttributeWithByteBuf "comm"
          it.comm).setUserAttributeWithUint32 "sampleRate" s.sampleRate

/-- The first deletions of a round are those of the counts map, and there may be none to do. -/
def startClearing (r : Round) : Phase :=
  -- The batch call has deleted its entries already.
  .clearCounts r (if r.batch then [] else r.entries)

/-- Which stacks are deleted: all of them once in a while, else the ones of this round. -/
def startStacks (roundNumber : Int) (r : Round) : Phase :=
  if roundNumber.tmod 10 = 0 then .listStacks [] else .clearStacks r.knownStacks.dedup

/-- The end of a loop or a call; absent where it is not over. -/
def proceed (s : OncpuSession) : Option Phase :=
  match s.phase with
  | .batch taken =>
    -- A batch that failed, is not supported or found nothing gives way to the iterator.
    if taken = [] then some (.iterate [])
    else some (.userStack { entries := taken, batch := true, sfs := [], knownStacks := [] } taken)
  | .iterate read =>
    -- Entries that came in behind the iterator are left for a later round.
    some (.userStack { entries := read, batch := false, sfs := [], knownStacks := [] } read)
  | .userStack r [] => some (.send r r.sfs)
  | .send r [] => some (startClearing r)
  | .clearCounts r [] => some (startStacks s.roundNumber r)
  | .listStacks listed => some (.clearStacks listed)
  | .clearStacks [] => some .idle
  | _ => none

/-- One step; absent where it is not possible or where the source panics. -/
def step (machine : Machine) (s : OncpuSession) : OncpuAction → Option OncpuSession
  | .sample ctx => some { s with maps := s.maps.doPerfEvent machine.stackHash ctx }
  | .reset =>
    match s.phase with
    | .idle => some { s with roundNumber := s.roundNumber + 1, phase := .batch [] }
    | _ => none
  | .takeKey key =>
    match s.phase, s.maps.mapCounts.lookup key with
    | .batch taken, some value =>
      some { s with
        maps := { s.maps with mapCounts := s.maps.mapCounts.erase key }
        phase := .batch (taken ++ [(key, value)]) }
    | _, _ => none
  | .next key =>
    match s.phase, s.maps.mapCounts.lookup key with
    | .iterate read, some _ =>
      -- The iterator gives no key twice while none is deleted.
      if key ∈ read.map (·.1) then none else some { s with phase := .getValue read key }
    | _, _ => none
  | .getValue failed =>
    match s.phase with
    | .getValue read key =>
      match s.maps.mapCounts.lookup key, failed with
      | some value, false => some { s with phase := .iterate (read ++ [(key, value)]) }
      -- The round ends with the error.
      | _, _ => some { s with phase := .idle }
    | _ => none
  | .getStack =>
    match s.phase with
    | .userStack r (entry :: todo) =>
      let uStack := getStack s.maps.mapStacks entry.1.userStack.toInt32
      some { s with phase := .kernelStack r entry uStack todo }
    | .kernelStack r entry uStack todo =>
      let it : Sf :=
        { pid := entry.1.pid
          count := entry.2
          kStack := getStack s.maps.mapStacks entry.1.kernStack.toInt32
          uStack := uStack
          comm := goString entry.1.comm }
      let r := { r with sfs := r.sfs ++ [it], knownStacks := r.knownStacks ++ stackIds entry.1 }
      some { s with phase := .userStack r todo }
    | _ => none
  | .send now =>
    match s.phase with
    | .send r (it :: todo) =>
      (s.eventOf machine.resolve it now).map fun event =>
        { s with sent := s.sent ++ [event], phase := .send r todo }
    | _ => none
  | .deleteKey failed =>
    match s.phase with
    | .clearCounts r ((key, _) :: todo) =>
      match deleteElem s.maps.mapCounts key, failed with
      | some mapCounts, false =>
        some { s with maps := { s.maps with mapCounts := mapCounts }, phase := .clearCounts r todo }
      -- The round ends with the error, and the keys that are left stay in the map.
      | _, _ => some { s with phase := .idle }
    | _ => none
  | .nextStack id =>
    match s.phase with
    | .listStacks listed =>
      if id ∈ listed ∨ (s.maps.mapStacks.lookup id).isNone then none
      else some { s with phase := .listStacks (listed ++ [id]) }
    | _ => none
  | .deleteStack id failed =>
    match s.phase with
    | .clearStacks todo =>
      -- The known stacks are a map, so they are gone through in any order.
      if id ∈ todo then
        -- An error is counted and nothing else comes of it.
        let mapStacks := if failed then s.maps.mapStacks else s.maps.mapStacks.erase id
        some { s with
          maps := { s.maps with mapStacks := mapStacks }
          phase := .clearStacks (todo.erase id) }
      else none
    | _ => none
  | .proceed => s.proceed.map fun phase => { s with phase := phase }

end OncpuSession

end Spycat.Oncpu
