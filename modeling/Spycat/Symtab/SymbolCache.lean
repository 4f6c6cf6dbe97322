import Spycat.Lib.Lifecycle
import Spycat.Lib.Lru
import Spycat.Symtab.SimpleSymbolTable
import Spycat.Symtab.WalkStack

/-! The cache of symbol tables, one for each process, with the native caches that they own. -/

namespace Spycat

open Lib

/-- What the native library says about an address. -/
structure BccSymbol where
  res : Int32
  name : Bytes
  demangleName : Bytes
  module : Bytes
  offset : UInt64

/-- What happens to the tables, and to the native caches that they own; a table is called by the
number of its entry, as is its native cache. -/
inductive SymtabEvent where
  | opened (id : Nat) (pid : UInt32)
  | resolve (id : Nat) (addr : UInt64) (refresh : Bool) (roundNumber : Int)
  | closed (id : Nat)
  | symcacheNew (id : Nat) (pid : UInt32)
  | symcacheResolve (id : Nat) (addr : UInt64) (refresh : Bool)
  | symcacheFree (id : Nat)

/-- The machine, which can answer in another way whenever it is asked. -/
structure SymtabEnv where
  /-- The table of the program that a process runs, if it is a Go program. -/
  newGoSymbolTable : List SymtabEvent → UInt32 → Except String GoSymbolTable
  symcacheResolve : List SymtabEvent → Nat → UInt64 → Bool → BccSymbol

/-- A table of symbols of a process. -/
inductive SymbolTable where
  | bcc (pid : UInt32)
  /-- The table of a Go program, and whether there is a native one for what it does not have. -/
  | go (tab : GoSymbolTable) (pid : UInt32) (fallbackTable : Bool)

namespace SymbolTable

/-- The process that a table is of. -/
def pid : SymbolTable → UInt32
  | .bcc pid | .go _ pid _ => pid

/-- Whether a table has a native cache. -/
def native : SymbolTable → Bool
  | .bcc _ => true
  | .go _ _ fallbackTable => fallbackTable

end SymbolTable

/-- An entry of the cache. -/
structure SymbolCacheEntry where
  symbolTable : SymbolTable
  roundNumber : Int

/-- The cache, all entries that were made for it by their numbers, and what happened so far. -/
structure SymbolCache (lru : Lru UInt32 Nat) where
  pid2Cache : lru.State
  made : List SymbolCacheEntry
  log : List SymtabEvent

/-- The symbol of an address, as the native library has it. -/
def BccSymbol.toSymbol (symbol : BccSymbol) (pid : UInt32) (addr : UInt64) : Symbol :=
  if symbol.res < 0 then
    if symbol.offset > 0 then { name := [], module := symbol.module, offset := symbol.offset }
    else { name := [], module := [], offset := addr }
  -- The names of the kernel are not demangled.
  else if pid = 0 then
    { name := symbol.name, module := symbol.module, offset := symbol.offset }
  else { name := symbol.demangleName, module := symbol.module, offset := symbol.offset }

namespace SymbolCache

variable {lru : Lru UInt32 Nat}

/-- A cache of a size, absent where the source returns an error. -/
def new (lru : Lru UInt32 Nat) (cacheSize : Int) : Option (SymbolCache lru) :=
  (lru.new cacheSize).map fun pid2Cache => { pid2Cache := pid2Cache, made := [], log := [] }

/-- Something more happened. -/
def note (sc : SymbolCache lru) (events : List SymtabEvent) : SymbolCache lru :=
  { sc with log := sc.log ++ events }

/-- Change an entry. -/
def setEntry (sc : SymbolCache lru) (id : Nat) (e : SymbolCacheEntry) : SymbolCache lru :=
  { sc with made := sc.made.set id e }

/-- Close the table of an entry, and free the native cache that it has. -/
def close (sc : SymbolCache lru) (id : Nat) : SymbolCache lru :=
  match sc.made[id]? with
  | none => sc
  | some e =>
    sc.note (.closed id :: if e.symbolTable.native then [.symcacheFree id] else [])

/-- The callback of the package, for all entries that it is called with. -/
def evict (sc : SymbolCache lru) (entries : List (UInt32 × Nat)) : SymbolCache lru :=
  entries.foldl (fun sc entry => sc.close entry.2) sc

/-- Make the table of a process, which for a Go program is that of its functions. -/
def newSymbolTable (env : SymtabEnv) (sc : SymbolCache lru) (pid : UInt32) : SymbolTable :=
  match env.newGoSymbolTable sc.log pid with
  | .ok tab => .go tab pid false
  | .error _ => .bcc pid

/-- Make an entry with a table. -/
def newEntry (env : SymtabEnv) (sc : SymbolCache lru) (pid : UInt32) : SymbolCache lru :=
  let id := sc.made.length
  let symbolTable := sc.newSymbolTable env pid
  let sc : SymbolCache lru :=
    { sc with made := sc.made ++ [{ symbolTable := symbolTable, roundNumber := 0 }] }
  sc.note ((if symbolTable.native then [.symcacheNew id pid] else []) ++ [.opened id pid])

/-- The entry of a process, which is made if there is none. -/
def getOrCreateCacheEntry (env : SymtabEnv) (sc : SymbolCache lru) (pid : UInt32) :
    SymbolCache lru × Nat :=
  match lru.get sc.pid2Cache pid with
  | (pid2Cache, some id) => ({ sc with pid2Cache := pid2Cache }, id)
  | (pid2Cache, none) =>
    let id := sc.made.length
    let sc := newEntry env { sc with pid2Cache := pid2Cache } pid
    let added := lru.add sc.pid2Cache pid id
    let sc : SymbolCache lru := { sc with pid2Cache := added.1 }
    (sc.evict added.2, id)

/-- Ask a native cache. -/
def bccResolveNative (env : SymtabEnv) (sc : SymbolCache lru) (id : Nat) (pid : UInt32)
    (addr : UInt64) (refresh : Bool) : SymbolCache lru × Symbol :=
  (sc.note [.symcacheResolve id addr refresh],
    (env.symcacheResolve sc.log id addr refresh).toSymbol pid addr)

/-- Ask the table of an entry. -/
def resolve (env : SymtabEnv) (sc : SymbolCache lru) (id : Nat) (e : SymbolCacheEntry)
    (addr : UInt64) (refresh : Bool) : SymbolCache lru × Symbol :=
  match e.symbolTable with
  | .bcc pid => sc.bccResolveNative env id pid addr refresh
  | .go tab pid fallbackTable =>
    let sym := tab.tab.resolve addr
    if sym ≠ [] then (sc, { name := sym, module := tab.file, offset := addr })
    -- The native table is made when it is first needed.
    else if fallbackTable then sc.bccResolveNative env id pid addr refresh
    else
      ((sc.setEntry id { e with symbolTable := .go tab pid true }).note
        [.symcacheNew id pid]).bccResolveNative env id pid addr refresh

/-- The symbol of an address in a process, with a refresh if the round is another one. -/
def bccResolve (env : SymtabEnv) (sc : SymbolCache lru) (pid : UInt32) (addr : UInt64)
    (roundNumber : Int) : SymbolCache lru × Symbol :=
  let (sc, id) := sc.getOrCreateCacheEntry env pid
  match sc.made[id]? with
  -- There is no such entry; this does not happen.
  | none => (sc, { name := [], module := [], offset := addr })
  | some e =>
    let staleCheck := roundNumber ≠ e.roundNumber
    let e := { e with roundNumber := roundNumber }
    ((sc.setEntry id e).note [.resolve id addr staleCheck roundNumber]).resolve env id e addr
      staleCheck

/-- Remove the entry of a process. -/
def remove (sc : SymbolCache lru) (pid : UInt32) : SymbolCache lru :=
  let removed := lru.remove sc.pid2Cache pid
  let sc : SymbolCache lru := { sc with pid2Cache := removed.1 }
  sc.evict removed.2

/-- Remove all entries. -/
def clear (sc : SymbolCache lru) : SymbolCache lru :=
  (lru.keys sc.pid2Cache).foldl remove sc

end SymbolCache

/-- A call of the cache. -/
inductive SymbolCacheAction where
  | bccResolve (pid : UInt32) (addr : UInt64) (roundNumber : Int)
  | clear

namespace SymbolCache

variable {lru : Lru UInt32 Nat}

/-- One call. -/
def step (env : SymtabEnv) (sc : SymbolCache lru) : SymbolCacheAction → SymbolCache lru
  | .bccResolve pid addr roundNumber => (sc.bccResolve env pid addr roundNumber).1
  | .clear => sc.clear

/-- A sequence of calls. -/
def steps (env : SymtabEnv) (sc : SymbolCache lru) (actions : List SymbolCacheAction) :
    SymbolCache lru :=
  actions.foldl (step env) sc

end SymbolCache

end Spycat
