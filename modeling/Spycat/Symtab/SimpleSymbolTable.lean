import Spycat.Lib.Search
import Spycat.Util.Trie

/-! The functions of a Go program, and the one that an address is in. -/

namespace Spycat

open Lib

/-- A function of a Go program, from its first address up to the one behind its last. -/
structure GoFunc where
  entry : UInt64
  endAddr : UInt64
  name : Bytes

/-- The functions of a program as its line table has them: each one ends where the next begins. -/
structure GoSymTable where
  funcs : List GoFunc
  ordered : ∀ func ∈ funcs, func.entry ≤ func.endAddr
  adjacent : funcs.IsChain fun func next => func.endAddr = next.entry

/-- An entry of a symbol table. -/
structure SimpleSymbolTableEntry where
  entry : UInt64
  endAddr : UInt64
  name : Bytes

/-- A symbol table, with the address that the program is loaded at. -/
structure SimpleSymbolTable where
  symbols : List SimpleSymbolTableEntry
  base : UInt64

namespace SimpleSymbolTable

/-- A table of symbols that are not moved. -/
def new (symbols : List SimpleSymbolTableEntry) : SimpleSymbolTable where
  symbols := symbols
  base := 0

/-- Load the program at another address. -/
def rebase (t : SimpleSymbolTable) (base : UInt64) : SimpleSymbolTable := { t with base := base }

/-- The test of the search: the address is in front of the end of an entry. -/
def endsBehind (symbols : List SimpleSymbolTableEntry) (addr : UInt64) (i : Nat) : Bool :=
  match symbols[i]? with
  | some symbol => addr < symbol.endAddr
  | none => false

/-- The name of the function at an address, empty where there is none. -/
def resolve (t : SimpleSymbolTable) (addr : UInt64) : Bytes :=
  match t.symbols.head?, t.symbols.getLast? with
  | some first, some last =>
    let addr := addr - t.base
    if addr < first.entry ∨ last.endAddr < addr then []
    else
      let i := searchFirst t.symbols.length (endsBehind t.symbols addr)
      match t.symbols[i]? with
      | none => []
      | some symbol => symbol.name
  | _, _ => []

end SimpleSymbolTable

/-- The symbols of a Go program. -/
structure GoSymbolTable where
  file : Bytes
  tab : SimpleSymbolTable

/-- The entries that are made of the functions. -/
def GoSymTable.symbols (table : GoSymTable) : List SimpleSymbolTableEntry :=
  table.funcs.map fun func => { entry := func.entry, endAddr := func.endAddr, name := func.name }

/-- The table of a program's functions, or an error if there are none. -/
def newGoSymbolTable (file : Bytes) (table : GoSymTable) : Except String GoSymbolTable :=
  if table.funcs.length = 0 then .error "gosymtab: no symbols found"
  else .ok { file := file, tab := .new table.symbols }

end Spycat
