/-!
# Scopes

Every function has a table of its own names; the outermost table has the global names and the
builtin functions.  A name that is bound gets the next free slot of its table, also when the
table binds it already: the new binding hides the old one, which keeps its slot.  A builtin
function has a fixed index and takes no slot.

A table keeps its bindings in the order in which they were made, the latest first, and a name
means its first binding in that order.  A scope is the table of the innermost open function
with the tables around it.
-/

set_option autoImplicit false

namespace MonkeyLang

/-- Where the value of a name is kept. -/
inductive Storage where
  /-- In the slots that all functions share. -/
  | global
  /-- In the slots of one call. -/
  | frame
  /-- In the fixed list of builtin functions. -/
  | builtin
  deriving DecidableEq, Repr, Inhabited

/-- The name of a kind of storage. -/
def Storage.name : Storage → String
  | global => "Global"
  | frame => "Local"
  | builtin => "Builtin"

/-- A binding of a name. -/
structure Symbol where
  name : String
  storage : Storage
  index : Nat
  deriving DecidableEq, Repr, Inhabited

/-- The bindings of one function. -/
structure SymbolTable where
  /-- The bindings, the latest first. -/
  symbols : List Symbol
  /-- How many slots have been given out. -/
  definitions : Nat
  deriving DecidableEq, Repr

namespace SymbolTable

/-- The table without bindings. -/
def empty : SymbolTable := ⟨[], 0⟩

/-- The latest binding of a name. -/
def lookup? (table : SymbolTable) (name : String) : Option Symbol :=
  table.symbols.find? (·.name == name)

/-- Binds a name to the next free slot. -/
def define (table : SymbolTable) (storage : Storage) (name : String) : Symbol × SymbolTable :=
  let symbol : Symbol := ⟨name, storage, table.definitions⟩
  (symbol, ⟨symbol :: table.symbols, table.definitions + 1⟩)

/-- Binds a name to a builtin function. -/
def defineBuiltin (table : SymbolTable) (index : Nat) (name : String) : Symbol × SymbolTable :=
  let symbol : Symbol := ⟨name, .builtin, index⟩
  (symbol, { table with symbols := symbol :: table.symbols })

/-- The names that mean a slot of this table, in the order of their slots. -/
def slotNames (table : SymbolTable) : List String :=
  let current := table.symbols.reverse.filter fun symbol =>
    symbol.storage != .builtin && table.lookup? symbol.name == some symbol
  current.map Symbol.name

end SymbolTable

/-- The tables of the functions that are open at a place of a program. -/
structure Scope where
  innermost : SymbolTable
  /-- The tables around the innermost one, the nearest first. -/
  enclosing : List SymbolTable
  deriving DecidableEq, Repr

namespace Scope

/-- The scope outside of all functions, without bindings. -/
def empty : Scope := ⟨.empty, []⟩

/-- Whether no function is open. -/
def isGlobal (scope : Scope) : Bool := scope.enclosing.isEmpty

/-- Where a name bound here is kept. -/
def storage (scope : Scope) : Storage := if scope.isGlobal then .global else .frame

/-- How many slots the innermost table has given out. -/
def definitions (scope : Scope) : Nat := scope.innermost.definitions

/-- Binds a name in the innermost table. -/
def define (scope : Scope) (name : String) : Symbol × Scope :=
  let (symbol, table) := scope.innermost.define scope.storage name
  (symbol, { scope with innermost := table })

/-- Binds a name to a builtin function in the innermost table. -/
def defineBuiltin (scope : Scope) (index : Nat) (name : String) : Symbol × Scope :=
  let (symbol, table) := scope.innermost.defineBuiltin index name
  (symbol, { scope with innermost := table })

/-- What a name means: its latest binding in the innermost table that binds it. -/
def resolve? (scope : Scope) (name : String) : Option Symbol :=
  (scope.innermost :: scope.enclosing).findSome? (·.lookup? name)

/-- Whether the innermost table binds a name. -/
def definesLocally (scope : Scope) (name : String) : Bool :=
  (scope.innermost.lookup? name).isSome

/-- The scope inside of a new function. -/
def enter (scope : Scope) : Scope := ⟨.empty, scope.innermost :: scope.enclosing⟩

/-- The scope around the innermost function, if one is open. -/
def leave? (scope : Scope) : Option Scope :=
  match scope.enclosing with
  | [] => none
  | table :: tables => some ⟨table, tables⟩

/-- The names that mean a slot of the innermost table, in the order of their slots. -/
def slotNames (scope : Scope) : List String := scope.innermost.slotNames

/-- A scope outside of all functions with builtin functions at the indices they have in a
list. -/
def withBuiltins (names : List String) : Scope :=
  names.zipIdx.foldl (fun scope (name, index) => (scope.defineBuiltin index name).2) empty

@[simp] theorem leave?_enter (scope : Scope) : scope.enter.leave? = some scope := rfl

end Scope

end MonkeyLang
