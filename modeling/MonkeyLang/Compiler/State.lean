import MonkeyLang.Compiler.Fault
import MonkeyLang.Compiler.Fragment
import MonkeyLang.Builtin.Basic
import MonkeyLang.Scope
import MonkeyLang.Value.Basic

/-!
# The state of a compiler

A compiler keeps the names that are bound, the constants and the warnings.  Constants are only
ever added, so that functions compiled earlier stay valid.  A compilation that fails undoes
nothing of this; only the functions that were open are closed.
-/

set_option autoImplicit false

namespace MonkeyLang

/-- What a compiler has collected. -/
structure Compiler where
  scope : Scope
  constants : Array Value
  warnings : Array Diagnostic

/-- A part of the work of a compiler; what it has done before a fault stays done. -/
abbrev Compiling := EStateM CompileFault Compiler

namespace Compiler

/-- A compiler that goes on with the names and the constants of an earlier one. -/
def resume (scope : Scope) (constants : Array Value) : Compiler := ⟨scope, constants, #[]⟩

/-- A compiler that knows the builtin functions only. -/
def new : Compiler := resume (.withBuiltins Builtin.names) #[]

end Compiler

namespace Compiling

/-- Fails if more of something is wanted than there may be. -/
def require (holds : Bool) (limit : Limit) (span : Span) : Compiling Unit :=
  if holds then pure () else throw (.limitExceeded limit span)

/-- Adds a constant and yields its index. -/
def addConstant (value : Value) (span : Span) : Compiling Nat := do
  let index := (← get).constants.size
  require (index < Limit.constants.bound) .constants span
  modify fun compiler => { compiler with constants := compiler.constants.push value }
  return index

/-- The slots that a kind of storage has. -/
def slotLimit : Storage → Limit
  | .global => .globals
  | _ => .locals

/-- Binds a name to a new slot of the innermost function.  The binding is made before it is
known whether the slot exists. -/
def define (name : Name) : Compiling Symbol := do
  match (← get).scope.resolve? name.text with
  | some ⟨_, .builtin, _⟩ =>
    modify fun compiler =>
      { compiler with warnings := compiler.warnings.push (shadowingWarning name) }
  | _ => pure ()
  let (symbol, scope) := (← get).scope.define name.text
  modify fun compiler => { compiler with scope }
  let limit := slotLimit symbol.storage
  require (symbol.index < limit.bound) limit name.span
  return symbol

/-- What a name means.  The slots of a function further out are out of reach. -/
def resolve (name : Name) : Compiling Symbol := do
  let scope := (← get).scope
  match scope.resolve? name.text with
  | none => throw (.undefinedName name)
  | some symbol =>
    if symbol.storage = .frame && !scope.definesLocally name.text then
      throw (.capturedLocal name)
    else return symbol

/-- Works inside of a new function; yields also how many slots the function has.  The names of
the function are forgotten in any case. -/
def inFunction {α : Type} (work : Compiling α) : Compiling (α × Nat) := fun compiler =>
  match work { compiler with scope := compiler.scope.enter } with
  | .ok result inner =>
    .ok (result, inner.scope.definitions) { inner with scope := compiler.scope }
  | .error fault inner => .error fault { inner with scope := compiler.scope }

end Compiling

end MonkeyLang
