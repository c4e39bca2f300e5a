import MonkeyLang.Machine.Step
import MonkeyLang.Scope
import Mathlib.Logic.Function.Basic

/-!
# The store of an evaluation

An evaluation works on a store: what the global slots and the slots of the innermost call hold,
and what has been printed. It ends with a result or with an exit: `return` leaves the function,
a fault ends everything, and an evaluation that is not given enough turns is exhausted.

Nothing of this needs a stack. So that the evaluator can also say where a machine of limited
size gives up, it counts the values that are waiting for others to be evaluated, and the calls
that are going on. Without limits (`Capacity.unlimited`) the counts have no effect.
-/

set_option autoImplicit false

namespace MonkeyLang

/-- How much of each kind of room there is, where it is limited. -/
structure Capacity where
  stack : Option Nat
  frames : Option Nat
  globals : Option Nat

/-- Room for everything. -/
def Capacity.unlimited : Capacity := ⟨none, none, none⟩

/-- The room of a machine. -/
def Limits.capacity (limits : Limits) : Capacity :=
  ⟨some limits.stackSize, some limits.maxFrames, some limits.globalsSize⟩

/-- What an evaluation reads and changes. -/
structure Store where
  globals : Nat → Value
  /-- The slots of the innermost call. -/
  locals : List Value
  output : String

/-- A store that nothing has been stored in. -/
def Store.initial : Store := ⟨fun _ => .null, [], ""⟩

/-- How an evaluation ends without a result. -/
inductive Exit where
  /-- By leaving the function with a value. -/
  | leave (value : Value)
  | fault (fault : Fault)
  /-- It needs more turns than it was given. -/
  | exhausted

/-- The room that is taken where an evaluation goes on. -/
structure Room where
  capacity : Capacity
  /-- How many values are waiting. -/
  held : Nat
  /-- How many calls are going on; the program itself counts as one. -/
  depth : Nat

/-- An evaluation in a given room. -/
abbrev Evaluating := ReaderT Room (EStateM Exit Store)

namespace Evaluating

/-- Fails with a fault that names the limit if there is less room than an amount. -/
def require (bound : Capacity → Option Nat) (amount : Nat) (fault : Nat → Fault) :
    Evaluating Unit := fun room store =>
  match bound room.capacity with
  | some limit => if amount ≤ limit then .ok () store else .error (.fault (fault limit)) store
  | none => .ok () store

/-- Works while a number of values are waiting. -/
def holding {α : Type} (count : Nat) (work : Evaluating α) : Evaluating α := fun room =>
  work { room with held := room.held + count }

/-- Results in a value, for which there must be room. -/
def yield (value : Value) : Evaluating Value := do
  require (·.stack) ((← read).held + 1) .stackOverflow
  return value

/-- Results in what an operator results in. -/
def ofResult : Except Fault Value → Evaluating Value
  | .ok value => pure value
  | .error fault => throw (.fault fault)

/-- The value in the slot of a symbol. -/
def valueIn : Option Symbol → Evaluating Value
  | some ⟨_, .global, index⟩ => do
    require (·.globals) (index + 1) (.globalOutOfRange index)
    return (← get).globals index
  | some ⟨_, .frame, index⟩ => return (← get).locals.getD index .null
  | some ⟨_, .builtin, index⟩ => return ((Builtin.ofIndex? index).map Value.builtin).getD .null
  | none => return .null

/-- Stores a value in the slot of a symbol. -/
def assign : Option Symbol → Value → Evaluating Unit
  | some ⟨_, .global, index⟩, value => do
    require (·.globals) (index + 1) (.globalOutOfRange index)
    modify fun store => { store with globals := Function.update store.globals index value }
  | some ⟨_, .frame, index⟩, value =>
    modify fun store => { store with locals := store.locals.set index value }
  | _, _ => pure ()

/-- Takes turns until one of them is the last. -/
def loop : Nat → Evaluating Bool → Evaluating Unit
  | 0, _ => throw .exhausted
  | turns + 1, turn => do
    if ← turn then loop turns turn

/-- Works inside of a call: on slots of its own, of which the first hold the arguments and the
others null. A call yields the value that the work leaves with, or else its result. -/
def inCall (parameters locals : Nat) (arguments : List Value) (work : Evaluating (Option Value)) :
    Evaluating Value := fun room store =>
  let slots := arguments ++ List.replicate (locals - parameters) .null
  match work { room with held := room.held + 1 + locals, depth := room.depth + 1 }
      { store with locals := slots } with
  | .ok value inner => .ok (value.getD .null).unwrapped { inner with locals := store.locals }
  | .error (.leave value) inner => .ok value.unwrapped { inner with locals := store.locals }
  | .error exit inner => .error exit inner

end Evaluating

end MonkeyLang
