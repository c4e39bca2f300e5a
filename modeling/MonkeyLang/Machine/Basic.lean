import MonkeyLang.Bytecode.CompiledProgram
import MonkeyLang.Machine.Fault

/-!
# The stack machine

The machine has a stack of a fixed number of slots, of which the lowest are in use, a fixed
number of global slots, and a frame for every call that is going on.  A value that is popped
stays in its slot until the slot is used again.

Operations change the machine step by step.  What an operation has done before a fault stays
done.
-/

set_option autoImplicit false

namespace MonkeyLang

/-- How large the parts of a machine may be. -/
structure Limits where
  stackSize : Nat
  maxFrames : Nat
  globalsSize : Nat
  deriving DecidableEq, Repr

/-- The limits where none are asked for. -/
def Limits.default : Limits := ⟨2048, 1024, 65536⟩

instance : Inhabited Limits := ⟨Limits.default⟩

/-- A call that is going on. -/
structure Frame where
  code : Code
  /-- The offset of the next instruction. -/
  position : Nat
  /-- The slot of the stack where the slots of the call start. -/
  base : Nat
  /-- How many slots the call has. -/
  locals : Nat
  deriving Inhabited

/-- The slots that functions share. -/
abbrev Globals := Array Value

namespace Globals

/-- Slots that all hold null. -/
def ofSize (size : Nat) : Globals := Array.replicate size .null

/-- The slots with another value in one of them, if there is such a slot. -/
def store? (globals : Globals) (index : Nat) (value : Value) : Option Globals :=
  if h : index < globals.size then some (globals.set index value h) else none

end Globals

/-- How far a machine is. -/
inductive Machine.Status where
  | idle
  | running
  /-- At its end, or at the fault that stopped it. -/
  | halted (fault : Option Fault)
  /-- Gone with the process that it was in. -/
  | crashed
  deriving DecidableEq, Repr, Inhabited

/-- A machine. -/
structure Machine where
  constants : Array Value
  stack : Array Value
  /-- How many slots of the stack are in use. -/
  height : Nat
  globals : Globals
  /-- The innermost call. -/
  frame : Frame
  /-- The calls around it, the outermost first. -/
  callers : Array Frame
  maxFrames : Nat
  /-- What the program has printed. -/
  output : String
  status : Machine.Status

/-- A change of the machine that may be stopped by a fault. -/
abbrev Operation := EStateM Fault Machine

namespace Machine

/-- A machine at the start of a program, with the given global slots. -/
def load (program : CompiledProgram) (limits : Limits) (globals : Globals) : Machine where
  constants := program.constants
  stack := Array.replicate limits.stackSize .null
  height := 0
  globals
  frame := ⟨program.code, 0, 0, 0⟩
  callers := #[]
  maxFrames := limits.maxFrames
  output := ""
  status := .idle

/-- How many calls are going on; the program itself counts as one. -/
def depth (machine : Machine) : Nat := machine.callers.size + 1

/-- The value that was popped last. -/
def lastPopped (machine : Machine) : Value := machine.stack.getD machine.height .null

/-- The value on top of the stack, if there is one. -/
def top? (machine : Machine) : Option Value :=
  if machine.height = 0 then none else machine.stack[machine.height - 1]?

/-- The machine with the next instruction of its innermost call at another offset. -/
def jump (machine : Machine) (position : Nat) : Machine :=
  { machine with frame := { machine.frame with position } }

end Machine

namespace Operation

/-- Puts a value on the stack. -/
def push (value : Value) : Operation Unit := fun machine =>
  if h : machine.height < machine.stack.size then
    .ok () { machine with
      stack := machine.stack.set machine.height value h
      height := machine.height + 1 }
  else .error (.stackOverflow machine.stack.size) machine

/-- Takes the value on top of the stack. -/
def pop : Operation Value := fun machine =>
  if machine.height = 0 then .error .stackUnderflow machine
  else
    let height := machine.height - 1
    let value := machine.stack.getD height .null
    .ok value { machine with height }

/-- Puts the result of a computation on the stack. -/
def pushResult (result : Except Fault Value) : Operation Unit :=
  match result with
  | .ok value => push value
  | .error fault => throw fault

/-- Goes on at another offset. -/
def jump (position : Nat) : Operation Unit := modify fun machine => machine.jump position

/-- Pushes a constant. -/
def pushConstant (index : Nat) : Operation Unit := fun machine =>
  match machine.constants[index]? with
  | some value => push value machine
  | none => .error (.constantOutOfRange index) machine

/-- The slot of the stack that is a given slot of the innermost call. -/
def localSlot (index : Nat) : Operation Nat := fun machine =>
  if index < machine.frame.locals then .ok (machine.frame.base + index) machine
  else .error (.localOutOfRange index) machine

/-- Pushes what a slot of the innermost call holds. -/
def pushLocal (index : Nat) : Operation Unit := do
  let slot ← localSlot index
  let value := (← get).stack.getD slot .null
  push value

/-- Pops a value into a slot of the innermost call. -/
def popLocal (index : Nat) : Operation Unit := do
  let slot ← localSlot index
  let value ← pop
  modify fun machine => { machine with stack := machine.stack.setIfInBounds slot value }

/-- Pushes what a global slot holds. -/
def pushGlobal (index : Nat) : Operation Unit := fun machine =>
  match machine.globals[index]? with
  | some value => push value machine
  | none => .error (.globalOutOfRange index machine.globals.size) machine

/-- Pops a value into a global slot. -/
def popGlobal (index : Nat) : Operation Unit := do
  let value ← pop
  fun machine =>
    if h : index < machine.globals.size then
      .ok () { machine with globals := machine.globals.set index value h }
    else .error (.globalOutOfRange index machine.globals.size) machine

/-- Pushes a builtin function. -/
def pushBuiltin (index : Nat) : Operation Unit :=
  match Builtin.ofIndex? index with
  | some builtin => push (.builtin builtin)
  | none => throw (.builtinOutOfRange index)

/-- Replaces a number of values on top of the stack by an array of them. -/
def collect (count : Nat) : Operation Unit := do
  let machine ← get
  if machine.height < count then throw .stackUnderflow
  let start := machine.height - count
  let items := (machine.stack.extract start machine.height).toList
  modify fun machine => { machine with height := start }
  push (.array items)

end Operation

end MonkeyLang
