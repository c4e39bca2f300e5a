import MonkeyLang.Builtin.Call
import MonkeyLang.Machine.Basic
import MonkeyLang.Number.Read
import MonkeyLang.Value.Operator

/-!
# Steps of the machine

A step fetches the next instruction of the innermost call and executes it.  The call goes on
behind the instruction before the instruction is executed, so that a jump has the last word.
Behind the last instruction a function leaves with null, and the program ends.
-/

set_option autoImplicit false

namespace MonkeyLang

/-- What stands at the position of a frame. -/
inductive Fetched where
  /-- The end of the stream. -/
  | stop
  /-- An opcode, its operand, zero if it has none, and the offset behind it. -/
  | instruction (opcode : Opcode) (operand next : Nat)
  /-- No instruction. -/
  | broken (fault : Fault)
  deriving DecidableEq, Repr

namespace Opcode

/-- The bytes of the opcodes in the table of the machine. -/
def dispatchEntries : List (Nat × Opcode) :=
  [(0x01, constant), (0x02, null), (0x03, true), (0x04, false),
   (0x10, getLocal), (0x11, setLocal), (0x12, getGlobal), (0x13, setGlobal), (0x14, getBuiltin),
   (0x20, add), (0x21, sub), (0x22, mul), (0x23, div), (0x25, negate),
   (0x30, equal), (0x31, notEqual), (0x34, greater),
   (0x40, not),
   (0x50, jump), (0x51, jumpNotTruthy),
   (0x60, call), (0x61, returnValue), (0x62, returnNull),
   (0x70, array), (0x71, index),
   (0x80, pop)]

/-- The table of the machine: an entry for every byte, which is empty unless it is filled in. -/
def dispatchTable : Array (Option Opcode) :=
  dispatchEntries.foldl (fun table entry => table.setIfInBounds entry.1 (some entry.2))
    (Array.replicate 256 none)

/-- The opcode of a byte in the table of the machine. -/
def dispatch? (byte : UInt8) : Option Opcode := dispatchTable.getD byte.toNat none

end Opcode

namespace Code

/-- The bytes from an offset on, as many as asked for, unless the stream ends before. -/
def slice? (code : Code) (offset size : Nat) : Option (List UInt8) :=
  if offset + size ≤ code.size then some (code.extract offset (offset + size)).toList else none

/-- The operand in the bytes behind an opcode, zero if there are none. -/
def operandIn : List UInt8 → Nat
  | [] => 0
  | [byte] => byte.toNat
  | high :: low :: _ => high.toNat * 256 + low.toNat

end Code

/-- What stands at the position of a frame. -/
def Frame.fetch (frame : Frame) : Fetched :=
  match frame.code[frame.position]? with
  | none => .stop
  | some byte =>
    match Opcode.dispatch? byte with
    | none => .broken (.unknownOpcode byte frame.position)
    | some opcode =>
      let size := opcode.operandSize
      match frame.code.slice? (frame.position + 1) size with
      | none => .broken (.truncatedInstruction opcode frame.position)
      | some bytes =>
        .instruction opcode (Code.operandIn bytes) (frame.position + 1 + size)

/-- Whether a run goes on. -/
inductive Progress where
  | goesOn
  | ends
  /-- The process is gone: there is no fault that could be told. -/
  | crashes
  deriving DecidableEq, Repr, Inhabited

/-- Whether the slots of a call that start at a slot of the stack end beyond the greatest number
of a machine word.  No stack has half as many slots as there are numbers, so this takes a function
that asks for the other half itself. -/
def Function.overruns (body : Function) (base : Nat) : Bool :=
  Number.twoTo 63 ≤ body.locals && Number.greatestSize < base + body.locals

/-- Whether a call of a function gets as far as to add up where its slots end, and the sum is not
a machine word. -/
def Machine.overrunBy (machine : Machine) (body : Function) (count : Nat) : Bool :=
  count == body.parameters && machine.depth < machine.maxFrames &&
    body.overruns (machine.height - count)

namespace Operation

/-- Enters a function whose arguments are on top of the stack.  Its other slots hold null. -/
def enter (body : Function) (count : Nat) : Operation Unit := fun machine =>
  if count ≠ body.parameters then .error (.wrongArity body.parameters count) machine
  else if machine.maxFrames ≤ machine.depth then
    .error (.frameOverflow machine.maxFrames) machine
  else
    let base := machine.height - count
    let height := base + body.locals
    if machine.stack.size < height then .error (.stackOverflow machine.stack.size) machine
    else
      let cleared := (height - machine.height).fold
        (fun offset _ stack => stack.setIfInBounds (machine.height + offset) .null) machine.stack
      .ok () { machine with
        stack := cleared
        height
        callers := machine.callers.push machine.frame
        frame := ⟨body.code, 0, base, body.locals⟩ }

/-- An operation after which the run goes on. -/
def going (operation : Operation Unit) : Operation Progress := do
  operation
  return .goesOn

/-- Calls a function whose arguments are on top of the stack.  Where its slots end is the sum of two
machine words, and nothing makes sure that it is one. -/
def callFunction (body : Function) (count : Nat) : Operation Progress := fun machine =>
  if machine.overrunBy body count then .ok .crashes machine
  else going (enter body count) machine

/-- Calls a builtin function whose arguments are on top of the stack from a slot on. -/
def callBuiltin (builtin : Builtin) (calleeSlot : Nat) : Operation Unit := do
  let machine ← get
  let arguments := (machine.stack.extract (calleeSlot + 1) machine.height).toList
  modify fun machine =>
    { machine with
      height := calleeSlot
      output := machine.output ++ builtin.output arguments }
  push (builtin.result arguments)

/-- Calls the value below a number of arguments. -/
def call (count : Nat) : Operation Progress := fun machine =>
  if machine.height < count + 1 then .error .stackUnderflow machine
  else
    let calleeSlot := machine.height - (count + 1)
    match machine.stack.getD calleeSlot .null with
    | .function body => callFunction body count machine
    | .builtin builtin => going (callBuiltin builtin calleeSlot) machine
    | other => .error (.notCallable other.kind) machine

/-- Leaves the innermost call with a value, which replaces what was called.  To leave the
program ends the run. -/
def leave (value : Value) : Operation Progress := do
  match (← get).callers.back? with
  | none =>
    push value
    modify fun machine => { machine with height := machine.height - 1 }
    return .ends
  | some caller =>
    modify fun machine =>
      { machine with
        height := machine.frame.base - 1
        frame := caller
        callers := machine.callers.pop }
    push value
    return .goesOn

/-- Pops two values and pushes what a function yields of them. -/
def combine (function : Value → Value → Except Fault Value) : Operation Unit := do
  let right ← pop
  let left ← pop
  pushResult (function left right)

/-- Executes an instruction. -/
def execute (opcode : Opcode) (operand : Nat) : Operation Progress :=
  match opcode with
  | .constant => going (pushConstant operand)
  | .null => going (push .null)
  | .true => going (push (.boolean true))
  | .false => going (push (.boolean false))
  | .getLocal => going (pushLocal operand)
  | .setLocal => going (popLocal operand)
  | .getGlobal => going (pushGlobal operand)
  | .setGlobal => going (popGlobal operand)
  | .getBuiltin => going (pushBuiltin operand)
  | .add | .sub | .mul | .div => going (combine (Value.arithmetic opcode))
  | .equal | .notEqual | .greater => going (combine (Value.compare opcode))
  | .negate => going do pushResult (← pop).negated
  | .not => going do push (.boolean !(← pop).isTruthy)
  | .jump => going (jump operand)
  | .jumpNotTruthy => going do
    let condition ← pop
    if !condition.isTruthy then jump operand
  | .call => call operand
  | .returnValue => do
    let value ← pop
    leave value.unwrapped
  | .returnNull => leave .null
  | .array => going (collect operand)
  | .index => going (combine Value.indexed)
  | .pop => going (discard pop)

/-- One step of the machine. -/
def step : Operation Progress := fun machine =>
  match machine.frame.fetch with
  | .stop => if machine.callers.isEmpty then .ok .ends machine else leave .null machine
  | .broken fault => .error fault machine
  | .instruction opcode operand next => execute opcode operand (machine.jump next)

end Operation

end MonkeyLang
