/-!
# Opcodes

An opcode is one byte.  The bytes are grouped by purpose, and gaps are left in every group.
Behind the byte stand the operands of the opcode, each of a fixed width.
-/

set_option autoImplicit false

namespace MonkeyLang

/-- What an instruction does. -/
inductive Opcode where
  /-- Pushes a constant. -/
  | constant
  | null
  | true
  | false
  | getLocal
  | setLocal
  | getGlobal
  | setGlobal
  | getBuiltin
  | add
  | sub
  | mul
  | div
  | negate
  | equal
  | notEqual
  | greater
  | not
  | jump
  /-- Pops a condition, and jumps if it does not hold. -/
  | jumpNotTruthy
  | call
  /-- Leaves the function with the value on top of the stack. -/
  | returnValue
  /-- Leaves the function with null. -/
  | returnNull
  /-- Makes an array of the values on top of the stack. -/
  | array
  | index
  | pop
  deriving DecidableEq, Repr, Inhabited

namespace Opcode

/-- All opcodes, in the order of their bytes. -/
def all : List Opcode :=
  [constant, null, true, false, getLocal, setLocal, getGlobal, setGlobal, getBuiltin,
   add, sub, mul, div, negate, equal, notEqual, greater, not, jump, jumpNotTruthy,
   call, returnValue, returnNull, array, index, pop]

/-- The byte of an opcode. -/
def byte : Opcode → UInt8
  | constant => 0x01
  | null => 0x02
  | true => 0x03
  | false => 0x04
  | getLocal => 0x10
  | setLocal => 0x11
  | getGlobal => 0x12
  | setGlobal => 0x13
  | getBuiltin => 0x14
  | add => 0x20
  | sub => 0x21
  | mul => 0x22
  | div => 0x23
  | negate => 0x25
  | equal => 0x30
  | notEqual => 0x31
  | greater => 0x34
  | not => 0x40
  | jump => 0x50
  | jumpNotTruthy => 0x51
  | call => 0x60
  | returnValue => 0x61
  | returnNull => 0x62
  | array => 0x70
  | index => 0x71
  | pop => 0x80

/-- The opcode of a byte. -/
def ofByte? (byte : UInt8) : Option Opcode :=
  match byte.toNat with
  | 0x01 => some constant
  | 0x02 => some null
  | 0x03 => some true
  | 0x04 => some false
  | 0x10 => some getLocal
  | 0x11 => some setLocal
  | 0x12 => some getGlobal
  | 0x13 => some setGlobal
  | 0x14 => some getBuiltin
  | 0x20 => some add
  | 0x21 => some sub
  | 0x22 => some mul
  | 0x23 => some div
  | 0x25 => some negate
  | 0x30 => some equal
  | 0x31 => some notEqual
  | 0x34 => some greater
  | 0x40 => some not
  | 0x50 => some jump
  | 0x51 => some jumpNotTruthy
  | 0x60 => some call
  | 0x61 => some returnValue
  | 0x62 => some returnNull
  | 0x70 => some array
  | 0x71 => some index
  | 0x80 => some pop
  | _ => none

theorem ofByte?_byte (opcode : Opcode) : ofByte? opcode.byte = some opcode := by
  cases opcode <;> rfl

/-- The name of an opcode in listings. -/
def name : Opcode → String
  | constant => "Constant"
  | null => "Null"
  | true => "True"
  | false => "False"
  | getLocal => "GetLocal"
  | setLocal => "SetLocal"
  | getGlobal => "GetGlobal"
  | setGlobal => "SetGlobal"
  | getBuiltin => "GetBuiltin"
  | add => "Add"
  | sub => "Sub"
  | mul => "Mul"
  | div => "Div"
  | negate => "Negate"
  | equal => "Equal"
  | notEqual => "NotEqual"
  | greater => "Greater"
  | not => "Not"
  | jump => "Jump"
  | jumpNotTruthy => "JumpNotTruthy"
  | call => "Call"
  | returnValue => "ReturnValue"
  | returnNull => "Return"
  | array => "Array"
  | index => "Index"
  | pop => "Pop"

/-- The opcode with a given name. -/
def ofName? (name : String) : Option Opcode := all.find? (·.name == name)

/-- How an operator is written in programs; a question mark for what is no operator. -/
def sign : Opcode → String
  | add => "+"
  | sub => "-"
  | mul => "*"
  | div => "/"
  | equal => "=="
  | notEqual => "!="
  | greater => ">"
  | negate => "-"
  | not => "!"
  | _ => "?"

/-- The widths of the operands in bytes, in their order. -/
def widths : Opcode → List Nat
  | constant | getGlobal | setGlobal | jump | jumpNotTruthy | array => [2]
  | getLocal | setLocal | getBuiltin | call => [1]
  | _ => []

/-- How many bytes of operands follow the byte of an opcode. -/
def operandSize (opcode : Opcode) : Nat := opcode.widths.foldr Nat.add 0

end Opcode

end MonkeyLang
