import MonkeyLang.Bytecode.Code

/-!
# Buffers

The code of a function is written into a buffer, instruction by instruction.  A buffer remembers
the opcode and the offset of the instruction that was written last, and of the one that was the last
before it.  So a trailing instruction can be taken back or written over.  Taken back, it leaves the
earlier one as the last, also as the one before the last.

Bytes can only be written over others; nothing is written behind the end in this way.
-/

set_option autoImplicit false

namespace MonkeyLang

/-- The operand of a jump as long as its target is not known. -/
def Instruction.placeholder : Nat := 0xFFFF

/-- An instruction that was put into a buffer. -/
structure Emitted where
  opcode : Opcode
  position : Nat
  deriving DecidableEq, Repr

/-- The code of a function while it is written. -/
structure Buffer where
  code : Code
  last : Option Emitted
  previous : Option Emitted
  deriving DecidableEq, Repr

namespace Buffer

/-- The buffer without code. -/
def empty : Buffer := ⟨#[], none, none⟩

/-- Puts an instruction behind the code.  Yields the offset at which it starts. -/
def emit (buffer : Buffer) (instruction : Instruction) : Nat × Buffer :=
  let (position, code) := buffer.code.emit instruction.encode
  (position, ⟨code, some ⟨instruction.opcode, position⟩, buffer.last⟩)

/-- Whether the last instruction has an opcode. -/
def endsWith (buffer : Buffer) (opcode : Opcode) : Bool :=
  match buffer.last with
  | some last => last.opcode == opcode
  | none => false

/-- Takes the last instruction back. -/
def removeLast (buffer : Buffer) : Buffer :=
  match buffer.last with
  | some last =>
    { buffer with code := buffer.code.truncate last.position, last := buffer.previous }
  | none => buffer

/-- Writes an instruction over what stands at an offset, if the code reaches as far. -/
def replace? (buffer : Buffer) (position : Nat) (instruction : Instruction) : Option Buffer :=
  if position + instruction.encode.length ≤ buffer.code.size then
    some { buffer with code := buffer.code.overwrite position instruction.encode }
  else none

/-- Writes an instruction without operands over the last one. -/
def replaceLast? (buffer : Buffer) (opcode : Opcode) : Option Buffer :=
  match buffer.last with
  | some last =>
    (buffer.replace? last.position ⟨opcode, []⟩).map fun buffer =>
      { buffer with last := some ⟨opcode, last.position⟩ }
  | none => some buffer

end Buffer

end MonkeyLang
