import MonkeyLang.Bytecode.Code

/-!
# Fragments of a stream

A fragment is a list of instructions that belong together, with the number of bytes they take.
Every instruction has a fixed size, so the size of a fragment is known before the targets of
its jumps are, and a jump can be written once, with its target.
-/

set_option autoImplicit false

namespace MonkeyLang

/-- How many bytes a list of instructions takes. -/
def Instruction.totalSize : List Instruction → Nat
  | [] => 0
  | instruction :: rest => instruction.size + totalSize rest

theorem Instruction.totalSize_append (first second : List Instruction) :
    totalSize (first ++ second) = totalSize first + totalSize second := by
  induction first with
  | nil => simp [totalSize]
  | cons instruction rest ih => simp [totalSize, ih, Nat.add_assoc]

/-- Instructions with their size in bytes. -/
structure Fragment where
  instructions : Array Instruction
  size : Nat
  size_eq : size = Instruction.totalSize instructions.toList

namespace Fragment

/-- The fragment without instructions. -/
def empty : Fragment := ⟨#[], 0, rfl⟩

/-- A fragment with one more instruction. -/
def push (fragment : Fragment) (instruction : Instruction) : Fragment where
  instructions := fragment.instructions.push instruction
  size := fragment.size + instruction.size
  size_eq := by simp [fragment.size_eq, Instruction.totalSize_append, Instruction.totalSize]

/-- A fragment with an opcode and its operands behind it. -/
def emit (fragment : Fragment) (opcode : Opcode) (operands : List Nat) : Fragment :=
  fragment.push ⟨opcode, operands⟩

/-- One fragment behind another. -/
def append (first second : Fragment) : Fragment where
  instructions := first.instructions ++ second.instructions
  size := first.size + second.size
  size_eq := by simp [first.size_eq, second.size_eq, Instruction.totalSize_append]

instance : Append Fragment := ⟨append⟩

/-- A fragment of one instruction. -/
def single (opcode : Opcode) (operands : List Nat) : Fragment := empty.emit opcode operands

/-- The bytes of a fragment. -/
def encode (fragment : Fragment) : Code :=
  fragment.instructions.foldl (fun code instruction => code.append instruction.encode) #[]

end Fragment

end MonkeyLang
