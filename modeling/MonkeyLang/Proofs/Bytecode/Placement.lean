import Mathlib.Algebra.Group.Nat.Defs
import MonkeyLang.Compiler.Generate
import MonkeyLang.Proofs.Bytecode.Dispatch

/-!
# Instructions inside a stream

Code is reasoned about in context: a fragment stands at an offset of a larger stream, and
whatever the bytes before and behind it are, a machine at one of its offsets fetches the
instruction that was put there. A fragment that is put together from others stands at an
offset exactly when its parts stand one behind the other.

An operand comes back as it was written as long as it fits its width; a larger one has lost
its high bits (`Instruction.operand`).
-/

set_option autoImplicit false

namespace MonkeyLang

namespace Instruction

/-- An instruction with as many operands as its opcode takes. -/
def Complete (instruction : Instruction) : Prop :=
  instruction.operands.length = instruction.opcode.widths.length

/-- The operand that a machine reads: the first one, without the bits that do not fit. -/
def operand (instruction : Instruction) : Nat :=
  instruction.operands.headD 0 % 256 ^ instruction.opcode.operandSize

theorem operand_of_lt {opcode : Opcode} {value : Nat} (fits : value < 256 ^ opcode.operandSize) :
    (⟨opcode, [value]⟩ : Instruction).operand = value := by
  simpa [operand] using Nat.mod_eq_of_lt fits

theorem encode_length {instruction : Instruction} (complete : instruction.Complete) :
    instruction.encode.length = instruction.size := by
  obtain ⟨opcode, operands⟩ := instruction
  rcases widths_cases opcode with widths | widths | widths <;>
    simp only [Complete, widths, List.length_nil, List.length_cons] at complete
  · obtain rfl := List.length_eq_zero_iff.mp complete
    simp [encode, encodeOperands, size, Opcode.operandSize, widths]
  all_goals
    obtain ⟨value, rfl⟩ := List.length_eq_one_iff.mp complete
    simp [encode, encodeOperands, encodeOperand, size, Opcode.operandSize, widths]

end Instruction

namespace Code

/-- A machine at the offset fetches the instruction. -/
def Holds (code : Code) (offset : Nat) (instruction : Instruction) : Prop :=
  ∀ base locals, Frame.fetch ⟨code, offset, base, locals⟩ =
    .instruction instruction.opcode instruction.operand (offset + instruction.size)

theorem holds_encode {code : Code} (pre post : List UInt8) {instruction : Instruction}
    (complete : instruction.Complete) (bytes : code.toList = pre ++ instruction.encode ++ post) :
    code.Holds pre.length instruction := by
  obtain rfl : code = (pre ++ instruction.encode ++ post).toArray :=
    Array.toList_inj.mp (by simpa using bytes)
  intro base locals
  obtain ⟨opcode, operands⟩ := instruction
  rcases Instruction.widths_cases opcode with widths | widths | widths <;>
    simp only [Instruction.Complete, widths, List.length_nil, List.length_cons] at complete
  · obtain rfl := List.length_eq_zero_iff.mp complete
    simp [Frame.fetch_eq, Instruction.encode, Instruction.encodeOperands, Opcode.ofByte?_byte,
      Opcode.operandSize, widths, readOperands?, Instruction.operand, Instruction.size]
  · obtain ⟨value, rfl⟩ := List.length_eq_one_iff.mp complete
    simp [Frame.fetch_eq, Instruction.encode, Instruction.encodeOperands,
      Instruction.encodeOperand, Opcode.ofByte?_byte, Opcode.operandSize, widths, readOperands?,
      readOperand?, Instruction.operand, Instruction.size]
  · obtain ⟨value, rfl⟩ := List.length_eq_one_iff.mp complete
    have low : (pre ++ opcode.byte :: UInt8.ofNat (value / 256) :: UInt8.ofNat value :: post)[
        pre.length + 1 + 1]? = some (UInt8.ofNat value) := by
      rw [List.getElem?_append_right (by omega)]
      simp [Nat.add_assoc]
    simp [Frame.fetch_eq, Instruction.encode, Instruction.encodeOperands,
      Instruction.encodeOperand, Opcode.ofByte?_byte, Opcode.operandSize, widths, readOperands?,
      readOperand?, readWide?, Instruction.operand, Instruction.size, low]
    omega

end Code

namespace Fragment

/-- A fragment whose instructions all have their operands. -/
def Complete (fragment : Fragment) : Prop :=
  ∀ instruction ∈ fragment.instructions.toList, instruction.Complete

/-- The instructions of a fragment stand in a stream from an offset on. -/
def StandsIn (code : Code) : Nat → List Instruction → Prop
  | _, [] => True
  | offset, instruction :: rest =>
    code.Holds offset instruction ∧ StandsIn code (offset + instruction.size) rest

/-- A fragment stands in a stream at an offset. -/
def StandsAt (fragment : Fragment) (code : Code) (offset : Nat) : Prop :=
  StandsIn code offset fragment.instructions.toList

theorem standsIn_append {code : Code} {first second : List Instruction} {offset : Nat} :
    StandsIn code offset (first ++ second) ↔
      StandsIn code offset first ∧
        StandsIn code (offset + Instruction.totalSize first) second := by
  induction first generalizing offset with
  | nil => simp [StandsIn, Instruction.totalSize]
  | cons instruction rest ih =>
      simp only [List.cons_append, StandsIn, ih, Instruction.totalSize, Nat.add_assoc, and_assoc]

/-! ## Sizes -/

@[simp] theorem instructions_append (first second : Fragment) :
    (first ++ second).instructions = first.instructions ++ second.instructions := rfl

@[simp] theorem size_append (first second : Fragment) :
    (first ++ second).size = first.size + second.size := rfl

/-- The instructions of a fragment determine its size. -/
theorem eq_of_instructions {first second : Fragment}
    (same : first.instructions = second.instructions) : first = second := by
  obtain ⟨instructions, size, counted⟩ := first
  obtain ⟨others, total, summed⟩ := second
  obtain rfl : instructions = others := same
  obtain rfl : size = total := counted.trans summed.symm
  rfl

theorem append_assoc (first second third : Fragment) :
    first ++ second ++ third = first ++ (second ++ third) :=
  eq_of_instructions Array.append_assoc

theorem append_empty (fragment : Fragment) : fragment ++ empty = fragment :=
  eq_of_instructions Array.append_empty

theorem empty_append (fragment : Fragment) : empty ++ fragment = fragment :=
  eq_of_instructions Array.empty_append

theorem append_push (first second : Fragment) (instruction : Instruction) :
    (first ++ second).push instruction = first ++ second.push instruction :=
  eq_of_instructions Array.push_append

@[simp] theorem instructions_push (fragment : Fragment) (instruction : Instruction) :
    (fragment.push instruction).instructions = fragment.instructions.push instruction := rfl

@[simp] theorem size_push (fragment : Fragment) (instruction : Instruction) :
    (fragment.push instruction).size = fragment.size + instruction.size := rfl

@[simp] theorem size_empty : empty.size = 0 := rfl

theorem emit_eq_push (fragment : Fragment) (opcode : Opcode) (operands : List Nat) :
    fragment.emit opcode operands = fragment.push ⟨opcode, operands⟩ := rfl

theorem single_eq_push (opcode : Opcode) (operands : List Nat) :
    single opcode operands = empty.push ⟨opcode, operands⟩ := rfl

@[simp] theorem emitAll_nil (fragment : Fragment) : fragment.emitAll [] = fragment := rfl

@[simp] theorem emitAll_cons (fragment : Fragment) (opcode : Opcode) (opcodes : List Opcode) :
    fragment.emitAll (opcode :: opcodes) = (fragment.push ⟨opcode, []⟩).emitAll opcodes := rfl

theorem emitAll_append (first second : Fragment) (opcodes : List Opcode) :
    (first ++ second).emitAll opcodes = first ++ second.emitAll opcodes := by
  induction opcodes generalizing second with
  | nil => rfl
  | cons opcode opcodes ih =>
      rw [emitAll_cons, emitAll_cons, append_push]
      exact ih _

/-! ## Completeness and place of fragments that are put together -/

@[simp] theorem complete_empty : empty.Complete := by simp [Complete, empty]

@[simp] theorem complete_append {first second : Fragment} :
    (first ++ second).Complete ↔ first.Complete ∧ second.Complete := by
  simp only [Complete, instructions_append, Array.toList_append, List.mem_append, or_imp,
    forall_and]

@[simp] theorem complete_push {fragment : Fragment} {instruction : Instruction} :
    (fragment.push instruction).Complete ↔ fragment.Complete ∧ instruction.Complete := by
  simp only [Complete, instructions_push, Array.toList_push, List.mem_append, List.mem_singleton,
    or_imp, forall_and, forall_eq]

@[simp] theorem standsAt_empty {code : Code} {offset : Nat} : empty.StandsAt code offset :=
  trivial

@[simp] theorem standsAt_append {first second : Fragment} {code : Code} {offset : Nat} :
    (first ++ second).StandsAt code offset ↔
      first.StandsAt code offset ∧ second.StandsAt code (offset + first.size) := by
  simp only [StandsAt, instructions_append, Array.toList_append, standsIn_append, first.size_eq]

@[simp] theorem standsAt_push {fragment : Fragment} {instruction : Instruction} {code : Code}
    {offset : Nat} :
    (fragment.push instruction).StandsAt code offset ↔
      fragment.StandsAt code offset ∧ code.Holds (offset + fragment.size) instruction := by
  simp only [StandsAt, instructions_push, Array.toList_push, standsIn_append, StandsIn,
    fragment.size_eq, and_true]

/-! ## The stream of a fragment -/

theorem encode_toList (fragment : Fragment) :
    fragment.encode.toList = fragment.instructions.toList.flatMap Instruction.encode := by
  have key : ∀ (instructions : List Instruction) (code : Code),
      (instructions.foldl (fun code instruction => code.append instruction.encode) code).toList =
        code.toList ++ instructions.flatMap Instruction.encode := by
    intro instructions
    induction instructions with
    | nil => simp
    | cons instruction rest ih =>
        intro code
        rw [List.foldl_cons, ih]
        simp [Code.append]
  rw [encode, ← Array.foldl_toList, key]
  rfl

theorem standsIn_encode {code : Code} {instructions : List Instruction} (pre post : List UInt8)
    (complete : ∀ instruction ∈ instructions, instruction.Complete)
    (bytes : code.toList = pre ++ instructions.flatMap Instruction.encode ++ post) :
    StandsIn code pre.length instructions := by
  induction instructions generalizing pre with
  | nil => trivial
  | cons instruction rest ih =>
      have head : instruction.Complete := complete _ List.mem_cons_self
      have bytes' : code.toList =
          (pre ++ instruction.encode) ++ rest.flatMap Instruction.encode ++ post := by
        simpa using bytes
      refine ⟨Code.holds_encode pre (rest.flatMap Instruction.encode ++ post) head
        (by simpa using bytes), ?_⟩
      have place := ih _ (fun other member => complete other (List.mem_cons_of_mem _ member)) bytes'
      rwa [List.length_append, Instruction.encode_length head] at place

/-- A complete fragment stands at the start of its own stream. -/
theorem standsAt_encode {fragment : Fragment} (complete : fragment.Complete) :
    fragment.StandsAt fragment.encode 0 :=
  standsIn_encode [] [] complete (by simp [encode_toList])

theorem size_encode {fragment : Fragment} (complete : fragment.Complete) :
    fragment.encode.size = fragment.size := by
  have key : ∀ instructions : List Instruction,
      (∀ instruction ∈ instructions, instruction.Complete) →
        (instructions.flatMap Instruction.encode).length = Instruction.totalSize instructions := by
    intro instructions complete
    induction instructions with
    | nil => rfl
    | cons instruction rest ih =>
        rw [List.flatMap_cons, List.length_append, Instruction.totalSize,
          Instruction.encode_length (complete _ List.mem_cons_self),
          ih fun other member => complete other (List.mem_cons_of_mem _ member)]
  rw [← Array.length_toList, encode_toList, key _ complete, fragment.size_eq]

end Fragment

end MonkeyLang
