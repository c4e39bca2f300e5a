import MonkeyLang.Proofs.Bytecode.Placement

/-!
# Reading a stream back

A stream that was put together from instructions is read back from its start to its end, one
instruction after another (`Code.Decodes`). Opcodes come back as they were written, and operands
without the bits beyond their widths (`Instruction.fitted`).

Of the instructions that are read back two kinds have the index of a global slot for operand. The
indices, in the order of these instructions, are what a stream touches (`Code.Touches`).
-/

set_option autoImplicit false

namespace MonkeyLang

namespace Instruction

/-- The instruction as it is read back. -/
def fitted (instruction : Instruction) : Instruction :=
  { instruction with
    operands := instruction.operands.zipWith (fun operand width => operand % 256 ^ width)
      instruction.opcode.widths }

/-- The global slot that an instruction reads or writes. -/
def slot? : Instruction → Option Nat
  | ⟨.getGlobal, [slot]⟩ => some slot
  | ⟨.setGlobal, [slot]⟩ => some slot
  | _ => none

theorem slot?_of_ne {instruction : Instruction} (reads : instruction.opcode ≠ .getGlobal)
    (writes : instruction.opcode ≠ .setGlobal) : instruction.slot? = none := by
  obtain ⟨opcode, operands⟩ := instruction
  unfold slot?
  split
  · next same => exact absurd (congrArg Instruction.opcode same) reads
  · next same => exact absurd (congrArg Instruction.opcode same) writes
  · rfl

theorem slot?_fitted {instruction : Instruction} (complete : instruction.Complete) :
    instruction.fitted.slot? = instruction.slot?.map (· % Limit.globals.bound) := by
  obtain ⟨opcode, operands⟩ := instruction
  by_cases reads : opcode = .getGlobal
  · subst reads
    obtain ⟨slot, rfl⟩ := List.length_eq_one_iff.mp complete
    rfl
  by_cases writes : opcode = .setGlobal
  · subst writes
    obtain ⟨slot, rfl⟩ := List.length_eq_one_iff.mp complete
    rfl
  · rw [slot?_of_ne reads writes, slot?_of_ne (by exact reads) (by exact writes)]
    rfl

end Instruction

namespace Code

theorem decode_encode {code : Code} (pre post : List UInt8) {instruction : Instruction}
    (complete : instruction.Complete) (bytes : code.toList = pre ++ instruction.encode ++ post) :
    code.decode pre.length = .ok (some (instruction.fitted, instruction.size)) := by
  obtain rfl : code = (pre ++ instruction.encode ++ post).toArray :=
    Array.toList_inj.mp (by simpa using bytes)
  obtain ⟨opcode, operands⟩ := instruction
  rcases Instruction.widths_cases opcode with widths | widths | widths <;>
    simp only [Instruction.Complete, widths, List.length_nil, List.length_cons] at complete
  · obtain rfl := List.length_eq_zero_iff.mp complete
    simp [decode, Instruction.encode, Instruction.encodeOperands, Opcode.ofByte?_byte,
      Opcode.operandSize, widths, readOperands?, Instruction.fitted, Instruction.size]
  · obtain ⟨value, rfl⟩ := List.length_eq_one_iff.mp complete
    simp [decode, Instruction.encode, Instruction.encodeOperands, Instruction.encodeOperand,
      Opcode.ofByte?_byte, Opcode.operandSize, widths, readOperands?, readOperand?,
      Instruction.fitted, Instruction.size]
    omega
  · obtain ⟨value, rfl⟩ := List.length_eq_one_iff.mp complete
    have low : (pre ++ opcode.byte :: UInt8.ofNat (value / 256) :: UInt8.ofNat value :: post)[
        pre.length + 1 + 1]? = some (UInt8.ofNat value) := by
      rw [List.getElem?_append_right (by omega)]
      simp [Nat.add_assoc]
    simp [decode, Instruction.encode, Instruction.encodeOperands, Instruction.encodeOperand,
      Opcode.ofByte?_byte, Opcode.operandSize, widths, readOperands?, readOperand?, readWide?,
      Instruction.fitted, Instruction.size, low]
    omega

/-- The stream has these instructions from an offset on to its end. -/
inductive Decodes (code : Code) : Nat → List Instruction → Prop where
  | stop : Decodes code code.size []
  | next {offset width : Nat} {instruction : Instruction} {rest : List Instruction}
      (found : code.decode offset = .ok (some (instruction, width)))
      (behind : Decodes code (offset + width) rest) : Decodes code offset (instruction :: rest)

theorem decode_size (code : Code) : code.decode code.size = .ok none := by
  simp [decode]

/-- A stream is read back in one way only. -/
theorem Decodes.unique {code : Code} {offset : Nat} {first second : List Instruction}
    (reads : code.Decodes offset first) (also : code.Decodes offset second) : first = second := by
  induction reads generalizing second with
  | stop =>
      cases also with
      | stop => rfl
      | next found _ =>
          rw [decode_size] at found
          cases found
  | next found _ ih =>
      cases also with
      | stop =>
          rw [decode_size] at found
          cases found
      | next again behind =>
          rw [found] at again
          cases again
          rw [ih behind]

/-- The global slots that the instructions of a stream read and write, in their order. -/
def Touches (code : Code) (slots : List Nat) : Prop :=
  ∃ instructions, code.Decodes 0 instructions ∧
    instructions.filterMap Instruction.slot? = slots

theorem Touches.unique {code : Code} {first second : List Nat} (touches : code.Touches first)
    (also : code.Touches second) : first = second := by
  obtain ⟨instructions, reads, rfl⟩ := touches
  obtain ⟨others, again, rfl⟩ := also
  rw [reads.unique again]

end Code

namespace Fragment

/-- The indices of global slots that were written into a fragment, in their order. -/
def slots (fragment : Fragment) : List Nat :=
  fragment.instructions.toList.filterMap Instruction.slot?

@[simp] theorem slots_empty : empty.slots = [] := rfl

@[simp] theorem slots_append (first second : Fragment) :
    (first ++ second).slots = first.slots ++ second.slots := by
  simp only [slots, instructions_append, Array.toList_append, List.filterMap_append]

@[simp] theorem slots_push (fragment : Fragment) (instruction : Instruction) :
    (fragment.push instruction).slots = fragment.slots ++ instruction.slot?.toList := by
  simp only [slots, instructions_push, Array.toList_push, List.filterMap_append]
  cases found : instruction.slot? <;> simp [found]

theorem decodes_encode {code : Code} {instructions : List Instruction} (pre : List UInt8)
    (complete : ∀ instruction ∈ instructions, instruction.Complete)
    (bytes : code.toList = pre ++ instructions.flatMap Instruction.encode) :
    code.Decodes pre.length (instructions.map Instruction.fitted) := by
  induction instructions generalizing pre with
  | nil =>
      have size : pre.length = code.size := by
        rw [← Array.length_toList, bytes]
        simp
      rw [size]
      exact .stop
  | cons instruction rest ih =>
      have head : instruction.Complete := complete _ List.mem_cons_self
      have split : code.toList =
          pre ++ instruction.encode ++ rest.flatMap Instruction.encode := by
        simpa using bytes
      refine .next (Code.decode_encode pre _ head split) ?_
      rw [← Instruction.encode_length head, ← List.length_append]
      exact ih _ (fun other member => complete other (List.mem_cons_of_mem _ member)) split

/-- The stream of a complete fragment is read back as its instructions. -/
theorem Complete.decodes {fragment : Fragment} (complete : fragment.Complete) :
    fragment.encode.Decodes 0 (fragment.instructions.toList.map Instruction.fitted) :=
  decodes_encode [] complete (by rw [encode_toList, List.nil_append])

/-- The stream of a fragment touches the slots that were written into it, as far as they fit. -/
theorem touches_encode {fragment : Fragment} (complete : fragment.Complete) :
    fragment.encode.Touches (fragment.slots.map (· % Limit.globals.bound)) := by
  refine ⟨_, complete.decodes, ?_⟩
  unfold Complete at complete
  unfold slots
  generalize fragment.instructions.toList = instructions at complete ⊢
  induction instructions with
  | nil => rfl
  | cons instruction rest ih =>
      have fitted := Instruction.slot?_fitted (complete _ List.mem_cons_self)
      have remaining := ih fun other member => complete other (List.mem_cons_of_mem _ member)
      cases found : instruction.slot? with
      | none =>
          rw [found] at fitted
          rw [List.map_cons, List.filterMap_cons_none fitted, List.filterMap_cons_none found,
            remaining]
      | some slot =>
          rw [found] at fitted
          rw [List.map_cons, List.filterMap_cons_some fitted, List.filterMap_cons_some found,
            remaining, List.map_cons]

end Fragment

end MonkeyLang
