import MonkeyLang.Machine.Step

/-!
# What a machine fetches

A machine looks an opcode up in a table and takes the bytes of its operands in one slice. The rest
of the program knows the opcodes case by case and reads operands one after another, each by its
width. The table has the same opcodes (`Opcode.dispatch?_eq_ofByte?`), and the number in a slice is
the first operand that is read (`Code.slice?_operandSize`); so what a machine fetches can be told
without the table and the slice (`Frame.fetch_eq`).

From this it follows that a listing shows what a machine runs: at every offset of every stream, also
in the middle of an instruction and behind the end, a machine and `Code.decode` agree on the
instruction, on where the next one starts, and on what is wrong if there is no instruction
(`Code.fetch_agrees_decode`).
-/

set_option autoImplicit false

namespace MonkeyLang

namespace Opcode

/-- The byte of an opcode is the only one that stands for it. -/
theorem byte_of_ofByte? {byte : UInt8} {opcode : Opcode} (found : ofByte? byte = some opcode) :
    opcode.byte = byte := by
  unfold ofByte? at found
  split at found
  all_goals
    first
    | contradiction
    | cases found
      next number => exact UInt8.toNat_inj.mp number.symm

theorem toList_dispatchTable :
    dispatchTable.toList = (List.range 256).map fun byte => ofByte? (UInt8.ofNat byte) := by
  decide +kernel

/-- An opcode is in the table of the machine at its byte, and nothing else is. -/
theorem dispatch?_eq_ofByte? (byte : UInt8) : dispatch? byte = ofByte? byte := by
  have inside : byte.toNat < 256 := byte.toNat_lt
  rw [dispatch?, Array.getD_eq_getD_getElem?, ← Array.getElem?_toList, toList_dispatchTable]
  simp [inside]

end Opcode

/-- No opcode takes more than one operand, and none is wider than two bytes. -/
theorem Instruction.widths_cases (opcode : Opcode) :
    opcode.widths = [] ∨ opcode.widths = [1] ∨ opcode.widths = [2] := by
  cases opcode <;> simp [Opcode.widths]

namespace Code

variable {code : Code} {offset : Nat}

theorem slice?_zero (inside : offset ≤ code.size) : code.slice? offset 0 = some [] := by
  simp [slice?, inside]

/-- A slice is its first byte and the slice behind it. -/
theorem slice?_succ (code : Code) (offset size : Nat) :
    code.slice? offset (size + 1) =
      code[offset]?.bind fun byte => (code.slice? (offset + 1) size).map (byte :: ·) := by
  have same : offset + 1 + size = offset + (size + 1) := by omega
  unfold slice?
  rw [same]
  by_cases whole : offset + (size + 1) ≤ code.size
  · have first : offset < code.size := by omega
    rw [if_pos whole, if_pos whole, Array.getElem?_eq_getElem first]
    have front : offset < code.toList.length := first
    have count : offset + (size + 1) - offset = offset + (size + 1) - (offset + 1) + 1 := by omega
    simp only [Array.toList_extract, List.extract_eq_take_drop, Option.map_some, Option.bind_some]
    rw [List.drop_eq_getElem_cons front, count, List.take_succ_cons]
    rfl
  · rw [if_neg whole, if_neg whole]
    cases code[offset]? <;> rfl

/-- The number in the slice behind an opcode is its first operand. -/
theorem slice?_operandSize (inside : offset ≤ code.size) (opcode : Opcode) :
    (code.slice? offset opcode.operandSize).map operandIn =
      (code.readOperands? offset opcode.widths).map fun read => read.1.headD 0 := by
  have behind {position : Nat} {byte : UInt8} (there : code[position]? = some byte) :
      code.slice? (position + 1) 0 = some [] :=
    slice?_zero (Array.getElem?_eq_some_iff.mp there).1
  rcases Instruction.widths_cases opcode with widths | widths | widths <;>
    simp only [widths, Opcode.operandSize, List.foldr, readOperands?, readOperand?]
  · rw [slice?_zero inside]
    rfl
  · rw [if_neg (by decide), show Nat.add 1 0 = 0 + 1 from rfl, slice?_succ]
    cases only : code[offset]? with
    | none => rfl
    | some byte =>
        rw [Option.bind_some, behind only]
        rfl
  · rw [if_pos trivial, show Nat.add 2 0 = 0 + 1 + 1 from rfl, slice?_succ, slice?_succ]
    unfold readWide?
    cases high : code[offset]? with
    | none => rfl
    | some byte =>
        cases low : code[offset + 1]? with
        | none => rfl
        | some other =>
            rw [Option.bind_some, Option.bind_some, behind low]
            rfl

end Code

/-- What stands at the position of a frame, with the operands read one by one. -/
theorem Frame.fetch_eq (frame : Frame) :
    frame.fetch =
      match frame.code[frame.position]? with
      | none => .stop
      | some byte =>
        match Opcode.ofByte? byte with
        | none => .broken (.unknownOpcode byte frame.position)
        | some opcode =>
          match frame.code.readOperands? (frame.position + 1) opcode.widths with
          | none => .broken (.truncatedInstruction opcode frame.position)
          | some (operands, _) =>
            .instruction opcode (operands.headD 0) (frame.position + 1 + opcode.operandSize) := by
  unfold Frame.fetch
  cases there : frame.code[frame.position]? with
  | none => rfl
  | some byte =>
      dsimp only
      rw [Opcode.dispatch?_eq_ofByte?]
      cases Opcode.ofByte? byte with
      | none => rfl
      | some opcode =>
          have inside : frame.position + 1 ≤ frame.code.size :=
            (Array.getElem?_eq_some_iff.mp there).1
          have same := Code.slice?_operandSize inside opcode
          dsimp only
          cases sliced : frame.code.slice? (frame.position + 1) opcode.operandSize with
          | none =>
              cases read : frame.code.readOperands? (frame.position + 1) opcode.widths with
              | none => rfl
              | some _ =>
                  rw [sliced, read] at same
                  cases same
          | some bytes =>
              cases read : frame.code.readOperands? (frame.position + 1) opcode.widths with
              | none =>
                  rw [sliced, read] at same
                  cases same
              | some operands =>
                  rw [sliced, read] at same
                  dsimp only
                  rw [Option.some.inj same]

/-! ## Fetching and decoding -/

namespace Code

variable {code : Code} {offset : Nat}

/-- Operands end as far behind their start as they are wide together. -/
theorem behind_of_readOperands? {behind : Nat} {widths operands : List Nat}
    (found : code.readOperands? offset widths = some (operands, behind)) :
    behind = offset + widths.foldr Nat.add 0 := by
  induction widths generalizing offset operands with
  | nil =>
      cases found
      rfl
  | cons width widths ih =>
      simp only [readOperands?] at found
      split at found
      · contradiction
      · split at found
        · contradiction
        · next rest =>
            cases found
            rw [ih rest, Nat.add_assoc]
            rfl

/-- What can be read at an offset is what a machine fetches there. -/
theorem fetch_of_decode {width : Nat} {instruction : Instruction}
    (found : code.decode offset = .ok (some (instruction, width))) (base locals : Nat) :
    Frame.fetch ⟨code, offset, base, locals⟩ =
      .instruction instruction.opcode (instruction.operands.headD 0) (offset + width) := by
  rw [Frame.fetch_eq]
  dsimp only
  unfold decode at found
  cases there : code[offset]? with
  | none =>
      rw [there] at found
      cases found
  | some byte =>
      rw [there] at found
      dsimp only at found ⊢
      cases named : Opcode.ofByte? byte with
      | none =>
          rw [named] at found
          cases found
      | some opcode =>
          rw [named] at found
          dsimp only at found ⊢
          cases read : code.readOperands? (offset + 1) opcode.widths with
          | none =>
              rw [read] at found
              cases found
          | some result =>
              rw [read] at found
              cases found
              have behind : result.2 = offset + 1 + opcode.operandSize :=
                behind_of_readOperands? read
              have next : offset + (result.2 - offset) = offset + 1 + opcode.operandSize := by omega
              rw [next]

/-- A byte that cannot be read as an opcode is not known to a machine either. -/
theorem fetch_of_decode_error {byte : UInt8} (found : code.decode offset = .error byte)
    (base locals : Nat) :
    Frame.fetch ⟨code, offset, base, locals⟩ = .broken (.unknownOpcode byte offset) := by
  rw [Frame.fetch_eq]
  dsimp only
  unfold decode at found
  cases there : code[offset]? with
  | none =>
      rw [there] at found
      cases found
  | some other =>
      rw [there] at found
      dsimp only at found ⊢
      cases named : Opcode.ofByte? other with
      | none =>
          rw [named] at found
          cases found
          rfl
      | some opcode =>
          rw [named] at found
          dsimp only at found
          split at found <;> cases found

/-- Where nothing can be read although the stream goes on, a machine finds an opcode whose operands
are cut off. -/
theorem fetch_of_decode_none (found : code.decode offset = .ok none) (inside : offset < code.size)
    (base locals : Nat) :
    ∃ opcode : Opcode, code[offset]? = some opcode.byte ∧
      Frame.fetch ⟨code, offset, base, locals⟩ =
        .broken (.truncatedInstruction opcode offset) := by
  rw [Frame.fetch_eq]
  dsimp only
  unfold decode at found
  rw [Array.getElem?_eq_getElem inside] at found ⊢
  dsimp only at found ⊢
  cases named : Opcode.ofByte? code[offset] with
  | none =>
      rw [named] at found
      cases found
  | some opcode =>
      rw [named] at found
      dsimp only at found ⊢
      cases read : code.readOperands? (offset + 1) opcode.widths with
      | none => exact ⟨opcode, by rw [Opcode.byte_of_ofByte? named], rfl⟩
      | some result =>
          rw [read] at found
          cases found

/-- At the end of a stream there is nothing to read. -/
theorem decode_of_size_le (beyond : code.size ≤ offset) : code.decode offset = .ok none := by
  unfold decode
  rw [Array.getElem?_eq_none beyond]

/-- At the end of a stream a machine stops. -/
theorem fetch_of_size_le (beyond : code.size ≤ offset) (base locals : Nat) :
    Frame.fetch ⟨code, offset, base, locals⟩ = .stop := by
  rw [Frame.fetch_eq]
  dsimp only
  rw [Array.getElem?_eq_none beyond]

/-- A machine and a listing read the same at every offset. The machine fetches an instruction
exactly where one is decoded, with the first operand or zero, and goes on behind the bytes that were
decoded; it stumbles over a byte exactly where this byte is no opcode; it finds operands cut off
exactly where nothing is decoded in front of the end; and it stops exactly where nothing is decoded
because the stream has ended. -/
theorem fetch_agrees_decode (code : Code) (offset base locals : Nat) :
    (∀ opcode operand next,
      Frame.fetch ⟨code, offset, base, locals⟩ = .instruction opcode operand next ↔
        ∃ operands width, code.decode offset = .ok (some (⟨opcode, operands⟩, width)) ∧
          operands.headD 0 = operand ∧ offset ≤ next ∧ width = next - offset) ∧
    (∀ byte position,
      Frame.fetch ⟨code, offset, base, locals⟩ = .broken (.unknownOpcode byte position) ↔
        code.decode offset = .error byte ∧ position = offset) ∧
    (∀ position,
      (∃ opcode, Frame.fetch ⟨code, offset, base, locals⟩ =
          .broken (.truncatedInstruction opcode position)) ↔
        code.decode offset = .ok none ∧ offset < code.size ∧ position = offset) ∧
    (Frame.fetch ⟨code, offset, base, locals⟩ = .stop ↔
      code.decode offset = .ok none ∧ code.size ≤ offset) := by
  -- Each of the four ways decoding can go comes with what is fetched, so that an equation on the
  -- one side decides the other.
  cases found : code.decode offset with
  | error byte =>
      rw [fetch_of_decode_error found]
      simp [eq_comm]
  | ok decoded =>
      cases decoded with
      | none =>
          rcases Nat.lt_or_ge offset code.size with inside | beyond
          · obtain ⟨opcode, -, fetched⟩ := fetch_of_decode_none found inside base locals
            rw [fetched]
            simp [inside, eq_comm]
          · rw [fetch_of_size_le beyond]
            simp [beyond]
      | some read =>
          obtain ⟨⟨opcode, operands⟩, width⟩ := read
          rw [fetch_of_decode found]
          refine ⟨fun other operand next => ⟨fun same => ?_, ?_⟩, by simp, by simp, by simp⟩
          · cases same
            exact ⟨operands, width, rfl, rfl, Nat.le_add_right .., by omega⟩
          · rintro ⟨_, _, same, rfl, reaches, rfl⟩
            cases same
            rw [Nat.add_sub_cancel' reaches]

end Code

end MonkeyLang
