import MonkeyLang.Bytecode.Opcode

/-!
# Streams of instructions

An instruction is written as the byte of its opcode and its operands, the high byte of a wide
operand first.  An operand that is too large for its width loses its high bits.  A stream is
the bytes of instructions one after another, and a jump names the offset of the byte at which
to go on.
-/

set_option autoImplicit false

namespace MonkeyLang

/-- An opcode with its operands. -/
structure Instruction where
  opcode : Opcode
  operands : List Nat
  deriving DecidableEq, Repr, Inhabited

/-- A stream of bytes. -/
abbrev Code := Array UInt8

namespace Instruction

/-- An operand in bytes, the high one first. -/
def encodeOperand (operand width : Nat) : List UInt8 :=
  if width = 2 then [UInt8.ofNat (operand / 256), UInt8.ofNat operand]
  else [UInt8.ofNat operand]

/-- The operands in bytes.  Operands without a width are left out, and so are those that are
missing. -/
def encodeOperands : List Nat → List Nat → List UInt8
  | operand :: operands, width :: widths =>
    encodeOperand operand width ++ encodeOperands operands widths
  | _, _ => []

/-- An instruction in bytes. -/
def encode (instruction : Instruction) : List UInt8 :=
  instruction.opcode.byte :: encodeOperands instruction.operands instruction.opcode.widths

/-- How many bytes an instruction takes that has all its operands. -/
def size (instruction : Instruction) : Nat := 1 + instruction.opcode.operandSize

/-- An opcode with its operands as text. -/
def text (instruction : Instruction) : String :=
  String.intercalate " " (instruction.opcode.name :: instruction.operands.map toString)

end Instruction

namespace Code

/-- The number in two bytes, the high one first. -/
def readWide? (code : Code) (offset : Nat) : Option Nat :=
  match code[offset]?, code[offset + 1]? with
  | some high, some low => some (high.toNat * 256 + low.toNat)
  | _, _ => none

/-- An operand of a given width. -/
def readOperand? (code : Code) (offset width : Nat) : Option Nat :=
  if width = 2 then readWide? code offset else code[offset]?.map UInt8.toNat

/-- Operands of given widths and the offset behind them, unless the stream ends before. -/
def readOperands? (code : Code) (offset : Nat) : List Nat → Option (List Nat × Nat)
  | [] => some ([], offset)
  | width :: widths =>
    match readOperand? code offset width with
    | none => none
    | some operand =>
      match readOperands? code (offset + width) widths with
      | none => none
      | some (operands, behind) => some (operand :: operands, behind)

/-- The instruction at an offset and its width in bytes.  There is none at the end of the
stream and where the operands are cut off; a byte that is no opcode is an error. -/
def decode (code : Code) (offset : Nat) : Except UInt8 (Option (Instruction × Nat)) :=
  match code[offset]? with
  | none => .ok none
  | some byte =>
    match Opcode.ofByte? byte with
    | none => .error byte
    | some opcode =>
      match readOperands? code (offset + 1) opcode.widths with
      | none => .ok none
      | some (operands, behind) => .ok (some (⟨opcode, operands⟩, behind - offset))

/-- The stream with bytes put behind it. -/
def append (code : Code) (bytes : List UInt8) : Code := code ++ bytes

/-- Puts bytes behind the stream.  Yields the offset at which they start. -/
def emit (code : Code) (bytes : List UInt8) : Nat × Code := (code.size, code.append bytes)

/-- The stream without what stands from an offset on. -/
def truncate (code : Code) (size : Nat) : Code := code.take size

/-- The stream with bytes written over those from an offset on; the stream keeps its size. -/
def overwrite (code : Code) (offset : Nat) : List UInt8 → Code
  | [] => code
  | byte :: bytes => overwrite (code.setIfInBounds offset byte) (offset + 1) bytes

/-- The stream of a list of instructions. -/
def ofInstructions (instructions : List Instruction) : Code :=
  (instructions.flatMap Instruction.encode).toArray

/-! ## Listings -/

/-- A number in at least four decimal digits. -/
def fourDigits (number : Nat) : String :=
  let digits := Nat.toDigits 10 number
  String.ofList (List.replicate (4 - digits.length) '0' ++ digits)

/-- A byte in hexadecimal, as programs write it. -/
def byteText (byte : UInt8) : String :=
  let digits := Nat.toDigits 16 byte.toNat
  "0x" ++ String.ofList (List.replicate (2 - digits.length) '0' ++ digits)

/-- The operands that are read end at or behind the place where they start. -/
theorem le_of_readOperands? {code : Code} {offset behind : Nat} {widths operands : List Nat}
    (found : readOperands? code offset widths = some (operands, behind)) : offset ≤ behind := by
  induction widths generalizing offset operands with
  | nil =>
    simp only [readOperands?, Option.some.injEq, Prod.mk.injEq] at found
    exact Nat.le_of_eq found.2
  | cons width widths ih =>
    simp only [readOperands?] at found
    split at found
    · contradiction
    · split at found
      · contradiction
      · next equal =>
        simp only [Option.some.injEq, Prod.mk.injEq] at found
        have := ih (found.2 ▸ equal)
        omega

/-- Every instruction takes at least one byte. -/
theorem width_pos_of_decode {code : Code} {offset width : Nat} {instruction : Instruction}
    (found : decode code offset = .ok (some (instruction, width))) : 0 < width := by
  unfold decode at found
  split at found
  · simp at found
  · split at found
    · simp at found
    · split at found
      · simp at found
      · next operands =>
        simp only [Except.ok.injEq, Option.some.injEq, Prod.mk.injEq] at found
        have := le_of_readOperands? operands
        omega

/-- The lines of a listing from an offset on: each instruction with its offset.  A byte that
is no opcode takes a line of its own; where operands are cut off the listing ends. -/
def linesFrom (code : Code) (offset : Nat) (lines : Array String) : Array String :=
  if _inside : offset < code.size then
    match _found : decode code offset with
    | .ok (some (instruction, width)) =>
      linesFrom code (offset + width) (lines.push s!"{fourDigits offset} {instruction.text}\n")
    | .ok none => lines.push s!"{fourDigits offset} <truncated>\n"
    | .error byte =>
      linesFrom code (offset + 1)
        (lines.push s!"{fourDigits offset} <unknown opcode {byteText byte}>\n")
  else lines
termination_by code.size - offset
decreasing_by
  · have := width_pos_of_decode _found
    omega
  · omega

/-- The listing of a stream. -/
def listing (code : Code) : String := String.join (linesFrom code 0 #[]).toList

end Code

end MonkeyLang
