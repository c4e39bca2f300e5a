import Mathlib.Algebra.GroupWithZero.Nat
import Mathlib.Data.List.Forall2
import MonkeyLang.Proofs.Bytecode.Decoding
import MonkeyLang.Proofs.Number.Digits

/-!
# Streams and the instructions they consist of

Instructions whose operands fit are put behind a stream one after another. Each of them starts where
the stream ended before it was put there, and that is where it is found again: to walk over the
stream yields the same instructions at the same offsets and ends where the stream ends
(`Code.walkFrom`), and the listing has a line for each of them. To write an instruction over one
that has the same opcode changes this entry and no other.

The other way round the bytes of a stream over which one can walk are those of the instructions that
are found on the way (`Code.Decodes.bytes`), since no two instructions have the same bytes and no
two rows of bytes are read as the same instruction. Both directions are put together in
`Code.instructions_lossless`.
-/

set_option autoImplicit false

namespace MonkeyLang

/-! ## Single instructions -/

namespace Instruction

/-- The instruction has the operands that its opcode takes, and each of them fits its width. -/
def Encodable (instruction : Instruction) : Prop :=
  List.Forall₂ (fun operand width => operand < 256 ^ width) instruction.operands
    instruction.opcode.widths

variable {instruction : Instruction}

theorem Encodable.complete (encodable : instruction.Encodable) : instruction.Complete :=
  List.Forall₂.length_eq encodable

/-- An instruction whose operands fit is read back as it was. -/
theorem Encodable.fitted_eq (encodable : instruction.Encodable) :
    instruction.fitted = instruction := by
  have same {operands widths : List Nat}
      (fit : List.Forall₂ (fun operand width => operand < 256 ^ width) operands widths) :
      operands.zipWith (fun operand width => operand % 256 ^ width) widths = operands := by
    induction fit with
    | nil => rfl
    | cons fits _ ih => rw [List.zipWith_cons_cons, ih, Nat.mod_eq_of_lt fits]
  rw [fitted, same encodable]

end Instruction

namespace Code

variable {code : Code} {offset : Nat}

theorem drop_of_getElem? {byte : UInt8} (there : code[offset]? = some byte) :
    code.toList.drop offset = byte :: code.toList.drop (offset + 1) := by
  obtain ⟨inside, rfl⟩ := Array.getElem?_eq_some_iff.mp there
  exact List.drop_eq_getElem_cons inside

/-- The bytes of an operand are those that it is read from. -/
theorem bytes_of_readOperand? {width operand : Nat} (known : width = 1 ∨ width = 2)
    (found : code.readOperand? offset width = some operand) :
    operand < 256 ^ width ∧
      code.toList.drop offset =
        Instruction.encodeOperand operand width ++ code.toList.drop (offset + width) := by
  rcases known with rfl | rfl
  · rw [readOperand?, if_neg (by decide)] at found
    obtain ⟨byte, there, rfl⟩ := Option.map_eq_some_iff.mp found
    refine ⟨byte.toNat_lt, ?_⟩
    rw [drop_of_getElem? there, Instruction.encodeOperand, if_neg (by decide), UInt8.ofNat_toNat]
    rfl
  · rw [readOperand?, if_pos rfl] at found
    unfold readWide? at found
    split at found
    · next high low above below =>
        cases found
        have top : (high.toNat * 256 + low.toNat) / 256 = high.toNat := by
          have := low.toNat_lt
          omega
        have bottom : UInt8.ofNat (high.toNat * 256 + low.toNat) = low := by
          refine UInt8.toNat_inj.mp ?_
          have := low.toNat_lt
          rw [UInt8.toNat_ofNat']
          omega
        refine ⟨?_, ?_⟩
        · have := high.toNat_lt
          have := low.toNat_lt
          omega
        · rw [drop_of_getElem? above, drop_of_getElem? below, Instruction.encodeOperand,
            if_pos rfl, top, bottom, UInt8.ofNat_toNat]
          rfl
    · contradiction

theorem bytes_of_readOperands? {widths operands : List Nat} {behind : Nat}
    (known : ∀ width ∈ widths, width = 1 ∨ width = 2)
    (found : code.readOperands? offset widths = some (operands, behind)) :
    List.Forall₂ (fun operand width => operand < 256 ^ width) operands widths ∧
      code.toList.drop offset =
        Instruction.encodeOperands operands widths ++ code.toList.drop behind := by
  induction widths generalizing offset operands with
  | nil =>
      cases found
      exact ⟨.nil, rfl⟩
  | cons width widths ih =>
      simp only [readOperands?] at found
      split at found
      · contradiction
      · next operand first =>
          split at found
          · contradiction
          · next others _ rest =>
              cases found
              obtain ⟨fits, bytes⟩ := bytes_of_readOperand? (known width (by simp)) first
              obtain ⟨fit, more⟩ := ih (fun width member => known width (by simp [member])) rest
              refine ⟨.cons fits fit, ?_⟩
              rw [bytes, more, Instruction.encodeOperands, List.append_assoc]

/-- An instruction that is read has operands that fit, and its bytes are those it is read from. -/
theorem bytes_of_decode {instruction : Instruction} {width : Nat}
    (found : code.decode offset = .ok (some (instruction, width))) :
    instruction.Encodable ∧ width = instruction.size ∧
      code.toList.drop offset = instruction.encode ++ code.toList.drop (offset + width) := by
  unfold decode at found
  split at found
  · cases found
  · next byte there =>
      split at found
      · cases found
      · next opcode named =>
          split at found
          · cases found
          · next operands behind read =>
              cases found
              have known : ∀ width ∈ opcode.widths, width = 1 ∨ width = 2 := by
                intro width member
                rcases Instruction.widths_cases opcode with widths | widths | widths <;>
                  simp_all
              have ends : behind = offset + 1 + opcode.operandSize := behind_of_readOperands? read
              obtain ⟨fit, bytes⟩ := bytes_of_readOperands? known read
              refine ⟨fit, ?_, ?_⟩
              · show behind - offset = 1 + opcode.operandSize
                omega
              · rw [drop_of_getElem? there, bytes, ← Opcode.byte_of_ofByte? named,
                  Nat.add_sub_cancel' (by omega)]
                rfl

/-! ## Walking over a stream -/

/-- Reads the instructions of a stream from an offset on, each with the offset where it starts.
Yields them and the offset behind the last one, unless something cannot be read. -/
def walkFrom (code : Code) (offset : Nat) : Option (List (Nat × Instruction) × Nat) :=
  if _inside : offset < code.size then
    match _found : code.decode offset with
    | .ok (some (instruction, width)) =>
      (walkFrom code (offset + width)).map fun walk =>
        ((offset, instruction) :: walk.1, walk.2)
    | .ok none => none
    | .error _ => none
  else some ([], offset)
termination_by code.size - offset
decreasing_by
  have := width_pos_of_decode _found
  omega

/-- The bytes of instructions that have all their operands are as many as these take. -/
theorem length_flatMap_encode {instructions : List Instruction}
    (complete : ∀ instruction ∈ instructions, instruction.Complete) :
    (instructions.flatMap Instruction.encode).length =
      (instructions.map Instruction.size).sum := by
  rw [List.length_flatMap]
  refine congrArg List.sum (List.map_congr_left fun instruction member => ?_)
  exact Instruction.encode_length (complete instruction member)

/-- Instructions with the offsets where they start if the first one starts at a given offset. -/
def entriesFrom (offset : Nat) : List Instruction → List (Nat × Instruction)
  | [] => []
  | instruction :: rest => (offset, instruction) :: entriesFrom (offset + instruction.size) rest

@[simp] theorem map_snd_entriesFrom (offset : Nat) (instructions : List Instruction) :
    (entriesFrom offset instructions).map Prod.snd = instructions := by
  induction instructions generalizing offset with
  | nil => rfl
  | cons instruction rest ih => rw [entriesFrom, List.map_cons, ih]

theorem entriesFrom_append (offset : Nat) (first second : List Instruction) :
    entriesFrom offset (first ++ second) =
      entriesFrom offset first ++
        entriesFrom (offset + (first.map Instruction.size).sum) second := by
  induction first generalizing offset with
  | nil => rfl
  | cons instruction rest ih =>
      rw [List.cons_append, entriesFrom, ih, entriesFrom, List.map_cons, List.sum_cons,
        Nat.add_assoc]
      rfl

@[simp] theorem length_entriesFrom (offset : Nat) (instructions : List Instruction) :
    (entriesFrom offset instructions).length = instructions.length := by
  rw [← List.length_map, map_snd_entriesFrom]

/-- An entry starts behind the instructions before it. -/
theorem split_of_entriesFrom {instructions : List Instruction} {index position : Nat}
    {instruction : Instruction}
    (there : (entriesFrom offset instructions)[index]? = some (position, instruction)) :
    ∃ before behind, instructions = before ++ instruction :: behind ∧ before.length = index ∧
      position = offset + (before.map Instruction.size).sum := by
  induction instructions generalizing offset index with
  | nil => cases there
  | cons first rest ih =>
      cases index with
      | zero =>
          cases there
          exact ⟨[], rest, rfl, rfl, rfl⟩
      | succ index =>
          obtain ⟨before, behind, rfl, rfl, rfl⟩ := ih there
          exact ⟨first :: before, behind, rfl, rfl, by simp [Nat.add_assoc]⟩

/-- Instructions of one size take the place of one another without moving those behind. -/
theorem entriesFrom_exchange (offset : Nat) (before behind : List Instruction)
    {old new : Instruction} (same : new.size = old.size) :
    entriesFrom offset (before ++ new :: behind) =
      (entriesFrom offset (before ++ old :: behind)).set before.length
        (offset + (before.map Instruction.size).sum, new) := by
  have beyond : (entriesFrom offset before).length ≤ before.length := by simp
  rw [entriesFrom_append, entriesFrom_append, List.set_append_right _ _ beyond, entriesFrom,
    entriesFrom, same]
  simp

theorem lt_size_of_decode {instruction : Instruction} {width : Nat}
    (found : code.decode offset = .ok (some (instruction, width))) : offset < code.size := by
  refine Nat.lt_of_not_le fun beyond => ?_
  rw [decode_of_size_le beyond] at found
  cases found

/-- An instruction ends inside the stream. -/
theorem le_size_of_decode {instruction : Instruction} {width : Nat}
    (found : code.decode offset = .ok (some (instruction, width))) :
    offset + width ≤ code.size := by
  obtain ⟨encodable, rfl, bytes⟩ := bytes_of_decode found
  have inside := lt_size_of_decode found
  have lengths := congrArg List.length bytes
  rw [List.length_append, List.length_drop, List.length_drop,
    Instruction.encode_length encodable.complete, Array.length_toList] at lengths
  omega

/-- The bytes of a stream that is read to its end are those of its instructions, whose operands
fit. -/
theorem Decodes.bytes {instructions : List Instruction}
    (reads : code.Decodes offset instructions) :
    (∀ instruction ∈ instructions, instruction.Encodable) ∧
      code.toList.drop offset = instructions.flatMap Instruction.encode := by
  induction reads with
  | stop => exact ⟨by simp, by simp⟩
  | next found _ ih =>
      obtain ⟨encodable, -, bytes⟩ := bytes_of_decode found
      obtain ⟨others, rest⟩ := ih
      exact ⟨by simpa [encodable] using others, by rw [bytes, rest, List.flatMap_cons]⟩

theorem walkFrom_size (code : Code) : code.walkFrom code.size = some ([], code.size) := by
  rw [walkFrom, dif_neg (Nat.lt_irrefl _)]

theorem walkFrom_of_decode {instruction : Instruction} {width : Nat}
    (found : code.decode offset = .ok (some (instruction, width))) :
    code.walkFrom offset = (code.walkFrom (offset + width)).map fun walk =>
      ((offset, instruction) :: walk.1, walk.2) := by
  rw [walkFrom, dif_pos (lt_size_of_decode found)]
  split
  · next again =>
      rw [found] at again
      cases again
      rfl
  all_goals
    next again =>
      rw [found] at again
      cases again

/-- A walk starts with an instruction if the stream does not end there. -/
theorem decode_of_walkFrom {walk : List (Nat × Instruction) × Nat} (inside : offset < code.size)
    (found : code.walkFrom offset = some walk) :
    ∃ instruction width, code.decode offset = .ok (some (instruction, width)) := by
  rw [walkFrom, dif_pos inside] at found
  split at found
  · next instruction width there => exact ⟨instruction, width, there⟩
  · cases found
  · cases found

/-- A stream that can be read to its end is walked over. -/
theorem Decodes.walkFrom_eq {instructions : List Instruction}
    (reads : code.Decodes offset instructions) :
    code.walkFrom offset = some (entriesFrom offset instructions, code.size) := by
  induction reads with
  | stop => exact walkFrom_size code
  | next found _ ih =>
      obtain ⟨-, rfl, -⟩ := bytes_of_decode found
      rw [walkFrom_of_decode found, ih]
      rfl

/-- A stream that is walked over can be read to its end. -/
theorem decodes_of_walkFrom {entries : List (Nat × Instruction)} {behind : Nat}
    (inside : offset ≤ code.size) (walk : code.walkFrom offset = some (entries, behind)) :
    code.Decodes offset (entries.map Prod.snd) := by
  -- What is left of the stream gets shorter with every instruction.
  generalize left : code.size - offset = bytes
  induction bytes using Nat.strongRecOn generalizing offset entries with
  | ind bytes ih =>
      rcases Nat.lt_or_eq_of_le inside with below | rfl
      · obtain ⟨instruction, width, found⟩ := decode_of_walkFrom below walk
        rw [walkFrom_of_decode found] at walk
        obtain ⟨⟨rest, stop⟩, further, same⟩ := Option.map_eq_some_iff.mp walk
        cases same
        have shorter : code.size - (offset + width) < bytes := by
          have := width_pos_of_decode found
          omega
        exact .next found (ih _ shorter (le_size_of_decode found) further rfl)
      · rw [walkFrom_size] at walk
        cases walk
        exact .stop

/-! ## Listings -/

/-- The line of an instruction in a listing, without the line feed. -/
def lineOf (entry : Nat × Instruction) : String := s!"{fourDigits entry.1} {entry.2.text}"

theorem Decodes.linesFrom_eq {instructions : List Instruction}
    (reads : code.Decodes offset instructions) (lines : Array String) :
    code.linesFrom offset lines =
      lines ++ ((entriesFrom offset instructions).map (lineOf · ++ "\n")).toArray := by
  induction reads generalizing lines with
  | stop =>
      rw [linesFrom, dif_neg (Nat.lt_irrefl _)]
      simp [entriesFrom]
  | @next offset width instruction rest found _ ih =>
      obtain ⟨-, rfl, -⟩ := bytes_of_decode found
      rw [linesFrom, dif_pos (lt_size_of_decode found)]
      split
      · next again =>
          rw [found] at again
          cases again
          rw [ih]
          simp [entriesFrom, lineOf, toString, String.append_assoc]
      all_goals
        next again =>
          rw [found] at again
          cases again

/-- The words of a line are the offset of an entry, in at least four digits, the name of its opcode
and its operands. -/
def Names (line : List Char) (entry : Nat × Instruction) : Prop :=
  ∃ digits, Number.readDigits? digits = some entry.1 ∧ 4 ≤ digits.length ∧
    line.splitOn ' ' = digits :: entry.2.opcode.name.toList ::
      entry.2.operands.map fun operand => (toString operand).toList

theorem notMem_toDigits {c : Char} (other : c.isDigit = false) (number : Nat) :
    c ∉ Nat.toDigits 10 number := by
  intro member
  have digit := Nat.isDigit_of_mem_toDigits (by decide) (by decide) member
  rw [other] at digit
  cases digit

theorem notMem_toString {c : Char} (other : c.isDigit = false) (number : Nat) :
    c ∉ (toString number).toList := by
  rw [show toString number = Nat.repr number from rfl, Nat.toList_repr]
  exact notMem_toDigits other number

theorem notMem_fourDigits {c : Char} (other : c.isDigit = false) (number : Nat) :
    c ∉ (fourDigits number).toList := by
  have zero : c ≠ '0' := by
    rintro rfl
    cases other
  simp [fourDigits, notMem_toDigits other, zero]

theorem notMem_name {c : Char} (other : c = '\n' ∨ c = ' ') (opcode : Opcode) :
    c ∉ opcode.name.toList := by
  rcases other with rfl | rfl <;> cases opcode <;> decide

/-- The number of an offset is read back from its digits. -/
theorem readDigits?_fourDigits (number : Nat) :
    Number.readDigits? (fourDigits number).toList = some number := by
  have zeros (count : Nat) (digits : List Char) :
      Number.natOfDigits (List.replicate count '0' ++ digits) = Number.natOfDigits digits := by
    induction count with
    | zero => rfl
    | succ count ih => rw [List.replicate_succ, List.cons_append, ← ih]; rfl
  have shown : (fourDigits number).toList =
      List.replicate (4 - (Nat.toDigits 10 number).length) '0' ++ Nat.toDigits 10 number := by
    rw [fourDigits, String.toList_ofList]
  have are : IsDigits (fourDigits number).toList := by
    refine ⟨by simp [shown, Nat.toDigits_ne_nil], fun c member => ?_⟩
    by_contra other
    exact notMem_fourDigits (Bool.not_eq_true _ ▸ other) number member
  rw [Number.readDigits?_of_isDigits are, shown, zeros]
  exact congrArg Option.some (Number.natOfDigits_digitsOf number)

/-- The line of an entry names it. -/
theorem names_lineOf (entry : Nat × Instruction) : Names (lineOf entry).toList entry := by
  obtain ⟨offset, opcode, operands⟩ := entry
  refine ⟨(fourDigits offset).toList, readDigits?_fourDigits offset, ?_, ?_⟩
  · simp [fourDigits]
    omega
  · have number : ' ' ∉ (fourDigits offset).toList := notMem_fourDigits rfl offset
    have words : ∀ word ∈ (opcode.name :: operands.map toString).map String.toList,
        ' ' ∉ word := by
      simp only [List.map_cons, List.map_map, List.mem_cons, List.mem_map]
      rintro _ (rfl | ⟨operand, -, rfl⟩)
      · exact notMem_name (.inr rfl) opcode
      · exact notMem_toString rfl operand
    have text := List.splitOn_intercalate ' ' words (List.cons_ne_nil _ _)
    have line : (lineOf (offset, ⟨opcode, operands⟩)).toList =
        (fourDigits offset).toList ++
          ' ' :: [' '].intercalate ((opcode.name :: operands.map toString).map String.toList) := by
      simp [lineOf, Instruction.text, toString, String.toList_intercalate]
    rw [line, List.splitOn_append_cons_self_of_not_mem number, text, List.map_cons, List.map_map]
    rfl

theorem newline_notMem_text (instruction : Instruction) :
    '\n' ∉ instruction.text.toList := by
  obtain ⟨opcode, operands⟩ := instruction
  have named : '\n' ∉ opcode.name.toList := notMem_name (.inl rfl) opcode
  rw [Instruction.text, String.toList_intercalate]
  dsimp only
  generalize opcode.name = name at named
  induction operands generalizing name with
  | nil => simpa using named
  | cons operand rest ih =>
      have behind := ih (toString operand) (notMem_toString rfl operand)
      simp only [List.map_cons, List.intercalate_cons_cons, List.mem_append, not_or] at behind ⊢
      exact ⟨⟨named, by decide⟩, behind⟩

/-- Nothing in the line of an instruction ends it. -/
theorem newline_notMem_lineOf (entry : Nat × Instruction) : '\n' ∉ (lineOf entry).toList := by
  simp [lineOf, toString, notMem_fourDigits, newline_notMem_text]

/-- Lines of which each is ended by a line feed are found again between the line feeds, in front of
what follows them. -/
theorem splitOn_lines_append {lines : List String} (whole : ∀ line ∈ lines, '\n' ∉ line.toList)
    (rest : List Char) :
    ((lines.map (· ++ "\n")).flatMap String.toList ++ rest).splitOn '\n' =
      lines.map String.toList ++ rest.splitOn '\n' := by
  induction lines with
  | nil => rfl
  | cons line lines ih =>
      have first : '\n' ∉ line.toList := whole line List.mem_cons_self
      have others := ih fun other member => whole other (List.mem_cons_of_mem _ member)
      rw [List.map_cons, List.flatMap_cons, String.toList_append, List.append_assoc,
        List.append_assoc]
      exact (List.splitOn_append_cons_self_of_not_mem first _).trans (congrArg _ others)

theorem splitOn_lines (lines : List String) (whole : ∀ line ∈ lines, '\n' ∉ line.toList) :
    ((lines.map (· ++ "\n")).flatMap String.toList).splitOn '\n' =
      lines.map String.toList ++ [[]] := by
  have split := splitOn_lines_append whole []
  rwa [List.append_nil] at split

/-! ## Streams that consist of instructions -/

/-- What is seen of a stream that consists of instructions: to walk over it from its start yields
them with the offsets where they start and ends where the stream ends, and its listing has one line
for each of them, ended by a line feed, and nothing else. -/
structure Consists (code : Code) (entries : List (Nat × Instruction)) : Prop where
  walk : code.walkFrom 0 = some (entries, code.size)
  listing : ∃ lines, code.listing.toList.splitOn '\n' = lines ++ [[]] ∧
    List.Forall₂ Names lines entries

theorem Decodes.consists {instructions : List Instruction}
    (reads : code.Decodes 0 instructions) : code.Consists (entriesFrom 0 instructions) := by
  refine ⟨reads.walkFrom_eq,
    (entriesFrom 0 instructions).map fun entry => (lineOf entry).toList, ?_, ?_⟩
  case refine_2 =>
    rw [List.forall₂_map_left_iff]
    exact List.forall₂_same.mpr fun entry _ => names_lineOf entry
  rw [listing, reads.linesFrom_eq, String.toList_join]
  have split := splitOn_lines ((entriesFrom 0 instructions).map lineOf) fun line member => by
    obtain ⟨entry, -, rfl⟩ := List.mem_map.mp member
    exact newline_notMem_lineOf entry
  simpa [Function.comp_def] using split

theorem decodes_ofInstructions {instructions : List Instruction}
    (encodable : ∀ instruction ∈ instructions, instruction.Encodable) :
    (ofInstructions instructions).Decodes 0 instructions := by
  have bytes : (ofInstructions instructions).toList =
      [] ++ instructions.flatMap Instruction.encode := rfl
  have reads := Fragment.decodes_encode []
    (fun instruction member => (encodable instruction member).complete) bytes
  have same : instructions.map Instruction.fitted = instructions.map id :=
    List.map_congr_left fun instruction member => (encodable instruction member).fitted_eq
  rwa [same, List.map_id] at reads

/-- Puts instructions behind a stream, one after another. Yields the offsets at which they start. -/
def emitAll (code : Code) : List Instruction → List Nat × Code
  | [] => ([], code)
  | instruction :: rest =>
    let (offset, longer) := code.emit instruction.encode
    let (offsets, whole) := emitAll longer rest
    (offset :: offsets, whole)

/-- Every instruction starts where the stream ended before it was put there. -/
theorem emitAll_eq (code : Code) {instructions : List Instruction}
    (complete : ∀ instruction ∈ instructions, instruction.Complete) :
    code.emitAll instructions =
      ((entriesFrom code.size instructions).map Prod.fst,
        code ++ instructions.flatMap Instruction.encode) := by
  induction instructions generalizing code with
  | nil => simp [emitAll, entriesFrom]
  | cons instruction rest ih =>
      have size := Instruction.encode_length (complete instruction List.mem_cons_self)
      have others := ih (code.append instruction.encode) fun other member =>
        complete other (List.mem_cons_of_mem _ member)
      have longer : Array.size (code.append instruction.encode) = code.size + instruction.size := by
        simp [append, ← Array.length_toList, size]
      rw [emitAll, emit]
      dsimp only
      rw [others, longer]
      exact Prod.ext rfl (Array.toList_inj.mp (by simp [append]))

/-- Bytes are written over as many others inside a stream. -/
theorem overwrite_eq {old new : List UInt8} (pre post : List UInt8) (same : new.length = old.length)
    (bytes : code.toList = pre ++ old ++ post) :
    (code.overwrite pre.length new).toList = pre ++ new ++ post := by
  induction new generalizing code pre old with
  | nil =>
      obtain rfl := List.eq_nil_of_length_eq_zero same.symm
      exact bytes
  | cons byte rest ih =>
      match old with
      | other :: old =>
        have written : (code.setIfInBounds pre.length byte).toList =
            (pre ++ [byte]) ++ old ++ post := by
          rw [Array.toList_setIfInBounds, bytes]
          simp
        have behind := ih (pre ++ [byte]) (Nat.succ.inj same) written
        rw [overwrite]
        simpa using behind

/-- Another instruction with the same opcode can be written over one of a stream, and no other
entry changes. -/
theorem consists_overwrite {instructions : List Instruction} {index offset : Nat} {opcode : Opcode}
    {operands others : List Nat}
    (encodable : ∀ instruction ∈ instructions, instruction.Encodable)
    (there : (entriesFrom 0 instructions)[index]? = some (offset, ⟨opcode, operands⟩))
    (fits : Instruction.Encodable ⟨opcode, others⟩) :
    offset + (Instruction.encode ⟨opcode, others⟩).length ≤ (ofInstructions instructions).size ∧
      ((ofInstructions instructions).overwrite offset (Instruction.encode ⟨opcode, others⟩)).Consists
        ((entriesFrom 0 instructions).set index (offset, ⟨opcode, others⟩)) := by
  obtain ⟨before, behind, rfl, rfl, rfl⟩ := split_of_entriesFrom there
  have old : Instruction.Encodable ⟨opcode, operands⟩ := encodable _ (by simp)
  have start : (before.flatMap Instruction.encode).length = (before.map Instruction.size).sum :=
    length_flatMap_encode fun instruction member => (encodable _ (by simp [member])).complete
  have same : (Instruction.encode ⟨opcode, others⟩).length =
      (Instruction.encode ⟨opcode, operands⟩).length := by
    rw [Instruction.encode_length fits.complete, Instruction.encode_length old.complete]
    rfl
  have bytes : (ofInstructions (before ++ ⟨opcode, operands⟩ :: behind)).toList =
      before.flatMap Instruction.encode ++ Instruction.encode ⟨opcode, operands⟩ ++
        behind.flatMap Instruction.encode := by
    simp [ofInstructions]
  have written : (ofInstructions (before ++ ⟨opcode, operands⟩ :: behind)).overwrite
      (0 + (before.map Instruction.size).sum) (Instruction.encode ⟨opcode, others⟩) =
        ofInstructions (before ++ ⟨opcode, others⟩ :: behind) := by
    refine Array.toList_inj.mp ?_
    rw [Nat.zero_add, ← start, overwrite_eq _ _ same bytes]
    simp [ofInstructions]
  refine ⟨?_, ?_⟩
  · rw [Nat.zero_add, ← start, same, ← Array.length_toList, bytes]
    simp
  · rw [written, ← entriesFrom_exchange 0 before behind (by rfl)]
    refine (decodes_ofInstructions fun instruction member => ?_).consists
    rcases List.mem_append.mp member with earlier | later
    · exact encodable _ (List.mem_append_left _ earlier)
    · rcases List.mem_cons.mp later with rfl | later
      · exact fits
      · exact encodable _ (by simp [later])

/-- **No instruction is lost in a stream, and no byte.** Instructions whose operands fit, put behind
one another, make up a stream that consists of them, each at the offset that was yielded when it was
put there; an instruction written over one with the same opcode changes its entry only. And the
instructions that are found by walking over any bytes have just these bytes. -/
theorem instructions_lossless :
    (∀ instructions : List Instruction,
      (∀ instruction ∈ instructions, instruction.Encodable) →
      ∀ offsets code, emitAll #[] instructions = (offsets, code) →
        code = ofInstructions instructions ∧ offsets.length = instructions.length ∧
        code.Consists (offsets.zip instructions) ∧
        ∀ index offset opcode operands others,
          (offsets.zip instructions)[index]? = some (offset, ⟨opcode, operands⟩) →
          Instruction.Encodable ⟨opcode, others⟩ →
            offset + (Instruction.encode ⟨opcode, others⟩).length ≤ code.size ∧
            (code.overwrite offset (Instruction.encode ⟨opcode, others⟩)).Consists
              ((offsets.zip instructions).set index (offset, ⟨opcode, others⟩))) ∧
    ∀ (code : Code) (entries : List (Nat × Instruction)) (behind : Nat),
      code.walkFrom 0 = some (entries, behind) →
        ofInstructions (entries.map Prod.snd) = code := by
  refine ⟨fun instructions encodable offsets code emitted => ?_, fun code entries behind walk => ?_⟩
  · have complete := fun instruction member => (encodable instruction member).complete
    rw [emitAll_eq _ complete] at emitted
    cases emitted
    have stream : (#[] : Code) ++ instructions.flatMap Instruction.encode =
        ofInstructions instructions := Array.toList_inj.mp (by simp [ofInstructions])
    have zipped : ((entriesFrom 0 instructions).map Prod.fst).zip instructions =
        entriesFrom 0 instructions := by
      have pairs : ((entriesFrom 0 instructions).map Prod.fst).zip
          ((entriesFrom 0 instructions).map Prod.snd) = (entriesFrom 0 instructions).map id :=
        List.zip_map'
      rwa [map_snd_entriesFrom, List.map_id] at pairs
    have start : Array.size (#[] : Code) = 0 := rfl
    rw [stream, start, zipped]
    refine ⟨rfl, by simp, (decodes_ofInstructions encodable).consists, ?_⟩
    intro index offset opcode operands others there fits
    exact consists_overwrite encodable there fits
  · have reads := decodes_of_walkFrom (Nat.zero_le _) walk
    refine Array.toList_inj.mp ?_
    simpa [ofInstructions] using reads.bytes.2.symm

/-- A constant is pushed and popped again; another constant is put in place of the first one. -/
theorem instructions_lossless_constant :
    Consists #[0x01, 1, 2, 0x80] [(0, ⟨.constant, [258]⟩), (3, ⟨.pop, []⟩)] ∧
      Consists (overwrite #[0x01, 1, 2, 0x80] 0 [0x01, 255, 255])
        [(0, ⟨.constant, [65535]⟩), (3, ⟨.pop, []⟩)] ∧
      ofInstructions [⟨.constant, [258]⟩, ⟨.pop, []⟩] = #[0x01, 1, 2, 0x80] := by
  have encodable : ∀ instruction ∈ [⟨.constant, [258]⟩, ⟨.pop, []⟩],
      Instruction.Encodable instruction := by
    intro instruction member
    simp only [List.mem_cons, List.not_mem_nil, or_false] at member
    rcases member with rfl | rfl
    · exact .cons (by decide) .nil
    · exact .nil
  obtain ⟨-, -, consists, exchange⟩ := instructions_lossless.1 _ encodable _ _ rfl
  exact ⟨consists, (exchange 0 0 .constant [258] [65535] rfl (.cons (by decide) .nil)).2,
    instructions_lossless.2 _ _ _ consists.walk⟩

end Code

end MonkeyLang
