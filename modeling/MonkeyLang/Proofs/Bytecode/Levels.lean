import MonkeyLang.Proofs.Bytecode.Layout

/-!
# How high the stack is

Every instruction takes a fixed number of values from the stack and puts at most one there, so the
number of values that a stream has on the stack can be told from the offset alone, if it can be told
at all: jumps have to meet what is there when one comes without a jump. A stream is balanced if there
is such a level for every offset, with nothing at the start, and no instruction takes more than there
is (`Code.Balanced`). The machine does not check this; it is up to the code.

A fragment lifts the stack from one level to another (`Fragment.Lifts`). The levels inside belong to
the fragment alone, so fragments that stand one behind the other need to agree at the seam only.
-/

set_option autoImplicit false

namespace MonkeyLang

namespace Opcode

/-- How many values an instruction takes from the stack. -/
def takes : Opcode → Nat → Nat
  | setLocal, _ | setGlobal, _ | pop, _ | jumpNotTruthy, _ | negate, _ | not, _ | returnValue, _ => 1
  | add, _ | sub, _ | mul, _ | div, _ | equal, _ | notEqual, _ | greater, _ | index, _ => 2
  | call, count => count + 1
  | array, count => count
  | _, _ => 0

/-- How many values an instruction puts on the stack. -/
def puts : Opcode → Nat
  | setLocal | setGlobal | pop | jump | jumpNotTruthy | returnValue | returnNull => 0
  | _ => 1

/-- The call may go on right behind the instruction. -/
def Continues : Opcode → Prop
  | jump | returnValue | returnNull => False
  | _ => True

/-- The call may go on at the offset that the instruction has for operand. -/
def Jumps : Opcode → Prop
  | jump | jumpNotTruthy => True
  | _ => False

/-- Where an instruction is there are as many values as it takes, and where the call goes on there
are those that are left. -/
structure Steps (level : Nat → Nat) (opcode : Opcode) (operand place behind : Nat) : Prop where
  enough : opcode.takes operand ≤ level place
  onward : opcode.Continues →
    level behind = level place - opcode.takes operand + opcode.puts
  lands : opcode.Jumps → level operand = level place - opcode.takes operand + opcode.puts

end Opcode

/-- There is a level for every offset of the stream. -/
structure Code.Balanced (level : Nat → Nat) (code : Code) : Prop where
  start : level 0 = 0
  steps : ∀ frame : Frame, frame.code = code → code.Visits frame.position →
    ∀ opcode operand behind, frame.fetch = .instruction opcode operand behind →
      opcode.Steps level operand frame.position behind

/-- What is read back as the operand is what a machine reads. -/
theorem Instruction.headD_fitted {instruction : Instruction} (complete : instruction.Complete) :
    instruction.fitted.operands.headD 0 = instruction.operand := by
  obtain ⟨opcode, operands⟩ := instruction
  rcases widths_cases opcode with widths | widths | widths <;>
    simp only [Complete, widths, List.length_nil, List.length_cons] at complete
  · obtain rfl := List.length_eq_zero_iff.mp complete
    simp [fitted, operand]
  all_goals
    obtain ⟨value, rfl⟩ := List.length_eq_one_iff.mp complete
    simp [fitted, operand, widths, Opcode.operandSize]

namespace Fragment

/-- The instructions of a fragment that stands at a place step from level to level. -/
def Leveled (level : Nat → Nat) (start : Nat) (code : Fragment) : Prop :=
  ∀ place instruction, code.Has start place instruction →
    instruction.opcode.Steps level instruction.operand place (place + instruction.size)

/-- A function on the offsets of a fragment that stands at a place. -/
def AgreeOn (start size : Nat) (level known : Nat → Nat) : Prop :=
  ∀ place, start ≤ place → place ≤ start + size → level place = known place

/-- A fragment that stands at a place leads from one level to another. -/
def Lifts (low high start : Nat) (code : Fragment) : Prop :=
  ∃ known : Nat → Nat, known start = low ∧ known (start + code.size) = high ∧
    ∀ level, AgreeOn start code.size level known → code.Leveled level start

variable {low middle high start : Nat} {code rest : Fragment}

/-- Levels up to an offset, and others behind it. -/
def splice (seam : Nat) (first second : Nat → Nat) (place : Nat) : Nat :=
  if place ≤ seam then first place else second place

theorem splice_of_le {seam place : Nat} (before : place ≤ seam) (first second : Nat → Nat) :
    splice seam first second place = first place := if_pos before

theorem splice_of_lt {seam place : Nat} (behind : seam < place) (first second : Nat → Nat) :
    splice seam first second place = second place := if_neg (Nat.not_le.mpr behind)

theorem lifts_empty : Lifts low low start .empty :=
  ⟨fun _ => low, rfl, rfl, fun _ _ _ _ has => has.elim⟩

theorem Lifts.append (first : Lifts low middle start code)
    (second : Lifts middle high (start + code.size) rest) :
    Lifts low high start (code ++ rest) := by
  obtain ⟨known, begins, ends, leveled⟩ := first
  obtain ⟨other, starts, stops, leveling⟩ := second
  have there : ∀ place, start + code.size ≤ place →
      splice (start + code.size) known other place = other place := by
    intro place behind
    rcases Nat.eq_or_lt_of_le behind with rfl | behind
    · rw [splice_of_le (Nat.le_refl _), ends, starts]
    · exact splice_of_lt behind known other
  refine ⟨splice (start + code.size) known other, ?_, ?_, ?_⟩
  · rw [splice_of_le (Nat.le_add_right _ _), begins]
  · rw [size_append, ← Nat.add_assoc, there _ (Nat.le_add_right _ _), stops]
  · intro level agrees place instruction has
    rcases has_append.mp has with has | has
    · refine leveled level (fun offset lower upper => ?_) place instruction has
      rw [agrees offset lower (by rw [size_append]; omega), splice_of_le upper]
    · refine leveling level (fun offset lower upper => ?_) place instruction has
      rw [agrees offset (by omega) (by rw [size_append]; omega), there offset lower]

/-- An instruction behind the code that does not jump. If the call does not go on behind it, any
level may follow. -/
theorem Lifts.push {instruction : Instruction} (first : Lifts low middle start code)
    (enough : instruction.opcode.takes instruction.operand ≤ middle)
    (onward : instruction.opcode.Continues →
      high = middle - instruction.opcode.takes instruction.operand + instruction.opcode.puts)
    (stays : ¬instruction.opcode.Jumps) :
    Lifts low high start (code.push instruction) := by
  obtain ⟨known, begins, ends, leveled⟩ := first
  have pos : 0 < instruction.size := Nat.lt_of_lt_of_le Nat.one_pos (Nat.le_add_right _ _)
  refine ⟨splice (start + code.size) known fun _ => high, ?_, ?_, ?_⟩
  · rw [splice_of_le (Nat.le_add_right _ _), begins]
  · rw [size_push, splice_of_lt (by omega)]
  · intro level agrees place other has
    rw [AgreeOn, size_push] at agrees
    rcases has_push.mp has with has | ⟨rfl, rfl⟩
    · refine leveled level (fun offset lower upper => ?_) place other has
      rw [agrees offset lower (by omega), splice_of_le upper]
    · have here : level (start + code.size) = middle := by
        rw [agrees _ (Nat.le_add_right _ _) (by omega), splice_of_le (Nat.le_refl _), ends]
      have behind : level (start + code.size + other.size) = high := by
        rw [agrees _ (by omega) (by omega), splice_of_lt (by omega)]
      refine ⟨by rwa [here], fun continues => ?_, fun jumps => ?_⟩
      · rw [behind, here, onward continues]
      · exact absurd jumps stays

/-! ## The stream of a fragment -/

/-- The stream of a fragment that starts with nothing on the stack. -/
theorem Lifts.balanced (complete : code.Complete) (lifts : Lifts 0 high 0 code) :
    ∃ level, code.encode.Balanced level := by
  obtain ⟨known, begins, -, leveled⟩ := lifts
  refine ⟨known, begins, ?_⟩
  rintro ⟨_, position, base, locals⟩ rfl visits opcode operand behind fetched
  dsimp only at visits fetched ⊢
  rcases Instruction.Starts.has ((visits_encode_iff complete).mp visits) with last | ⟨written, has⟩
  · rw [Nat.zero_add, ← code.size_eq, ← size_encode complete] at last
    rw [Frame.fetch, Array.getElem?_eq_none (Nat.le_of_eq last.symm)] at fetched
    cases fetched
  · have same := (Code.fetch_of_decode (decode_of_has complete has) base locals).symm.trans fetched
    obtain ⟨rfl, rfl, rfl⟩ := Fetched.instruction.inj same
    rw [Instruction.headD_fitted (complete written has.starts.1)]
    exact leveled known (fun _ _ _ => rfl) position written has

end Fragment

end MonkeyLang
