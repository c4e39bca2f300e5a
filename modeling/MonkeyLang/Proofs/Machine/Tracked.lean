import MonkeyLang.Proofs.Compiler.WellFormed
import MonkeyLang.Proofs.Machine.Moves
import MonkeyLang.Proofs.Machine.Reaching

/-!
# Machines on their tracks

The streams of a machine are those of its calls and those of the functions that it can get at. As
long as they are well formed, every call goes on where an instruction of its stream starts,
however far the run gets (`Machine.Tracked`). So a machine never reads an instruction that the
stream does not have, and each instruction that it executes is one of those of which the stream
says what their operands mean.
-/

set_option autoImplicit false

namespace MonkeyLang

/-- A machine on its tracks fetches the instructions of the stream. -/
theorem Code.WellFormed.fetched {stock : Stock} {frame : Frame} {opcode : Opcode}
    {operand behind : Nat} (sound : frame.code.WellFormed stock)
    (visits : frame.code.Visits frame.position)
    (fetched : frame.fetch = .instruction opcode operand behind) :
    ∃ operands width, frame.code.decode frame.position = .ok (some (⟨opcode, operands⟩, width)) ∧
      behind = frame.position + width ∧
        (opcode.widths = [] ∨ operands = [operand] ∧ opcode.Admits frame.code stock operand) := by
  by_cases below : frame.position < frame.code.size
  · obtain ⟨⟨decoded, operands⟩, width, found, complete, admits⟩ := sound.reads _ visits below
    have same := fetched.symm.trans (Code.fetch_of_decode found frame.base frame.locals)
    obtain ⟨rfl, rfl, rfl⟩ := Fetched.instruction.inj same
    refine ⟨operands, width, found, rfl, ?_⟩
    rcases Instruction.widths_cases opcode with widths | widths | widths
    · exact .inl widths
    all_goals
      rw [Instruction.Complete, widths] at complete
      obtain ⟨only, rfl⟩ := List.length_eq_one_iff.mp complete
      exact .inr ⟨rfl, admits only (List.mem_singleton_self only)⟩
  · rw [Frame.fetch, Array.getElem?_eq_none (Nat.le_of_not_lt below)] at fetched
    cases fetched

/-- The stream of a call has a property, and the call goes on where an instruction starts. -/
structure Frame.Tracked (good : Code → Prop) (frame : Frame) : Prop where
  stream : good frame.code
  visits : frame.code.Visits frame.position

/-- All calls of a machine go on where instructions start, and the streams of the calls and of the
functions in play have a property. -/
structure Machine.Tracked (good : Code → Prop) (machine : Machine) : Prop where
  innermost : machine.frame.Tracked good
  callers : ∀ frame ∈ machine.callers, frame.Tracked good
  knows : machine.Knows fun body => good body.code

namespace Machine.Tracked

variable {good : Code → Prop} {machine next : Machine}
  (sound : ∀ code, good code → ∃ stock, code.WellFormed stock)

include sound

/-- The next instruction and, for a jump, the one where it leads. -/
theorem onward (tracked : machine.Tracked good) {opcode : Opcode} {operand behind position : Nat}
    (fetched : machine.frame.fetch = .instruction opcode operand behind)
    (place : position = behind ∨ position = operand ∧ (opcode = .jump ∨ opcode = .jumpNotTruthy)) :
    ({ machine.frame with position } : Frame).Tracked good := by
  obtain ⟨stream, visits⟩ := tracked.innermost
  obtain ⟨stock, formed⟩ := sound _ stream
  obtain ⟨operands, width, found, rfl, admits⟩ := formed.fetched visits fetched
  refine ⟨stream, ?_⟩
  rcases place with rfl | ⟨rfl, rfl | rfl⟩
  · exact visits.next found
  all_goals
    rcases admits with none | ⟨-, lands⟩
    · cases none
    · exact lands.1

/-- A step that goes on keeps a machine on its tracks. -/
theorem step (tracked : machine.Tracked good)
    (stepped : Operation.step machine = .ok .goesOn next) : next.Tracked good := by
  have kept := Operation.keeps_step machine tracked.knows
  rw [stepped] at kept
  cases (Operation.step_moves stepped).1 with
  | onward fetched place frame callers =>
      refine ⟨?_, ?_, kept.2.1⟩
      · rw [frame]
        exact tracked.onward sound fetched place
      · rw [callers]
        exact tracked.callers
  | enters fetched shallow known frame callers =>
      refine ⟨?_, ?_, kept.2.1⟩
      · rw [frame]
        exact ⟨tracked.knows.stack _ known, .start⟩
      · intro other member
        rw [callers] at member
        rcases Array.mem_push.mp member with member | rfl
        · exact tracked.callers other member
        · exact tracked.onward sound fetched (.inl rfl)
  | leaves callers =>
      refine ⟨?_, ?_, kept.2.1⟩
      · exact tracked.callers _ (callers ▸ Array.mem_push_self)
      · intro other member
        exact tracked.callers other (callers ▸ Array.mem_push_of_mem _ member)

/-- A run stays on its tracks. -/
theorem reaches (tracked : machine.Tracked good) {count : Nat}
    (reaches : Reaches count machine next) : next.Tracked good := by
  induction reaches with
  | refl => exact tracked
  | step stepped _ ih => exact ih (tracked.step sound stepped)

end Machine.Tracked

/-- The functions of a loaded program are its constants. -/
theorem Machine.tracked_loaded {good : Code → Prop} {compiled : CompiledProgram} {limits : Limits}
    {globals : Globals} (own : good compiled.code)
    (functions : ∀ body, .function body ∈ compiled.constants → good body.code)
    (known : (loaded compiled limits globals).Knows fun body =>
      compiled.constants[body.identity]? = some (.function body)) :
    (loaded compiled limits globals).Tracked good := by
  refine ⟨⟨own, .start⟩, fun _ member => absurd member (Array.not_mem_empty _), ?_⟩
  exact known.mono fun body found => functions body (Array.mem_of_getElem? found)

end MonkeyLang
