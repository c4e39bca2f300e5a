import MonkeyLang.Proofs.Bytecode.Levels
import MonkeyLang.Proofs.Compiler.Landing

/-!
# Compiled code keeps the stack level

The code of an expression puts one value on top of what is on the stack, however high that is, and
the code of a statement leaves the stack as high as it was (`Compiling.expression_lifts` and its
companions). Branches meet at one level again, and a pass of a loop ends where it has begun. To
leave a function in the middle of an expression abandons what is on the stack there, so any level
may follow behind. The streams of functions and of programs start with an empty stack, so they are
balanced.
-/

set_option autoImplicit false

namespace MonkeyLang

namespace Fragment

variable {low middle high start : Nat} {code rest : Fragment}

/-! ## Instructions -/

/-- An instruction that puts a value on the stack. -/
theorem Lifts.pushes {instruction : Instruction} (first : Lifts low high start code)
    (takes : instruction.opcode.takes instruction.operand = 0) (puts : instruction.opcode.puts = 1)
    (stays : ¬instruction.opcode.Jumps) :
    Lifts low (high + 1) start (code.push instruction) :=
  first.push (by omega) (fun _ => by rw [takes, puts, Nat.sub_zero]) stays

/-- An instruction with an opcode that takes one value and puts none. -/
theorem Lifts.drops {instruction : Instruction} (first : Lifts low (high + 1) start code)
    (takes : instruction.opcode.takes instruction.operand = 1) (puts : instruction.opcode.puts = 0)
    (stays : ¬instruction.opcode.Jumps) :
    Lifts low high start (code.push instruction) :=
  first.push (by omega) (fun _ => by rw [takes, puts]; rfl) stays

/-- An instruction that makes one value of some. -/
theorem Lifts.gathers {instruction : Instruction} (count : Nat)
    (first : Lifts low (high + count) start code)
    (takes : instruction.opcode.takes instruction.operand = count)
    (puts : instruction.opcode.puts = 1) (stays : ¬instruction.opcode.Jumps) :
    Lifts low (high + 1) start (code.push instruction) :=
  first.push (by omega) (fun _ => by rw [takes, puts, Nat.add_sub_cancel]) stays

/-- The function is left, and whatever is on the stack is abandoned. -/
theorem Lifts.leaves {instruction : Instruction} (first : Lifts low middle start code)
    (enough : instruction.opcode.takes instruction.operand ≤ middle)
    (ends : ¬instruction.opcode.Continues) (stays : ¬instruction.opcode.Jumps) :
    Lifts low high start (code.push instruction) :=
  first.push enough (fun onward => absurd onward ends) stays

theorem Lifts.null (first : Lifts low high start code) :
    Lifts low (high + 1) start (code.emit .null []) :=
  first.pushes rfl rfl not_false

theorem Lifts.load (first : Lifts low high start code) (symbol : Symbol) :
    Lifts low (high + 1) start (code.push (Compiling.load symbol)) := by
  obtain ⟨name, storage, index⟩ := symbol
  cases storage <;> exact first.pushes rfl rfl not_false

/-- An operator behind the code of its operands. -/
theorem Lifts.binary (operator : BinaryOperator) {first second : Fragment}
    (lifts : Lifts low (low + 1) start first)
    (more : Lifts (low + 1) (low + 2) (start + first.size) second) :
    Lifts low (low + 1) start ((first ++ second).emitAll operator.opcodes) := by
  have compared : ∀ opcode : Opcode, opcode.takes 0 = 2 → opcode.puts = 1 → ¬opcode.Jumps →
      Lifts low (low + 1) start ((first ++ second).push ⟨opcode, []⟩) :=
    fun opcode takes puts stays =>
      (lifts.append more).gathers 2 (by simpa [Instruction.operand] using takes) puts stays
  cases operator with
  | lessEqual | greaterEqual =>
      exact (compared .greater rfl rfl not_false).gathers 1 rfl rfl not_false
  | _ => exact compared _ rfl rfl not_false

/-! ## Code with jumps in it -/

/-- What a machine reads as the target of a jump. -/
theorem operand_jump {opcode : Opcode} (wide : opcode.operandSize = 2) {target : Nat}
    (fits : target ≤ Limit.instructionBytes.bound) :
    (⟨opcode, [target]⟩ : Instruction).operand = target :=
  Instruction.operand_of_lt (by rw [wide]; exact Nat.lt_succ_of_le fits)

/-- A jump steps from a level to itself, behind it any level may follow. -/
theorem steps_jump {level : Nat → Nat} {target place behind : Nat}
    (fits : target ≤ Limit.instructionBytes.bound) (same : level target = level place) :
    Opcode.Steps level .jump (⟨.jump, [target]⟩ : Instruction).operand place behind := by
  rw [operand_jump rfl fits]
  exact ⟨Nat.zero_le _, False.elim, fun _ => same⟩

/-- A test takes the condition, whether it jumps or not. -/
theorem steps_jumpNotTruthy (low : Nat) {level : Nat → Nat} {target place behind : Nat}
    (fits : target ≤ Limit.instructionBytes.bound) (same : level place = low + 1)
    (onward : level behind = low) (lands : level target = low) :
    Opcode.Steps level .jumpNotTruthy (⟨.jumpNotTruthy, [target]⟩ : Instruction).operand place
      behind := by
  rw [operand_jump rfl fits]
  refine ⟨?_, fun _ => ?_, fun _ => ?_⟩
  · rw [same]
    exact Nat.succ_le_succ (Nat.zero_le low)
  · rw [onward, same]
    rfl
  · rw [lands, same]
    rfl

/-- A test that decides between two parts, which meet at one level. -/
theorem Lifts.conditional {test chosen other : Fragment} {otherStart stop : Nat}
    (first : Lifts low (low + 1) start test)
    (second : Lifts low high (start + test.size + Compiling.jumpSize) chosen)
    (third : Lifts low high otherStart other)
    (turn : otherStart = start + test.size + Compiling.jumpSize + chosen.size + Compiling.jumpSize)
    (meet : stop = otherStart + other.size) (fits : stop ≤ Limit.instructionBytes.bound) :
    Lifts low high start
      ((test.emit .jumpNotTruthy [otherStart] ++ chosen).emit .jump [stop] ++ other) := by
  obtain ⟨known, begins, ends, leveled⟩ := first
  obtain ⟨taken, enters, exits, leveling⟩ := second
  obtain ⟨missed, opens, closes, levels⟩ := third
  have jump : Compiling.jumpSize = 3 := rfl
  have size : start + ((test.emit .jumpNotTruthy [otherStart] ++ chosen).emit .jump [stop] ++
      other).size = stop := by
    rw [size_append, ← Nat.add_assoc, place_emit_jump, size_append, ← Nat.add_assoc,
      place_emit_jumpNotTruthy, ← turn, meet]
  refine ⟨splice (start + test.size) known
    (splice (start + test.size + Compiling.jumpSize + chosen.size) taken missed), ?_, ?_, ?_⟩
  · rw [splice_of_le (Nat.le_add_right _ _), begins]
  · rw [size, splice_of_lt (by omega), splice_of_lt (by omega), meet, closes]
  intro level agrees
  have before : AgreeOn start test.size level known := by
    intro place lower upper
    rw [agrees place lower (by omega), splice_of_le upper]
  have within : AgreeOn (start + test.size + Compiling.jumpSize) chosen.size level taken := by
    intro place lower upper
    rw [agrees place (by omega) (by omega), splice_of_lt (by omega), splice_of_le upper]
  have behind : AgreeOn otherStart other.size level missed := by
    intro place lower upper
    rw [agrees place (by omega) (by omega), splice_of_lt (by omega), splice_of_lt (by omega)]
  intro place instruction has
  rcases has_append.mp has with has | has
  · rcases has_push.mp has with has | ⟨rfl, rfl⟩
    · rcases has_append.mp has with has | has
      · rcases has_push.mp has with has | ⟨rfl, rfl⟩
        · exact leveled level before place instruction has
        · refine steps_jumpNotTruthy low (by omega) ?_ ?_ ?_
          · rw [before _ (by omega) (by omega), ends]
          · exact (within _ (Nat.le_refl _) (by omega)).trans enters
          · rw [behind _ (by omega) (by omega), opens]
      · rw [place_emit_jumpNotTruthy] at has
        exact leveling level within place instruction has
    · have last := (within _ (by omega) (Nat.le_refl _)).trans exits
      have met := (behind stop (by omega) (by omega)).trans (meet ▸ closes)
      refine steps_jump fits ?_
      rw [size_append, ← Nat.add_assoc, place_emit_jumpNotTruthy, last, met]
  · rw [place_emit_jump, size_append, ← Nat.add_assoc, place_emit_jumpNotTruthy, ← turn] at has
    exact levels level behind place instruction has

/-- A loop, with null behind it. A pass ends at the level where it has begun. -/
theorem Lifts.loop {test pass : Fragment} {stop : Nat} (first : Lifts low (low + 1) start test)
    (second : Lifts low low (start + test.size + Compiling.jumpSize) pass)
    (turn : stop = start + test.size + Compiling.jumpSize + pass.size + Compiling.jumpSize)
    (fits : stop ≤ Limit.instructionBytes.bound) :
    Lifts low (low + 1) start
      (((test.emit .jumpNotTruthy [stop] ++ pass).emit .jump [start]).emit .null []) := by
  obtain ⟨known, begins, ends, leveled⟩ := first
  obtain ⟨taken, enters, exits, leveling⟩ := second
  have jump : Compiling.jumpSize = 3 := rfl
  have size : start + ((test.emit .jumpNotTruthy [stop] ++ pass).emit .jump [start]).size = stop := by
    rw [place_emit_jump, size_append, ← Nat.add_assoc, place_emit_jumpNotTruthy, ← turn]
  refine Lifts.null ?_
  refine ⟨splice (start + test.size) known
    (splice (start + test.size + Compiling.jumpSize + pass.size) taken fun _ => low), ?_, ?_, ?_⟩
  · rw [splice_of_le (Nat.le_add_right _ _), begins]
  · rw [size, splice_of_lt (by omega), splice_of_lt (by omega)]
  intro level agrees
  rw [AgreeOn, size] at agrees
  have before : AgreeOn start test.size level known := by
    intro place lower upper
    rw [agrees place lower (by omega), splice_of_le upper]
  have within : AgreeOn (start + test.size + Compiling.jumpSize) pass.size level taken := by
    intro place lower upper
    rw [agrees place (by omega) (by omega), splice_of_lt (by omega), splice_of_le upper]
  intro place instruction has
  rcases has_push.mp has with has | ⟨rfl, rfl⟩
  · rcases has_append.mp has with has | has
    · rcases has_push.mp has with has | ⟨rfl, rfl⟩
      · exact leveled level before place instruction has
      · refine steps_jumpNotTruthy low fits ?_ ?_ ?_
        · rw [before _ (by omega) (by omega), ends]
        · exact (within _ (Nat.le_refl _) (by omega)).trans enters
        · rw [agrees _ (by omega) (by omega), splice_of_lt (by omega), splice_of_lt (by omega)]
    · rw [place_emit_jumpNotTruthy] at has
      exact leveling level within place instruction has
  · have last := (within _ (by omega) (Nat.le_refl _)).trans exits
    have again := (before start (Nat.le_refl _) (by omega)).trans begins
    refine steps_jump (by omega) ?_
    rw [size_append, ← Nat.add_assoc, place_emit_jumpNotTruthy, last, again]

/-- A loop with a name of its own that is bound in front of it. -/
theorem Lifts.forLoop {preparation test pass step : Fragment} {again stop : Nat}
    (first : Lifts low low start preparation)
    (second : Lifts low (low + 1) again test)
    (third : Lifts low low (again + test.size + Compiling.jumpSize) pass)
    (fourth : Lifts low (low + 1) (again + test.size + Compiling.jumpSize + pass.size) step)
    (begins : again = start + preparation.size)
    (turn : stop = again + test.size + Compiling.jumpSize + pass.size + (step.emit .pop []).size +
      Compiling.jumpSize) (fits : stop ≤ Limit.instructionBytes.bound) :
    Lifts low (low + 1) start
      (((preparation ++ (test.emit .jumpNotTruthy [stop] ++ pass ++ step.emit .pop [])).emit .jump
        [again]).emit .null []) := by
  subst begins
  have body : Lifts low low (start + preparation.size + test.size + Compiling.jumpSize)
      (pass ++ step.emit .pop []) := third.append (fourth.drops rfl rfl not_false)
  have whole := first.append (second.loop body (by rw [turn, size_append, ← Nat.add_assoc]) fits)
  simp only [emit_eq_push, ← append_push, append_assoc] at whole ⊢
  exact whole

end Fragment

/-! ## Parts of the compiler -/

namespace Compiling

open Stateful

variable {α β : Type} {good : α → Prop}

/-- A part of the compiler that yields something good, if it succeeds. -/
def Yields (good : α → Prop) (work : Compiling α) : Prop :=
  ∀ compiler next result, work compiler = .ok result next → good result

namespace Yields

theorem any (work : Compiling α) : Yields (fun _ => True) work := fun _ _ _ _ => trivial

theorem pure {result : α} (holds : good result) : Yields good (Pure.pure result) := by
  rintro compiler _ _ ⟨⟩
  exact holds

theorem throw (fault : CompileFault) : Yields good (MonadExcept.throw fault) :=
  fun _ _ _ ran => absurd ran throw_ne_ok

theorem bind {well : β → Prop} {work : Compiling α} {rest : α → Compiling β}
    (works : Yields good work) (rests : ∀ result, good result → Yields well (rest result)) :
    Yields well (work >>= rest) := by
  intro compiler next value ran
  obtain ⟨result, between, worked, rested⟩ := bind_eq_ok.mp ran
  exact rests result (works compiler between result worked) between next value rested

/-- A part that yields nothing of interest. -/
theorem skip {well : β → Prop} {work : Compiling α} {rest : α → Compiling β}
    (rests : ∀ result, Yields well (rest result)) : Yields well (work >>= rest) :=
  (any work).bind fun result _ => rests result

theorem weaken {better : α → Prop} {work : Compiling α} (yields : Yields good work)
    (implies : ∀ result, good result → better result) : Yields better work :=
  fun compiler next result ran => implies result (yields compiler next result ran)

theorem require (holds : Bool) (limit : Limit) (span : Span) :
    Yields (fun _ => holds = true) (Compiling.require holds limit span) :=
  fun _ _ _ ran => (require_eq_ok.mp ran).1

theorem requireTarget (target : Nat) (span : Span) :
    Yields (fun _ => target ≤ Limit.instructionBytes.bound) (Compiling.requireTarget target span) :=
  fun _ _ _ ran => (requireTarget_eq_ok.mp ran).1

/-- To store a value takes it from the stack. -/
theorem store (name : Name) (symbol : Symbol) :
    Yields (fun instruction => ∃ opcode, (opcode = .setGlobal ∨ opcode = .setLocal) ∧
      instruction = ⟨opcode, [symbol.index]⟩) (Compiling.store name symbol) := by
  intro compiler next instruction ran
  rcases (store_eq_ok ran).2 with ⟨-, rfl⟩ | ⟨-, rfl⟩
  · exact ⟨_, .inl rfl, rfl⟩
  · exact ⟨_, .inr rfl, rfl⟩

variable {level start : Nat}

theorem constant (value : Value) (span : Span) :
    Yields (Fragment.Lifts level (level + 1) start) (Compiling.constant value span) := by
  intro compiler next code ran
  obtain ⟨-, rfl, -⟩ := constant_eq_ok.mp ran
  exact Fragment.lifts_empty.pushes rfl rfl not_false

theorem literal (value : Literal) (span : Span) :
    Yields (Fragment.Lifts level (level + 1) start) (Compiling.literal value span) := by
  cases value with
  | boolean value =>
      cases value <;> exact Yields.pure (Fragment.lifts_empty.pushes rfl rfl not_false)
  | _ => exact constant _ span

/-- The body of a function has a stream of its own. -/
theorem function (name : Option String) (parameters : List Name) (span : Span) (body : Block) :
    Yields (Fragment.Lifts level (level + 1) start)
      (Compiling.function name parameters span body) := by
  obtain ⟨statements, bodySpan⟩ := body
  intro compiler next code ran
  obtain ⟨-, inner, -, -, -, -, rfl, -⟩ := function_eq_ok ran
  exact Fragment.lifts_empty.pushes rfl rfl not_false

end Yields

end Compiling

/-! ## The parts of a program -/

/-- How many values a list of statements leaves on the stack. -/
def Ending.rise : Ending → Nat
  | keep => 1
  | _ => 0

namespace Ending

open Fragment

variable {low start : Nat} {code : Fragment}

theorem lifts_behindOther (ending : Ending) (first : Lifts low low start code) :
    Lifts low (low + ending.rise) start (code.emitAll ending.behindOther) := by
  cases ending with
  | discard => exact first
  | keep => exact first.null
  | leave => exact first.leaves (Nat.zero_le _) not_false not_false

theorem lifts_behindLeave (ending : Ending) (first : Lifts low low start code) :
    Lifts low (low + ending.rise) start (code.emitAll ending.behindLeave) := by
  cases ending with
  | keep => exact first.null
  | discard | leave => exact first

theorem lifts_behindExpression (ending : Ending) (first : Lifts low (low + 1) start code) :
    Lifts low (low + ending.rise) start (code.emitAll ending.behindExpression) := by
  cases ending with
  | discard => exact first.drops rfl rfl not_false
  | keep => exact first
  | leave => exact first.leaves (Nat.succ_le_succ (Nat.zero_le low)) not_false not_false

end Ending

namespace Compiling

open Fragment

/-- What is put behind other code leads from one level to another. -/
def LiftsBehind (low high start : Nat) (before code : Fragment) : Prop :=
  ∃ rest, code = before ++ rest ∧ rest.Lifts low high (start + before.size)

variable {low middle high start : Nat} {before code : Fragment}

theorem liftsBehind_refl : LiftsBehind low low start before before :=
  ⟨.empty, (append_empty before).symm, lifts_empty⟩

/-- What is put behind code that was put behind other code. -/
theorem LiftsBehind.append {rest : Fragment}
    (second : LiftsBehind middle high start (before ++ code) rest)
    (first : code.Lifts low middle (start + before.size)) :
    LiftsBehind low high start before rest := by
  obtain ⟨behind, rfl, lifts⟩ := second
  refine ⟨code ++ behind, append_assoc before code behind, first.append ?_⟩
  rwa [size_append, ← Nat.add_assoc] at lifts

/-- Instructions behind the last part. -/
theorem LiftsBehind.emitAll {opcodes : List Opcode}
    (lifts : (code.emitAll opcodes).Lifts low high (start + before.size)) :
    LiftsBehind low high start before ((before ++ code).emitAll opcodes) :=
  ⟨code.emitAll opcodes, emitAll_append before code opcodes, lifts⟩

theorem Yields.departed {value : Compiling Fragment}
    (yields : Yields (Lifts low (low + 1) start) value) :
    Yields (Lifts low low start) (value >>= fun code => Pure.pure (code.emit .returnValue [])) :=
  yields.bind fun _ lifts => Yields.pure
    (lifts.leaves (Nat.succ_le_succ (Nat.zero_le low)) not_false not_false)

mutual

theorem expression_lifts : ∀ (syntaxTree : Expression) (start level : Nat),
    Yields (Lifts level (level + 1) start) (expression syntaxTree start)
  | .literal value span, start, level => by
      simp only [expression]
      exact .literal value span
  | .name identifier, start, level => by
      simp only [expression]
      exact Yields.skip fun symbol => .pure (lifts_empty.load symbol)
  | .unary operator operand span, start, level => by
      simp only [expression]
      refine (expression_lifts operand start level).bind fun code lifts => .pure ?_
      cases operator <;> exact lifts.gathers 1 rfl rfl not_false
  | .binary operator left right span, start, level => by
      simp only [expression]
      split
      · refine (expression_lifts right start level).bind fun first lifts => ?_
        exact (expression_lifts left _ (level + 1)).bind fun second more =>
          .pure (lifts.binary operator more)
      · refine (expression_lifts left start level).bind fun first lifts => ?_
        exact (expression_lifts right _ (level + 1)).bind fun second more =>
          .pure (lifts.binary operator more)
  | .conditional condition consequence none span, start, level => by
      simp only [expression]
      refine (expression_lifts condition start level).bind fun test first => ?_
      refine (block_lifts .keep consequence _ level).bind fun chosen second => ?_
      refine Yields.skip fun _ => ?_
      refine (Yields.pure rfl : Yields (· = single .null []) _).bind fun other same => ?_
      subst same
      refine (Yields.requireTarget _ _).bind fun _ fits => .pure ?_
      exact first.conditional second lifts_empty.null rfl rfl fits
  | .conditional condition consequence (some alternative) span, start, level => by
      simp only [expression]
      refine (expression_lifts condition start level).bind fun test first => ?_
      refine (block_lifts .keep consequence _ level).bind fun chosen second => ?_
      refine Yields.skip fun _ => ?_
      refine (block_lifts .keep alternative _ level).bind fun other third => ?_
      refine (Yields.requireTarget _ _).bind fun _ fits => .pure ?_
      exact first.conditional second third rfl rfl fits
  | .whileLoop condition body span, start, level => by
      simp only [expression]
      refine (expression_lifts condition start level).bind fun test first => ?_
      refine (block_lifts .discard body _ level).bind fun pass second => ?_
      refine (Yields.requireTarget _ _).bind fun _ fits => .pure ?_
      exact first.loop second rfl fits
  | .forLoop bound condition post body span, start, level => by
      simp only [expression]
      refine (binding_lifts bound start level).bind fun preparation first => ?_
      refine (expression_lifts condition _ level).bind fun test second => ?_
      refine (block_lifts .discard body _ level).bind fun pass third => ?_
      refine (expression_lifts post _ level).bind fun step fourth => ?_
      refine (Yields.requireTarget _ _).bind fun _ fits => .pure ?_
      exact first.forLoop second third fourth rfl rfl fits
  | .function parameters body span, start, level => by
      simp only [expression]
      exact .function none parameters span body
  | .call callee arguments span, start, level => by
      simp only [expression]
      refine (Yields.require _ _ _).bind fun _ few => ?_
      refine (expression_lifts callee start level).bind fun code first => ?_
      refine (expressions_lift arguments start code (level + 1)).bind fun all behind => .pure ?_
      obtain ⟨rest, rfl, lifts⟩ := behind
      have whole := first.append lifts
      rw [Nat.add_assoc, Nat.add_comm 1] at whole
      refine whole.gathers _ ?_ rfl not_false
      show Instruction.operand _ + 1 = _
      rw [Instruction.operand_of_lt (Nat.lt_succ_of_le (of_decide_eq_true few))]
  | .array elements span, start, level => by
      simp only [expression]
      refine (Yields.require _ _ _).bind fun _ few => ?_
      refine (expressions_lift elements start .empty level).bind fun all behind => .pure ?_
      obtain ⟨rest, rfl, lifts⟩ := behind
      refine (lifts_empty.append lifts).gathers _ ?_ rfl not_false
      exact Instruction.operand_of_lt (Nat.lt_succ_of_le (of_decide_eq_true few))
  | .index target index span, start, level => by
      simp only [expression]
      refine (expression_lifts target start level).bind fun first lifts => ?_
      refine (expression_lifts index _ (level + 1)).bind fun second more => .pure ?_
      exact (lifts.append more).gathers 2 rfl rfl not_false
  | .assign target value span, start, level => by
      simp only [expression]
      refine Yields.skip fun symbol => ?_
      refine (expression_lifts value start level).bind fun code lifts => ?_
      refine (Yields.store target symbol).bind fun instruction stores => .pure ?_
      refine Lifts.load ?_ symbol
      obtain ⟨opcode, rfl | rfl, rfl⟩ := stores <;> exact lifts.drops rfl rfl not_false

theorem expressions_lift : ∀ (items : List Expression) (start : Nat) (before : Fragment)
    (level : Nat), Yields (LiftsBehind level (level + items.length) start before)
      (expressions items start before)
  | [], start, before, level => by
      simp only [expressions]
      exact .pure liftsBehind_refl
  | item :: items, start, before, level => by
      simp only [expressions]
      refine (expression_lifts item _ level).bind fun code lifts => ?_
      refine (expressions_lift items start (before ++ code) (level + 1)).weaken fun _ more => ?_
      rw [Nat.add_assoc, Nat.add_comm 1] at more
      exact more.append lifts

theorem binding_lifts : ∀ (bound : Binding) (start level : Nat),
    Yields (Lifts level level start) (binding bound start)
  | .mk name value span, start, level => by
      have stored : ∀ (code : Fragment) (symbol : Symbol), Lifts level (level + 1) start code →
          Yields (Lifts level level start)
            (store name symbol >>= fun instruction => Pure.pure (code.push instruction)) := by
        intro code symbol lifts
        refine (Yields.store name symbol).bind fun instruction stores => .pure ?_
        obtain ⟨opcode, rfl | rfl, rfl⟩ := stores <;> exact lifts.drops rfl rfl not_false
      cases value with
      | function parameters body literalSpan =>
          simp only [binding]
          refine Yields.skip fun symbol => ?_
          exact (Yields.function _ parameters literalSpan body).bind fun code lifts =>
            stored code symbol lifts
      | _ =>
          simp only [binding]
          refine (expression_lifts _ start level).bind fun code lifts => ?_
          exact Yields.skip fun symbol => stored code symbol lifts

theorem block_lifts (ending : Ending) : ∀ (body : Block) (start level : Nat),
    Yields (Lifts level (level + ending.rise) start) (block ending body start)
  | .mk body span, start, level => by
      simp only [block]
      refine (statements_lift ending body start .empty level).weaken fun _ behind => ?_
      obtain ⟨rest, rfl, lifts⟩ := behind
      rwa [empty_append]

theorem statement_lifts : ∀ (first : Statement) (start level : Nat),
    Yields (Lifts level level start) (statement first start)
  | .bind bound, start, level => by
      simp only [statement]
      exact binding_lifts bound start level
  | .leave value span, start, level => by
      simp only [statement]
      exact departure_lifts value span start level
  | .expression value span, start, level => by
      simp only [statement]
      refine (expression_lifts value start level).bind fun _ lifts => .pure ?_
      exact lifts.drops rfl rfl not_false

theorem departure_lifts : ∀ (value : Option Expression) (span : Span) (start level : Nat),
    Yields (Lifts level level start) (departure value span start)
  | none, span, start, level => by
      simp only [departure]
      refine Yields.skip fun compiler => ?_
      split
      · exact .throw _
      · exact (Yields.pure lifts_empty.null).departed
  | some value, span, start, level => by
      simp only [departure]
      refine Yields.skip fun compiler => ?_
      split
      · exact .throw _
      · exact (expression_lifts value start level).departed

theorem statements_lift (ending : Ending) : ∀ (body : List Statement) (start : Nat)
    (before : Fragment) (level : Nat), Yields (LiftsBehind level (level + ending.rise) start before)
      (statements ending body start before)
  | [], start, before, level => by
      simp only [statements]
      have none : Lifts level level (start + before.size) .empty := lifts_empty
      have behind := LiftsBehind.emitAll (ending.lifts_behindOther none)
      rw [append_empty] at behind
      exact .pure behind
  | [.expression value span], start, before, level => by
      simp only [statements]
      exact (expression_lifts value _ level).bind fun _ lifts =>
        .pure (LiftsBehind.emitAll (ending.lifts_behindExpression lifts))
  | [.leave value span], start, before, level => by
      simp only [statements]
      exact (departure_lifts value span _ level).bind fun _ lifts =>
        .pure (LiftsBehind.emitAll (ending.lifts_behindLeave lifts))
  | [.bind bound], start, before, level => by
      simp only [statements]
      exact (statement_lifts (.bind bound) _ level).bind fun _ lifts =>
        .pure (LiftsBehind.emitAll (ending.lifts_behindOther lifts))
  | first :: second :: rest, start, before, level => by
      simp only [statements]
      refine (statement_lifts first _ level).bind fun code lifts => ?_
      exact (statements_lift ending (second :: rest) start (before ++ code) level).weaken
        fun _ more => more.append lifts

end

/-- A stream that is made of statements is balanced. -/
theorem statements_balanced {ending : Ending} {body : List Statement} {compiler next : Compiler}
    {code : Fragment} (ran : statements ending body 0 .empty compiler = .ok code next)
    (complete : code.Complete) : ∃ level, code.encode.Balanced level := by
  obtain ⟨rest, rfl, lifts⟩ := statements_lift ending body 0 .empty 0 compiler next code ran
  rw [empty_append] at complete ⊢
  exact lifts.balanced complete

end Compiling

/-- The stream of a function that comes from a routine is balanced. -/
theorem CompiledAs.balanced {routine : Routine} {body : Function} {constants : Array Value}
    (compiled : CompiledAs routine body constants) : ∃ level, body.code.Balanced level := by
  obtain ⟨before, after, code, ran, -, -, -, -, -, -, complete, stream, -⟩ := compiled
  rw [stream]
  exact Compiling.statements_balanced ran complete

end MonkeyLang
