import MonkeyLang.Program.Parser

/-!
# More fuel never changes an answer

A reader that ends with some fuel ends in the same way with more of it. One reader extends another if
it ends in the same way wherever the other one ends at all (`Parse.Extends`). Readers that run one
after another are extended by readers that extend them, and so this is shown of every reader at once,
by induction on the smaller amount of fuel (`Parse.steady`).

What is read of a list of tokens does not depend on the fuel either, as long as something is read
(`Program.readStatements_mono`).
-/

set_option autoImplicit false

namespace MonkeyLang

namespace Parse

variable {α β : Type}

/-- The second reader ends in the same way wherever the first one ends. -/
def Extends (less more : Parse α) : Prop :=
  ∀ cursor, less cursor = .endless ∨ less cursor = more cursor

namespace Extends

variable {less more : Parse α} {next further : α → Parse β}

theorem refl (parse : Parse α) : parse.Extends parse := fun _ => .inr rfl

theorem endless (parse : Parse α) : (Parse.endless : Parse α).Extends parse := fun _ => .inl rfl

theorem bind (first : less.Extends more) (second : ∀ value, (next value).Extends (further value)) :
    (less >>= next).Extends (more >>= further) := by
  intro cursor
  show andThen less next cursor = .endless ∨ andThen less next cursor = andThen more further cursor
  unfold andThen
  rcases first cursor with same | same
  · exact .inl (by rw [same])
  · rw [← same]
    cases less cursor with
    | done value stop => exact second value stop
    | failed failure stop => exact .inr rfl
    | endless => exact .inl rfl

/-- Readers that start with the same reader. -/
theorem behind (parse : Parse α) (second : ∀ value, (next value).Extends (further value)) :
    (parse >>= next).Extends (parse >>= further) :=
  (refl parse).bind second

theorem ite {condition : Prop} [Decidable condition] {yes no yes' no' : Parse α}
    (holds : yes.Extends yes') (fails : no.Extends no') :
    (if condition then yes else no).Extends (if condition then yes' else no') := by
  by_cases decided : condition
  · rw [if_pos decided, if_pos decided]
    exact holds
  · rw [if_neg decided, if_neg decided]
    exact fails

end Extends

theorem parameters_extends {less more : Nat} (le : less ≤ more) (done : List Name) :
    (parameters less done).Extends (parameters more done) := by
  induction less generalizing more done with
  | zero =>
      rw [parameters]
      exact .endless _
  | succ less ih =>
      obtain ⟨more, rfl⟩ := Nat.exists_eq_add_of_le' (Nat.lt_of_lt_of_le (Nat.succ_pos less) le)
      rw [parameters, parameters]
      refine .behind _ fun parameter => .behind _ fun more => ?_
      exact .ite (ih (Nat.le_of_succ_le_succ le) _) (.refl _)

/-! ## All readers -/

/-- Each reader with more fuel extends the one with less. -/
structure Steady (less more : Nat) : Prop where
  parameters : ∀ done, (Parse.parameters less done).Extends (Parse.parameters more done)
  expression : ∀ floor, (Parse.expression less floor).Extends (Parse.expression more floor)
  extensions : ∀ floor left,
    (Parse.extensions less floor left).Extends (Parse.extensions more floor left)
  extension : ∀ left, (Parse.extension less left).Extends (Parse.extension more left)
  expressions : ∀ kind, (Parse.expressions less kind).Extends (Parse.expressions more kind)
  moreExpressions : ∀ done,
    (Parse.moreExpressions less done).Extends (Parse.moreExpressions more done)
  operand : (Parse.operand less).Extends (Parse.operand more)
  nameOrAssignment : (Parse.nameOrAssignment less).Extends (Parse.nameOrAssignment more)
  conditional : (Parse.conditional less).Extends (Parse.conditional more)
  whileLoop : (Parse.whileLoop less).Extends (Parse.whileLoop more)
  forLoop : (Parse.forLoop less).Extends (Parse.forLoop more)
  functionLiteral : (Parse.functionLiteral less).Extends (Parse.functionLiteral more)
  block : (Parse.block less).Extends (Parse.block more)
  blockStatements : ∀ done,
    (Parse.blockStatements less done).Extends (Parse.blockStatements more done)
  binding : (Parse.binding less).Extends (Parse.binding more)
  statement : (Parse.statement less).Extends (Parse.statement more)

namespace Steady

variable {less more : Nat} (steady : Steady less more)

include steady

theorem expression_succ (floor : Precedence) :
    (Parse.expression (less + 1) floor).Extends (Parse.expression (more + 1) floor) := by
  rw [Parse.expression, Parse.expression]
  exact steady.operand.bind fun left => steady.extensions floor left

theorem extensions_succ (floor : Precedence) (left : Expression) :
    (Parse.extensions (less + 1) floor left).Extends (Parse.extensions (more + 1) floor left) := by
  rw [Parse.extensions, Parse.extensions]
  refine .behind _ fun next => .ite ?_ (.refl _)
  exact (steady.extension left).bind fun larger => steady.extensions floor larger

theorem extension_succ (left : Expression) :
    (Parse.extension (less + 1) left).Extends (Parse.extension (more + 1) left) := by
  rw [Parse.extension, Parse.extension]
  refine .behind _ fun next => ?_
  cases BinaryOperator.ofKind? next.kind with
  | some operator => exact .behind _ fun _ => (steady.expression _).bind fun _ => .refl _
  | none =>
      refine .ite ?_ (.ite ?_ (.refl _))
      · exact .behind _ fun _ => (steady.expressions _).bind fun _ => .refl _
      · exact .behind _ fun _ => (steady.expression _).bind fun _ => .refl _

theorem expressions_succ (kind : Token.Kind) :
    (Parse.expressions (less + 1) kind).Extends (Parse.expressions (more + 1) kind) := by
  rw [Parse.expressions, Parse.expressions]
  exact .behind _ fun seen => .ite (.refl _) (steady.moreExpressions _)

theorem moreExpressions_succ (done : List Expression) :
    (Parse.moreExpressions (less + 1) done).Extends (Parse.moreExpressions (more + 1) done) := by
  rw [Parse.moreExpressions, Parse.moreExpressions]
  refine (steady.expression _).bind fun item => .behind _ fun seen => ?_
  exact .ite (steady.moreExpressions _) (.refl _)

theorem operand_succ : (Parse.operand (less + 1)).Extends (Parse.operand (more + 1)) := by
  rw [Parse.operand, Parse.operand]
  refine .behind _ fun token => ?_
  cases token.kind with
  | identifier => exact steady.nameOrAssignment
  | leftParen => exact .behind _ fun _ => (steady.expression _).bind fun _ => .refl _
  | leftBracket => exact .behind _ fun _ => (steady.expressions _).bind fun _ => .refl _
  | minus => exact .behind _ fun _ => (steady.expression _).bind fun _ => .refl _
  | bang => exact .behind _ fun _ => (steady.expression _).bind fun _ => .refl _
  | ifWord => exact steady.conditional
  | whileWord => exact steady.whileLoop
  | forWord => exact steady.forLoop
  | funcWord => exact steady.functionLiteral
  | _ => exact .refl _

theorem nameOrAssignment_succ :
    (Parse.nameOrAssignment (less + 1)).Extends (Parse.nameOrAssignment (more + 1)) := by
  rw [Parse.nameOrAssignment, Parse.nameOrAssignment]
  refine .behind _ fun token => .behind _ fun next => ?_
  cases assignment? next.kind with
  | none => exact .refl _
  | some operator => exact .behind _ fun _ => (steady.expression _).bind fun _ => .refl _

theorem conditional_succ :
    (Parse.conditional (less + 1)).Extends (Parse.conditional (more + 1)) := by
  rw [Parse.conditional, Parse.conditional]
  refine .behind _ fun word => .behind _ fun _ => (steady.expression _).bind fun condition => ?_
  refine .behind _ fun _ => steady.block.bind fun consequence => .behind _ fun other => ?_
  refine .ite (.behind _ fun again => .ite ?_ ?_) (.refl _)
  · exact steady.conditional.bind fun _ => .refl _
  · exact steady.block.bind fun _ => .refl _

theorem whileLoop_succ : (Parse.whileLoop (less + 1)).Extends (Parse.whileLoop (more + 1)) := by
  rw [Parse.whileLoop, Parse.whileLoop]
  refine .behind _ fun word => .behind _ fun _ => (steady.expression _).bind fun condition => ?_
  exact .behind _ fun _ => steady.block.bind fun _ => .refl _

theorem forLoop_succ : (Parse.forLoop (less + 1)).Extends (Parse.forLoop (more + 1)) := by
  rw [Parse.forLoop, Parse.forLoop]
  refine .behind _ fun word => .behind _ fun _ => .behind _ fun binds => .ite (.refl _) ?_
  refine steady.binding.bind fun start => .behind _ fun last => .ite (.refl _) ?_
  refine (steady.expression _).bind fun condition => .behind _ fun _ => ?_
  refine (steady.expression _).bind fun post => .behind _ fun _ => ?_
  exact steady.block.bind fun _ => .refl _

theorem functionLiteral_succ :
    (Parse.functionLiteral (less + 1)).Extends (Parse.functionLiteral (more + 1)) := by
  rw [Parse.functionLiteral, Parse.functionLiteral]
  refine .behind _ fun word => .behind _ fun _ => .behind _ fun none => ?_
  refine .ite (.behind _ fun _ => ?_) ((steady.parameters []).bind fun _ => ?_) <;>
    exact .behind _ fun _ => steady.block.bind fun _ => .refl _

theorem block_succ : (Parse.block (less + 1)).Extends (Parse.block (more + 1)) := by
  rw [Parse.block, Parse.block]
  exact .behind _ fun opening => (steady.blockStatements []).bind fun _ => .refl _

theorem blockStatements_succ (done : List Statement) :
    (Parse.blockStatements (less + 1) done).Extends (Parse.blockStatements (more + 1) done) := by
  rw [Parse.blockStatements, Parse.blockStatements]
  refine .behind _ fun closed => .behind _ fun ended => .ite (.refl _) ?_
  exact steady.statement.bind fun next => steady.blockStatements _

theorem binding_succ : (Parse.binding (less + 1)).Extends (Parse.binding (more + 1)) := by
  rw [Parse.binding, Parse.binding]
  refine .behind _ fun word => .behind _ fun name => .behind _ fun _ => ?_
  exact (steady.expression _).bind fun _ => .refl _

theorem statement_succ : (Parse.statement (less + 1)).Extends (Parse.statement (more + 1)) := by
  rw [Parse.statement, Parse.statement]
  refine .behind _ fun token => ?_
  cases token.kind with
  | varWord => exact steady.binding.bind fun _ => .refl _
  | returnWord =>
      refine .behind _ fun word => .behind _ fun _ => .behind _ fun _ => .behind _ fun _ => ?_
      exact .ite (.refl _) ((steady.expression _).bind fun _ => .refl _)
  | _ => exact (steady.expression _).bind fun _ => .refl _

end Steady

/-- A reader that ends with some fuel ends in the same way with more of it. -/
theorem steady {less more : Nat} (le : less ≤ more) : Steady less more := by
  induction less generalizing more with
  | zero =>
      constructor
      all_goals
        intros
        exact fun _ => .inl rfl
  | succ less ih =>
      obtain ⟨more, rfl⟩ := Nat.exists_eq_add_of_le' (Nat.lt_of_lt_of_le (Nat.succ_pos less) le)
      have steady := ih (Nat.le_of_succ_le_succ le)
      exact {
        parameters := parameters_extends le
        expression := steady.expression_succ
        extensions := steady.extensions_succ
        extension := steady.extension_succ
        expressions := steady.expressions_succ
        moreExpressions := steady.moreExpressions_succ
        operand := steady.operand_succ
        nameOrAssignment := steady.nameOrAssignment_succ
        conditional := steady.conditional_succ
        whileLoop := steady.whileLoop_succ
        forLoop := steady.forLoop_succ
        functionLiteral := steady.functionLiteral_succ
        block := steady.block_succ
        blockStatements := steady.blockStatements_succ
        binding := steady.binding_succ
        statement := steady.statement_succ }

end Parse

namespace Program

/-- What is read of a list of tokens is read with more fuel too. -/
theorem readStatements_mono {less more few many : Nat} (le : less ≤ more) (further : few ≤ many)
    {cursor : Cursor} {done : List Statement} {failures : List SyntaxFailure}
    {reading : ProgramReading}
    (reads : readStatements less few cursor done failures = some reading) :
    readStatements more many cursor done failures = some reading := by
  induction few generalizing many cursor done failures with
  | zero => cases reads
  | succ few ih =>
      obtain ⟨many, rfl⟩ := Nat.exists_eq_add_of_le' (Nat.lt_of_lt_of_le (Nat.succ_pos few) further)
      have rest := fun {cursor done failures} => @ih many (Nat.le_of_succ_le_succ further) cursor
        done failures
      rw [readStatements] at reads ⊢
      by_cases ended : cursor.atEnd = true
      · rw [if_pos ended] at reads ⊢
        exact reads
      · rw [if_neg ended] at reads ⊢
        have extended := (Parse.steady le).statement cursor
        cases ran : Parse.statement less cursor with
        | endless =>
            rw [ran] at reads
            cases reads
        | done statement stop =>
            rw [ran] at reads extended
            rw [← extended.resolve_left (by simp)]
            exact rest reads
        | failed failure stop =>
            rw [ran] at reads extended
            rw [← extended.resolve_left (by simp)]
            exact rest reads

end Program

end MonkeyLang
