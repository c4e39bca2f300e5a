import MonkeyLang.Program.Source

/-!
# What the parser reports is what has failed

The parser and the readers of the grammar go through tokens in the same way. Where a reader yields a
value, the parser yields it too, and has reported nothing; where a reader fails, the parser stops at
the same place, and what it has reported is the one diagnostic of the failure, or nothing at an error
token (`Parsing.Tells`). This holds of what the parser does in one step, and of pieces of work one
behind the other; so it holds of every piece at once, by induction on the fuel (`Parsing.telling`).

A whole list of tokens then has the program and the diagnostics of its reading
(`Program.parse_eq`).
-/

set_option autoImplicit false

namespace MonkeyLang

/-- How the parser ends that had reported some diagnostics before. -/
def Outcome.told {α : Type} (diagnostics : List Diagnostic) : Outcome α → Parser.Ending α
  | .done value cursor => .done value ⟨cursor, diagnostics⟩
  | .failed failure cursor => .failed ⟨cursor, diagnostics ++ failure.diagnostic?.toList⟩
  | .endless => .endless

/-- A report is the diagnostic of the failure at the token that the cursor looks at. -/
theorem Parser.report_eq (cursor : Cursor) (diagnostics : List Diagnostic) (fault : SyntaxFault) :
    Parser.report ⟨cursor, diagnostics⟩ fault =
      ⟨cursor, diagnostics ++ (SyntaxFailure.diagnostic? ⟨fault, cursor.peek⟩).toList⟩ := by
  unfold Parser.report SyntaxFailure.diagnostic?
  by_cases error : cursor.peek.kind = .error
  · simp [error]
  · simp [error]

namespace Parsing

variable {α β : Type}

/-- The parser ends where the reader does; it has reported what has failed, and nothing else. -/
def Tells (parsing : Parsing α) (parse : Parse α) : Prop :=
  ∀ cursor diagnostics, parsing ⟨cursor, diagnostics⟩ = (parse cursor).told diagnostics

namespace Tells

variable {parsing : Parsing α} {parse : Parse α} {next : α → Parsing β} {further : α → Parse β}

theorem pure (value : α) : (Pure.pure value : Parsing α).Tells (Pure.pure value) := fun _ _ => rfl

theorem endless : (Parsing.endless : Parsing α).Tells Parse.endless := fun _ _ => rfl

theorem peek : Parsing.peek.Tells Parse.peek := fun _ _ => rfl

theorem atEnd : Parsing.atEnd.Tells Parse.atEnd := fun _ _ => rfl

theorem looksAt (kind : Token.Kind) : (Parsing.looksAt kind).Tells (Parse.looksAt kind) :=
  fun _ _ => rfl

theorem previous : Parsing.previous.Tells Parse.previous := fun _ _ => rfl

theorem advance : Parsing.advance.Tells Parse.advance := fun _ _ => rfl

/-- To report a fault and then to fail is to fail with it. -/
theorem fail (fault : SyntaxFault) :
    (do report fault; Parsing.fail : Parsing α).Tells (Parse.fail fault) := by
  intro cursor diagnostics
  show Parser.Ending.failed (Parser.report ⟨cursor, diagnostics⟩ fault) = _
  rw [Parser.report_eq]
  rfl

theorem bind (first : parsing.Tells parse) (second : ∀ value, (next value).Tells (further value)) :
    (parsing >>= next).Tells (parse >>= further) := by
  intro cursor diagnostics
  show andThen parsing next ⟨cursor, diagnostics⟩ =
    (Parse.andThen parse further cursor).told diagnostics
  unfold andThen Parse.andThen
  rw [first cursor diagnostics]
  cases parse cursor with
  | done value stop => exact second value stop diagnostics
  | failed failure stop => rfl
  | endless => rfl

theorem ite {condition : Prop} [Decidable condition] {yes no : Parsing α} {yes' no' : Parse α}
    (holds : yes.Tells yes') (fails : no.Tells no') :
    (if condition then yes else no).Tells (if condition then yes' else no') := by
  by_cases decided : condition
  · rw [if_pos decided, if_pos decided]
    exact holds
  · rw [if_neg decided, if_neg decided]
    exact fails

theorem accept (kind : Token.Kind) : (Parsing.accept kind).Tells (Parse.accept kind) := by
  intro cursor diagnostics
  show (if cursor.looksAt kind = true then _ else _ : Parsing Bool) ⟨cursor, diagnostics⟩ = _
  unfold Parse.accept
  cases cursor.looksAt kind with
  | true => rfl
  | false => rfl

theorem require (kind : Token.Kind) (what : String) :
    (Parsing.require kind what).Tells (Parse.require kind what) := by
  intro cursor diagnostics
  show (if cursor.looksAt kind = true then _ else _ : Parsing Token) ⟨cursor, diagnostics⟩ = _
  unfold Parse.require
  cases cursor.looksAt kind with
  | true => rfl
  | false => exact fail (.expected what) cursor diagnostics

/-! ### Parts without expressions -/

theorem name (what : String) : (Parsing.name what).Tells (Parse.name what) := by
  unfold Parsing.name Parse.name
  refine peek.bind fun token => .ite ?_ (.ite (fail _) (fail _))
  exact advance.bind fun token => .pure _

theorem parameters (fuel : Nat) (done : List Name) :
    (Parsing.parameters fuel done).Tells (Parse.parameters fuel done) := by
  induction fuel generalizing done with
  | zero => exact endless
  | succ fuel ih =>
      rw [Parsing.parameters, Parse.parameters]
      refine (name _).bind fun parameter => (accept _).bind fun more => ?_
      exact .ite (ih _) (.pure _)

theorem integer : Parsing.integer.Tells Parse.integer := by
  unfold Parsing.integer Parse.integer
  refine peek.bind fun token => ?_
  cases Number.readInteger? token.lexeme.toList with
  | some value => exact advance.bind fun _ => .pure _
  | none => exact fail _

theorem float : Parsing.float.Tells Parse.float := by
  unfold Parsing.float Parse.float
  refine peek.bind fun token => ?_
  cases Number.readFloat? token.lexeme.toList with
  | some value => exact advance.bind fun _ => .pure _
  | none => exact fail _

theorem optionalSemicolon (span : Span) :
    (Parsing.optionalSemicolon span).Tells (Parse.optionalSemicolon span) := by
  unfold Parsing.optionalSemicolon Parse.optionalSemicolon
  refine (looksAt _).bind fun ends => .ite ?_ (.pure _)
  exact advance.bind fun token => .pure _

end Tells

/-! ## All pieces of work -/

/-- Every piece of the parser's work tells what its reader does with the same fuel. -/
structure Telling (fuel : Nat) : Prop where
  expression : ∀ floor, (Parsing.expression fuel floor).Tells (Parse.expression fuel floor)
  extensions : ∀ floor left,
    (Parsing.extensions fuel floor left).Tells (Parse.extensions fuel floor left)
  extension : ∀ left, (Parsing.extension fuel left).Tells (Parse.extension fuel left)
  expressions : ∀ kind, (Parsing.expressions fuel kind).Tells (Parse.expressions fuel kind)
  moreExpressions : ∀ done,
    (Parsing.moreExpressions fuel done).Tells (Parse.moreExpressions fuel done)
  operand : (Parsing.operand fuel).Tells (Parse.operand fuel)
  nameOrAssignment : (Parsing.nameOrAssignment fuel).Tells (Parse.nameOrAssignment fuel)
  conditional : (Parsing.conditional fuel).Tells (Parse.conditional fuel)
  whileLoop : (Parsing.whileLoop fuel).Tells (Parse.whileLoop fuel)
  forLoop : (Parsing.forLoop fuel).Tells (Parse.forLoop fuel)
  functionLiteral : (Parsing.functionLiteral fuel).Tells (Parse.functionLiteral fuel)
  block : (Parsing.block fuel).Tells (Parse.block fuel)
  blockStatements : ∀ done,
    (Parsing.blockStatements fuel done).Tells (Parse.blockStatements fuel done)
  binding : (Parsing.binding fuel).Tells (Parse.binding fuel)
  statement : (Parsing.statement fuel).Tells (Parse.statement fuel)

namespace Tells

variable {fuel : Nat} (telling : Telling fuel)

include telling

theorem expression_succ (floor : Precedence) :
    (Parsing.expression (fuel + 1) floor).Tells (Parse.expression (fuel + 1) floor) := by
  rw [Parsing.expression, Parse.expression]
  exact telling.operand.bind fun left => telling.extensions floor left

theorem extensions_succ (floor : Precedence) (left : Expression) :
    (Parsing.extensions (fuel + 1) floor left).Tells (Parse.extensions (fuel + 1) floor left) := by
  rw [Parsing.extensions, Parse.extensions]
  refine peek.bind fun next => .ite ?_ (.pure _)
  exact (telling.extension left).bind fun larger => telling.extensions floor larger

theorem extension_succ (left : Expression) :
    (Parsing.extension (fuel + 1) left).Tells (Parse.extension (fuel + 1) left) := by
  rw [Parsing.extension, Parse.extension]
  refine peek.bind fun next => ?_
  cases BinaryOperator.ofKind? next.kind with
  | some operator =>
      exact advance.bind fun _ => (telling.expression _).bind fun right => .pure _
  | none =>
      refine .ite ?_ (.ite ?_ (.pure _))
      · refine (require _ _).bind fun _ => (telling.expressions _).bind fun arguments => ?_
        exact (require _ _).bind fun close => .pure _
      · refine (require _ _).bind fun _ => (telling.expression _).bind fun index => ?_
        exact (require _ _).bind fun close => .pure _

theorem expressions_succ (kind : Token.Kind) :
    (Parsing.expressions (fuel + 1) kind).Tells (Parse.expressions (fuel + 1) kind) := by
  rw [Parsing.expressions, Parse.expressions]
  exact (looksAt _).bind fun closes => .ite (.pure _) (telling.moreExpressions _)

theorem moreExpressions_succ (done : List Expression) :
    (Parsing.moreExpressions (fuel + 1) done).Tells (Parse.moreExpressions (fuel + 1) done) := by
  rw [Parsing.moreExpressions, Parse.moreExpressions]
  refine (telling.expression _).bind fun item => (accept _).bind fun more => ?_
  exact .ite (telling.moreExpressions _) (.pure _)

theorem operand_succ : (Parsing.operand (fuel + 1)).Tells (Parse.operand (fuel + 1)) := by
  rw [Parsing.operand, Parse.operand]
  refine peek.bind fun token => ?_
  cases token.kind with
  | integer => exact Tells.integer
  | float => exact Tells.float
  | string => exact advance.bind fun token => .pure _
  | trueWord => exact advance.bind fun token => .pure _
  | falseWord => exact advance.bind fun token => .pure _
  | identifier => exact telling.nameOrAssignment
  | leftParen =>
      refine (require _ _).bind fun _ => (telling.expression _).bind fun inner => ?_
      exact (require _ _).bind fun _ => .pure _
  | leftBracket =>
      refine (require _ _).bind fun opening => (telling.expressions _).bind fun elements => ?_
      exact (require _ _).bind fun close => .pure _
  | minus => exact advance.bind fun sign => (telling.expression _).bind fun inner => .pure _
  | bang => exact advance.bind fun sign => (telling.expression _).bind fun inner => .pure _
  | ifWord => exact telling.conditional
  | whileWord => exact telling.whileLoop
  | forWord => exact telling.forLoop
  | funcWord => exact telling.functionLiteral
  | _ => exact fail _

theorem nameOrAssignment_succ :
    (Parsing.nameOrAssignment (fuel + 1)).Tells (Parse.nameOrAssignment (fuel + 1)) := by
  rw [Parsing.nameOrAssignment, Parse.nameOrAssignment]
  refine advance.bind fun token => peek.bind fun next => ?_
  cases assignment? next.kind with
  | none => exact .pure _
  | some operator => exact advance.bind fun _ => (telling.expression _).bind fun value => .pure _

theorem conditional_succ :
    (Parsing.conditional (fuel + 1)).Tells (Parse.conditional (fuel + 1)) := by
  rw [Parsing.conditional, Parse.conditional]
  refine (require _ _).bind fun word => (require _ _).bind fun _ => ?_
  refine (telling.expression _).bind fun condition => (require _ _).bind fun _ => ?_
  refine telling.block.bind fun consequence => (accept _).bind fun other => .ite ?_ (.pure _)
  refine (looksAt _).bind fun again => .ite ?_ ?_
  · exact telling.conditional.bind fun nested => .pure _
  · exact telling.block.bind fun alternative => .pure _

theorem whileLoop_succ : (Parsing.whileLoop (fuel + 1)).Tells (Parse.whileLoop (fuel + 1)) := by
  rw [Parsing.whileLoop, Parse.whileLoop]
  refine (require _ _).bind fun word => (require _ _).bind fun _ => ?_
  refine (telling.expression _).bind fun condition => (require _ _).bind fun _ => ?_
  exact telling.block.bind fun body => .pure _

theorem forLoop_succ : (Parsing.forLoop (fuel + 1)).Tells (Parse.forLoop (fuel + 1)) := by
  rw [Parsing.forLoop, Parse.forLoop]
  refine (require _ _).bind fun word => (require _ _).bind fun _ => ?_
  refine (looksAt _).bind fun binds => .ite (fail _) ?_
  refine telling.binding.bind fun start => previous.bind fun last => .ite (fail _) ?_
  refine (telling.expression _).bind fun condition => (require _ _).bind fun _ => ?_
  refine (telling.expression _).bind fun post => (require _ _).bind fun _ => ?_
  exact telling.block.bind fun body => .pure _

theorem functionLiteral_succ :
    (Parsing.functionLiteral (fuel + 1)).Tells (Parse.functionLiteral (fuel + 1)) := by
  rw [Parsing.functionLiteral, Parse.functionLiteral]
  refine (require _ _).bind fun word => (require _ _).bind fun _ => ?_
  refine (looksAt _).bind fun none => .ite ((Tells.pure _).bind fun names => ?_)
    ((parameters _ _).bind fun names => ?_)
  all_goals
    refine (require _ _).bind fun _ => ?_
    exact telling.block.bind fun body => .pure _

theorem block_succ : (Parsing.block (fuel + 1)).Tells (Parse.block (fuel + 1)) := by
  rw [Parsing.block, Parse.block]
  refine (require _ _).bind fun opening => (telling.blockStatements _).bind fun statements => ?_
  exact (require _ _).bind fun close => .pure _

theorem blockStatements_succ (done : List Statement) :
    (Parsing.blockStatements (fuel + 1) done).Tells (Parse.blockStatements (fuel + 1) done) := by
  rw [Parsing.blockStatements, Parse.blockStatements]
  refine (looksAt _).bind fun closes => atEnd.bind fun ends => .ite (.pure _) ?_
  exact telling.statement.bind fun next => telling.blockStatements _

theorem binding_succ : (Parsing.binding (fuel + 1)).Tells (Parse.binding (fuel + 1)) := by
  rw [Parsing.binding, Parse.binding]
  refine (require _ _).bind fun word => (name _).bind fun name => (require _ _).bind fun _ => ?_
  refine (telling.expression _).bind fun value => ?_
  exact (optionalSemicolon _).bind fun span => .pure _

theorem statement_succ : (Parsing.statement (fuel + 1)).Tells (Parse.statement (fuel + 1)) := by
  rw [Parsing.statement, Parse.statement]
  refine peek.bind fun token => ?_
  cases token.kind with
  | varWord => exact telling.binding.bind fun binding => .pure _
  | returnWord =>
      refine (require _ _).bind fun word => (looksAt _).bind fun ends => ?_
      refine (looksAt _).bind fun closes => atEnd.bind fun stops => .ite ?_ ?_
      · exact (optionalSemicolon _).bind fun span => .pure _
      · refine (telling.expression _).bind fun value => ?_
        exact (optionalSemicolon _).bind fun span => .pure _
  | _ =>
      refine (telling.expression _).bind fun value => peek.bind fun next => .ite (fail _) ?_
      exact (optionalSemicolon _).bind fun span => .pure _

end Tells

/-- **What the parser reports is what has failed**, in every piece of its work. -/
theorem telling (fuel : Nat) : Telling fuel := by
  induction fuel with
  | zero =>
      constructor
      all_goals
        intros
        exact fun _ _ => rfl
  | succ fuel telling =>
      exact {
        expression := Tells.expression_succ telling
        extensions := Tells.extensions_succ telling
        extension := Tells.extension_succ telling
        expressions := Tells.expressions_succ telling
        moreExpressions := Tells.moreExpressions_succ telling
        operand := Tells.operand_succ telling
        nameOrAssignment := Tells.nameOrAssignment_succ telling
        conditional := Tells.conditional_succ telling
        whileLoop := Tells.whileLoop_succ telling
        forLoop := Tells.forLoop_succ telling
        functionLiteral := Tells.functionLiteral_succ telling
        block := Tells.block_succ telling
        blockStatements := Tells.blockStatements_succ telling
        binding := Tells.binding_succ telling
        statement := Tells.statement_succ telling }

end Parsing

/-! ## Whole programs -/

/-- What the parser answers of a reading. -/
def ProgramReading.told (reading : ProgramReading) : Program × List Diagnostic :=
  (reading.program, reading.diagnostics)

namespace Program

/-- The parser goes on with the diagnostics of the failures so far. -/
theorem parseStatements_eq (statementFuel fuel : Nat) (cursor : Cursor) (done : List Statement)
    (failures : List SyntaxFailure) :
    parseStatements statementFuel fuel
        ⟨cursor, failures.reverse.filterMap SyntaxFailure.diagnostic?⟩ done =
      (readStatements statementFuel fuel cursor done failures).map ProgramReading.told := by
  induction fuel generalizing cursor done failures with
  | zero => rfl
  | succ fuel ih =>
      rw [parseStatements, readStatements]
      by_cases ended : cursor.atEnd = true
      · rw [if_pos ended, if_pos ended]
        rfl
      · rw [if_neg ended, if_neg ended, (Parsing.telling statementFuel).statement]
        cases Parse.statement statementFuel cursor with
        | done statement stop => exact ih stop (statement :: done) failures
        | failed failure stop =>
            have told : [failure].filterMap SyntaxFailure.diagnostic? =
                failure.diagnostic?.toList := by
              rw [List.filterMap_cons, List.filterMap_nil]
              cases failure.diagnostic? with
              | none => rfl
              | some diagnostic => rfl
            have later := ih stop.recover done (failure :: failures)
            rw [List.reverse_cons, List.filterMap_append, told] at later
            exact later
        | endless => rfl

/-- The parser's answer is the program that the tokens stand for, with the diagnostics of the
failures on the way. -/
theorem parse_eq (tokens : List Token) :
    parse tokens = (ofTokens tokens).map ProgramReading.told :=
  parseStatements_eq (fuelFor tokens) (tokens.length + 1) (Cursor.start tokens) [] []

/-- A text is rejected for the diagnostics of its tokens, or else for those of the failures. -/
theorem ofSource_eq (source : List Char) : ofSource source =
    match (Token.scan source).diagnostics source with
    | [] =>
      match ofTokens (Token.scan source).tokens with
      | none => .error []
      | some reading =>
        match reading.diagnostics with
        | [] => .ok reading.program
        | diagnostics => .error (diagnostics.map (Diagnostic.locate source))
    | diagnostics => .error diagnostics := by
  simp only [ofSource, parse_eq]
  cases (Token.scan source).diagnostics source with
  | cons diagnostic others => rfl
  | nil =>
      cases ofTokens (Token.scan source).tokens with
      | none => rfl
      | some reading =>
          simp only [Option.map_some, ProgramReading.told]
          cases reading.diagnostics with
          | nil => rfl
          | cons diagnostic others => rfl

end Program

end MonkeyLang
