import MonkeyLang.Proofs.Compiler.Core
import MonkeyLang.Proofs.Program.Recovery
import MonkeyLang.Proofs.Program.WithoutEnd
import MonkeyLang.Proofs.Program.WordByWord

/-!
# Short forms and what they stand for

Three things have a short form. An assignment that computes its value from the old one stands for
one that names it once more. A conditional as the other case of a conditional stands for a block
around it. And a loop with a header, as a statement, stands for a binding and a loop with a
condition.

Each of them is a fork behind which the tokens say the same (`Fork.compound`, `Fork.chained`,
`Fork.counted`). Both ways have the same core, so both programs have, wherever the fork is
(`Program.core_of_sugar`), and the compiler makes the same of them (`Program.compile_of_sugar`).
-/

set_option autoImplicit false

namespace MonkeyLang

namespace Fork

/-! ## Assignments that compute their value -/

section

variable (target : String) (operator : BinaryOperator) (sign : Token.Kind) (value rest : List Word)

/-- Behind a name: the short form of an assignment, and the one that names the value once more. -/
def compound : Fork where
  first := .fixed sign :: (value ++ rest)
  second := .fixed .assign :: .name target :: .fixed operator.kind :: .fixed .leftParen ::
    (value ++ .fixed .rightParen :: rest)
  behind := (· = .name target)
  merges := True
  loose := False

variable {target operator sign value rest}

theorem compound_turn (names : assignment? sign = some (some operator)) :
    (compound target operator sign value rest).Turn := by
  have kinds : sign = .plusEqual ∨ sign = .minusEqual ∨ sign = .starEqual ∨ sign = .slashEqual := by
    cases sign <;> simp_all [assignment?]
  exact {
    first := by rcases kinds with rfl | rfl | rfl | rfl <;> rfl
    second := rfl
    differ := by
      show sign ≠ .assign
      rcases kinds with rfl | rfl | rfl | rfl <;> decide
    closed := fun _ => rfl }

section

variable {fuel : Nat} {name : Name} {cursor last : Cursor} {result core : Expression}
  {after : List Word} (names : assignment? sign = some (some operator))
  (settles : Parse.Settles (Parse.expression · .lowest) (·.Closes 0) value core)
  (some : rest ≠ []) (closes : (rest.headD (.fixed .endOfInput)).kind.Closes 0)

include names settles some closes

/-- What the short form is read as. -/
theorem compound_first (is : cursor.words = .fixed sign :: (value ++ rest))
    (ran : Parse.assignmentTo fuel name cursor = .done result last) :
    result.core = .assign name.withoutSpan (.binary operator (.name name.withoutSpan) core .dummy)
      .dummy ∧ last.words = rest := by
  have ahead : cursor.ahead = sign := Cursor.ahead_eq is
  have goes : sign ≠ .endOfInput := by
    rintro rfl
    cases names
  rw [Parse.assignmentTo, Parse.peek_bind, Cursor.peek_kind (is ▸ List.cons_ne_nil _ _), ahead,
    names] at ran
  obtain ⟨_, middle, -, stands, ran⟩ := Parse.advance_bind_words ran is goes
  obtain ⟨read, onward, inside, ran⟩ := Parse.bind_eq_done.mp ran
  obtain ⟨cores, stands⟩ := settles _ _ _ _ _ some closes stands inside
  obtain ⟨rfl, rfl⟩ := Parse.pure_eq_done.mp ran
  exact ⟨by simp only [Parse.assigned, Expression.core, cores], stands⟩

omit names

/-- What the long form is read as. -/
theorem compound_second
    (is : cursor.words = .fixed .assign :: .name target :: .fixed operator.kind ::
      .fixed .leftParen :: (value ++ .fixed .rightParen :: rest))
    (ran : Parse.assignmentTo fuel name cursor = .done result last) :
    result.core = .assign name.withoutSpan (.binary operator (.name ⟨target, .dummy⟩) core .dummy)
      .dummy ∧ last.words = rest := by
  have ahead : cursor.ahead = .assign := Cursor.ahead_eq is
  rw [Parse.assignmentTo, Parse.peek_bind, Cursor.peek_kind (is ▸ List.cons_ne_nil _ _), ahead]
    at ran
  obtain ⟨_, middle, -, stands, ran⟩ := Parse.advance_bind_words ran is (by decide)
  obtain ⟨read, onward, inside, ran⟩ := Parse.bind_eq_done.mp ran
  obtain ⟨less, left, between, named, extended⟩ := Parse.expression_eq_done inside
  obtain ⟨names, stands⟩ :=
    Parse.operand_name named stands (List.cons_ne_nil _ _) operator.closes.2.1
  obtain ⟨cores, stands⟩ := Parse.extensions_group settles extended stands some closes
  obtain ⟨rfl, rfl⟩ := Parse.pure_eq_done.mp ran
  exact ⟨by simp only [Parse.assigned, Expression.core, cores, names], stands⟩

include names

theorem compound_bridged (ends : rest = after ++ [.fixed .endOfInput]) :
    (compound target operator sign value rest).Bridged where
  parts := .inr (compound_turn names)
  names fuel more name other texts behind := by
    intro here there parting short long next last ran running
    obtain ⟨cores, stands⟩ := compound_first names settles some closes parting.first ran
    obtain ⟨also, meets⟩ := compound_second settles some closes parting.second running
    refine .inl ⟨?_, .of_same trivial (ends ▸ stands) (meets.trans stands.symm)⟩
    have named : name.withoutSpan = ⟨target, .dummy⟩ := by
      rw [Name.withoutSpan, Word.name.inj behind]
    rw [cores, also, Name.withoutSpan_eq_iff.mpr texts, named]
  alternatives fuel more := by
    intro here there parting value result next last ran running
    have opens := Parse.alternative_ahead running
    rw [parting.secondKind] at opens
    exact absurd opens (by rintro (is | is) <;> cases is)
  statements here there parting fuel value next ran more result last running := by
    have opens := Parse.statement_ahead (parting.second ▸ List.cons_ne_nil _ _) running
    rw [parting.secondKind] at opens
    exact absurd opens (by rintro (is | is | is) <;> cases is)

end

end

/-! ## Conditionals as the other case -/

section

variable (nested rest : List Word)

/-- Behind the word for the other case: a conditional, and a block around it. -/
def chained : Fork where
  first := nested ++ rest
  second := .fixed .leftBrace :: (nested ++ .fixed .rightBrace :: rest)
  behind := (· = .fixed .elseWord)
  merges := True
  loose := False

variable {nested rest} {fuel : Nat} {cursor last : Cursor} {value : Block} {core : Expression}
  {after : List Word} (begins : ∃ word others, nested = word :: others ∧ word.kind = .ifWord)
  (settles : Parse.Settles Parse.conditional (· ≠ .elseWord) nested core)

include begins

theorem chained_firstKind : (chained nested rest).firstKind = .ifWord := by
  obtain ⟨word, others, rfl, begins⟩ := begins
  exact begins

theorem chained_turn : (chained nested rest).Turn where
  first := chained_firstKind begins ▸ rfl
  second := rfl
  differ := chained_firstKind begins ▸ nofun
  closed := fun _ => rfl

include settles

theorem chained_first (some : rest ≠ [])
    (complete : (rest.headD (.fixed .endOfInput)).kind ≠ .elseWord)
    (is : cursor.words = nested ++ rest) (ran : Parse.alternative fuel cursor = .done value last) :
    value.core = .mk core.unrolled .dummy ∧ last.words = rest := by
  have ahead : cursor.ahead = .ifWord := by
    obtain ⟨word, others, rfl, begins⟩ := begins
    exact (Cursor.ahead_eq is).trans begins
  rw [Parse.alternative, Parse.looksAt_bind, if_pos (Cursor.looksAt_iff.mpr ⟨ahead, by decide⟩)] at ran
  obtain ⟨inner, middle, read, ran⟩ := Parse.bind_eq_done.mp ran
  obtain ⟨cores, stands⟩ := settles _ _ _ _ _ some complete is read
  obtain ⟨rfl, rfl⟩ := Parse.pure_eq_done.mp ran
  refine ⟨?_, stands⟩
  rw [Block.core, Statement.listCore, Statement.core, cores, Statement.listCore, List.append_nil]

theorem chained_second
    (is : cursor.words = .fixed .leftBrace :: (nested ++ .fixed .rightBrace :: rest))
    (ran : Parse.alternative fuel cursor = .done value last) :
    value.core = .mk core.unrolled .dummy ∧ last.words = rest := by
  have not : cursor.looksAt .ifWord ≠ true := by
    intro looks
    cases (Cursor.ahead_eq is).symm.trans (Cursor.looksAt_iff.mp looks).1
  rw [Parse.alternative, Parse.looksAt_bind, if_neg not] at ran
  exact Parse.block_words (settles.passes_conditional begins) rfl ran is

theorem chained_bridged (complete : (rest.headD (.fixed .endOfInput)).kind ≠ .elseWord)
    (ends : rest = after ++ [.fixed .endOfInput]) : (chained nested rest).Bridged where
  parts := .inr (chained_turn begins)
  names fuel more name other texts behind := by cases behind
  alternatives fuel more := by
    intro here there parting short long next last ran running
    have some : rest ≠ [] := ends ▸ List.concat_ne_nil _ _
    obtain ⟨cores, stands⟩ := chained_first begins settles some complete parting.first ran
    obtain ⟨also, meets⟩ := chained_second begins settles parting.second running
    exact ⟨also.trans cores.symm, .of_same trivial (ends ▸ stands) (meets.trans stands.symm)⟩
  statements here there parting fuel value next ran more result last running := by
    have opens := Parse.statement_ahead (parting.second ▸ List.cons_ne_nil _ _) running
    rw [parting.secondKind] at opens
    exact absurd opens (by rintro (is | is | is) <;> cases is)

end

/-! ## Loops with a header -/

section

variable (name : String) (initial condition step body rest : List Word)

/-- Where a statement starts: a loop with a header, and a binding with a loop behind it. -/
def counted : Fork where
  first := .fixed .forWord :: .fixed .leftParen :: .fixed .varWord :: .name name ::
    .fixed .assign :: (initial ++ .fixed .semicolon :: (condition ++ .fixed .semicolon :: (step ++
      .fixed .rightParen :: .fixed .leftBrace :: (body ++ .fixed .rightBrace :: rest))))
  second := .fixed .varWord :: .name name :: .fixed .assign :: (initial ++ .fixed .semicolon ::
    .fixed .whileWord :: .fixed .leftParen :: (condition ++ .fixed .rightParen ::
      .fixed .leftBrace :: ((body ++ (step ++ [.fixed .semicolon])) ++ .fixed .rightBrace :: rest)))
  behind := fun _ => True
  merges := True
  loose := False

variable {name initial condition step body rest} {first second third : Expression}
  {inner : List Statement} {after : List Word}

theorem counted_turn : (counted name initial condition step body rest).Turn :=
  ⟨rfl, rfl, nofun, fun _ => rfl⟩

variable (initials : Parse.Settles (Parse.expression · .lowest) (·.Closes 0) initial first)
  (conditions : Parse.Settles (Parse.expression · .lowest) (·.Closes 0) condition second)
  (steps : Parse.Settles (Parse.expression · .lowest) (·.Closes 0) step third)
  (opens : ∃ word others, step = word :: others ∧ word.kind.opensExpression = true)
  (passes : Parse.Passes (· ≠ .elseWord) body inner)
  (ends : rest = after ++ [.fixed .endOfInput])
  (closes : (rest.headD (.fixed .endOfInput)).kind.precedence.rank = 0)

include initials conditions steps opens passes ends closes

theorem counted_bridged : (counted name initial condition step body rest).Bridged where
  parts := .inr counted_turn
  names fuel more target other texts _ := by
    intro here there parting value result next last ran running
    rw [Parse.assignmentTo_of_none (parting.first ▸ List.cons_ne_nil _ _)
      (parting.firstKind ▸ rfl)] at ran
    rw [Parse.assignmentTo_of_none (parting.second ▸ List.cons_ne_nil _ _)
      (parting.secondKind ▸ rfl)] at running
    cases ran
    cases running
    exact .inl ⟨congrArg Expression.name (Name.withoutSpan_eq_iff.mpr texts), .parting parting⟩
  alternatives fuel more := by
    intro here there parting value result next last ran
    have opens := Parse.alternative_ahead ran
    rw [parting.firstKind] at opens
    exact absurd opens (by rintro (is | is) <;> cases is)
  statements here there parting fuel value next ran more result last running := by
    have some : rest ≠ [] := ends ▸ List.concat_ne_nil _ _
    obtain ⟨cores, left⟩ := Parse.statement_worded Parse.leads_forLoop ran
      (parting.first ▸ List.cons_ne_nil _ _) parting.firstKind some closes
      fun less value onward read =>
        Parse.forLoop_words initials conditions steps passes nofun read parting.first
    obtain ⟨less, bound, read, rfl⟩ := Parse.statement_binding running
      (parting.second ▸ List.cons_ne_nil _ _) parting.secondKind
    obtain ⟨starts, stands⟩ := Parse.binding_words initials read parting.second
    have ahead : last.ahead = .whileWord := Cursor.ahead_eq stands
    refine ⟨ahead ▸ nofun, ahead ▸ nofun, fun another further final going => ?_⟩
    obtain ⟨word, others, rfl, opens⟩ := opens
    have complete : word.kind ≠ .elseWord := by
      intro is
      rw [is] at opens
      cases opens
    have body_passes := passes.append (steps.passes ⟨word, others, rfl, opens⟩)
      (List.cons_ne_nil _ _) complete
    obtain ⟨also, meets⟩ := Parse.statement_worded Parse.leads_whileLoop going
      (stands ▸ List.cons_ne_nil _ _) ahead some closes fun less value onward read =>
        Parse.whileLoop_words conditions body_passes trivial read stands
    refine ⟨by rw [cores, Statement.core, starts, also]; rfl, ?_⟩
    obtain ⟨front, same⟩ := Parse.exists_afterSemicolon after
    rw [← ends] at same
    exact .of_same trivial (left.trans same) (meets.trans left.symm)

end

end Fork

/-! ## Whole programs -/

/-- A short form, what it stands for, and what stands behind either of them. The parts are read to
their end when they stand alone, and what stands behind does not go on with the last one. -/
inductive Sugar : List Word → List Word → List Word → Prop where
  /-- An assignment that computes its value; what it computes with stands in parentheses. -/
  | compound {operator : BinaryOperator} {sign : Token.Kind} {value after : List Word}
      (target : String) (names : assignment? sign = some (some operator))
      (reads : Parse.Reads (Parse.expression · .lowest) value)
      (closes : (after.headD (.fixed .endOfInput)).kind.Closes 0) :
      Sugar (.name target :: .fixed sign :: value)
        (.name target :: .fixed .assign :: .name target :: .fixed operator.kind ::
          .fixed .leftParen :: (value ++ [.fixed .rightParen])) after
  /-- A conditional as the other case, and a block around it. -/
  | chained {nested after : List Word} (reads : Parse.Reads Parse.conditional nested)
      (complete : (after.headD (.fixed .endOfInput)).kind ≠ .elseWord) :
      Sugar (.fixed .elseWord :: nested)
        (.fixed .elseWord :: .fixed .leftBrace :: (nested ++ [.fixed .rightBrace])) after
  /-- A loop with a header that is a whole statement. The statements of its body end with a
  semicolon. -/
  | counted {initial condition step body after : List Word} (name : String)
      (starts : Parse.Reads (Parse.expression · .lowest) initial)
      (tests : Parse.Reads (Parse.expression · .lowest) condition)
      (steps : Parse.Reads (Parse.expression · .lowest) step)
      (loops : Parse.Reads (Parse.blockStatements · []) body)
      (closed : body.getLastD (.fixed .semicolon) = .fixed .semicolon)
      (closes : (after.headD (.fixed .endOfInput)).kind.precedence.rank = 0) :
      Sugar
        (.fixed .forWord :: .fixed .leftParen :: .fixed .varWord :: .name name :: .fixed .assign ::
          (initial ++ .fixed .semicolon :: (condition ++ .fixed .semicolon :: (step ++
            .fixed .rightParen :: .fixed .leftBrace :: (body ++ [.fixed .rightBrace])))))
        (.fixed .varWord :: .name name :: .fixed .assign :: (initial ++ .fixed .semicolon ::
          .fixed .whileWord :: .fixed .leftParen :: (condition ++ .fixed .rightParen ::
            .fixed .leftBrace :: (body ++ (step ++ [.fixed .semicolon, .fixed .rightBrace])))))
        after

/-- Behind words that both have, a short form and what it stands for are the two ways of a fork, at
which they come to the same. -/
theorem Sugar.fork {short long after : List Word} (sugar : Sugar short long after) :
    ∃ (fork : Fork) (shared : List Word), fork.Bridged ∧ fork.Turn ∧ fork.merges ∧
      short ++ (after ++ [.fixed .endOfInput]) = shared ++ fork.first ∧
      long ++ (after ++ [.fixed .endOfInput]) = shared ++ fork.second ∧
      ∀ before word, fork.behind ((before ++ shared).getLastD word) := by
  have head (word : Word) : (after ++ [word]).headD word = after.headD word := by
    cases after <;> rfl
  cases sugar with
  | compound target names reads closes =>
      obtain ⟨core, settles⟩ := reads.expression
      have bridged : (Fork.compound target _ _ _ _).Bridged :=
        Fork.compound_bridged names settles (List.concat_ne_nil _ _) (head _ ▸ closes) rfl
      refine ⟨.compound target _ _ _ _, [.name target], bridged, Fork.compound_turn names, trivial,
        ?_, ?_, ?_⟩
      · rfl
      · simp [Fork.compound]
      · simp [Fork.compound]
  | chained reads complete =>
      obtain ⟨core, settles⟩ := reads.conditional
      have bridged := Fork.chained_bridged reads.begins settles (head _ ▸ complete) rfl
      refine ⟨_, [.fixed .elseWord], bridged, Fork.chained_turn reads.begins, trivial, ?_, ?_, ?_⟩
      · rfl
      · simp [Fork.chained]
      · simp [Fork.chained]
  | counted name starts tests steps loops closed closes =>
      obtain ⟨first, starting⟩ := starts.expression
      obtain ⟨second, testing⟩ := tests.expression
      obtain ⟨third, stepping⟩ := steps.expression
      obtain ⟨inner, looping⟩ := loops.statements closed
      have bridged : (Fork.counted name _ _ _ _ _).Bridged :=
        Fork.counted_bridged starting testing stepping steps.opens looping rfl (head _ ▸ closes)
      refine ⟨.counted name _ _ _ _ _, [], bridged, Fork.counted_turn, trivial, ?_, ?_,
        fun _ _ => trivial⟩
      · simp [Fork.counted]
      · simp [Fork.counted]

namespace Program

theorem readStatements_of_ends {statementFuel fuel : Nat} {cursor : Cursor} {done : List Statement}
    {program : Program} (ends : cursor.ahead = .endOfInput)
    (reads : readStatements statementFuel fuel cursor done [] = some ⟨program, []⟩) :
    program = ⟨done.reverse⟩ := by
  cases fuel with
  | zero => cases reads
  | succ fuel =>
      rw [readStatements, if_pos (by rw [Cursor.atEnd_eq, ends]; rfl)] at reads
      cases reads
      rfl

/-- Where nothing fails, each statement is read. -/
theorem readStatements_of_goes {statementFuel fuel : Nat} {cursor : Cursor} {done : List Statement}
    {program : Program} (goes : cursor.ahead ≠ .endOfInput)
    (reads : readStatements statementFuel fuel cursor done [] = some ⟨program, []⟩) :
    ∃ less statement next, fuel = less + 1 ∧
      Parse.statement statementFuel cursor = .done statement next ∧
        readStatements statementFuel less next (statement :: done) [] = some ⟨program, []⟩ := by
  cases fuel with
  | zero => cases reads
  | succ fuel =>
      have unfinished : ¬cursor.atEnd = true := by simpa [Cursor.atEnd_eq] using goes
      rw [readStatements, if_neg unfinished] at reads
      cases ran : Parse.statement statementFuel cursor with
      | done statement next =>
          rw [ran] at reads
          exact ⟨fuel, statement, next, rfl, rfl, reads⟩
      | failed failure next =>
          rw [ran] at reads
          cases mem_failures_of_readStatements reads List.mem_cons_self
      | endless =>
          rw [ran] at reads
          cases reads

/-- Programs that are read abreast have the same core. -/
theorem core_of_beside {fork : Fork} (bridged : fork.Bridged) (turn : fork.Turn)
    {firstFuel secondFuel : Nat} {first second : Program} (fuel more : Nat) {here there : Cursor}
    {done did : List Statement} (beside : fork.Beside here there)
    (same : Statement.listCore did.reverse = Statement.listCore done.reverse)
    (reads : readStatements firstFuel fuel here done [] = some ⟨first, []⟩)
    (rereads : readStatements secondFuel more there did [] = some ⟨second, []⟩) :
    first.core = second.core := by
  induction fuel generalizing more here there done did with
  | zero => cases reads
  | succ fuel ih =>
      have never {cursor : Cursor} (spent : fork.Spent cursor) : False := turn.not_spent spent
      have alike := (beside.alike bridged.parts).resolve_left never
      by_cases ends : here.ahead = .endOfInput
      · obtain rfl := readStatements_of_ends ends reads
        obtain rfl := readStatements_of_ends ((alike _ rfl).mpr ends) rereads
        rw [Program.core, Program.core, same]
      · obtain ⟨less, value, next, ⟨⟩, ran, reads⟩ := readStatements_of_goes ends reads
        obtain ⟨many, result, last, rfl, running, rereads⟩ :=
          readStatements_of_goes (mt (alike _ rfl).mp ends) rereads
        by_cases parting : fork.Parting here there
        · obtain ⟨-, goes, second⟩ := bridged.statements _ _ parting _ _ _ ran _ _ _ running
          obtain ⟨most, further, final, rfl, going, rereads⟩ := readStatements_of_goes goes rereads
          obtain ⟨cores, beside⟩ := second _ _ _ going
          refine ih most beside ?_ reads rereads
          rw [Statement.listCore_reverse_cons, Statement.listCore_reverse_cons,
            Statement.listCore_reverse_cons, same, List.append_assoc, cores]
        · obtain ⟨token, other, facing⟩ := beside.facing bridged.parts ends fun _ => parting
          rcases (Fork.joined bridged firstFuel secondFuel).statement token other here there facing
            value result next last ran running with ⟨cores, beside⟩ | ⟨spent, -⟩
          · refine ih many beside ?_ reads rereads
            rw [Statement.listCore_reverse_cons, Statement.listCore_reverse_cons, same, cores]
          · exact (never spent).elim

variable {short long before after : List Word} {program expansion : Program}

/-- A short form and what it stands for have the same core, wherever they are. -/
theorem core_of_sugar {tokens others : List Token} (sugar : Sugar short long after)
    (here : tokens.map Token.word = before ++ (short ++ (after ++ [.fixed .endOfInput])))
    (there : others.map Token.word = before ++ (long ++ (after ++ [.fixed .endOfInput])))
    (reads : ofTokens tokens = some ⟨program, []⟩)
    (rereads : ofTokens others = some ⟨expansion, []⟩) : program.core = expansion.core := by
  obtain ⟨fork, shared, bridged, turn, merges, first, second, behind⟩ := sugar.fork
  rw [first, ← List.append_assoc] at here
  rw [second, ← List.append_assoc] at there
  have beside : fork.Beside (Cursor.start tokens) (Cursor.start others) :=
    .of_words (.inl merges) here there (behind before _)
  exact core_of_beside bridged turn _ _ beside rfl reads rereads

/-- What a text holds is all that its tokens hold. -/
theorem ofTokens_of_ofSource {source : List Char} (read : ofSource source = .ok program) :
    ofTokens (Token.scan source).tokens = some ⟨program, []⟩ := by
  have closed := Token.closed_scan source
  obtain ⟨attempts, run, reads⟩ := ofTokens_attempts closed
  have started := run.started closed (Cursor.isAt_start closed)
  have once : ∀ attempt ∈ attempts, attempt.ReportsOnce (Token.scan source).tokens := by
    intro attempt member
    obtain ⟨attempted, -, place, here⟩ := started attempt member
    exact attempted.reportsOnce closed here
  rw [ofSource_eq] at read
  rw [reads] at read
  split at read
  · next silent =>
      dsimp only at read
      split at read
      · next unreported =>
          rw [diagnostics_of_attempts] at unreported
          cases read
          have none : attempts.filterMap Attempt.failure? = [] := by
            refine List.filterMap_eq_nil_iff.mpr fun attempt member => ?_
            cases result : attempt.outcome with
            | ok statement => simp [Attempt.failure?, result]
            | error failure =>
                rcases reported_of_failure once member result with ⟨token, among, error⟩ | told
                · have sound := (Token.scan_row source).faults_eq_nil_iff.1
                    ((Token.diagnostics_eq_nil_iff source).1 silent)
                  exact absurd error (sound token among)
                · exact absurd unreported told
          rw [reads, none]
      · cases read
  · cases read

/-- **Short forms are compiled as what they stand for.** -/
theorem compile_of_sugar {source other : List Char} {compiler next last : Compiler}
    {compiled again : CompiledProgram} (sugar : Sugar short long after)
    (here : (Token.scan source).tokens.map Token.word =
      before ++ (short ++ (after ++ [.fixed .endOfInput])))
    (there : (Token.scan other).tokens.map Token.word =
      before ++ (long ++ (after ++ [.fixed .endOfInput])))
    (read : ofSource source = .ok program) (reread : ofSource other = .ok expansion)
    (ran : compiler.compile program = (.ok compiled, next))
    (running : compiler.compile expansion = (.ok again, last)) :
    compiled = again ∧ next.scope = last.scope ∧ next.constants = last.constants :=
  Compiler.compile_of_core_eq
    (core_of_sugar sugar here there (ofTokens_of_ofSource read) (ofTokens_of_ofSource reread)) ran
    running

/-- A loop that counts down. -/
def countdown : List Char := "for (var i = 2; i; i -= 1) \x7b i; \x7d".toList

/-- What a loop that counts down stands for. -/
def countdownUnrolled : List Char := "var i = 2; while (i) \x7b i; i -= 1; \x7d".toList

/-- A loop that counts down is compiled as the binding and the loop that it stands for. -/
theorem compile_of_sugar_countdown :
    ∃ program expansion compiled again next last,
      ofSource countdown = .ok program ∧ ofSource countdownUnrolled = .ok expansion ∧
      Compiler.new.compile program = (.ok compiled, next) ∧
      Compiler.new.compile expansion = (.ok again, last) ∧
      compiled = again ∧ next.scope = last.scope ∧ next.constants = last.constants := by
  have number : Parse.Reads (Parse.expression · .lowest) [.integer 2] :=
    ⟨by decide, 4, .start [⟨.integer, "2", .dummy⟩, ⟨.endOfInput, "", .dummy⟩], _, _, rfl, rfl, rfl⟩
  have name : Parse.Reads (Parse.expression · .lowest) [.name "i"] :=
    ⟨by decide, 4, .start [⟨.identifier, "i", .dummy⟩, ⟨.endOfInput, "", .dummy⟩], _, _, rfl, rfl,
      rfl⟩
  have step : Parse.Reads (Parse.expression · .lowest)
      [.name "i", .fixed .minusEqual, .integer 1] :=
    ⟨by decide, 8, .start [⟨.identifier, "i", .dummy⟩, ⟨.minusEqual, "-=", .dummy⟩,
      ⟨.integer, "1", .dummy⟩, ⟨.endOfInput, "", .dummy⟩], _, _, rfl, rfl, rfl⟩
  have body : Parse.Reads (Parse.blockStatements · []) [.name "i", .fixed .semicolon] :=
    ⟨by decide, 8, .start [⟨.identifier, "i", .dummy⟩, ⟨.semicolon, ";", .dummy⟩,
      ⟨.endOfInput, "", .dummy⟩], _, _, rfl, rfl, rfl⟩
  have sugar : Sugar _ _ [] := .counted "i" number name step body rfl rfl
  refine ⟨_, _, _, _, _, _, by with_unfolding_all rfl, by with_unfolding_all rfl,
    by with_unfolding_all rfl, by with_unfolding_all rfl, ?_⟩
  exact @compile_of_sugar _ _ [] _ _ _ countdown countdownUnrolled .new _ _ _ _ sugar
    (by with_unfolding_all rfl) (by with_unfolding_all rfl) (by with_unfolding_all rfl)
    (by with_unfolding_all rfl) (by with_unfolding_all rfl) (by with_unfolding_all rfl)

end Program

end MonkeyLang
