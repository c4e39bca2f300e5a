import MonkeyLang.Proofs.Program.Abreast
import MonkeyLang.Proofs.Program.Accounted

/-!
# What readers abreast come to

Two readers that start beside one another and both succeed yield the same core, and stand beside one
another again (`Fork.joined`, by induction on the fuel). This asks of the fork that the two ways
come to the same wherever a reader can be at it (`Fork.Bridged`): behind a name, behind the word for
the other case of a conditional, and where a statement starts. At all other places one of the
readers fails, or the fork does not matter.
-/

set_option autoImplicit false

namespace MonkeyLang

/-! ## Readers with a part of their own -/

namespace Parse

/-- What may stand behind a name: an assignment to it. -/
def assignmentTo (fuel : Nat) (target : Name) : Parse Expression := do
  let next ← peek
  match assignment? next.kind with
  | none => return .name target
  | some operator =>
    let _ ← advance
    let value ← expression fuel .lowest
    return assigned target operator value

/-- What stands behind the word for the other case. -/
def alternative (fuel : Nat) : Parse Block := do
  if ← looksAt .ifWord then
    let nested ← conditional fuel
    return .mk [.expression nested nested.span] nested.span
  else block fuel

theorem nameOrAssignment_eq (fuel : Nat) :
    nameOrAssignment (fuel + 1) = advance >>= fun token =>
      assignmentTo fuel ⟨token.lexeme, token.span⟩ := by
  rw [nameOrAssignment]
  rfl

/-- A name that is not assigned to. -/
theorem assignmentTo_of_none {fuel : Nat} {target : Name} {cursor : Cursor}
    (some : cursor.words ≠ []) (none : assignment? cursor.ahead = none) :
    assignmentTo fuel target cursor = .done (.name target) cursor := by
  rw [assignmentTo, peek_bind, Cursor.peek_kind some, none]
  rfl

theorem bind_bind {α β γ : Type} (first : Parse α) (next : α → Parse β) (later : β → Parse γ) :
    first >>= next >>= later = first >>= fun value => next value >>= later := by
  funext cursor
  show andThen (andThen first next) later cursor = andThen first _ cursor
  simp only [andThen]
  cases first cursor <;> rfl

theorem alternative_bind {β : Type} (fuel : Nat) (next : Block → Parse β) :
    alternative fuel >>= next = looksAt .ifWord >>= fun seen =>
      if seen then conditional fuel >>= fun nested =>
        next (.mk [.expression nested nested.span] nested.span)
      else block fuel >>= next := by
  rw [alternative, bind_bind]
  refine congrArg (looksAt .ifWord >>= ·) (funext fun seen => ?_)
  cases seen with
  | true => exact bind_bind _ _ _
  | false => rfl

theorem conditional_eq (fuel : Nat) :
    conditional (fuel + 1) = (do
      let word ← require .ifWord "'if'"
      let _ ← require .leftParen "'(' after 'if'"
      let condition ← expression fuel .lowest
      let _ ← require .rightParen "')' after condition"
      let consequence ← block fuel
      if ← accept .elseWord then
        let other ← alternative fuel
        return .conditional condition consequence (some other)
          ((word.span.merge consequence.span).merge other.span)
      else return .conditional condition consequence none (word.span.merge consequence.span)) := by
  simp only [alternative_bind]
  rw [conditional]
  rfl

/-- Names with the same text are assigned the same if the values have the same core. -/
theorem assigned_core {target other : Name} {value result : Expression}
    (operator : Option BinaryOperator) (texts : other.text = target.text)
    (cores : result.core = value.core) :
    (assigned other operator result).core = (assigned target operator value).core := by
  have names := Name.withoutSpan_eq_iff.mpr texts
  cases operator <;> simp only [assigned, Expression.core, names, cores]

/-- No expression ends behind a semicolon. -/
theorem expression_previous {fuel : Nat} {floor : Precedence} {previous close : Token}
    {ahead : List Token} {value : Expression} {last : Cursor} (closes : close.kind = .endOfInput)
    (ran : expression fuel floor ⟨previous, ahead ++ [close]⟩ = .done value last) :
    last.previous.kind ≠ .semicolon := by
  have accounts := (accounted closes fuel).expression floor previous ahead
  rw [Accounts, ran] at accounts
  obtain ⟨taken, left, ⟨-, rfl⟩, delimits, -⟩ := accounts
  have closing := delimits.writes.closing.getLastD_ne previous.word
  intro is
  refine closing ?_
  have last : (taken.map Token.word).getLastD previous.word = (taken.getLastD previous).word := by
    simp only [List.getLastD_eq_getLast?, List.getLast?_map]
    cases taken.getLast? <;> rfl
  rw [last, Token.word_fixed is rfl]

end Parse

namespace Fork

/-- Two expressions have the same core. The first reader may have come to its end if the second one
goes on with the expression. -/
abbrev Agree (fork : Fork) (value result : Expression) : Cursor → Cursor → Prop :=
  fork.Soft (result.core = value.core) fun _ => fork.loose

/-- At the fork the two ways come to the same. -/
structure Bridged (fork : Fork) : Prop where
  parts : fork.Parts
  names : ∀ fuel more (target other : Name), other.text = target.text →
    fork.behind (.name target.text) →
      Joins fork.Parting fork.Agree (Parse.assignmentTo fuel target) (Parse.assignmentTo more other)
  alternatives : ∀ fuel more, Joins fork.Parting (fork.Meets Block.core) (Parse.alternative fuel)
    (Parse.alternative more)
  /-- One statement of the first way may be two of the second one. -/
  statements : ∀ here there, fork.Parting here there → ∀ fuel value next,
    Parse.statement fuel here = .done value next → ∀ more result last,
      Parse.statement more there = .done result last →
        last.ahead ≠ .rightBrace ∧ last.ahead ≠ .endOfInput ∧ ∀ another further final,
          Parse.statement another last = .done further final →
            result.core ++ further.core = value.core ∧ fork.Beside next final

/-- What readers with some fuel come to that start beside one another. -/
structure Joined (fork : Fork) (fuel more : Nat) : Prop where
  expression : ∀ floor, Joins fork.Ready fork.Agree (Parse.expression fuel floor)
    (Parse.expression more floor)
  extensions : ∀ floor left other, Joins (fork.Agree left other) fork.Agree
    (Parse.extensions fuel floor left) (Parse.extensions more floor other)
  extension : ∀ left other token next, other.core = left.core →
    Joins (fork.Facing token next) fork.Agree (Parse.extension fuel left)
      (Parse.extension more other)
  expressions : ∀ close : Token.Kind, close.isTurn = false → Joins fork.Ready
    (fork.Tends Expression.listCore) (Parse.expressions fuel close) (Parse.expressions more close)
  moreExpressions : ∀ done did, did.map Expression.core = done.map Expression.core →
    Joins fork.Ready (fork.Tends Expression.listCore) (Parse.moreExpressions fuel done)
      (Parse.moreExpressions more did)
  operand : Joins fork.Ready fork.Agree (Parse.operand fuel) (Parse.operand more)
  nameOrAssignment : ∀ token next : Token, token.kind = .identifier →
    Joins (fork.Facing token next) fork.Agree (Parse.nameOrAssignment fuel)
      (Parse.nameOrAssignment more)
  conditional : Joins fork.Ready (fork.Meets Expression.core) (Parse.conditional fuel)
    (Parse.conditional more)
  whileLoop : Joins fork.Ready (fork.Meets Expression.core) (Parse.whileLoop fuel)
    (Parse.whileLoop more)
  forLoop : Joins fork.Ready (fork.Meets Expression.core) (Parse.forLoop fuel) (Parse.forLoop more)
  functionLiteral : Joins fork.Ready (fork.Meets Expression.core) (Parse.functionLiteral fuel)
    (Parse.functionLiteral more)
  block : Joins fork.Ready (fork.Meets Block.core) (Parse.block fuel) (Parse.block more)
  blockStatements : ∀ done did, Joins
    (fork.Soft (Statement.listCore did.reverse = Statement.listCore done.reverse) fun _ => True)
    (fork.Tends Statement.listCore) (Parse.blockStatements fuel done)
    (Parse.blockStatements more did)
  binding : Joins fork.Ready
    (fun value result => fork.Soft (result.core = value.core) fun here =>
      here.previous.kind ≠ .semicolon)
    (Parse.binding fuel) (Parse.binding more)
  statement : ∀ token next, Joins (fork.Facing token next)
    (fun value result => fork.Soft (result.core = value.core) fun here =>
      here.previous.kind ≠ .semicolon)
    (Parse.statement fuel) (Parse.statement more)

namespace Joined

variable {fork : Fork} {fuel more : Nat}

section

variable (joined : fork.Joined fuel more)

include joined

theorem expression_succ (floor : Precedence) :
    Joins fork.Ready fork.Agree (Parse.expression (fuel + 1) floor)
      (Parse.expression (more + 1) floor) := by
  rw [Parse.expression, Parse.expression]
  exact joined.operand.bind fun left other => joined.extensions floor left other

theorem whileLoop_succ (parts : fork.Parts) : Joins fork.Ready (fork.Meets Expression.core)
    (Parse.whileLoop (fuel + 1)) (Parse.whileLoop (more + 1)) := by
  rw [Parse.whileLoop, Parse.whileLoop]
  refine .require parts fun _ word while' _ => ?_
  refine .ready (.require parts fun _ _ _ _ => ?_)
  refine (joined.expression _).ready.bind fun condition tested => ?_
  refine .require parts fun conditions _ _ _ => ?_
  refine joined.block.ready.bind fun body looped => .assuming fun bodies => ?_
  refine .pure fun _ _ beside => ⟨?_, beside⟩
  simp only [Expression.core, conditions, bodies]

theorem functionLiteral_succ (parts : fork.Parts) : Joins fork.Ready (fork.Meets Expression.core)
    (Parse.functionLiteral (fuel + 1)) (Parse.functionLiteral (more + 1)) := by
  rw [Parse.functionLiteral, Parse.functionLiteral]
  refine .require parts fun _ word func' _ => ?_
  refine .ready (.require parts fun _ _ _ _ => ?_)
  have rest (names others : List Name) : Joins
      (fork.Soft (others.map Name.withoutSpan = names.map Name.withoutSpan) fun _ => True)
      (fork.Meets Expression.core)
      (Parse.require .rightParen "')' after parameters" >>= fun _ =>
        Parse.block fuel >>= fun body =>
          Pure.pure (Expression.function names body (word.span.merge body.span)))
      (Parse.require .rightParen "')' after parameters" >>= fun _ =>
        Parse.block more >>= fun body =>
          Pure.pure (Expression.function others body (func'.span.merge body.span))) := by
    refine .require parts fun same _ _ _ => ?_
    refine joined.block.ready.bind fun body inner => .assuming fun bodies => ?_
    refine .pure fun _ _ beside => ⟨?_, beside⟩
    simp only [Expression.core, same, bodies]
  refine .ready (.looksAt parts rfl (fun _ none => .ite (fun _ => ?_) fun _ => ?_) ?_)
  · exact (rest [] []).stronger fun _ _ holds => .inl ⟨rfl, holds.1⟩
  · exact ((Joins.parameters parts fuel more rfl).stronger fun _ _ holds => .of_beside holds.1).bind
      rest
  · rintro here spent value next ran
    obtain ⟨names, middle, read, -⟩ := Parse.bind_eq_done.mp ran
    exact absurd (Parse.parameters_ahead spent.some read) (by rw [spent.ahead]; decide)

theorem forLoop_succ (parts : fork.Parts) : Joins fork.Ready (fork.Meets Expression.core)
    (Parse.forLoop (fuel + 1)) (Parse.forLoop (more + 1)) := by
  rw [Parse.forLoop, Parse.forLoop]
  refine .require parts fun _ word for' _ => ?_
  refine .ready (.require parts fun _ _ _ _ => ?_)
  refine .insist (joined.binding.ready.bind fun start started => .behindSemicolon fun starts => ?_)
  refine (joined.expression _).ready.bind fun condition tested => ?_
  refine .require parts fun conditions _ _ _ => ?_
  refine (joined.expression _).ready.bind fun post stepped => ?_
  refine .require parts fun posts _ _ _ => ?_
  refine joined.block.ready.bind fun body looped => .assuming fun bodies => ?_
  refine .pure fun _ _ beside => ⟨?_, beside⟩
  simp only [Expression.core, starts, conditions, posts, bodies]

theorem block_succ (parts : fork.Parts) : Joins fork.Ready (fork.Meets Block.core)
    (Parse.block (fuel + 1)) (Parse.block (more + 1)) := by
  rw [Parse.block, Parse.block]
  refine .require parts fun _ opening brace _ => ?_
  refine ((joined.blockStatements [] []).stronger fun _ _ beside => .inl ⟨rfl, beside⟩).bind
    fun inner read => ?_
  refine .require parts fun same _ _ _ => .pure fun _ _ beside => ⟨?_, beside⟩
  simp only [Block.core, same]

theorem expressions_succ (parts : fork.Parts) {close : Token.Kind} (stop : close.isTurn = false) :
    Joins fork.Ready (fork.Tends Expression.listCore) (Parse.expressions (fuel + 1) close)
      (Parse.expressions (more + 1) close) := by
  rw [Parse.expressions, Parse.expressions]
  refine .looksAt parts stop (fun _ none => .ite (fun _ => ?_) fun _ => ?_) ?_
  · exact .pure fun _ _ holds => .inl ⟨rfl, holds.1⟩
  · exact (joined.moreExpressions [] [] rfl).stronger fun _ _ holds => .of_beside holds.1
  · rintro here spent values next ran
    have opens := Parse.moreExpressions_ahead spent.some ran
    rw [spent.ahead] at opens
    cases opens

theorem moreExpressions_succ (parts : fork.Parts) {done did : List Expression}
    (same : did.map Expression.core = done.map Expression.core) : Joins fork.Ready
      (fork.Tends Expression.listCore) (Parse.moreExpressions (fuel + 1) done)
      (Parse.moreExpressions (more + 1) did) := by
  rw [Parse.moreExpressions, Parse.moreExpressions]
  refine (joined.expression _).bind fun item read => ?_
  have longer (cores : read.core = item.core) :
      (read :: did).map Expression.core = (item :: done).map Expression.core := by
    rw [List.map_cons, List.map_cons, same, cores]
  refine .accept parts rfl (by decide) (fun cores => ?_) (fun cores => .pure fun _ _ beside => ?_) ?_
  · exact (joined.moreExpressions _ _ (longer cores)).ready
  · refine .inl ⟨?_, beside⟩
    rw [Expression.listCore_eq_map, Expression.listCore_eq_map, List.map_reverse, List.map_reverse,
      longer cores]
  · rintro here spent _ _ ⟨⟩ _ _
    exact .inr ⟨spent, trivial⟩

theorem extension_succ (parts : fork.Parts) {left other : Expression} {token next : Token}
    (same : other.core = left.core) :
    Joins (fork.Facing token next) fork.Agree (Parse.extension (fuel + 1) left)
      (Parse.extension (more + 1) other) := by
  rw [Parse.extension, Parse.extension]
  refine .saying fun _ kinds => .peek ?_
  rw [kinds]
  cases BinaryOperator.ofKind? token.kind with
  | some operator =>
      refine .advance ((joined.expression _).ready.bind fun right read => ?_)
      refine .pure fun _ _ soft => soft.imp (And.imp_left fun cores => ?_) id
      simp only [Expression.core, same, cores]
  | none =>
      refine .ite (fun _ => ?_) fun _ => .ite (fun _ => ?_) fun _ => ?_
      · refine .facing (.require parts fun _ _ _ _ => ?_)
        refine (joined.expressions _ rfl).ready.bind fun arguments read => ?_
        refine .require parts fun cores _ _ _ => .pure fun _ _ beside => .inl ⟨?_, beside⟩
        simp only [Expression.core, same, cores]
      · refine .facing (.require parts fun _ _ _ _ => ?_)
        refine (joined.expression _).ready.bind fun index read => ?_
        refine .require parts fun cores _ _ _ => .pure fun _ _ beside => .inl ⟨?_, beside⟩
        simp only [Expression.core, same, cores]
      · exact .pure fun _ _ facing => .inl ⟨same, facing.beside⟩

/-- Where the first expression has come to its end, this is not behind a semicolon. -/
theorem expression_stays (parts : fork.Parts) (floor : Precedence) :
    Joins fork.Ready
      (fun value result here there => fork.Agree value result here there ∧
        (fork.Spent here → here.previous.kind ≠ .semicolon))
      (Parse.expression fuel floor) (Parse.expression more floor) := by
  refine (joined.expression floor).first_alone fun here there value next ready ran spent => ?_
  obtain ⟨previous, ahead, close, rfl, closes⟩ := ready.closed (spent.cut parts)
  exact Parse.expression_previous closes ran

theorem binding_succ (parts : fork.Parts) : Joins fork.Ready
    (fun value result => fork.Soft (result.core = value.core) fun here =>
      here.previous.kind ≠ .semicolon)
    (Parse.binding (fuel + 1)) (Parse.binding (more + 1)) := by
  rw [Parse.binding, Parse.binding]
  refine .require parts fun _ word var' _ => ?_
  refine (Joins.name parts _).ready.bind fun name read => .assuming fun names => ?_
  refine .ready (.require parts fun _ _ _ _ => ?_)
  refine (joined.expression_stays parts _).ready.bind fun value bound => ?_
  refine (Joins.optionalSemicolon parts _ _).bind fun span other => .pure fun here there soft => ?_
  rcases soft with ⟨cores, beside⟩ | ⟨spent, holds⟩
  · refine .inl ⟨?_, beside⟩
    simp only [Binding.core, cores, Name.withoutSpan_eq_iff.mpr names]
  · exact .inr ⟨spent, holds spent⟩

theorem statement_succ (parts : fork.Parts) {token next : Token} :
    Joins (fork.Facing token next)
      (fun value result => fork.Soft (result.core = value.core) fun here =>
        here.previous.kind ≠ .semicolon)
      (Parse.statement (fuel + 1)) (Parse.statement (more + 1)) := by
  have plain : Joins fork.Ready
      (fun value result => fork.Soft (result.core = value.core) fun here =>
        here.previous.kind ≠ .semicolon)
      (Parse.expression fuel .lowest >>= fun value => Parse.peek >>= fun next =>
        if (assignment? next.kind).isSome then Parse.fail .badAssignmentTarget
        else Parse.optionalSemicolon value.span >>= fun span =>
          Pure.pure (Statement.expression value span))
      (Parse.expression more .lowest >>= fun value => Parse.peek >>= fun next =>
        if (assignment? next.kind).isSome then Parse.fail .badAssignmentTarget
        else Parse.optionalSemicolon value.span >>= fun span =>
          Pure.pure (Statement.expression value span)) := by
    refine (joined.expression_stays parts _).bind fun value result => .refrain ?_
    refine (Joins.optionalSemicolon parts _ _).bind fun span other =>
      .pure fun here there soft => ?_
    refine soft.imp (And.imp_left fun cores => ?_) fun ⟨spent, holds⟩ => ⟨spent, holds spent⟩
    simp only [Statement.core, cores]
  rw [Parse.statement, Parse.statement]
  refine .saying fun _ kinds => .peek ?_
  rw [kinds]
  cases token.kind with
  | varWord =>
      refine joined.binding.facing.bind fun value result => .pure fun here there soft => ?_
      refine soft.imp (And.imp_left fun cores => ?_) id
      simp only [Statement.core, cores]
  | returnWord =>
      refine .facing (.require_behind parts fun _ word other is => ?_)
      refine .stronger (.stopping parts (fun here => here.previous.kind ≠ .semicolon) ?_ ?_ ?_)
        fun here there holds => ⟨holds.1, by rw [holds.2, is]; decide⟩
      · have ended : Joins
            (fun here there => fork.Ready here there ∧ here.previous.kind ≠ .semicolon)
            (fun _ _ => fork.Soft True fun here => here.previous.kind ≠ .semicolon)
            (Parse.optionalSemicolon word.span) (Parse.optionalSemicolon other.span) :=
          .optionalSemicolon parts _ _
        refine .stronger (ended.bind fun span other => .pure fun here there soft => ?_)
          fun _ _ holds => ⟨.of_beside holds.1, holds.2⟩
        exact soft.imp (And.imp_left fun _ => rfl) id
      · refine (joined.expression_stays parts _).ready.bind fun value result => ?_
        refine (Joins.optionalSemicolon parts _ _).bind fun span other =>
          .pure fun here there soft => ?_
        refine soft.imp (And.imp_left fun cores => ?_) fun ⟨spent, holds⟩ => ⟨spent, holds spent⟩
        simp only [Statement.core, cores]
      · intro here spent apart value next ran
        rw [Parse.bind_of_done (Parse.optionalSemicolon_of_not (by rw [spent.ahead]; decide))] at ran
        cases ran
        exact fun _ _ => .inr ⟨spent, apart⟩
  | _ => exact plain.facing

theorem operand_facing (parts : fork.Parts) (token next : Token) :
    Joins (fork.Facing token next) fork.Agree (Parse.operand (fuel + 1))
      (Parse.operand (more + 1)) := by
  have worded {first second : Parse Expression} (joins : Joins fork.Ready
      (fork.Meets Expression.core) first
      second) : Joins (fork.Facing token next) fork.Agree first second :=
    joins.facing.weaker fun _ _ _ _ => .inl
  rw [Parse.operand, Parse.operand]
  refine .saying fun same kinds => .peek ?_
  rw [kinds]
  cases is : token.kind with
  | integer => exact (Joins.integer is).weaker fun _ _ _ _ => .inl
  | float => exact (Joins.float is).weaker fun _ _ _ _ => .inl
  | string =>
      refine .advance (.pure fun _ _ beside => .inl ⟨?_, beside⟩)
      rw [Token.word_string is, Token.word_string (kinds.trans is)] at same
      simp only [Expression.core, Word.string.inj same]
  | trueWord =>
      refine .advance (.pure fun _ _ beside => .inl ⟨?_, beside⟩)
      simp only [Expression.core, kinds]
  | falseWord =>
      refine .advance (.pure fun _ _ beside => .inl ⟨?_, beside⟩)
      simp only [Expression.core, kinds]
  | identifier => exact joined.nameOrAssignment token next is
  | leftParen =>
      refine .facing (.require parts fun _ _ _ _ => ?_)
      refine (joined.expression _).ready.bind fun inner read => ?_
      exact .require parts fun cores _ _ _ => .pure fun _ _ beside => .inl ⟨cores, beside⟩
  | leftBracket =>
      refine .facing (.require parts fun _ opening bracket _ => ?_)
      refine (joined.expressions _ rfl).ready.bind fun elements read => ?_
      refine .require parts fun cores _ _ _ => .pure fun _ _ beside => .inl ⟨?_, beside⟩
      simp only [Expression.core, cores]
  | minus =>
      refine .advance ((joined.expression _).ready.bind fun inner read => .pure fun _ _ soft => ?_)
      refine soft.imp (And.imp_left fun cores => ?_) id
      simp only [Expression.core, cores, kinds]
  | bang =>
      refine .advance ((joined.expression _).ready.bind fun inner read => .pure fun _ _ soft => ?_)
      refine soft.imp (And.imp_left fun cores => ?_) id
      simp only [Expression.core, cores, kinds]
  | ifWord => exact worded joined.conditional
  | whileWord => exact worded joined.whileLoop
  | forWord => exact worded joined.forLoop
  | funcWord => exact worded joined.functionLiteral
  | _ => exact fun _ _ _ _ _ _ _ ran => absurd ran Parse.fail_ne_done

theorem operand_succ (parts : fork.Parts) :
    Joins fork.Ready fork.Agree (Parse.operand (fuel + 1)) (Parse.operand (more + 1)) := by
  intro here there ready value result onward last ran running
  have opens := Parse.operand_ahead (ready.some parts) ran
  have goes : here.ahead ≠ .endOfInput := by
    intro is
    rw [is] at opens
    cases opens
  have apart (turn : fork.Turn) (parting : fork.Parting here there) : False := by
    have opening := Parse.operand_ahead (Beside.some parts (.parting parting)) running
    rw [parting.firstKind] at opens
    rw [parting.secondKind, turn.closed opens] at opening
    cases opening
  obtain ⟨-, token, next, facing⟩ := ready.facing parts goes apart
  exact joined.operand_facing parts token next here there facing value result onward last ran
    running

theorem extensions_facing {left other : Expression} {token next : Token} (floor : Precedence)
    (same : other.core = left.core) :
    Joins (fork.Facing token next) fork.Agree (Parse.extensions (fuel + 1) floor left)
      (Parse.extensions (more + 1) floor other) := by
  rw [Parse.extensions, Parse.extensions]
  refine .saying fun _ kinds => .peek ?_
  rw [kinds]
  refine .ite (fun _ => ?_) fun _ => .pure fun _ _ facing => .inl ⟨same, facing.beside⟩
  exact (joined.extension left other token next same).bind fun larger grown =>
    joined.extensions floor larger grown

theorem extensions_succ (parts : fork.Parts) (floor : Precedence) (left other : Expression) :
    Joins (fork.Agree left other) fork.Agree (Parse.extensions (fuel + 1) floor left)
      (Parse.extensions (more + 1) floor other) := by
  intro here there agree value result onward last ran running
  by_cases tight : floor.rank < here.ahead.precedence.rank
  · have goes : here.ahead ≠ .endOfInput := by
      intro is
      rw [is] at tight
      exact absurd tight (Nat.not_lt_zero _)
    have apart (turn : fork.Turn) (parting : fork.Parting here there) : False := by
      rw [parting.firstKind, turn.precedence.1] at tight
      exact absurd tight (Nat.not_lt_zero _)
    obtain ⟨same, token, next, facing⟩ := agree.facing parts goes apart
    exact joined.extensions_facing floor same here there facing value result onward last ran running
  · rw [Parse.extensions_of_not (agree.some parts) tight] at ran
    cases ran
    rcases agree with ⟨same, beside⟩ | spent
    · by_cases also : floor.rank < there.ahead.precedence.rank
      · rcases beside.parting_or with parting | alike
        · rcases parts with cut | turn
          · refine .inr ⟨cut.spent parting, by_contra fun strict => ?_⟩
            have closes := (cut.closes strict).1
            rw [← parting.secondKind] at closes
            omega
          · rw [parting.secondKind, turn.precedence.2] at also
            exact absurd also (Nat.not_lt_zero _)
        · exact absurd (alike ▸ also) tight
      · rw [Parse.extensions_of_not (beside.some parts) also] at running
        cases running
        exact .inl ⟨same, beside⟩
    · exact .inr spent

theorem assignmentTo_facing {target other : Name} {token next : Token}
    (texts : other.text = target.text) :
    Joins (fork.Facing token next) fork.Agree (Parse.assignmentTo fuel target)
      (Parse.assignmentTo more other) := by
  rw [Parse.assignmentTo, Parse.assignmentTo]
  refine .saying fun _ kinds => .peek ?_
  rw [kinds]
  cases assignment? token.kind with
  | none =>
      refine .pure fun _ _ facing => .inl ⟨?_, facing.beside⟩
      simp only [Expression.core, Name.withoutSpan_eq_iff.mpr texts]
  | some operator =>
      refine .advance ((joined.expression _).ready.bind fun value result =>
        .pure fun _ _ soft => ?_)
      exact soft.imp (And.imp_left (Parse.assigned_core operator texts)) id

variable (bridged : fork.Bridged)

include bridged

theorem nameOrAssignment_succ {token next : Token} (is : token.kind = .identifier) :
    Joins (fork.Facing token next) fork.Agree (Parse.nameOrAssignment (fuel + 1))
      (Parse.nameOrAssignment (more + 1)) := by
  rw [Parse.nameOrAssignment_eq, Parse.nameOrAssignment_eq]
  refine .saying fun same kinds => ?_
  rw [Token.word_name is, Token.word_name (kinds.trans is)] at same
  have texts : next.lexeme = token.lexeme := Word.name.inj same
  rintro _ _ ⟨previous, before, _, goes, beside⟩ value result onward last ran running
  rw [Parse.advance_bind goes] at ran
  rw [Parse.advance_bind (kinds.trans is ▸ nofun)] at running
  cases beside with
  | parting parting =>
      have behind := parting.behind
      rw [Token.word_name is] at behind
      exact bridged.names _ _ _ _ texts behind _ _ parting value result onward last ran running
  | step _ _ same goes beside =>
      exact joined.assignmentTo_facing texts _ _ ⟨_, _, same, goes, beside⟩ value result onward last
        ran running
  | @ended _ _ close other rest others merges same ends =>
      have ahead : Cursor.ahead ⟨token, close :: rest⟩ = .endOfInput := Cursor.ahead_cons.trans ends
      have ahead' : Cursor.ahead ⟨next, other :: others⟩ = .endOfInput := by
        rw [Cursor.ahead_cons, ← Token.kind_word, same, Token.kind_word, ends]
      rw [Parse.assignmentTo_of_none Cursor.words_ne_nil (by rw [ahead]; rfl)] at ran
      rw [Parse.assignmentTo_of_none Cursor.words_ne_nil (by rw [ahead']; rfl)] at running
      cases ran
      cases running
      exact .inl ⟨congrArg Expression.name (Name.withoutSpan_eq_iff.mpr texts),
        .ended _ _ _ _ merges same ends⟩

theorem alternative : Joins fork.Beside (fork.Meets Block.core) (Parse.alternative fuel)
    (Parse.alternative more) := by
  intro here there beside value result onward last ran running
  rcases beside.parting_or with parting | alike
  · exact bridged.alternatives fuel more here there parting value result onward last ran running
  · rw [Parse.alternative, Parse.looksAt_bind] at ran running
    have same : there.looksAt .ifWord = here.looksAt .ifWord := by
      rw [Cursor.looksAt_eq, Cursor.looksAt_eq, alike]
    rw [same] at running
    cases seen : here.looksAt .ifWord with
    | true =>
        rw [seen] at ran running
        have nested : Joins fork.Beside (fork.Meets Block.core)
            (Parse.conditional fuel >>= fun nested =>
              Pure.pure (Block.mk [.expression nested nested.span] nested.span))
            (Parse.conditional more >>= fun nested =>
              Pure.pure (Block.mk [.expression nested nested.span] nested.span)) := by
          refine joined.conditional.ready.bind fun value result => .assuming fun cores => ?_
          refine .pure fun _ _ beside => ⟨?_, beside⟩
          simp only [Block.core, Statement.listCore, Statement.core, cores]
        exact nested here there beside value result onward last ran running
    | false =>
        rw [seen] at ran running
        exact joined.block.ready here there beside value result onward last ran running

theorem conditional_succ : Joins fork.Ready (fork.Meets Expression.core)
    (Parse.conditional (fuel + 1)) (Parse.conditional (more + 1)) := by
  have parts := bridged.parts
  rw [Parse.conditional_eq, Parse.conditional_eq]
  refine .require parts fun _ word if' _ => ?_
  refine .ready (.require parts fun _ _ _ _ => ?_)
  refine (joined.expression _).ready.bind fun condition tested => ?_
  refine .require parts fun conditions _ _ _ => ?_
  refine joined.block.ready.bind fun consequence chosen => .assuming fun consequences => ?_
  refine .stronger (.accept_alike parts rfl nofun ?_ ?_) fun _ _ beside =>
    ⟨beside, beside.alike_else parts⟩
  · refine (joined.alternative bridged).bind fun other taken => .assuming fun others => ?_
    refine .pure fun _ _ beside => ⟨?_, beside⟩
    simp only [Expression.core, conditions, consequences, others]
  · refine .pure fun _ _ beside => ⟨?_, beside⟩
    simp only [Expression.core, conditions, consequences]

end

section

variable (joined : ∀ more, fork.Joined fuel more) (bridged : fork.Bridged)
  {done did : List Statement}
  (same : Statement.listCore did.reverse = Statement.listCore done.reverse)

include joined same

/-- Both readers go on with a statement that begins the same. -/
theorem statements_facing (token next : Token) : Joins (fork.Facing token next)
    (fork.Tends Statement.listCore)
    (Parse.statement fuel >>= fun value => Parse.blockStatements fuel (value :: done))
    (Parse.statement more >>= fun result => Parse.blockStatements more (result :: did)) := by
  refine ((joined more).statement token next).bind fun value result => ?_
  refine ((joined more).blockStatements _ _).stronger fun _ _ soft => ?_
  refine soft.imp (And.imp_left fun cores => ?_) (And.imp_right fun _ => trivial)
  rw [Statement.listCore_reverse_cons, Statement.listCore_reverse_cons, same, cores]

include bridged

/-- At the fork the second reader may read two statements where the first one reads one. -/
theorem statements_parting : Joins fork.Parting (fork.Tends Statement.listCore)
    (Parse.statement fuel >>= fun value => Parse.blockStatements fuel (value :: done))
    (Parse.statement more >>= fun result => Parse.blockStatements more (result :: did)) := by
  intro here there parting values results onward last ran running
  obtain ⟨value, next, began, rested⟩ := Parse.bind_eq_done.mp ran
  obtain ⟨result, middle, begun, resting⟩ := Parse.bind_eq_done.mp running
  obtain ⟨brace, goes, second⟩ := bridged.statements here there parting _ _ _ began _ _ _ begun
  cases more with
  | zero => cases resting
  | succ more =>
      rw [Parse.blockStatements_of_goes brace goes] at resting
      obtain ⟨further, final, read, resting⟩ := Parse.bind_eq_done.mp resting
      obtain ⟨cores, beside⟩ := second _ _ _ read
      refine (joined more).blockStatements (value :: done) (further :: result :: did) next final
        (.inl ⟨?_, beside⟩) values results onward last rested resting
      rw [Statement.listCore_reverse_cons, Statement.listCore_reverse_cons,
        Statement.listCore_reverse_cons, same, List.append_assoc, cores]

end

theorem blockStatements_succ (joined : ∀ more, fork.Joined fuel more) (bridged : fork.Bridged)
    (done did : List Statement) :
    Joins
      (fork.Soft (Statement.listCore did.reverse = Statement.listCore done.reverse) fun _ => True)
      (fork.Tends Statement.listCore) (Parse.blockStatements (fuel + 1) done)
      (Parse.blockStatements (more + 1) did) := by
  have parts := bridged.parts
  intro here there holds values results onward last ran running
  have ended (spent : fork.Spent here) : fork.Soft
      (Statement.listCore results = Statement.listCore values) (fun _ => True) onward last := by
    rw [Parse.blockStatements_of_stop (.inr spent.ahead)] at ran
    cases ran
    exact .inr ⟨spent, trivial⟩
  rcases holds with ⟨same, beside⟩ | ⟨spent, -⟩
  · rcases beside.alike parts with spent | alike
    · exact ended spent
    · by_cases stops : here.ahead = .rightBrace ∨ here.ahead = .endOfInput
      · have also : there.ahead = .rightBrace ∨ there.ahead = .endOfInput :=
          stops.imp (alike _ rfl).mpr (alike _ rfl).mpr
        rw [Parse.blockStatements_of_stop stops] at ran
        rw [Parse.blockStatements_of_stop also] at running
        cases ran
        cases running
        exact .inl ⟨same, beside⟩
      · obtain ⟨brace, goes⟩ := not_or.mp stops
        rw [Parse.blockStatements_of_goes brace goes] at ran
        rw [Parse.blockStatements_of_goes (mt (alike _ rfl).mp brace) (mt (alike _ rfl).mp goes)]
          at running
        by_cases parting : fork.Parting here there
        · exact statements_parting joined bridged same here there parting values results onward last
            ran running
        · obtain ⟨token, next, facing⟩ := beside.facing parts goes fun _ => parting
          exact statements_facing joined same token next here there facing values results onward
            last ran running
  · exact ended spent

end Joined

/-- Readers abreast come to the same, however much fuel they have. -/
theorem joined {fork : Fork} (bridged : fork.Bridged) (fuel more : Nat) :
    fork.Joined fuel more := by
  have parts := bridged.parts
  induction fuel generalizing more with
  | zero =>
      constructor
      all_goals
        intros
        exact .short fun _ => rfl
  | succ fuel ih =>
      cases more with
      | zero =>
          constructor
          all_goals
            intros
            exact .short_second fun _ => rfl
      | succ more =>
          have joined := ih more
          exact {
            expression := joined.expression_succ
            extensions := joined.extensions_succ parts
            extension := fun _ _ _ _ same => joined.extension_succ parts same
            expressions := fun _ stop => joined.expressions_succ parts stop
            moreExpressions := fun _ _ same => joined.moreExpressions_succ parts same
            operand := joined.operand_succ parts
            nameOrAssignment := fun _ _ is => joined.nameOrAssignment_succ bridged is
            conditional := joined.conditional_succ bridged
            whileLoop := joined.whileLoop_succ parts
            forLoop := joined.forLoop_succ parts
            functionLiteral := joined.functionLiteral_succ parts
            block := joined.block_succ parts
            blockStatements := Joined.blockStatements_succ ih bridged
            binding := joined.binding_succ parts
            statement := fun _ _ => joined.statement_succ parts }

end Fork

end MonkeyLang
