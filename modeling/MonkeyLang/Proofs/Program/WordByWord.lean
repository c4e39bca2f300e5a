import MonkeyLang.Proofs.Program.Whole

/-!
# Runs over words that are known

What the readers make of words that are known up to some parts. These parts are read alone
(`Parse.Reads`), so each of them has a core of its own, and so has what is put together from them: a
group in parentheses (`Parse.expression_group`), a binding, a loop, or the statements of a body, one
behind the other (`Parse.Passes.append`).
-/

set_option autoImplicit false

namespace MonkeyLang

namespace Parse

variable {α β : Type} {cursor last : Cursor} {word : Word} {words : List Word}

theorem require_bind_words {kind : Token.Kind} {what : String} {next : Token → Parse β} {result : β}
    (ran : (require kind what >>= next) cursor = .done result last)
    (is : cursor.words = word :: words) :
    ∃ token middle, middle.words = words ∧ next token middle = .done result last := by
  obtain ⟨token, middle, took, rested⟩ := bind_eq_done.mp ran
  exact ⟨token, middle, (require_words took is).2, rested⟩

theorem advance_bind_words {next : Token → Parse β} {result : β}
    (ran : (advance >>= next) cursor = .done result last) (is : cursor.words = word :: words)
    (goes : word.kind ≠ .endOfInput) :
    ∃ token middle, token.word = word ∧ middle.words = words ∧
      next token middle = .done result last := by
  obtain ⟨previous, token, rest, rfl, said, others⟩ := Cursor.exists_of_words is
  rw [advance_bind (by rwa [← token.kind_word, said])] at ran
  exact ⟨token, ⟨token, rest⟩, said, others, ran⟩

/-- A reader that does not refuse goes on. -/
theorem of_not_refused {refuses : Prop} [Decidable refuses] {fault : SyntaxFault} {reader : Parse β}
    {result : β} (ran : (if refuses then fail fault else reader) cursor = .done result last) :
    reader cursor = .done result last := by
  by_cases refused : refuses
  · rw [if_pos refused] at ran
    exact absurd ran fail_ne_done
  · rwa [if_neg refused] at ran

/-- The words behind a semicolon that may be missing. -/
def afterSemicolon (words : List Word) : List Word :=
  if (words.headD (.fixed .endOfInput)).kind = .semicolon then words.tail else words

/-- The end stays the end. -/
theorem exists_afterSemicolon (words : List Word) : ∃ front,
    afterSemicolon (words ++ [.fixed .endOfInput]) = front ++ [.fixed .endOfInput] := by
  cases words with
  | nil => exact ⟨[], rfl⟩
  | cons word words =>
      by_cases is : word.kind = .semicolon
      · exact ⟨words, if_pos is⟩
      · exact ⟨word :: words, if_neg is⟩

theorem optionalSemicolon_words {span other : Span}
    (ran : optionalSemicolon span cursor = .done other last) :
    last.words = afterSemicolon cursor.words := by
  by_cases is : cursor.ahead = .semicolon
  · obtain ⟨previous, token, rest, rfl, kind⟩ := Cursor.exists_of_ahead is nofun
    rw [optionalSemicolon_of_ahead kind] at ran
    cases ran
    exact (if_pos is).symm
  · rw [optionalSemicolon_of_not is] at ran
    cases ran
    exact (if_neg is).symm

theorem expression_eq_done {fuel : Nat} {floor : Precedence} {value : Expression}
    (ran : expression fuel floor cursor = .done value last) :
    ∃ less left middle, operand less cursor = .done left middle ∧
      extensions less floor left middle = .done value last := by
  cases fuel with
  | zero => cases ran
  | succ fuel =>
      rw [expression] at ran
      obtain ⟨left, middle, read, rested⟩ := bind_eq_done.mp ran
      exact ⟨fuel, left, middle, read, rested⟩

theorem extensions_stop {fuel : Nat} {floor : Precedence} {left value : Expression}
    (ran : extensions fuel floor left cursor = .done value last) (some : cursor.words ≠ [])
    (stops : cursor.ahead.precedence.rank ≤ floor.rank) : value = left ∧ last = cursor := by
  cases fuel with
  | zero => cases ran
  | succ fuel =>
      rw [extensions_of_not some (Nat.not_lt.mpr stops)] at ran
      cases ran
      exact ⟨rfl, rfl⟩

/-- Expressions that begin with a word of this kind have a reader of their own. -/
structure Leads (kind : Token.Kind) (reader : Nat → Parse Expression) : Prop where
  opens : kind.opensExpression = true
  operand : ∀ fuel (cursor : Cursor), cursor.peek.kind = kind →
    Parse.operand (fuel + 1) cursor = reader fuel cursor

theorem leads_conditional : Leads .ifWord conditional :=
  ⟨rfl, fun fuel cursor is => by rw [operand, peek_bind, is]⟩

theorem leads_whileLoop : Leads .whileWord whileLoop :=
  ⟨rfl, fun fuel cursor is => by rw [operand, peek_bind, is]⟩

theorem leads_forLoop : Leads .forWord forLoop :=
  ⟨rfl, fun fuel cursor is => by rw [operand, peek_bind, is]⟩

theorem operand_worded {fuel : Nat} {value : Expression} {kind : Token.Kind}
    {reader : Nat → Parse Expression} (leads : Leads kind reader)
    (ran : operand fuel cursor = .done value last) (some : cursor.words ≠ [])
    (is : cursor.ahead = kind) : ∃ less, reader less cursor = .done value last := by
  cases fuel with
  | zero => cases ran
  | succ fuel =>
      rw [leads.operand fuel cursor ((Cursor.peek_kind some).trans is)] at ran
      exact ⟨fuel, ran⟩

/-- A name in front of what is no assignment. -/
theorem operand_name {fuel : Nat} {value : Expression} {text : String}
    (ran : operand fuel cursor = .done value last) (is : cursor.words = .name text :: words)
    (some : words ≠ []) (none : assignment? (words.headD (.fixed .endOfInput)).kind = none) :
    value.core = .name ⟨text, .dummy⟩ ∧ last.words = words := by
  have ahead : cursor.ahead = .identifier := Cursor.ahead_eq is
  cases fuel with
  | zero => cases ran
  | succ fuel =>
      rw [operand, peek_bind, Cursor.peek_kind (is ▸ List.cons_ne_nil _ _), ahead] at ran
      cases fuel with
      | zero => cases ran
      | succ fuel =>
          have ran : nameOrAssignment (fuel + 1) cursor = .done value last := ran
          rw [nameOrAssignment_eq] at ran
          obtain ⟨token, middle, said, others, ran⟩ := advance_bind_words ran is (by rintro ⟨⟩)
          have ahead : middle.ahead = (words.headD (.fixed .endOfInput)).kind := by
            rw [Cursor.ahead, others]
          rw [assignmentTo_of_none (others ▸ some) (ahead ▸ none)] at ran
          cases ran
          have kind : token.kind = .identifier := by
            rw [← token.kind_word, said]
            rfl
          rw [Token.word_name kind] at said
          exact ⟨by rw [Expression.core, Name.withoutSpan, Word.name.inj said], others⟩

/-- A group in parentheses in front of what does not go on with it. -/
theorem expression_group {fuel : Nat} {floor : Precedence} {value core : Expression}
    {inner rest : List Word} (settles : Settles (expression · .lowest) (·.Closes 0) inner core)
    (ran : expression fuel floor cursor = .done value last)
    (is : cursor.words = .fixed .leftParen :: (inner ++ .fixed .rightParen :: rest))
    (some : rest ≠ []) (closes : (rest.headD (.fixed .endOfInput)).kind.Closes 0) :
    value.core = core ∧ last.words = rest := by
  obtain ⟨less, left, middle, read, ran⟩ := expression_eq_done ran
  have ahead : cursor.ahead = .leftParen := Cursor.ahead_eq is
  cases less with
  | zero => cases read
  | succ less =>
      rw [operand, peek_bind, Cursor.peek_kind (is ▸ List.cons_ne_nil _ _), ahead] at read
      obtain ⟨_, opened, stands, read⟩ := require_bind_words read is
      obtain ⟨within, between, inside, read⟩ := bind_eq_done.mp read
      have ends : (Word.fixed .rightParen).kind.Closes 0 := by decide
      obtain ⟨cores, stands⟩ := settles.cons ends stands inside
      obtain ⟨_, closed, stands, read⟩ := require_bind_words read stands
      obtain ⟨rfl, rfl⟩ := pure_eq_done.mp read
      have lowest : closed.ahead.precedence.rank ≤ floor.rank := by
        rw [Cursor.ahead, stands]
        exact Nat.le_trans closes.1 (Nat.zero_le _)
      obtain ⟨rfl, rfl⟩ := extensions_stop ran (stands ▸ some) lowest
      exact ⟨cores, stands⟩

/-- An operator with a group in parentheses behind it, and nothing that goes on with this. -/
theorem extensions_group {fuel : Nat} {left value core : Expression} {operator : BinaryOperator}
    {inner rest : List Word} (settles : Settles (expression · .lowest) (·.Closes 0) inner core)
    (ran : extensions fuel .lowest left cursor = .done value last)
    (is : cursor.words =
      .fixed operator.kind :: .fixed .leftParen :: (inner ++ .fixed .rightParen :: rest))
    (some : rest ≠ []) (closes : (rest.headD (.fixed .endOfInput)).kind.Closes 0) :
    value.core = .binary operator left.core core .dummy ∧ last.words = rest := by
  have ahead : cursor.ahead = operator.kind := Cursor.ahead_eq is
  have present : cursor.words ≠ [] := is ▸ List.cons_ne_nil _ _
  have tight : Precedence.lowest.rank < operator.kind.precedence.rank :=
    operator.precedence_kind ▸ operator.lowest_lt
  cases fuel with
  | zero => cases ran
  | succ fuel =>
      rw [extensions, peek_bind, Cursor.peek_kind present, ahead, if_pos tight] at ran
      obtain ⟨larger, middle, grown, ran⟩ := bind_eq_done.mp ran
      cases fuel with
      | zero => cases grown
      | succ fuel =>
          rw [extension, peek_bind, Cursor.peek_kind present, ahead, operator.ofKind?_kind] at grown
          have goes : operator.kind ≠ .endOfInput := by cases operator <;> decide
          obtain ⟨_, onward, -, stands, grown⟩ := advance_bind_words grown is goes
          obtain ⟨right, between, inside, grown⟩ := bind_eq_done.mp grown
          obtain ⟨cores, stands⟩ := expression_group settles inside stands some closes
          obtain ⟨rfl, rfl⟩ := pure_eq_done.mp grown
          have lowest : between.ahead.precedence.rank ≤ Precedence.lowest.rank := by
            rw [Cursor.ahead, stands]
            exact closes.1
          obtain ⟨rfl, rfl⟩ := extensions_stop ran (stands ▸ some) lowest
          exact ⟨by rw [Expression.core, cores], stands⟩

/-- A name that is known. -/
theorem name_bind_words {text what : String} {next : Name → Parse β} {result : β}
    (ran : (Parse.name what >>= next) cursor = .done result last)
    (is : cursor.words = .name text :: words) :
    ∃ name middle, name.withoutSpan = ⟨text, .dummy⟩ ∧ middle.words = words ∧
      next name middle = .done result last := by
  obtain ⟨previous, token, rest, rfl, said, others⟩ := Cursor.exists_of_words is
  obtain ⟨name, middle, read, ran⟩ := bind_eq_done.mp ran
  obtain ⟨kind, rfl, rfl⟩ := name_cons read
  rw [Token.word_name kind] at said
  refine ⟨⟨token.lexeme, token.span⟩, ⟨token, rest⟩, ?_, others, ran⟩
  rw [Name.withoutSpan, Word.name.inj said]

/-! ## Statements -/

theorem statement_of_opens {fuel : Nat} (some : cursor.words ≠ [])
    (opens : cursor.ahead.opensExpression = true) :
    statement (fuel + 1) cursor = (expression fuel .lowest >>= fun value => peek >>= fun next =>
      if (assignment? next.kind).isSome then fail .badAssignmentTarget
      else optionalSemicolon value.span >>= fun span => pure (.expression value span)) cursor := by
  rw [← Cursor.peek_kind some] at opens
  rw [statement, peek_bind]
  cases is : cursor.peek.kind <;> first
    | rfl
    | rw [is] at opens
      cases opens

/-- A statement that begins with an expression is no more than that. -/
theorem statement_eq_done {fuel : Nat} {value : Statement} (some : cursor.words ≠ [])
    (opens : cursor.ahead.opensExpression = true) (ran : statement fuel cursor = .done value last) :
    ∃ less inner middle span, expression less .lowest cursor = .done inner middle ∧
      optionalSemicolon inner.span middle = .done span last ∧ value = .expression inner span := by
  cases fuel with
  | zero => cases ran
  | succ fuel =>
      rw [statement_of_opens some opens] at ran
      obtain ⟨inner, middle, read, ran⟩ := bind_eq_done.mp ran
      rw [peek_bind] at ran
      obtain ⟨span, onward, ended, ran⟩ := bind_eq_done.mp (of_not_refused ran)
      obtain ⟨rfl, rfl⟩ := pure_eq_done.mp ran
      exact ⟨fuel, inner, middle, span, read, ended, rfl⟩

/-- A statement that is one expression with a word of its own in front. -/
theorem statement_worded {fuel : Nat} {value : Statement} {kind : Token.Kind} {core : Expression}
    {reader : Nat → Parse Expression} {rest : List Word} (leads : Leads kind reader)
    (ran : statement fuel cursor = .done value last) (present : cursor.words ≠ [])
    (is : cursor.ahead = kind) (some : rest ≠ [])
    (closes : (rest.headD (.fixed .endOfInput)).kind.precedence.rank = 0)
    (reads : ∀ less inner middle, reader less cursor = .done inner middle →
      inner.core = core ∧ middle.words = rest) :
    value.core = core.unrolled ∧ last.words = afterSemicolon rest := by
  obtain ⟨less, inner, onward, span, read, ended, rfl⟩ :=
    statement_eq_done present (is ▸ leads.opens) ran
  obtain ⟨less, left, middle, read, extended⟩ := expression_eq_done read
  obtain ⟨less, read⟩ := operand_worded leads read present is
  obtain ⟨cores, stands⟩ := reads _ _ _ read
  have lowest : middle.ahead.precedence.rank ≤ Precedence.lowest.rank := by
    rw [Cursor.ahead, stands, closes]
    exact Nat.le_refl _
  obtain ⟨rfl, rfl⟩ := extensions_stop extended (stands ▸ some) lowest
  exact ⟨by rw [Statement.core, cores], by rw [optionalSemicolon_words ended, stands]⟩

/-! ## Bodies -/

/-- Statements behind statements. -/
theorem Passes.append {good fine : Token.Kind → Prop} {first second : List Word}
    {core further : List Statement} (passes : Passes good first core)
    (continues : Passes fine second further) (goes : second ≠ [])
    (holds : good (second.headD (.fixed .endOfInput)).kind) :
    Passes fine (first ++ second) (core ++ further) := by
  obtain ⟨word, others, rfl⟩ := List.exists_cons_of_ne_nil goes
  intro rest fuel done cursor values last some closes stands ran
  rw [List.append_assoc] at stands
  obtain ⟨less, did, middle, ran, stands, same⟩ :=
    passes (word :: others ++ rest) _ _ _ _ _ (List.cons_ne_nil _ _) holds stands ran
  obtain ⟨least, all, onward, ran, stands, also⟩ := continues _ _ _ _ _ _ some closes stands ran
  exact ⟨least, all, onward, ran, stands, by rw [also, same, List.append_assoc]⟩

/-- The words of an expression open one. -/
theorem Reads.opens (reads : Reads (Parse.expression · .lowest) words) :
    ∃ word others, words = word :: others ∧ word.kind.opensExpression = true := by
  obtain ⟨-, fuel, cursor, value, last, stands, ran, -⟩ := reads
  have opens : cursor.ahead.opensExpression = true :=
    expression_ahead (by rw [stands]; exact List.concat_ne_nil _ _) ran
  cases words with
  | nil =>
      rw [Cursor.ahead_eq stands] at opens
      cases opens
  | cons word others => exact ⟨word, others, rfl, Cursor.ahead_eq stands ▸ opens⟩

/-- An expression with a semicolon behind it is a statement. -/
theorem Settles.passes {core : Expression}
    (settles : Settles (expression · .lowest) (·.Closes 0) words core)
    (opens : ∃ word others, words = word :: others ∧ word.kind.opensExpression = true) :
    Passes (fun _ => True) (words ++ [.fixed .semicolon]) core.unrolled := by
  obtain ⟨word, others, rfl, opens⟩ := opens
  intro rest fuel done cursor values last some complete stands ran
  have ahead : cursor.ahead = word.kind := Cursor.ahead_eq stands
  have brace : cursor.ahead ≠ .rightBrace := by
    intro is
    rw [← ahead, is] at opens
    cases opens
  have goes : cursor.ahead ≠ .endOfInput := by
    intro is
    rw [← ahead, is] at opens
    cases opens
  cases fuel with
  | zero => cases ran
  | succ fuel =>
      rw [blockStatements_of_goes brace goes] at ran
      obtain ⟨value, middle, began, ran⟩ := bind_eq_done.mp ran
      obtain ⟨less, inner, onward, span, read, ended, rfl⟩ :=
        statement_eq_done (stands ▸ List.cons_ne_nil _ _) (ahead ▸ opens) began
      have ends : (Word.fixed .semicolon).kind.Closes 0 := by decide
      rw [List.append_assoc] at stands
      obtain ⟨cores, stands⟩ := settles.cons ends stands read
      refine ⟨fuel, _, middle, ran, by rw [optionalSemicolon_words ended, stands]; rfl, ?_⟩
      rw [Statement.listCore_reverse_cons, Statement.core, cores]

/-- A conditional begins with its word. -/
theorem Reads.begins (reads : Reads Parse.conditional words) :
    ∃ word others, words = word :: others ∧ word.kind = .ifWord := by
  obtain ⟨-, fuel, cursor, value, last, stands, ran, -⟩ := reads
  cases fuel with
  | zero => cases ran
  | succ fuel =>
      rw [conditional_eq] at ran
      obtain ⟨_, _, began, -⟩ := bind_eq_done.mp ran
      cases words with
      | nil => cases (require_words began stands).1
      | cons word others => exact ⟨word, others, rfl, (require_words began stands).1⟩

/-- A conditional at the end of a body is a statement. -/
theorem Settles.passes_conditional {core : Expression}
    (settles : Settles conditional (· ≠ .elseWord) words core)
    (begins : ∃ word others, words = word :: others ∧ word.kind = .ifWord) :
    Passes (· = .rightBrace) words core.unrolled := by
  obtain ⟨word, others, rfl, begins⟩ := begins
  intro rest fuel done cursor values last some ends stands ran
  have ahead : cursor.ahead = .ifWord := (Cursor.ahead_eq stands).trans begins
  cases fuel with
  | zero => cases ran
  | succ fuel =>
      rw [blockStatements_of_goes (ahead ▸ nofun) (ahead ▸ nofun)] at ran
      obtain ⟨value, middle, began, ran⟩ := bind_eq_done.mp ran
      obtain ⟨cores, left⟩ := statement_worded leads_conditional began
        (stands ▸ List.cons_ne_nil _ _) ahead some (by rw [ends]; rfl) fun less inner onward read =>
          settles rest less cursor inner onward some (ends ▸ nofun) stands read
      have none : afterSemicolon rest = rest := if_neg (ends ▸ nofun)
      refine ⟨fuel, _, middle, ran, left.trans none, ?_⟩
      rw [Statement.listCore_reverse_cons, cores]

/-- A block around words that are read as statements. -/
theorem block_words {good : Token.Kind → Prop} {fuel : Nat} {value : Block} {core : List Statement}
    {rest : List Word} (passes : Passes good words core) (holds : good .rightBrace)
    (ran : block fuel cursor = .done value last)
    (is : cursor.words = .fixed .leftBrace :: (words ++ .fixed .rightBrace :: rest)) :
    value.core = .mk core .dummy ∧ last.words = rest := by
  cases fuel with
  | zero => cases ran
  | succ fuel =>
      rw [block] at ran
      obtain ⟨_, middle, stands, ran⟩ := require_bind_words ran is
      obtain ⟨inner, onward, read, ran⟩ := bind_eq_done.mp ran
      obtain ⟨less, did, between, read, stands, same⟩ :=
        passes (.fixed .rightBrace :: rest) _ _ _ _ _ (List.cons_ne_nil _ _) holds stands read
      cases less with
      | zero => cases read
      | succ less =>
          rw [blockStatements_of_stop (.inl (Cursor.ahead_eq stands))] at read
          cases read
          obtain ⟨_, onward, stands, ran⟩ := require_bind_words ran stands
          obtain ⟨rfl, rfl⟩ := pure_eq_done.mp ran
          refine ⟨?_, stands⟩
          rw [Block.core, same, List.reverse_nil, Statement.listCore, List.nil_append]

/-! ## Bindings and loops -/

theorem binding_words {fuel : Nat} {value : Binding} {core : Expression} {name : String}
    {initial rest : List Word}
    (settles : Settles (expression · .lowest) (·.Closes 0) initial core)
    (ran : binding fuel cursor = .done value last)
    (is : cursor.words =
      .fixed .varWord :: .name name :: .fixed .assign :: (initial ++ .fixed .semicolon :: rest)) :
    value.core = .mk ⟨name, .dummy⟩ core .dummy ∧ last.words = rest := by
  cases fuel with
  | zero => cases ran
  | succ fuel =>
      rw [binding] at ran
      obtain ⟨_, _, stands, ran⟩ := require_bind_words ran is
      obtain ⟨bound, _, named, stands, ran⟩ := name_bind_words ran stands
      obtain ⟨_, _, stands, ran⟩ := require_bind_words ran stands
      obtain ⟨inner, onward, read, ran⟩ := bind_eq_done.mp ran
      have ends : (Word.fixed .semicolon).kind.Closes 0 := by decide
      obtain ⟨cores, stands⟩ := settles.cons ends stands read
      obtain ⟨span, final, ended, ran⟩ := bind_eq_done.mp ran
      obtain ⟨rfl, rfl⟩ := pure_eq_done.mp ran
      rw [optionalSemicolon_words ended, stands]
      exact ⟨by rw [Binding.core, named, cores], rfl⟩

/-- A statement that begins as a binding is one. -/
theorem statement_binding {fuel : Nat} {value : Statement}
    (ran : statement fuel cursor = .done value last) (some : cursor.words ≠ [])
    (is : cursor.ahead = .varWord) :
    ∃ less inner, binding less cursor = .done inner last ∧ value = .bind inner := by
  cases fuel with
  | zero => cases ran
  | succ fuel =>
      rw [statement, peek_bind, Cursor.peek_kind some, is] at ran
      obtain ⟨inner, middle, read, ran⟩ := bind_eq_done.mp ran
      obtain ⟨rfl, rfl⟩ := pure_eq_done.mp ran
      exact ⟨fuel, inner, read, rfl⟩

theorem whileLoop_words {fuel : Nat} {value core : Expression} {body : List Statement}
    {condition inner rest : List Word}
    (settles : Settles (expression · .lowest) (·.Closes 0) condition core)
    {good : Token.Kind → Prop} (passes : Passes good inner body) (holds : good .rightBrace)
    (ran : whileLoop fuel cursor = .done value last)
    (is : cursor.words = .fixed .whileWord :: .fixed .leftParen :: (condition ++
      .fixed .rightParen :: .fixed .leftBrace :: (inner ++ .fixed .rightBrace :: rest))) :
    value.core = .whileLoop core (.mk body .dummy) .dummy ∧ last.words = rest := by
  cases fuel with
  | zero => cases ran
  | succ fuel =>
      rw [whileLoop] at ran
      obtain ⟨_, _, stands, ran⟩ := require_bind_words ran is
      obtain ⟨_, _, stands, ran⟩ := require_bind_words ran stands
      obtain ⟨tested, _, read, ran⟩ := bind_eq_done.mp ran
      have ends : (Word.fixed .rightParen).kind.Closes 0 := by decide
      obtain ⟨cores, stands⟩ := settles.cons ends stands read
      obtain ⟨_, _, stands, ran⟩ := require_bind_words ran stands
      obtain ⟨looped, _, read, ran⟩ := bind_eq_done.mp ran
      obtain ⟨bodies, stands⟩ := block_words passes holds read stands
      obtain ⟨rfl, rfl⟩ := pure_eq_done.mp ran
      exact ⟨by rw [Expression.core, cores, bodies], stands⟩

theorem forLoop_words {fuel : Nat} {value first second third : Expression} {body : List Statement}
    {name : String} {initial condition step inner rest : List Word}
    (initials : Settles (expression · .lowest) (·.Closes 0) initial first)
    (conditions : Settles (expression · .lowest) (·.Closes 0) condition second)
    (steps : Settles (expression · .lowest) (·.Closes 0) step third)
    {good : Token.Kind → Prop} (passes : Passes good inner body) (holds : good .rightBrace)
    (ran : forLoop fuel cursor = .done value last)
    (is : cursor.words = .fixed .forWord :: .fixed .leftParen :: .fixed .varWord :: .name name ::
      .fixed .assign :: (initial ++ .fixed .semicolon :: (condition ++ .fixed .semicolon :: (step ++
        .fixed .rightParen :: .fixed .leftBrace :: (inner ++ .fixed .rightBrace :: rest))))) :
    value.core = .forLoop (.mk ⟨name, .dummy⟩ first .dummy) second third (.mk body .dummy) .dummy ∧
      last.words = rest := by
  cases fuel with
  | zero => cases ran
  | succ fuel =>
      rw [forLoop] at ran
      obtain ⟨_, _, stands, ran⟩ := require_bind_words ran is
      obtain ⟨_, _, stands, ran⟩ := require_bind_words ran stands
      obtain ⟨start, between, read, ran⟩ := bind_eq_done.mp (of_not_refused ran)
      obtain ⟨starts, stands⟩ := binding_words initials read stands
      obtain ⟨tested, _, read, ran⟩ := bind_eq_done.mp (of_not_refused ran)
      have ends : (Word.fixed .semicolon).kind.Closes 0 := by decide
      obtain ⟨tests, stands⟩ := conditions.cons ends stands read
      obtain ⟨_, _, stands, ran⟩ := require_bind_words ran stands
      obtain ⟨stepped, _, read, ran⟩ := bind_eq_done.mp ran
      have ends : (Word.fixed .rightParen).kind.Closes 0 := by decide
      obtain ⟨posts, stands⟩ := steps.cons ends stands read
      obtain ⟨_, _, stands, ran⟩ := require_bind_words ran stands
      obtain ⟨looped, _, read, ran⟩ := bind_eq_done.mp ran
      obtain ⟨bodies, stands⟩ := block_words passes holds read stands
      obtain ⟨rfl, rfl⟩ := pure_eq_done.mp ran
      exact ⟨by rw [Expression.core, starts, tests, posts, bodies], stands⟩

end Parse

end MonkeyLang
