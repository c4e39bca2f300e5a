import MonkeyLang.Proofs.Program.Beginning

/-!
# Blocks and what holds them are read back

A binding and the other statements are read back up to their semicolons, and a block up to its
closing brace. A conditional and the loop with a condition start with the same header
(`header_takes`); the loop that counts checks that its binding ended in a semicolon, and a
function has names in its header.
-/

set_option autoImplicit false

namespace MonkeyLang

section

open Parse

variable {span : Span} {name : Name} {value condition post : Expression} {start : Binding}
  {body consequence alternative : Block} {statements : List Statement}

/-! ## Bindings and statements -/

theorem takes_name {text what : String} {token : Token} {others : List Token}
    (kind : token.kind = .identifier) (lexeme : token.lexeme = text) :
    (Parse.name what).Takes [token] others (·.text = text) := by
  rw [Parse.name]
  refine Takes.peek rfl ?_
  rw [if_pos kind]
  refine Takes.map (takes_advance (by rw [kind]; decide)) ?_
  rintro _ rfl
  exact lexeme

theorem takes_optionalSemicolon {token : Token} {others : List Token}
    (is : token.kind = .semicolon) : (optionalSemicolon span).Takes [token] others fun _ => True := by
  rw [optionalSemicolon]
  refine Takes.looksAt rfl (by decide) ?_
  rw [if_pos (decide_eq_true is)]
  exact Takes.map (takes_advance (by rw [is]; decide)) fun _ _ => trivial

theorem takes_no_semicolon {token : Token} {others : List Token} (other : token.kind ≠ .semicolon) :
    (optionalSemicolon span).Takes [] (token :: others) fun _ => True := by
  rw [optionalSemicolon]
  refine Takes.looksAt rfl (by decide) ?_
  rw [if_neg (by simpa using other)]
  exact Takes.pure trivial

theorem binding_rereads (value_rereads : value.Rereads) : (Binding.mk name value span).Rereads := by
  intro fuel tokens others spelled enough
  obtain ⟨word, _, rfl, word_kind, spelled⟩ := spelled.fixed
  obtain ⟨token, _, rfl, kind, lexeme, spelled⟩ := spelled.name
  obtain ⟨sign, _, rfl, sign_kind, spelled⟩ := spelled.fixed
  obtain ⟨inside, _, rfl, spelled_value, spelled⟩ := spelled.append
  obtain ⟨semicolon, rfl, semicolon_kind⟩ := spelled.singleton_fixed
  simp only [List.length_append, List.length_cons, List.length_nil] at enough
  obtain ⟨less, rfl⟩ : ∃ less, fuel = less + 1 := Nat.exists_eq_add_of_le' (by omega)
  rw [Parse.binding]
  refine Takes.bind_cons (takes_require word_kind (by decide) _) ?_
  refine Takes.bind_token (takes_name kind lexeme) fun read_name same_name => ?_
  refine Takes.bind_cons (takes_require sign_kind (by decide) _) ?_
  refine Takes.bind (value_rereads.whole spelled_value (by rw [semicolon_kind]; decide)
    (by omega)) fun read same => ?_
  refine Takes.map (takes_optionalSemicolon semicolon_kind) fun _ _ => ?_
  simp [Binding.withoutSpans, Name.withoutSpan, same, same_name]

/-- A binding starts with its keyword and ends with its semicolon. -/
theorem Binding.ends_in_semicolon {tokens : List Token} (binding : Binding)
    (spelled : Spells tokens binding.words) :
    ∃ front final first more, tokens = front ++ [final] ∧ front ++ [final] = first :: more ∧
      first.kind = .varWord ∧ final.kind = .semicolon := by
  cases binding with
  | mk name value span =>
    obtain ⟨word, _, rfl, word_kind, spelled⟩ := Spells.fixed spelled
    obtain ⟨token, _, rfl, -, -, spelled⟩ := spelled.name
    obtain ⟨sign, _, rfl, -, spelled⟩ := spelled.fixed
    obtain ⟨inside, _, rfl, -, spelled⟩ := spelled.append
    obtain ⟨semicolon, rfl, semicolon_kind⟩ := spelled.singleton_fixed
    exact ⟨word :: token :: sign :: inside, semicolon, word, _, rfl, rfl, word_kind, semicolon_kind⟩

theorem bind_rereads {binding : Binding} (rereads : binding.Rereads) :
    (Statement.bind binding).Rereads := by
  intro fuel tokens others spelled enough
  cases binding with
  | mk name value span =>
    obtain ⟨word, more, rfl, word_kind, -⟩ := Spells.fixed spelled
    simp only [List.length_cons] at enough
    obtain ⟨less, rfl⟩ : ∃ less, fuel = less + 1 := Nat.exists_eq_add_of_le' (by omega)
    rw [Parse.statement]
    refine Takes.peek rfl ?_
    simp only [word_kind]
    refine Takes.map (rereads spelled (by simp only [List.length_cons]; omega)) fun read same => ?_
    rw [Statement.withoutSpans, same, Statement.withoutSpans]

theorem leave_rereads : (Statement.leave none span).Rereads := by
  intro fuel tokens others spelled enough
  obtain ⟨word, _, rfl, word_kind, spelled⟩ := Spells.fixed spelled
  obtain ⟨semicolon, rfl, semicolon_kind⟩ := spelled.singleton_fixed
  simp only [List.length_cons] at enough
  obtain ⟨less, rfl⟩ : ∃ less, fuel = less + 1 := Nat.exists_eq_add_of_le' (by omega)
  rw [Parse.statement]
  refine Takes.peek rfl ?_
  simp only [word_kind]
  refine Takes.bind_cons (takes_require word_kind (by decide) _) ?_
  refine Takes.looksAt rfl (by decide) ?_
  refine Takes.looksAt rfl (by decide) ?_
  refine Takes.atEnd rfl (by rw [semicolon_kind]; decide) ?_
  simp only [semicolon_kind, decide_true, Bool.true_or, if_true]
  exact Takes.map (takes_optionalSemicolon semicolon_kind) fun _ _ => rfl

theorem leave_with_rereads (value_rereads : value.Rereads) :
    (Statement.leave (some value) span).Rereads := by
  intro fuel tokens others spelled enough
  obtain ⟨word, _, rfl, word_kind, spelled⟩ := Spells.fixed spelled
  obtain ⟨inside, _, rfl, spelled_value, spelled⟩ := spelled.append
  obtain ⟨semicolon, rfl, semicolon_kind⟩ := spelled.singleton_fixed
  simp only [List.length_append, List.length_cons, List.length_nil] at enough
  obtain ⟨less, rfl⟩ : ∃ less, fuel = less + 1 := Nat.exists_eq_add_of_le' (by omega)
  obtain ⟨token, more, rfl, opening⟩ := value.opens.tokens spelled_value
  have other : ∀ kind : Token.Kind, kind.opensExpression = false → token.kind ≠ kind := by
    rintro kind closed rfl
    exact Bool.noConfusion (closed.symm.trans opening)
  rw [Parse.statement]
  refine Takes.peek rfl ?_
  simp only [word_kind]
  refine Takes.bind_cons (takes_require word_kind (by decide) _) ?_
  refine Takes.looksAt rfl (by decide) ?_
  refine Takes.looksAt rfl (by decide) ?_
  refine Takes.atEnd rfl (other _ rfl) ?_
  rw [if_neg (by simp [other .semicolon rfl, other .rightBrace rfl])]
  refine Takes.bind (value_rereads.whole spelled_value (by rw [semicolon_kind]; decide)
    (by omega)) fun read same => ?_
  refine Takes.map (takes_optionalSemicolon semicolon_kind) fun _ _ => ?_
  rw [Statement.withoutSpans, same, Statement.withoutSpans]

theorem expression_rereads (value_rereads : value.Rereads) :
    (Statement.expression value span).Rereads := by
  intro fuel tokens others spelled enough
  obtain ⟨inside, _, rfl, spelled_value, spelled⟩ := Spells.append spelled
  obtain ⟨semicolon, rfl, semicolon_kind⟩ := spelled.singleton_fixed
  simp only [List.length_append, List.length_cons, List.length_nil] at enough
  obtain ⟨less, rfl⟩ : ∃ less, fuel = less + 1 := Nat.exists_eq_add_of_le' (by omega)
  have read : (Parse.expression less .lowest).Takes inside (semicolon :: others)
      (·.withoutSpans = value.withoutSpans) :=
    value_rereads.whole spelled_value (by rw [semicolon_kind]; decide) (by omega)
  obtain ⟨token, more, rfl, opening⟩ := value.opens.tokens spelled_value
  rw [Parse.statement]
  refine Takes.peek rfl ?_
  split
  case h_1 is => exact absurd (is ▸ opening) (by decide)
  case h_2 is => exact absurd (is ▸ opening) (by decide)
  case h_3 =>
    refine Takes.bind read fun read same => ?_
    refine Takes.peek rfl ?_
    simp only [semicolon_kind, assignment?, Option.isSome_none, Bool.false_eq_true, if_false]
    refine Takes.map (takes_optionalSemicolon semicolon_kind) fun _ _ => ?_
    rw [Statement.withoutSpans, same, Statement.withoutSpans]

/-! ## Blocks -/

theorem Statement.begins {statement : Statement} {tokens : List Token}
    (spelled : Spells tokens statement.words) : ∃ token more, tokens = token :: more ∧
      token.kind ≠ .rightBrace ∧ token.kind ≠ .endOfInput := by
  have of_kind : ∀ token : Token, token.kind.opensExpression = true →
      token.kind ≠ .rightBrace ∧ token.kind ≠ .endOfInput := by
    intro token opening
    exact ⟨fun is => absurd (is ▸ opening) (by decide), fun is => absurd (is ▸ opening) (by decide)⟩
  cases statement with
  | bind binding =>
    cases binding with
    | mk name value span =>
      obtain ⟨word, more, rfl, word_kind, -⟩ := Spells.fixed spelled
      exact ⟨word, more, rfl, by rw [word_kind]; decide, by rw [word_kind]; decide⟩
  | leave value span =>
    cases value <;>
    · obtain ⟨word, more, rfl, word_kind, -⟩ := Spells.fixed spelled
      exact ⟨word, more, rfl, by rw [word_kind]; decide, by rw [word_kind]; decide⟩
  | expression value span =>
    obtain ⟨token, more, rfl, opening⟩ := value.opens.append.tokens spelled
    exact ⟨token, more, rfl, of_kind token opening⟩

theorem blockStatements_takes {fuel : Nat} {done : List Statement} {tokens others : List Token}
    {close : Token} (rereads : ∀ statement ∈ statements, statement.Rereads)
    (spelled : Spells tokens (Statement.listWords statements)) (enough : 4 * tokens.length < fuel)
    (is : close.kind = .rightBrace) :
    (blockStatements fuel done).Takes tokens (close :: others) fun values =>
      values.map Statement.withoutSpans =
        (done.reverse ++ statements).map Statement.withoutSpans := by
  induction statements generalizing fuel done tokens with
  | nil =>
    obtain rfl := spelled.eq_nil
    obtain ⟨less, rfl⟩ : ∃ less, fuel = less + 1 := Nat.exists_eq_add_of_le' (by omega)
    rw [blockStatements]
    refine Takes.looksAt rfl (by decide) ?_
    refine Takes.atEnd rfl (by rw [is]; decide) ?_
    simp only [is, decide_true, Bool.true_or, if_true]
    exact Takes.pure (by simp)
  | cons statement statements ih =>
    obtain ⟨less, rfl⟩ : ∃ less, fuel = less + 1 := Nat.exists_eq_add_of_le' (by omega)
    obtain ⟨front, back, rfl, spelled_first, spelled_rest⟩ := Spells.append spelled
    obtain ⟨token, more, rfl, no_close, no_end⟩ := Statement.begins spelled_first
    simp only [List.length_append, List.length_cons] at enough
    rw [blockStatements]
    refine Takes.looksAt rfl (by decide) ?_
    refine Takes.atEnd rfl no_end ?_
    rw [if_neg (by simpa using no_close)]
    refine Takes.bind (rereads statement List.mem_cons_self spelled_first
      (by simp only [List.length_cons]; omega)) fun read same => ?_
    refine (ih (fun other member => rereads other (List.mem_cons_of_mem _ member)) spelled_rest
      (by omega)).weaken fun values all_same => ?_
    simp [all_same, same]

theorem block_rereads (rereads : ∀ statement ∈ statements, statement.Rereads) :
    (Block.mk statements span).Rereads := by
  intro fuel tokens others spelled enough
  obtain ⟨opening, _, rfl, opens, spelled⟩ := Spells.fixed spelled
  obtain ⟨inside, _, rfl, spelled_statements, spelled⟩ := spelled.append
  obtain ⟨close, rfl, closed⟩ := spelled.singleton_fixed
  simp only [List.length_append, List.length_cons, List.length_nil] at enough
  obtain ⟨less, rfl⟩ : ∃ less, fuel = less + 1 := Nat.exists_eq_add_of_le' (by omega)
  rw [Parse.block]
  refine Takes.bind_cons (takes_require opens (by decide) _) ?_
  refine Takes.bind (blockStatements_takes rereads spelled_statements (by omega) closed) ?_
  intro values all_same
  refine Takes.map (takes_require closed (by decide) _) fun _ _ => ?_
  simpa [Block.withoutSpans, Statement.listWithoutSpans_eq_map] using all_same

/-! ## Conditionals, loops and functions -/

/-- A keyword, a condition in parentheses and a block are read, and then the rest. -/
theorem header_takes {kind : Token.Kind} {what whatOpen whatClose : String} {fuel : Nat}
    {rest : Token → Expression → Block → Parse Expression} {fine : Expression → Prop}
    {word opening close : Token} {inside front more others : List Token}
    (condition_rereads : condition.Rereads) (body_rereads : body.Rereads)
    (word_kind : word.kind = kind) (some : kind ≠ .endOfInput) (opens : opening.kind = .leftParen)
    (spelled_condition : Spells inside condition.words) (closed : close.kind = .rightParen)
    (spelled_body : Spells front body.words) (enough : 4 * (inside.length + front.length) ≤ fuel)
    (second : ∀ read chosen, read.withoutSpans = condition.withoutSpans →
      chosen.withoutSpans = body.withoutSpans → (rest word read chosen).Takes more others fine) :
    (do
      let word ← require kind what
      let _ ← require .leftParen whatOpen
      let condition ← Parse.expression fuel .lowest
      let _ ← require .rightParen whatClose
      let body ← Parse.block fuel
      rest word condition body).Takes
      (word :: opening :: (inside ++ close :: (front ++ more))) others fine := by
  refine Takes.bind_cons (takes_require word_kind some _) ?_
  refine Takes.bind_cons (takes_require opens (by decide) _) ?_
  refine Takes.bind (condition_rereads.whole spelled_condition (by rw [closed]; decide)
    (by omega)) fun read same => ?_
  refine Takes.bind_cons (takes_require closed (by decide) _) ?_
  refine Takes.bind (body_rereads spelled_body (by omega)) fun chosen chosen_same => ?_
  exact second read chosen same chosen_same

theorem conditional_rereads (condition_rereads : condition.Rereads)
    (consequence_rereads : consequence.Rereads) :
    (Expression.conditional condition consequence none span).Rereads := by
  intro floor tokens next others spelled _ closes
  obtain ⟨word, _, rfl, word_kind, spelled⟩ := Spells.fixed spelled
  obtain ⟨opening, _, rfl, opens, spelled⟩ := spelled.fixed
  obtain ⟨inside, _, rfl, spelled_condition, spelled⟩ := spelled.append
  obtain ⟨close, front, rfl, closed, spelled⟩ := spelled.fixed
  refine .of_operand fun fuel enough => ?_
  simp only [List.length_append, List.length_cons] at enough
  rw [Parse.operand]
  refine Takes.peek rfl ?_
  simp only [word_kind]
  rw [Parse.conditional, ← List.append_nil front]
  refine header_takes condition_rereads consequence_rereads word_kind (by decide) opens
    spelled_condition closed spelled (by omega) fun read chosen same chosen_same => ?_
  refine Takes.decline rfl (by decide) closes.2.2 ?_
  exact Takes.pure (by simp [Expression.withoutSpans, same, chosen_same])

theorem conditional_else_rereads (condition_rereads : condition.Rereads)
    (consequence_rereads : consequence.Rereads) (alternative_rereads : alternative.Rereads) :
    (Expression.conditional condition consequence (some alternative) span).Rereads := by
  intro floor tokens next others spelled _ closes
  obtain ⟨word, _, rfl, word_kind, spelled⟩ := Spells.fixed spelled
  obtain ⟨opening, _, rfl, opens, spelled⟩ := spelled.fixed
  obtain ⟨inside, _, rfl, spelled_condition, spelled⟩ := spelled.append
  obtain ⟨close, _, rfl, closed, spelled⟩ := spelled.fixed
  obtain ⟨front, _, rfl, spelled_first, spelled⟩ := spelled.append
  obtain ⟨other, back, rfl, other_kind, spelled_second⟩ := spelled.fixed
  refine .of_operand fun fuel enough => ?_
  simp only [List.length_append, List.length_cons] at enough
  have read_second : (Parse.block fuel).Takes back (next :: others)
      (·.withoutSpans = alternative.withoutSpans) :=
    alternative_rereads spelled_second (by omega)
  rw [Parse.operand]
  refine Takes.peek rfl ?_
  simp only [word_kind]
  rw [Parse.conditional]
  refine header_takes condition_rereads consequence_rereads word_kind (by decide) opens
    spelled_condition closed spelled_first (by omega) fun read chosen same chosen_same => ?_
  refine Takes.bind_cons (takes_accept other_kind (by decide)) ?_
  cases alternative with
  | mk statements span =>
    -- a block starts with a brace, so the short form of a nested conditional is not read
    obtain ⟨brace, _, rfl, brace_kind, -⟩ := Spells.fixed spelled_second
    refine Takes.looksAt rfl (by decide) ?_
    simp only [brace_kind, reduceCtorEq, decide_false, Bool.false_eq_true, if_false]
    refine Takes.map read_second fun rejected rejected_same => ?_
    simp [Expression.withoutSpans, same, chosen_same, rejected_same]

theorem whileLoop_rereads (condition_rereads : condition.Rereads) (body_rereads : body.Rereads) :
    (Expression.whileLoop condition body span).Rereads := by
  intro floor tokens next others spelled _ _
  obtain ⟨word, _, rfl, word_kind, spelled⟩ := Spells.fixed spelled
  obtain ⟨opening, _, rfl, opens, spelled⟩ := spelled.fixed
  obtain ⟨inside, _, rfl, spelled_condition, spelled⟩ := spelled.append
  obtain ⟨close, front, rfl, closed, spelled⟩ := spelled.fixed
  refine .of_operand fun fuel enough => ?_
  simp only [List.length_append, List.length_cons] at enough
  rw [Parse.operand]
  refine Takes.peek rfl ?_
  simp only [word_kind]
  rw [Parse.whileLoop, ← List.append_nil front]
  refine header_takes condition_rereads body_rereads word_kind (by decide) opens
    spelled_condition closed spelled (by omega) fun read read_body same body_same => ?_
  exact Takes.pure (by simp [Expression.withoutSpans, same, body_same])

theorem forLoop_rereads (start_rereads : start.Rereads) (condition_rereads : condition.Rereads)
    (post_rereads : post.Rereads) (body_rereads : body.Rereads) :
    (Expression.forLoop start condition post body span).Rereads := by
  intro floor tokens next others spelled _ closes
  obtain ⟨word, _, rfl, word_kind, spelled⟩ := Spells.fixed spelled
  obtain ⟨opening, _, rfl, opens, spelled⟩ := spelled.fixed
  obtain ⟨header, _, rfl, spelled_start, spelled⟩ := spelled.append
  obtain ⟨middle, _, rfl, spelled_condition, spelled⟩ := spelled.append
  obtain ⟨semicolon, _, rfl, semicolon_kind, spelled⟩ := spelled.fixed
  obtain ⟨last, _, rfl, spelled_post, spelled⟩ := spelled.append
  obtain ⟨close, _, rfl, closed, spelled_body⟩ := spelled.fixed
  obtain ⟨front, final, first, more, rfl, ahead, first_kind, final_kind⟩ :=
    start.ends_in_semicolon spelled_start
  refine .of_operand fun fuel enough => ?_
  simp only [List.length_append, List.length_cons, List.length_nil] at enough
  rw [Parse.operand]
  refine Takes.peek rfl ?_
  simp only [word_kind]
  rw [Parse.forLoop]
  refine Takes.bind_cons (takes_require word_kind (by decide) _) ?_
  refine Takes.bind_cons (takes_require opens (by decide) _) ?_
  refine Takes.looksAt (by rw [ahead]; rfl) (by decide) ?_
  simp only [first_kind, decide_true, Bool.not_true, Bool.false_eq_true, if_false]
  refine Takes.bind_previous (start_rereads spelled_start (by simp; omega)) fun bound bound_same => ?_
  rw [if_neg (by simp [final_kind])]
  refine Takes.bind (condition_rereads.whole spelled_condition (by rw [semicolon_kind]; decide)
    (by omega)) fun read same => ?_
  refine Takes.bind_cons (takes_require semicolon_kind (by decide) _) ?_
  refine Takes.bind (post_rereads.whole spelled_post (by rw [closed]; decide)
    (by omega)) fun read_post post_same => ?_
  refine Takes.bind_cons (takes_require closed (by decide) _) ?_
  refine Takes.map (body_rereads spelled_body (by omega)) fun read_body body_same => ?_
  simp [Expression.withoutSpans, same, bound_same, post_same, body_same]

theorem parameters_takes {names done : List Name} {fuel : Nat} {tokens others : List Token}
    {close : Token} (nonempty : names ≠ []) (spelled : Spells tokens (parameterWords names))
    (enough : tokens.length ≤ fuel) (closed : close.kind = .rightParen) :
    (parameters fuel done).Takes tokens (close :: others) fun values =>
      values.map Name.withoutSpan = (done.reverse ++ names).map Name.withoutSpan := by
  induction names generalizing fuel done tokens with
  | nil => exact absurd rfl nonempty
  | cons parameter names ih =>
    cases names with
    | nil =>
      obtain ⟨token, _, rfl, kind, lexeme, spelled⟩ := Spells.name spelled
      obtain rfl := spelled.eq_nil
      obtain ⟨less, rfl⟩ : ∃ less, fuel = less + 1 := Nat.exists_eq_add_of_le' enough
      rw [parameters]
      refine Takes.bind_nil (takes_name kind lexeme) fun read same => ?_
      refine Takes.decline rfl (by decide) (by rw [closed]; decide) ?_
      exact Takes.pure (by simp [same, Name.withoutSpan])
    | cons following names =>
      obtain ⟨token, _, rfl, kind, lexeme, spelled⟩ := Spells.name spelled
      obtain ⟨comma, more, rfl, comma_kind, spelled⟩ := spelled.fixed
      simp only [List.length_cons] at enough
      obtain ⟨less, rfl⟩ : ∃ less, fuel = less + 1 := Nat.exists_eq_add_of_le' (by omega)
      rw [parameters]
      refine Takes.bind_token (takes_name kind lexeme) fun read same => ?_
      refine Takes.bind_cons (takes_accept comma_kind (by decide)) ?_
      refine (ih (by simp) spelled (by omega)).weaken fun values all_same => ?_
      simp [all_same, same, Name.withoutSpan]

theorem function_rereads {names : List Name} (body_rereads : body.Rereads) :
    (Expression.function names body span).Rereads := by
  intro floor tokens next others spelled _ closes
  obtain ⟨word, _, rfl, word_kind, spelled⟩ := Spells.fixed spelled
  obtain ⟨opening, _, rfl, opens, spelled⟩ := spelled.fixed
  obtain ⟨inside, _, rfl, spelled_names, spelled⟩ := spelled.append
  obtain ⟨close, rest, rfl, closed, spelled⟩ := spelled.fixed
  refine .of_operand fun fuel enough => ?_
  simp only [List.length_append, List.length_cons] at enough
  rw [Parse.operand]
  refine Takes.peek rfl ?_
  simp only [word_kind]
  rw [Parse.functionLiteral]
  refine Takes.bind_cons (takes_require word_kind (by decide) _) ?_
  refine Takes.bind_cons (takes_require opens (by decide) _) ?_
  have rest_read : ∀ read : List Name, read.map Name.withoutSpan = names.map Name.withoutSpan →
      (do
        let _ ← require .rightParen "')' after parameters"
        let body ← Parse.block fuel
        return Expression.function read body (word.span.merge body.span)).Takes (close :: rest)
        (next :: others)
        (·.withoutSpans = (Expression.function names body span).withoutSpans) := by
    intro read same
    refine Takes.bind_cons (takes_require closed (by decide) _) ?_
    refine Takes.map (body_rereads spelled (by omega)) fun read_body body_same => ?_
    simp [Expression.withoutSpans, same, body_same]
  cases names with
  | nil =>
    obtain rfl := spelled_names.eq_nil
    refine Takes.looksAt rfl (by decide) ?_
    simp only [closed, decide_true, if_true]
    exact rest_read [] rfl
  | cons parameter names =>
    have opens_name : Opens (parameterWords (parameter :: names)) := by
      cases names with
      | nil => exact ⟨_, _, rfl, rfl⟩
      | cons following names => exact ⟨_, _, rfl, rfl⟩
    obtain ⟨token, more, rfl, opening⟩ := opens_name.tokens spelled_names
    have other : token.kind ≠ .rightParen := fun is => absurd (is ▸ opening) (by decide)
    refine Takes.looksAt rfl (by decide) ?_
    rw [if_neg (by simpa using other)]
    refine Takes.bind (parameters_takes (List.cons_ne_nil _ _) spelled_names (by omega) closed) ?_
    exact rest_read

end

end MonkeyLang
