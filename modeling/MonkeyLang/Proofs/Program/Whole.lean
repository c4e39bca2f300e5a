import MonkeyLang.Proofs.Program.Joined

/-!
# What is read alone is read everywhere

Words that are read to their end when they stand alone are read the same way when something stands
behind them, as long as that does not go on with them. So an expression, a conditional or the
statements of a body have a core of their own, and in any program where they stand this core is read
and nothing more (`Parse.Reads.expression` and its companions). How much fuel the readers have does
not matter.
-/

set_option autoImplicit false

namespace MonkeyLang

/-! ## Cursors beside one another -/

namespace Fork

variable {fork : Fork} {here there : Cursor}

/-- Tokens that say the same stand in front of the fork. -/
theorem Beside.of_words {front : List Word}
    (free : fork.merges ∨ ∀ word ∈ front, word.kind ≠ .endOfInput)
    (first : here.words = front ++ fork.first) (second : there.words = front ++ fork.second)
    (behind : fork.behind (front.getLastD here.previous.word)) : fork.Beside here there := by
  induction front generalizing here there with
  | nil => exact .parting ⟨first, second, behind⟩
  | cons word front ih =>
      obtain ⟨previous, token, rest, rfl, is, is_rest⟩ := Cursor.exists_of_words first
      obtain ⟨before, other, others, rfl, is', is_rest'⟩ := Cursor.exists_of_words second
      have same : other.word = token.word := is'.trans is.symm
      by_cases ends : token.kind = .endOfInput
      · rcases free with merges | free
        · exact .ended _ _ _ _ merges same ends
        · refine absurd ends ?_
          rw [← token.kind_word, is]
          exact free word List.mem_cons_self
      · refine .step _ _ same ends (ih ?_ is_rest is_rest' ?_)
        · exact free.imp_right fun free other member => free other (List.mem_cons_of_mem _ member)
        · rw [List.getLastD_cons] at behind
          rwa [is]

/-- The tokens say the same up to the end. -/
theorem Beside.of_same {front : List Word} (merges : fork.merges)
    (first : here.words = front ++ [.fixed .endOfInput]) (second : there.words = here.words) :
    fork.Beside here there := by
  rw [first] at second
  induction front generalizing here there with
  | nil =>
      obtain ⟨previous, token, rest, rfl, is, -⟩ := Cursor.exists_of_words first
      obtain ⟨before, other, others, rfl, is', -⟩ := Cursor.exists_of_words second
      refine .ended _ _ _ _ merges (is'.trans is.symm) ?_
      rw [← token.kind_word, is]
      rfl
  | cons word front ih =>
      obtain ⟨previous, token, rest, rfl, is, is_rest⟩ := Cursor.exists_of_words first
      obtain ⟨before, other, others, rfl, is', is_rest'⟩ := Cursor.exists_of_words second
      by_cases ends : token.kind = .endOfInput
      · exact .ended _ _ _ _ merges (is'.trans is.symm) ends
      · exact .step _ _ (is'.trans is.symm) ends (ih is_rest is_rest')

/-! ## Cuts -/

/-- The end of a list of tokens, and something else in its place. -/
def cut (rest : List Word) (behind : Word → Prop) (loose : Prop) : Fork :=
  ⟨[.fixed .endOfInput], rest, behind, False, loose⟩

/-- Where the first list has ended, the second cursor stands where the other words begin. -/
theorem Cut.words (cut : fork.Cut) (beside : fork.Beside here there)
    (ends : here.words = [.fixed .endOfInput]) : fork.Parting here there := by
  cases beside with
  | parting parting => exact parting
  | step previous before same goes next =>
      exact absurd (Cursor.ahead_cons.symm.trans (Cursor.ahead_eq ends)) goes
  | ended previous before rest others merges same ends => exact absurd merges cut.apart

end Fork

namespace Parse

variable {cursor last : Cursor}

theorem alternative_ahead {fuel : Nat} {value : Block}
    (ran : alternative fuel cursor = .done value last) :
    cursor.ahead = .ifWord ∨ cursor.ahead = .leftBrace := by
  rw [alternative, looksAt_bind] at ran
  cases seen : cursor.looksAt .ifWord with
  | true => exact .inl (Cursor.looksAt_iff.mp seen).1
  | false =>
      rw [seen] at ran
      cases fuel with
      | zero => cases ran
      | succ fuel =>
          have ran : block (fuel + 1) cursor = .done value last := ran
          rw [block] at ran
          obtain ⟨token, middle, brace, -⟩ := bind_eq_done.mp ran
          obtain ⟨previous, rest, rfl, is, -, -⟩ := require_eq_done.mp brace
          exact .inr (Cursor.ahead_cons.trans is)

theorem statement_ahead {fuel : Nat} {value : Statement} (some : cursor.words ≠ [])
    (ran : statement fuel cursor = .done value last) :
    cursor.ahead = .varWord ∨ cursor.ahead = .returnWord ∨
      cursor.ahead.opensExpression = true := by
  cases fuel with
  | zero => cases ran
  | succ fuel =>
      rw [statement, peek_bind] at ran
      cases is : cursor.peek.kind with
      | varWord => exact .inl ((Cursor.peek_kind some).symm.trans is)
      | returnWord => exact .inr (.inl ((Cursor.peek_kind some).symm.trans is))
      | _ =>
          rw [is] at ran
          obtain ⟨value, middle, read, -⟩ := bind_eq_done.mp ran
          exact .inr (.inr (expression_ahead some read))

end Parse

namespace Fork

/-- At a cut, the first reader has nothing to go on with. -/
theorem Cut.bridged {fork : Fork} (cut : fork.Cut) : fork.Bridged where
  parts := .inl cut
  names fuel more target other texts _ := by
    intro here there parting value result next last ran running
    have spent := cut.spent parting
    rw [Parse.assignmentTo_of_none spent.some (by rw [spent.ahead]; rfl)] at ran
    cases ran
    by_cases strict : fork.loose
    · exact .inr ⟨spent, strict⟩
    · have none := (cut.closes strict).2.1
      rw [← parting.secondKind] at none
      rw [Parse.assignmentTo_of_none (Beside.some (.inl cut) (.parting parting)) none] at running
      cases running
      exact .inl ⟨congrArg Expression.name (Name.withoutSpan_eq_iff.mpr texts), .parting parting⟩
  alternatives fuel more := by
    intro here there parting value result next last ran
    have opens := Parse.alternative_ahead ran
    rw [(cut.spent parting).ahead] at opens
    simp at opens
  statements here there parting fuel value next ran := by
    have spent := cut.spent parting
    have opens := Parse.statement_ahead spent.some ran
    rw [spent.ahead] at opens
    simp [Token.Kind.opensExpression] at opens

theorem cut_cut {rest : List Word} (behind : Word → Prop) {loose : Prop} (some : rest ≠ [])
    (complete : (rest.headD (.fixed .endOfInput)).kind ≠ .elseWord)
    (closes : ¬loose → (rest.headD (.fixed .endOfInput)).kind.Closes 0) :
    (Fork.cut rest behind loose).Cut :=
  ⟨rfl, id, some, closes, complete⟩

/-- In front of a cut there is a token that the second list has too. -/
theorem Cut.facing {fork : Fork} {here there : Cursor} (cut : fork.Cut)
    (beside : fork.Beside here there) (apart : ¬fork.Parting here there) :
    ∃ token next, fork.Facing token next here there := by
  cases beside with
  | parting parting => exact absurd parting apart
  | step previous before same goes next => exact ⟨_, _, .mk previous before same goes next⟩
  | ended previous before rest others merges same ends => exact absurd merges cut.apart

/-- Statements that end with a semicolon are read up to the cut by both readers. There the first one
stops, and the second one goes on. -/
theorem Cut.statements {fork : Fork} (cut : fork.Cut)
    (behind : ∀ word, fork.behind word → word = .fixed .semicolon) {base : List Statement} :
    ∀ fuel more {done did : List Statement} {here there : Cursor} {values results : List Statement}
      {onward last : Cursor}, fork.Beside here there →
      Statement.listCore did.reverse = base ++ Statement.listCore done.reverse →
        Parse.blockStatements fuel done here = .done values onward →
          onward.words = [.fixed .endOfInput] →
            Parse.blockStatements more did there = .done results last →
              ∃ less read middle, Parse.blockStatements less read middle = .done results last ∧
                middle.words = fork.second ∧
                  Statement.listCore read.reverse = base ++ Statement.listCore values := by
  intro fuel
  induction fuel with
  | zero =>
      intro _ _ _ _ _ _ _ _ _ _ _ ran
      cases ran
  | succ fuel ih =>
      intro more done did here there values results onward last beside same ran ended running
      by_cases parting : fork.Parting here there
      · rw [Parse.blockStatements_of_stop (.inr (cut.spent parting).ahead)] at ran
        cases ran
        exact ⟨more, did, there, running, parting.second, same⟩
      · have alike := beside.parting_or.resolve_left parting
        obtain ⟨token, next, facing⟩ := cut.facing beside parting
        have goes : here.ahead ≠ .endOfInput := facing.goes
        have brace : here.ahead ≠ .rightBrace := by
          intro is
          rw [Parse.blockStatements_of_stop (.inl is)] at ran
          cases ran
          exact goes (Cursor.ahead_eq ended)
        rw [Parse.blockStatements_of_goes brace goes] at ran
        obtain ⟨value, onto, began, rested⟩ := Parse.bind_eq_done.mp ran
        cases more with
        | zero => cases running
        | succ more =>
            rw [Parse.blockStatements_of_goes (alike ▸ brace) (alike ▸ goes)] at running
            obtain ⟨result, beyond, begun, resting⟩ := Parse.bind_eq_done.mp running
            have joined := joined cut.bridged fuel more
            rcases joined.statement token next here there facing value result onto beyond began
              begun with ⟨cores, beside⟩ | ⟨spent, apart⟩
            · refine ih more beside ?_ rested ended resting
              rw [Statement.listCore_reverse_cons, Statement.listCore_reverse_cons, same, cores,
                List.append_assoc]
            · -- In front of the cut there is a semicolon, but not behind a statement that only stops
              -- because the list has ended.
              refine absurd ?_ apart
              rw [← Token.kind_word, behind _ spent.behind]
              rfl

end Fork

/-! ## What is read alone -/

/-- A reader reads the words if they stand alone, and nothing is left behind them. -/
structure Parse.Reads {α : Type} (reader : Nat → Parse α) (words : List Word) : Prop where
  free : ∀ word ∈ words, word.kind ≠ .endOfInput
  alone : ∃ fuel cursor value last, cursor.words = words ++ [.fixed .endOfInput] ∧
    reader fuel cursor = .done value last ∧ last.words = [.fixed .endOfInput]

/-- Wherever the words stand in front of something good, a reader of expressions that succeeds reads
them and no more, and what it yields has this core. -/
def Parse.Settles (reader : Nat → Parse Expression) (good : Token.Kind → Prop) (words : List Word)
    (core : Expression) : Prop :=
  ∀ rest fuel (cursor : Cursor) value last, rest ≠ [] →
    good (rest.headD (.fixed .endOfInput)).kind → cursor.words = words ++ rest →
      reader fuel cursor = .done value last → value.core = core ∧ last.words = rest

/-- Wherever the words stand in front of something good, a reader of statements that succeeds comes
to their end on its way, and what it has read of them has this core. -/
def Parse.Passes (good : Token.Kind → Prop) (words : List Word) (core : List Statement) : Prop :=
  ∀ rest fuel done (cursor : Cursor) values last, rest ≠ [] →
    good (rest.headD (.fixed .endOfInput)).kind → cursor.words = words ++ rest →
      Parse.blockStatements fuel done cursor = .done values last →
        ∃ less did middle, Parse.blockStatements less did middle = .done values last ∧
          middle.words = rest ∧
            Statement.listCore did.reverse = Statement.listCore done.reverse ++ core

theorem Parse.Settles.cons {reader : Nat → Parse Expression} {good : Token.Kind → Prop}
    {words rest : List Word} {core value : Expression} {word : Word} {fuel : Nat}
    {cursor last : Cursor} (settles : Settles reader good words core) (holds : good word.kind)
    (stands : cursor.words = words ++ word :: rest) (ran : reader fuel cursor = .done value last) :
    value.core = core ∧ last.words = word :: rest :=
  settles _ fuel cursor value last (List.cons_ne_nil word rest) holds stands ran

namespace Parse.Reads

variable {words : List Word}

/-- An expression is the same in front of everything that does not go on with it. -/
theorem expression (reads : Reads (Parse.expression · .lowest) words) :
    ∃ core, Settles (Parse.expression · .lowest) (·.Closes 0) words core := by
  obtain ⟨free, more, alone, known, final, standing, read, ended⟩ := reads
  refine ⟨known.core, fun rest fuel cursor value last some closes stands ran => ?_⟩
  have cut : (Fork.cut rest (fun _ => True) False).Cut :=
    Fork.cut_cut _ some closes.2.2 fun _ => closes
  have beside : (Fork.cut rest (fun _ => True) False).Beside alone cursor :=
    .of_words (.inr free) standing stands trivial
  rcases (Fork.joined cut.bridged more fuel).expression .lowest alone cursor (.of_beside beside)
    known value final last read ran with ⟨cores, beside⟩ | ⟨-, never⟩
  · exact ⟨cores, (cut.words beside ended).second⟩
  · exact never.elim

/-- A conditional is the same in front of everything but another case. -/
theorem conditional (reads : Reads Parse.conditional words) :
    ∃ core, Settles Parse.conditional (· ≠ .elseWord) words core := by
  obtain ⟨free, more, alone, known, final, standing, read, ended⟩ := reads
  refine ⟨known.core, fun rest fuel cursor value last some complete stands ran => ?_⟩
  have cut : (Fork.cut rest (fun _ => True) True).Cut :=
    Fork.cut_cut _ some complete fun strict => absurd trivial strict
  have beside : (Fork.cut rest (fun _ => True) True).Beside alone cursor :=
    .of_words (.inr free) standing stands trivial
  obtain ⟨cores, beside⟩ := (Fork.joined cut.bridged more fuel).conditional alone cursor
    (.of_beside beside) known value final last read ran
  exact ⟨cores, (cut.words beside ended).second⟩

/-- Statements with a semicolon behind the last one are read in the same way in front of everything,
and then the reader goes on. -/
theorem statements (reads : Reads (Parse.blockStatements · []) words)
    (closed : words.getLastD (.fixed .semicolon) = .fixed .semicolon) :
    ∃ core, Passes (· ≠ .elseWord) words core := by
  obtain ⟨free, more, alone, known, final, standing, read, ended⟩ := reads
  cases words with
  | nil =>
      refine ⟨[], fun rest fuel done cursor values last _ _ stands ran => ?_⟩
      exact ⟨fuel, done, cursor, ran, stands, (List.append_nil _).symm⟩
  | cons word words =>
      refine ⟨Statement.listCore known,
        fun rest fuel done cursor values last some complete stands ran => ?_⟩
      have cut : (Fork.cut rest (· = .fixed .semicolon) True).Cut :=
        Fork.cut_cut _ some complete fun strict => absurd trivial strict
      have beside : (Fork.cut rest (· = .fixed .semicolon) True).Beside alone cursor :=
        .of_words (.inr free) standing stands closed
      have none : Statement.listCore done.reverse =
          Statement.listCore done.reverse ++ Statement.listCore [].reverse := by
        rw [List.reverse_nil, Statement.listCore, List.append_nil]
      exact cut.statements (fun _ => id) more fuel beside none read ended ran

end Parse.Reads

end MonkeyLang
