import MonkeyLang.Proofs.Program.Accounted

/-!
# No token is dropped

Tokens that end with the only one for the end of input are always read to the end. Each attempt to
read a statement takes at least one token (`statement_progresses`), be it that the statement is read,
which then accounts for its tokens, or that reading goes on behind a failure, which is kept. So each
statement that was read is what some of the tokens say. If nothing is reported, all tokens belong to
such statements (`Program.ofTokens_delimits`), and they write the program
(`Program.ofTokens_writes`).
-/

set_option autoImplicit false

namespace MonkeyLang

/-! ## Going on behind a failure -/

/-- A failure at a token that is no error token is reported. -/
theorem ProgramReading.diagnostics_ne_nil {reading : ProgramReading} {failure : SyntaxFailure}
    (member : failure ∈ reading.failures) (sound : failure.found.kind ≠ .error) :
    reading.diagnostics ≠ [] := by
  intro silent
  have none := List.filterMap_eq_nil_iff.mp silent failure member
  rw [SyntaxFailure.diagnostic?, if_neg sound] at none
  cases none

section

variable {close : Token} (closes : close.kind = .endOfInput)

include closes

/-- Where the next statement is looked for, some tokens are passed. -/
theorem seekStatement_passes (previous : Token) (ahead : List Token) : ∃ taken left,
    Cursor.Passes close previous ahead taken left (seekStatement previous (ahead ++ [close])) := by
  induction ahead generalizing previous with
  | nil =>
      refine ⟨[], [], rfl, ?_⟩
      simp [seekStatement, closes]
  | cons token ahead ih =>
      rw [List.cons_append, seekStatement]
      split
      · exact ⟨[], token :: ahead, rfl, rfl⟩
      · obtain ⟨taken, left, rfl, same⟩ := ih token
        exact ⟨token :: taken, left, rfl, same.trans (by rw [List.getLastD_cons])⟩

/-- Behind a failure in front of the end there are fewer tokens ahead. -/
theorem recover_passes (previous : Token) {ahead : List Token}
    (goes : ∀ token ∈ ahead, token.kind ≠ .endOfInput) : ∃ taken left,
    Cursor.Passes close previous ahead taken left (Cursor.recover ⟨previous, ahead ++ [close]⟩) ∧
      left.length ≤ ahead.length - 1 := by
  cases ahead with
  | nil =>
      have stays : Cursor.advance ⟨previous, [] ++ [close]⟩ = ⟨previous, [] ++ [close]⟩ := by
        simp [Cursor.advance, closes]
      obtain ⟨taken, left, passes⟩ := seekStatement_passes closes previous []
      obtain ⟨-, rfl⟩ := List.append_eq_nil_iff.mp passes.1.symm
      rw [Cursor.recover, stays]
      exact ⟨taken, [], passes, Nat.le_refl _⟩
  | cons token ahead =>
      have moves : Cursor.advance ⟨previous, token :: ahead ++ [close]⟩ =
          ⟨token, ahead ++ [close]⟩ := Parse.advance_cons (goes token List.mem_cons_self)
      obtain ⟨taken, left, rfl, same⟩ := seekStatement_passes closes token ahead
      rw [Cursor.recover, moves]
      refine ⟨token :: taken, left, ⟨rfl, same.trans (by rw [List.getLastD_cons])⟩, ?_⟩
      simp only [List.length_cons, List.length_append]
      omega

/-- An attempt to read a statement takes a token at least, be it that the statement is read or that
reading goes on behind a failure. -/
theorem statement_progresses (previous : Token) {ahead : List Token} (some : 0 < ahead.length)
    (goes : ∀ token ∈ ahead, token.kind ≠ .endOfInput) {fuel : Nat}
    (enough : 4 * ahead.length + 4 ≤ fuel) : ∃ taken left last,
      ahead = taken ++ left ∧ 0 < taken.length ∧
        ((∃ value, Parse.statement fuel ⟨previous, ahead ++ [close]⟩ =
            .done value ⟨last, left ++ [close]⟩ ∧
              Ended (value.Delimits false) (taken.map Token.word)) ∨
          ∃ failure cursor, Parse.statement fuel ⟨previous, ahead ++ [close]⟩ =
            .failed failure cursor ∧ cursor.recover = ⟨last, left ++ [close]⟩ ∧
              failure.found ∈ ahead ++ [close]) := by
  have accounts := (Parse.accounted closes fuel).statement previous ahead
  unfold Parse.Accounts at accounts
  cases ran : Parse.statement fuel ⟨previous, ahead ++ [close]⟩ with
  | endless =>
      rw [ran] at accounts
      exact absurd enough (Nat.not_le.mpr accounts)
  | done value cursor =>
      rw [ran] at accounts
      obtain ⟨taken, left, ⟨split, rfl⟩, writes⟩ := accounts
      have some := writes.pos
      rw [List.length_map] at some
      exact ⟨taken, left, _, split, some, .inl ⟨value, rfl, writes⟩⟩
  | failed failure cursor =>
      rw [ran] at accounts
      obtain ⟨first, middle, ⟨rfl, rfl⟩, found⟩ := accounts
      obtain ⟨second, left, ⟨rfl, recovered⟩, fewer⟩ :=
        recover_passes closes (first.getLastD previous) fun token member =>
          goes token (List.mem_append_right _ member)
      simp only [List.length_append] at some fewer
      refine ⟨first ++ second, left, _, (List.append_assoc _ _ _).symm, ?_,
        .inr ⟨failure, _, rfl, recovered, ?_⟩⟩
      · rw [List.length_append]
        omega
      · rw [found, Cursor.peek]
        cases ahead : second ++ left <;> simp

/-! ## Whole programs -/

namespace Program

/-- Statements are read to the end of the tokens. Each of them is what some of the tokens say.
Failures are kept, and where there is none that is reported, the statements are what all the tokens
say. -/
theorem readStatements_delimits {statementFuel fuel : Nat} {ahead : List Token}
    (goes : ∀ token ∈ ahead, token.kind ≠ .endOfInput)
    (enough : 4 * ahead.length + 4 ≤ statementFuel) (ready : ahead.length < fuel)
    (previous : Token) (done : List Statement) (failures : List SyntaxFailure) :
    ∃ reading statements,
      readStatements statementFuel fuel ⟨previous, ahead ++ [close]⟩ done failures = some reading ∧
      (∀ failure ∈ failures, failure ∈ reading.failures) ∧
      reading.program.statements = done.reverse ++ statements ∧
      (∀ statement ∈ statements, ∃ part, part <:+: ahead ∧
        Ended (statement.Delimits false) (part.map Token.word)) ∧
      ((∀ token ∈ ahead ++ [close], token.kind ≠ .error) → reading.diagnostics = [] →
        Statement.ListDelimits false statements (ahead.map Token.word)) := by
  induction fuel generalizing ahead previous done failures with
  | zero => omega
  | succ fuel ih =>
      rw [readStatements]
      rcases Nat.eq_zero_or_pos ahead.length with none | some
      · obtain rfl := List.eq_nil_of_length_eq_zero none
        have finished : Cursor.atEnd ⟨previous, [] ++ [close]⟩ = true := by
          simp [Cursor.atEnd, closes]
        rw [if_pos finished]
        refine ⟨_, [], rfl, fun failure member => List.mem_reverse.mpr member, ?_⟩
        exact ⟨(List.append_nil _).symm, List.forall_mem_nil _, fun _ _ => .nil⟩
      · have unfinished : ¬Cursor.atEnd ⟨previous, ahead ++ [close]⟩ = true := by
          obtain ⟨token, tokens, rfl⟩ := List.exists_cons_of_length_pos some
          rw [List.cons_append, Parse.atEnd_cons (goes token List.mem_cons_self)]
          exact Bool.false_ne_true
        rw [if_neg unfinished]
        obtain ⟨taken, left, last, rfl, progress, attempt⟩ :=
          statement_progresses closes previous some goes enough
        rw [List.length_append] at enough ready
        have rest := @ih left (fun token member => goes token (List.mem_append_right _ member))
          (by omega) (by omega) last
        have sound_left : (∀ token ∈ taken ++ left ++ [close], token.kind ≠ .error) →
            ∀ token ∈ left ++ [close], token.kind ≠ .error := fun sound token member =>
          sound token (List.append_assoc taken left _ ▸ List.mem_append_right taken member)
        have infix_left : ∀ {part : List Token}, part <:+: left → part <:+: taken ++ left :=
          fun inside => inside.trans (List.suffix_append taken left).isInfix
        rcases attempt with ⟨value, ran, ended⟩ | ⟨failure, cursor, ran, recovered, found⟩
        · rw [ran]
          obtain ⟨reading, statements, reads, keeps, same, parts, told⟩ :=
            rest (value :: done) failures
          refine ⟨reading, value :: statements, reads, keeps, by simpa using same, ?_,
            fun sound silent => ?_⟩
          · refine List.forall_mem_cons.mpr
              ⟨⟨taken, (List.prefix_append taken left).isInfix, ended⟩, fun statement member => ?_⟩
            obtain ⟨part, inside, delimits⟩ := parts statement member
            exact ⟨part, infix_left inside, delimits⟩
          · rw [List.map_append]
            exact .ofEnded ended (told (sound_left sound) silent)
        · rw [ran]
          dsimp only
          rw [recovered]
          obtain ⟨reading, statements, reads, keeps, same, parts, -⟩ :=
            rest done (failure :: failures)
          refine ⟨reading, statements, reads,
            fun other member => keeps other (List.mem_cons_of_mem _ member), same, ?_,
            fun sound silent => ?_⟩
          · intro statement member
            obtain ⟨part, inside, delimits⟩ := parts statement member
            exact ⟨part, infix_left inside, delimits⟩
          · exact absurd silent (ProgramReading.diagnostics_ne_nil
              (keeps failure List.mem_cons_self) (sound _ found))

/-- Tokens that end with the only one for the end of input are always read to the end, and each
statement that was read is what some of them say. -/
theorem ofTokens_delimits (tokens : List Token)
    (goes : ∀ token ∈ tokens, token.kind ≠ .endOfInput) :
    ∃ reading, ofTokens (tokens ++ [close]) = some reading ∧
      (∀ statement ∈ reading.program.statements, ∃ part, part <:+: tokens ∧
        Ended (statement.Delimits false) (part.map Token.word)) ∧
      ((∀ token ∈ tokens, token.kind ≠ .error) → reading.diagnostics = [] →
        Statement.ListDelimits false reading.program.statements (tokens.map Token.word)) := by
  have enough : 4 * tokens.length + 4 ≤ fuelFor (tokens ++ [close]) := by
    rw [fuelFor, List.length_append]
    omega
  have ready : tokens.length < (tokens ++ [close]).length + 1 := by
    rw [List.length_append]
    omega
  obtain ⟨reading, statements, reads, -, same, parts, told⟩ :=
    readStatements_delimits closes goes enough ready ⟨.endOfInput, "", .dummy⟩ [] []
  obtain rfl : reading.program.statements = statements := same
  refine ⟨reading, reads, parts, fun sound => told fun token member => ?_⟩
  rcases List.mem_append.mp member with member | member
  · exact sound token member
  · obtain rfl := List.mem_singleton.mp member
    rw [closes]
    decide

/-- **No token is dropped.** Tokens that end with the only one for the end of input, and have no
error token among them, are always read to the end. If nothing is reported, they write the program
that was read, as do the words that the program is written with: the two differ in nothing but the
parentheses around expressions, the semicolons behind statements, and the short forms of assignments
and of conditionals behind `else`. -/
theorem ofTokens_writes (tokens : List Token)
    (goes : ∀ token ∈ tokens, token.kind ≠ .endOfInput)
    (sound : ∀ token ∈ tokens, token.kind ≠ .error) :
    ∃ reading, ofTokens (tokens ++ [close]) = some reading ∧
      (reading.diagnostics = [] →
        reading.program.Writes (tokens.map Token.word) ∧
          reading.program.Writes reading.program.words) := by
  obtain ⟨reading, reads, -, told⟩ := ofTokens_delimits closes tokens goes
  exact ⟨reading, reads, fun silent =>
    ⟨(told sound silent).writes, reading.program.writes_words⟩⟩

end Program

end

namespace Program

/-- The tokens of `n += (2) if (a) { n } else if (b) { }`. -/
def shortTokens : List Token :=
  let token (kind : Token.Kind) (lexeme : String) : Token := ⟨kind, lexeme, .dummy⟩
  let fixed (kind : Token.Kind) : Token := token kind kind.spelling
  [token .identifier "n", fixed .plusEqual, fixed .leftParen, token .integer "2", fixed .rightParen,
   fixed .ifWord, fixed .leftParen, token .identifier "a", fixed .rightParen, fixed .leftBrace,
   token .identifier "n", fixed .rightBrace, fixed .elseWord, fixed .ifWord, fixed .leftParen,
   token .identifier "b", fixed .rightParen, fixed .leftBrace, fixed .rightBrace]

/-- The words of the program that is read are more than the tokens. Both write it. -/
theorem ofTokens_writes_short : ∃ reading,
    ofTokens (shortTokens ++ [⟨.endOfInput, "", .dummy⟩]) = some reading ∧
      reading.program.Writes (shortTokens.map Token.word) ∧
      reading.program.Writes reading.program.words ∧
      shortTokens.length = 19 ∧ reading.program.words.length = 25 := by
  obtain ⟨reading, reads, told⟩ :=
    @ofTokens_writes ⟨.endOfInput, "", .dummy⟩ rfl shortTokens (by decide) (by decide)
  have seen : ((ofTokens (shortTokens ++ [⟨.endOfInput, "", .dummy⟩])).map fun reading =>
      (reading.diagnostics.length, reading.program.words.length)) = some (0, 25) := by
    decide +kernel
  rw [reads] at seen
  obtain ⟨silent, words⟩ := Prod.mk.inj (Option.some.inj seen)
  obtain ⟨writes, also⟩ := told (List.eq_nil_of_length_eq_zero silent)
  exact ⟨reading, reads, writes, also, rfl, words⟩

end Program

end MonkeyLang
