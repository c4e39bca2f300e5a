import Mathlib.Data.List.Forall2
import MonkeyLang.Proofs.Program.Consumed
import MonkeyLang.Proofs.Program.Recovery
import MonkeyLang.Proofs.Program.Unclosed

/-!
# Programs without the token for the end of input

The statements of a list of tokens are read one after another, and so what was shown of the readers
of statements carries over to programs: a list that does not end with the token for the end of input
is read as if it did. The statements are the same, and there are diagnostics in the one case exactly
if there are some in the other (`Program.ofTokens_without_end`).

This fails for the lists whose last token is a sign behind which an operand is missing. They are not
read at all, however much fuel there is (`Program.ofTokens_sign`).
-/

set_option autoImplicit false

namespace MonkeyLang

/-! ## Going on behind a failure -/

section

variable {tail close : Token} {cursor : Cursor}

theorem Cursor.Leads.seekStatement {previous : Token} {rest : List Token}
    (leads : Cursor.Leads tail ⟨previous, rest⟩) :
    (MonkeyLang.seekStatement previous rest).Leads tail := by
  induction rest generalizing previous with
  | nil => exact leads
  | cons token rest ih =>
      rw [MonkeyLang.seekStatement]
      split
      · exact leads
      · exact ih leads.behind

theorem Cursor.Leads.advance (leads : cursor.Leads tail) : cursor.advance.Leads tail := by
  obtain ⟨previous, rest⟩ := cursor
  cases rest with
  | nil => exact leads
  | cons token rest =>
      rw [Parse.advance_cons (leads.goes token List.mem_cons_self)]
      exact leads.behind

theorem Cursor.Leads.recover (leads : cursor.Leads tail) : cursor.recover.Leads tail :=
  leads.advance.seekStatement

variable (closes : close.kind = .endOfInput)

include closes

theorem seekStatement_closed (previous : Token) (rest : List Token) :
    seekStatement previous (rest ++ [close]) = (seekStatement previous rest).closed close := by
  induction rest generalizing previous with
  | nil => simp [seekStatement, closes, Cursor.closed]
  | cons token rest ih =>
      rw [List.cons_append, seekStatement, seekStatement]
      split
      · rfl
      · exact ih token

/-- Reading goes on at the same place, whether there is an end behind the tokens or not. -/
theorem Cursor.Leads.recover_closed (leads : cursor.Leads tail) :
    (cursor.closed close).recover = cursor.recover.closed close := by
  obtain ⟨previous, rest⟩ := cursor
  cases rest with
  | nil =>
      have stays : Cursor.advance ⟨previous, [close]⟩ = ⟨previous, [close]⟩ := by
        simp [Cursor.advance, closes]
      show Cursor.recover ⟨previous, [close]⟩ = _
      rw [Cursor.recover, stays]
      exact seekStatement_closed closes previous []
  | cons token rest =>
      have more : token.kind ≠ .endOfInput := leads.goes token List.mem_cons_self
      rw [Cursor.recover, Cursor.recover, Cursor.closed, List.cons_append, Parse.advance_cons more,
        Parse.advance_cons more]
      exact seekStatement_closed closes token rest

end

/-! ## The first token -/

/-- The reader does not ask for the token before the first one: it fails at once, or it goes on
behind the first token. -/
def Parse.Starts {α : Type} (parse : Parse α) : Prop :=
  ∀ (token : Token) (rest : List Token), token.kind ≠ .endOfInput →
    (∃ fault, ∀ previous,
      parse ⟨previous, token :: rest⟩ = .failed ⟨fault, token⟩ ⟨previous, token :: rest⟩) ∨
    ∃ outcome, ∀ previous, parse ⟨previous, token :: rest⟩ = outcome

namespace Parse.Starts

variable {α β : Type} {parse : Parse α} {next : α → Parse β} {kind : Token.Kind}

theorem fail (fault : SyntaxFault) : (Parse.fail fault : Parse α).Starts :=
  fun _ _ _ => .inl ⟨fault, fun _ => rfl⟩

theorem endless : (Parse.endless : Parse α).Starts := fun _ _ _ => .inr ⟨.endless, fun _ => rfl⟩

theorem bind (starts : parse.Starts) : (parse >>= next).Starts := by
  intro token rest more
  show (∃ fault, ∀ previous, andThen parse next _ = _) ∨ ∃ outcome, ∀ previous,
    andThen parse next _ = outcome
  unfold andThen
  rcases starts token rest more with ⟨fault, failed⟩ | ⟨outcome, same⟩
  · exact .inl ⟨fault, fun previous => by rw [failed]⟩
  · exact .inr ⟨_, fun previous => by rw [same]⟩

theorem peek {next : Token → Parse β} (others : ∀ token, (next token).Starts) :
    (Parse.peek >>= next).Starts :=
  fun token rest more => others token token rest more

theorem advance : Parse.advance.Starts := by
  intro token rest more
  refine .inr ⟨.done token ⟨token, rest⟩, fun previous => ?_⟩
  rw [Parse.advance, advance_cons more]

theorem require (what : String) : (Parse.require kind what).Starts := by
  intro token rest more
  unfold Parse.require
  by_cases seen : token.kind = kind
  · refine .inr ⟨.done token ⟨token, rest⟩, fun previous => ?_⟩
    rw [looksAt_cons (seen ▸ more), if_pos (decide_eq_true seen), advance_cons more]
  · refine .inl ⟨.expected what, fun previous => ?_⟩
    have unseen : Cursor.looksAt ⟨previous, token :: rest⟩ kind = false := by
      simp [Cursor.looksAt, Cursor.peek, seen]
    rw [unseen]
    rfl

theorem operand (fuel : Nat) : (Parse.operand fuel).Starts := by
  cases fuel with
  | zero => exact endless
  | succ fuel =>
      have worded {parse : Nat → Parse Expression} (none : parse 0 = Parse.endless)
          (some : ∀ fuel, (parse (fuel + 1)).Starts) : (parse fuel).Starts := by
        cases fuel with
        | zero => exact none ▸ endless
        | succ fuel => exact some fuel
      rw [Parse.operand]
      refine peek fun token => ?_
      cases token.kind with
      | integer =>
          refine peek fun token => ?_
          cases Number.readInteger? token.lexeme.toList with
          | none => exact fail _
          | some value => exact advance.bind
      | float =>
          refine peek fun token => ?_
          cases Number.readFloat? token.lexeme.toList with
          | none => exact fail _
          | some value => exact advance.bind
      | string => exact advance.bind
      | trueWord => exact advance.bind
      | falseWord => exact advance.bind
      | identifier =>
          exact worded (by funext; rfl) fun fuel => by rw [nameOrAssignment]; exact advance.bind
      | leftParen => exact (require _).bind
      | leftBracket => exact (require _).bind
      | minus => exact advance.bind
      | bang => exact advance.bind
      | ifWord => exact worded (by funext; rfl) fun fuel => by rw [conditional]; exact (require _).bind
      | whileWord => exact worded (by funext; rfl) fun fuel => by rw [whileLoop]; exact (require _).bind
      | forWord => exact worded (by funext; rfl) fun fuel => by rw [forLoop]; exact (require _).bind
      | funcWord =>
          exact worded (by funext; rfl) fun fuel => by rw [functionLiteral]; exact (require _).bind
      | _ => exact fail _

theorem expression (fuel : Nat) (floor : Precedence) : (Parse.expression fuel floor).Starts := by
  cases fuel with
  | zero => exact endless
  | succ fuel =>
      rw [Parse.expression]
      exact (operand fuel).bind

theorem statement (fuel : Nat) : (Parse.statement fuel).Starts := by
  cases fuel with
  | zero => exact endless
  | succ fuel =>
      rw [Parse.statement]
      refine peek fun token => ?_
      cases token.kind with
      | varWord =>
          refine bind ?_
          cases fuel with
          | zero => exact endless
          | succ fuel =>
              rw [binding]
              exact (require _).bind
      | returnWord => exact (require _).bind
      | _ => exact (expression fuel _).bind

end Parse.Starts

/-! ## Whole programs -/

namespace Program

/-- What is read does not depend on the token before the first one. -/
theorem readStatements_previous (statementFuel fuel : Nat) (previous first : Token)
    {tokens : List Token} (goes : ∀ token ∈ tokens, token.kind ≠ .endOfInput)
    (done : List Statement) (failures : List SyntaxFailure) :
    readStatements statementFuel fuel ⟨previous, tokens⟩ done failures =
      readStatements statementFuel fuel ⟨first, tokens⟩ done failures := by
  match fuel, tokens with
  | 0, _ => rfl
  | fuel + 1, [] => rfl
  | fuel + 1, token :: rest =>
    have more : token.kind ≠ .endOfInput := goes token List.mem_cons_self
    have goesOn (previous : Token) :
        ¬Cursor.atEnd ⟨previous, token :: rest⟩ = true := by simp [Parse.atEnd_cons more]
    rw [readStatements, readStatements, if_neg (goesOn _), if_neg (goesOn _)]
    rcases Parse.Starts.statement statementFuel token rest more with ⟨fault, failed⟩ | ⟨outcome, same⟩
    · rw [failed, failed]
      dsimp only
      rw [Cursor.recover, Cursor.recover, Parse.advance_cons more, Parse.advance_cons more]
    · rw [same, same]

theorem mem_failures_of_readStatements {statementFuel fuel : Nat} {cursor : Cursor}
    {done : List Statement} {failures : List SyntaxFailure} {reading : ProgramReading}
    (reads : readStatements statementFuel fuel cursor done failures = some reading)
    {failure : SyntaxFailure} (member : failure ∈ failures) : failure ∈ reading.failures := by
  induction fuel generalizing cursor done failures with
  | zero => cases reads
  | succ fuel ih =>
      rw [readStatements] at reads
      split at reads
      · cases reads
        exact List.mem_reverse.mpr member
      · split at reads
        · exact ih reads member
        · exact ih reads (List.mem_cons_of_mem _ member)
        · cases reads

/-- Two failures that are both told or both not. -/
def AlikeFailures (failure other : SyntaxFailure) : Prop :=
  failure.diagnostic? = none ↔ other.diagnostic? = none

theorem diagnostics_eq_nil_iff_of_alike {reading closed : ProgramReading}
    (alike : List.Forall₂ AlikeFailures reading.failures closed.failures) :
    reading.diagnostics = [] ↔ closed.diagnostics = [] := by
  unfold ProgramReading.diagnostics
  generalize reading.failures = failures, closed.failures = others at alike
  induction alike with
  | nil => rfl
  | cons first _ ih =>
      simp only [List.filterMap_eq_nil_iff, List.forall_mem_cons] at ih ⊢
      exact and_congr first ih

/-- The last of the tokens is a minus or an exclamation mark, and a statement has failed at the end
behind it. -/
def SignMissesOperand (tail : Token) (closed : ProgramReading) : Prop :=
  (tail.kind = .minus ∨ tail.kind = .bang) ∧
    ∃ failure ∈ closed.failures, failure.found.kind = .endOfInput

section

variable {close : Token} (closes : close.kind = .endOfInput)

include closes

/-- From a place on the same is read without and with an end behind the tokens, unless a sign misses
its operand. -/
theorem readStatements_closed {tail : Token} {first second : Nat} (less : second < first)
    {fuel : Nat} {cursor : Cursor} (leads : cursor.Leads tail) {done : List Statement}
    {failures others : List SyntaxFailure} (alike : List.Forall₂ AlikeFailures failures others)
    (fine : ¬SignMissesOperand tail ⟨⟨done⟩, others⟩) {closed : ProgramReading}
    (reads : readStatements second fuel (cursor.closed close) done others = some closed) :
    SignMissesOperand tail closed ∧ readStatements first fuel cursor done failures = none ∨
      ¬SignMissesOperand tail closed ∧ ∃ reading,
        readStatements first fuel cursor done failures = some reading ∧
          reading.program = closed.program ∧
          List.Forall₂ AlikeFailures reading.failures closed.failures := by
  induction fuel generalizing cursor done failures others with
  | zero => cases reads
  | succ fuel ih =>
      rw [readStatements] at reads ⊢
      rw [Parse.Meets.atEnd_closed closes leads] at reads
      by_cases ended : cursor.atEnd = true
      · rw [if_pos ended] at reads ⊢
        cases reads
        refine .inr ⟨fun misses => fine ?_, _, rfl, rfl, List.rel_reverse alike⟩
        obtain ⟨sign, failure, member, found⟩ := misses
        exact ⟨sign, failure, List.mem_reverse.mp member, found⟩
      · rw [if_neg ended] at reads ⊢
        have more : cursor.rest ≠ [] := by
          intro none
          exact ended (by rw [Cursor.atEnd, none])
        have ran := (Parse.paired closes tail less).statement cursor leads more
        generalize Parse.statement first cursor = outcome,
          Parse.statement second (cursor.closed close) = other at ran reads ⊢
        cases ran with
        | done statement leads holds => exact ih leads alike fine reads
        | @inside failure stop leads more found =>
            dsimp only at reads ⊢
            rw [leads.recover_closed closes] at reads
            refine ih leads.recover (.cons Iff.rfl alike) ?_ reads
            rintro ⟨sign, other, member, seen⟩
            rcases List.mem_cons.mp member with rfl | member
            · exact found seen
            · exact fine ⟨sign, other, member, seen⟩
        | @behind failure other quiet found seen =>
            have last : Cursor.Leads tail ⟨tail, []⟩ := ⟨List.forall_mem_nil _, rfl⟩
            have same : Cursor.recover ⟨tail, [close]⟩ = (Cursor.recover ⟨tail, []⟩).closed close :=
              last.recover_closed closes
            dsimp only at reads ⊢
            rw [same] at reads
            refine ih last.recover (.cons ?_ alike) ?_ reads
            · have told : tail.kind ≠ .error := by
                intro error
                rw [error] at quiet
                cases quiet
              have also : close.kind ≠ .error := by
                rw [closes]
                decide
              simp [AlikeFailures, SyntaxFailure.diagnostic?, found, seen, told, also]
            · rintro ⟨sign | sign, -⟩ <;>
                · rw [sign] at quiet
                  cases quiet
        | @loops other sign seen =>
            refine .inl ⟨⟨sign, other, ?_, seen ▸ closes⟩, rfl⟩
            exact mem_failures_of_readStatements reads List.mem_cons_self
        | short outcome => cases reads

end

/-- **A missing end makes no difference, but for one thing.** A list of tokens among which none ends
the input is read to the same statements as with an end behind it, and diagnostics come with it
exactly if they come with the longer list; what stands before the first token is never looked at.
The exception are lists whose last token is a sign behind which, as the longer list tells, an
operand is missing: they are not read with any amount of fuel. -/
theorem ofTokens_without_end (tokens : List Token)
    (goes : ∀ token ∈ tokens, token.kind ≠ .endOfInput) (close : Token)
    (closes : close.kind = .endOfInput) :
    ∃ closed, ofTokens (tokens ++ [close]) = some closed ∧
      (∀ previous statementFuel fuel,
        readStatements statementFuel fuel ⟨previous, tokens⟩ [] [] =
          readStatements statementFuel fuel (Cursor.start tokens) [] []) ∧
      ((∃ sign ∈ tokens.getLast?, SignMissesOperand sign closed) →
        ∀ statementFuel fuel, readStatements statementFuel fuel (Cursor.start tokens) [] [] = none) ∧
      ((¬∃ sign ∈ tokens.getLast?, SignMissesOperand sign closed) →
        ∃ reading, ofTokens tokens = some reading ∧ reading.program = closed.program ∧
          (reading.diagnostics = [] ↔ closed.diagnostics = [])) := by
  let start := Cursor.start tokens
  let tail := tokens.getLastD start.previous
  have leads : start.Leads tail := ⟨goes, rfl⟩
  have fine : ¬SignMissesOperand tail ⟨⟨[]⟩, []⟩ := fun ⟨_, _, member, _⟩ => nomatch member
  obtain ⟨closed, -, reads, -⟩ := readStatements_delimits closes goes (Nat.le_refl _)
    (Nat.lt_succ_self tokens.length) start.previous [] []
  -- With an end the same is read with all the fuel that either of the lists is given.
  have whole {statementFuel fuel : Nat} (enough : 4 * tokens.length + 4 ≤ statementFuel)
      (ready : tokens.length + 1 ≤ fuel) :
      readStatements statementFuel fuel (start.closed close) [] [] = some closed :=
    readStatements_mono enough ready reads
  have last : (∃ sign ∈ tokens.getLast?, SignMissesOperand sign closed) ↔
      SignMissesOperand tail closed := by
    have tail_eq : tail = tokens.getLast?.getD start.previous := List.getLastD_eq_getLast? ..
    cases found : tokens.getLast? with
    | none =>
        rw [tail_eq, found]
        exact ⟨fun ⟨_, member, _⟩ => (nomatch member), fun ⟨sign, _⟩ => sign.elim nofun nofun⟩
    | some sign =>
        rw [tail_eq, found]
        simp
  refine ⟨closed, ?_, ?_, ?_, ?_⟩
  · refine whole ?_ ?_
    · rw [fuelFor, List.length_append]
      omega
    · simp
  · exact fun previous statementFuel fuel => readStatements_previous _ _ _ _ goes [] []
  · intro misses statementFuel fuel
    have enough : 4 * tokens.length + 4 ≤ statementFuel + (4 * tokens.length + 4) := by omega
    have ready : tokens.length + 1 ≤ fuel + (tokens.length + 1) := by omega
    rcases readStatements_closed closes (Nat.lt_succ_self _) leads .nil fine
      (whole enough ready) with ⟨-, none⟩ | ⟨reads, -⟩
    · cases found : readStatements statementFuel fuel start [] [] with
      | none => rfl
      | some reading =>
          have further : statementFuel ≤ statementFuel + (4 * tokens.length + 4) + 1 := by omega
          have more := readStatements_mono further (Nat.le_add_right fuel (tokens.length + 1)) found
          rw [none] at more
          cases more
    · exact absurd (last.mp misses) reads
  · intro reads
    have enough : 4 * tokens.length + 4 ≤ 4 * tokens.length + 7 := by omega
    rcases readStatements_closed closes (Nat.lt_succ_self _) leads .nil fine
      (whole enough (Nat.le_refl _)) with ⟨misses, -⟩ | ⟨-, reading, found, same, alike⟩
    · exact absurd (last.mpr misses) reads
    · exact ⟨reading, found, same, diagnostics_eq_nil_iff_of_alike alike⟩

/-- The text `x +` without its end: the operand is missing with and without it. -/
theorem ofTokens_without_end_sum :
    let tokens : List Token := [⟨.identifier, "x", ⟨0, 1⟩⟩, ⟨.plus, "+", ⟨2, 3⟩⟩]
    ∃ closed reading, ofTokens (tokens ++ [⟨.endOfInput, "", ⟨3, 3⟩⟩]) = some closed ∧
      ofTokens tokens = some reading ∧ reading.program = closed.program ∧
        (reading.diagnostics = [] ↔ closed.diagnostics = []) := by
  intro tokens
  obtain ⟨closed, ended, -, -, reads⟩ :=
    ofTokens_without_end tokens (by decide) ⟨.endOfInput, "", ⟨3, 3⟩⟩ rfl
  obtain ⟨reading, found, same, alike⟩ := reads (by
    rintro ⟨sign, member, is, -⟩
    obtain rfl : sign = ⟨.plus, "+", ⟨2, 3⟩⟩ := (Option.some.inj member).symm
    rcases is with is | is <;> cases is)
  exact ⟨closed, reading, ended, found, same, alike⟩

/-- The text `-` is read if its end is there, with a failure. Without the end it is not read, however
much fuel there is. -/
theorem ofTokens_sign :
    (∃ closed, ofTokens [⟨.minus, "-", ⟨0, 1⟩⟩, ⟨.endOfInput, "", ⟨1, 1⟩⟩] = some closed ∧
      closed.diagnostics ≠ []) ∧
    ∀ statementFuel fuel,
      readStatements statementFuel fuel (Cursor.start [⟨.minus, "-", ⟨0, 1⟩⟩]) [] [] = none := by
  refine ⟨⟨_, rfl, by decide⟩, fun statementFuel fuel => ?_⟩
  let sign : Token := ⟨.minus, "-", ⟨0, 1⟩⟩
  have kind : sign.kind = .minus := rfl
  have seen : Cursor.peek (Cursor.start [sign]) = sign := rfl
  have behind : Cursor.advance (Cursor.start [sign]) = ⟨sign, []⟩ := rfl
  have operand (fuel : Nat) : Parse.operand fuel (Cursor.start [sign]) = .endless := by
    cases fuel with
    | zero => rfl
    | succ fuel =>
        simp only [Parse.operand, bind, Parse.andThen, Parse.peek, seen, kind, Parse.advance, behind,
          Parse.expression_endless (.inl kind)]
  have expression (fuel : Nat) (floor : Precedence) :
      Parse.expression fuel floor (Cursor.start [sign]) = .endless := by
    cases fuel with
    | zero => rfl
    | succ fuel => simp only [Parse.expression, bind, Parse.andThen, operand]
  have statement (fuel : Nat) : Parse.statement fuel (Cursor.start [sign]) = .endless := by
    cases fuel with
    | zero => rfl
    | succ fuel =>
        simp only [Parse.statement, bind, Parse.andThen, Parse.peek, seen, kind, expression]
  cases fuel with
  | zero => rfl
  | succ fuel =>
      have notAtEnd : (Cursor.start [sign]).atEnd ≠ true := by decide
      rw [readStatements, if_neg notAtEnd, statement]

end Program

end MonkeyLang
