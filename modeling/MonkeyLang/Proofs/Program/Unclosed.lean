import MonkeyLang.Proofs.Program.Accounting
import MonkeyLang.Proofs.Program.Fuel

/-!
# Readers behind the last token

A list of tokens should end with the token for the end of input. If it does not, a reader behind the
last token looks at that token once more, although it cannot take it again. Here a reader of a list
without an end is compared with the same reader of the list with an end put behind it
(`Parse.Meets`).

The two come to the same, but for the failures behind the last token, which name this token or the
end. Only behind a sign, which is a minus or an exclamation mark, a reader of an operand goes wrong:
it takes the sign for the first of its operand, cannot move over it, and asks for the operand again
without end (`Parse.operand_endless`), where the other reader fails (`Outcome.Matches.loops`).

For this it matters behind which tokens a reader can come to stand: behind an operand nothing is
taken for an extension of it, and where an operand is asked for no operand has been taken. This is
shown of every reader by induction on the fuel (`Parse.paired`).
-/

set_option autoImplicit false

namespace MonkeyLang

/-! ## The last token -/

namespace Token.Kind

/-- Not a sign, and not an error. -/
def isQuiet : Token.Kind → Bool
  | .minus | .bang | .error => false
  | _ => true

/-- Not what an operand ends with that is one token, and not an error. -/
def awaitsOperand : Token.Kind → Bool
  | .integer | .float | .string | .trueWord | .falseWord | .identifier | .error => false
  | _ => true

/-- What could not be taken for an operator, an assignment or a sign. -/
def isRest (kind : Token.Kind) : Bool :=
  kind.precedence = .lowest && (assignment? kind).isNone && kind.isQuiet

end Token.Kind

namespace Cursor

/-- The tokens that are left go on to the last one, and none of them ends the input. -/
structure Leads (tail : Token) (cursor : Cursor) : Prop where
  goes : ∀ token ∈ cursor.rest, token.kind ≠ .endOfInput
  last : cursor.rest.getLastD cursor.previous = tail

/-- The cursor with another token behind those that are left. -/
def closed (close : Token) (cursor : Cursor) : Cursor := ⟨cursor.previous, cursor.rest ++ [close]⟩

/-- What holds of the last token that was read if no token is left. -/
def Stands (good : Token.Kind → Bool) (cursor : Cursor) : Prop :=
  cursor.rest = [] → good cursor.previous.kind = true

/-- A token of a kind was read last. -/
def Behind (kind : Token.Kind) (cursor : Cursor) : Prop := cursor.previous.kind = kind

/-- A token is left. -/
def Before (token : Token) (cursor : Cursor) : Prop := ∃ rest, cursor.rest = token :: rest

variable {tail close token : Token} {cursor : Cursor} {kind : Token.Kind}
  {good : Token.Kind → Bool}

theorem Behind.stands (behind : cursor.Behind kind) (holds : good kind = true) :
    cursor.Stands good := fun _ => (congrArg good behind).trans holds

theorem Before.stands (before : cursor.Before token) : cursor.Stands good := by
  intro none
  obtain ⟨rest, some⟩ := before
  rw [none] at some
  cases some

theorem Leads.eq_of_rest_eq_nil (leads : cursor.Leads tail) (none : cursor.rest = []) :
    cursor = ⟨tail, []⟩ := by
  obtain ⟨previous, rest⟩ := cursor
  obtain rfl : rest = [] := none
  obtain rfl : previous = tail := leads.last
  rfl

theorem Leads.behind {rest : List Token} {previous : Token}
    (leads : Leads tail ⟨previous, token :: rest⟩) : Leads tail ⟨token, rest⟩ where
  goes other member := leads.goes other (List.mem_cons_of_mem _ member)
  last := by
    have last := leads.last
    rwa [List.getLastD_cons] at last

end Cursor

/-! ## Two readers -/

/-- How a reader ends without and with an end behind the tokens. The first one does at least as much
as the second. -/
inductive Outcome.Matches {α : Type} (close tail : Token) (after : Cursor → Prop) :
    Outcome α → Outcome α → Prop where
  | done (value : α) {cursor : Cursor} (leads : cursor.Leads tail) (holds : after cursor) :
      Matches close tail after (.done value cursor) (.done value (cursor.closed close))
  /-- Failures in front of the last token and at it are the same. -/
  | inside {failure : SyntaxFailure} {cursor : Cursor} (leads : cursor.Leads tail)
      (more : cursor.rest ≠ []) (found : failure.found.kind ≠ .endOfInput) :
      Matches close tail after (.failed failure cursor) (.failed failure (cursor.closed close))
  | behind {failure other : SyntaxFailure} (quiet : tail.kind.isQuiet = true)
      (found : failure.found = tail) (ended : other.found = close) :
      Matches close tail after (.failed failure ⟨tail, []⟩) (.failed other ⟨tail, [close]⟩)
  /-- An operand is asked for behind a sign. -/
  | loops {other : SyntaxFailure} (sign : tail.kind = .minus ∨ tail.kind = .bang)
      (ended : other.found = close) :
      Matches close tail after .endless (.failed other ⟨tail, [close]⟩)
  /-- The second reader had too little fuel. -/
  | short (outcome : Outcome α) : Matches close tail after outcome .endless

namespace Parse

variable {α β : Type} {close tail : Token}

/-- Where the first reader runs without an end behind the tokens, the second one comes to the same
with an end. -/
def Meets (close tail : Token) (before after : Cursor → Prop) (first second : Parse α) : Prop :=
  ∀ cursor : Cursor, cursor.Leads tail → before cursor →
    (first cursor).Matches close tail after (second (cursor.closed close))

namespace Meets

variable {before middle after : Cursor → Prop} {first second : Parse α}
  {next further : α → Parse β} {kind : Token.Kind}

theorem stronger {strong : Cursor → Prop} (meets : Meets close tail before after first second)
    (implies : ∀ cursor, strong cursor → before cursor) :
    Meets close tail strong after first second :=
  fun cursor leads holds => meets cursor leads (implies cursor holds)

theorem weaker {weak : Cursor → Prop} (meets : Meets close tail before after first second)
    (implies : ∀ cursor, after cursor → weak cursor) :
    Meets close tail before weak first second := by
  intro cursor leads holds
  have ran := meets cursor leads holds
  generalize first cursor = outcome, second (cursor.closed close) = other at ran ⊢
  cases ran with
  | done value leads holds => exact .done value leads (implies _ holds)
  | inside leads more found => exact .inside leads more found
  | behind quiet found ended => exact .behind quiet found ended
  | loops sign ended => exact .loops sign ended
  | short outcome => exact .short outcome

theorem bind (meets : Meets close tail before middle first second)
    (others : ∀ value, Meets close tail middle after (next value) (further value)) :
    Meets close tail before after (first >>= next) (second >>= further) := by
  intro cursor leads holds
  show (andThen first next cursor).Matches close tail after (andThen second further _)
  have ran := meets cursor leads holds
  unfold andThen
  generalize first cursor = outcome, second (cursor.closed close) = other at ran ⊢
  cases ran with
  | done value leads holds => exact others value _ leads holds
  | inside leads more found => exact .inside leads more found
  | behind quiet found ended => exact .behind quiet found ended
  | loops sign ended => exact .loops sign ended
  | short outcome => exact .short _

theorem pure {value : α} (implies : ∀ cursor, before cursor → after cursor) :
    Meets close tail before after (Pure.pure value) (Pure.pure value) :=
  fun cursor leads holds => .done value leads (implies cursor holds)

theorem ite {condition : Prop} [Decidable condition] {yes no yes' no' : Parse α}
    (holds : condition → Meets close tail before after yes yes')
    (fails : ¬condition → Meets close tail before after no no') :
    Meets close tail before after (if condition then yes else no)
      (if condition then yes' else no') := by
  by_cases decided : condition
  · rw [if_pos decided, if_pos decided]
    exact holds decided
  · rw [if_neg decided, if_neg decided]
    exact fails decided

/-- Two readers that fail. -/
theorem fails_at {cursor : Cursor} (leads : cursor.Leads tail)
    (stands : cursor.Stands Token.Kind.isQuiet) (fault : SyntaxFault) :
    (Outcome.failed ⟨fault, cursor.peek⟩ cursor : Outcome α).Matches close tail after
      (.failed ⟨fault, (cursor.closed close).peek⟩ (cursor.closed close)) := by
  obtain ⟨previous, rest⟩ := cursor
  cases rest with
  | nil =>
      obtain rfl : previous = tail := leads.last
      exact .behind (stands rfl) rfl rfl
  | cons token rest => exact .inside leads (List.cons_ne_nil _ _) (leads.goes token List.mem_cons_self)

theorem fail (fault : SyntaxFault) :
    Meets close tail (Cursor.Stands Token.Kind.isQuiet) after (Parse.fail fault : Parse α)
      (Parse.fail fault) :=
  fun _ leads stands => fails_at leads stands fault

theorem peek {next further : Token → Parse β}
    (ahead : ∀ token, token.kind ≠ .endOfInput →
      Meets close tail (fun cursor => before cursor ∧ cursor.Before token) after (next token)
        (further token))
    (atEnd : before ⟨tail, []⟩ →
      (next tail ⟨tail, []⟩).Matches close tail after (further close ⟨tail, [close]⟩)) :
    Meets close tail before after (Parse.peek >>= next) (Parse.peek >>= further) := by
  intro cursor leads holds
  obtain ⟨previous, rest⟩ := cursor
  cases rest with
  | nil =>
      obtain rfl : previous = tail := leads.last
      exact atEnd holds
  | cons token rest =>
      exact ahead token (leads.goes token List.mem_cons_self) _ leads ⟨holds, rest, rfl⟩

/-- A token that is known to come next is seen. -/
theorem peek_before {token : Token} {next further : Token → Parse β}
    (ahead : Meets close tail (Cursor.Before token) after (next token) (further token)) :
    Meets close tail (Cursor.Before token) after (Parse.peek >>= next) (Parse.peek >>= further) := by
  rintro ⟨previous, _⟩ leads ⟨rest, rfl⟩
  exact ahead _ leads ⟨rest, rfl⟩

theorem previous {next further : Token → Parse β}
    (others : ∀ token, Meets close tail (fun cursor => before cursor ∧ cursor.previous = token) after
      (next token) (further token)) :
    Meets close tail before after (Parse.previous >>= next) (Parse.previous >>= further) :=
  fun cursor leads holds => others cursor.previous cursor leads ⟨holds, rfl⟩

theorem advance (token : Token) :
    Meets close tail (Cursor.Before token) (fun cursor => cursor.previous = token) Parse.advance
      Parse.advance := by
  rintro ⟨previous, _⟩ leads ⟨rest, rfl⟩
  have more : token.kind ≠ .endOfInput := leads.goes token List.mem_cons_self
  unfold Parse.advance
  rw [Cursor.closed, List.cons_append, advance_cons more, advance_cons more]
  exact .done token leads.behind rfl

variable (closes : close.kind = .endOfInput)

include closes

theorem atEnd_closed {cursor : Cursor} (leads : cursor.Leads tail) :
    (cursor.closed close).atEnd = cursor.atEnd := by
  obtain ⟨previous, rest⟩ := cursor
  cases rest with
  | nil => exact beq_iff_eq.mpr closes
  | cons token rest => rfl

theorem looksAt_closed {cursor : Cursor} (leads : cursor.Leads tail) (kind : Token.Kind) :
    (cursor.closed close).looksAt kind = cursor.looksAt kind := by
  obtain ⟨previous, rest⟩ := cursor
  unfold Cursor.looksAt
  rw [atEnd_closed closes leads]
  cases rest with
  | nil => rfl
  | cons token rest => rfl

theorem looksAt {next further : Bool → Parse β}
    (others : ∀ seen, Meets close tail (fun cursor => before cursor ∧ cursor.looksAt kind = seen)
      after (next seen) (further seen)) :
    Meets close tail before after (Parse.looksAt kind >>= next) (Parse.looksAt kind >>= further) := by
  intro cursor leads holds
  show (next _ cursor).Matches close tail after (further ((cursor.closed close).looksAt kind) _)
  rw [looksAt_closed closes leads]
  exact others _ cursor leads ⟨holds, rfl⟩

theorem atEnd {next further : Bool → Parse β}
    (others : ∀ ended, Meets close tail (fun cursor => before cursor ∧ cursor.atEnd = ended) after
      (next ended) (further ended)) :
    Meets close tail before after (Parse.atEnd >>= next) (Parse.atEnd >>= further) := by
  intro cursor leads holds
  show (next _ cursor).Matches close tail after (further (cursor.closed close).atEnd _)
  rw [atEnd_closed closes leads]
  exact others _ cursor leads ⟨holds, rfl⟩

omit closes in
theorem before_of_looksAt {cursor : Cursor} (seen : cursor.looksAt kind = true) :
    ∃ token, token.kind = kind ∧ cursor.Before token := by
  obtain ⟨previous, rest⟩ := cursor
  cases rest with
  | nil => cases seen
  | cons token rest =>
      have both := Bool.and_eq_true_iff.mp seen
      exact ⟨token, eq_of_beq both.2, rest, rfl⟩

theorem require (what : String) :
    Meets close tail (Cursor.Stands Token.Kind.isQuiet) (Cursor.Behind kind)
      (Parse.require kind what) (Parse.require kind what) := by
  intro cursor leads stands
  unfold Parse.require
  rw [looksAt_closed closes leads]
  cases seen : cursor.looksAt kind with
  | false => exact fails_at leads stands _
  | true =>
      obtain ⟨token, rfl, ahead⟩ := before_of_looksAt seen
      exact ((advance token).weaker fun _ same => congrArg Token.kind same) cursor leads ahead

theorem accept {next further : Bool → Parse β}
    (yes : Meets close tail (Cursor.Behind kind) after (next true) (further true))
    (no : Meets close tail before after (next false) (further false)) :
    Meets close tail before after (Parse.accept kind >>= next) (Parse.accept kind >>= further) := by
  intro cursor leads holds
  show (andThen (Parse.accept kind) next cursor).Matches close tail after
    (andThen (Parse.accept kind) further _)
  unfold andThen Parse.accept
  rw [looksAt_closed closes leads]
  cases seen : cursor.looksAt kind with
  | false => exact no cursor leads holds
  | true =>
      obtain ⟨token, rfl, rest, ahead⟩ := before_of_looksAt seen
      obtain ⟨previous, _⟩ := cursor
      obtain rfl := ahead
      have more : token.kind ≠ .endOfInput := leads.goes token List.mem_cons_self
      rw [if_pos rfl, if_pos rfl, Cursor.closed, List.cons_append, advance_cons more,
        advance_cons more]
      exact yes _ leads.behind rfl

/-! ## Readers of words -/

theorem optionalSemicolon (span : Span) :
    Meets close tail (Cursor.Stands Token.Kind.isQuiet) (Cursor.Stands Token.Kind.isQuiet)
      (Parse.optionalSemicolon span) (Parse.optionalSemicolon span) := by
  refine looksAt closes fun seen => ?_
  cases seen with
  | false => exact .pure fun _ holds => holds.1
  | true =>
      rintro cursor leads ⟨-, seen⟩
      obtain ⟨token, kind, ahead⟩ := before_of_looksAt seen
      have ran : Meets close tail (Cursor.Before token) (Cursor.Stands Token.Kind.isQuiet)
          (Parse.advance >>= fun token => Pure.pure (span.merge token.span))
          (Parse.advance >>= fun token => Pure.pure (span.merge token.span)) :=
        (advance token).bind fun _ => .pure fun cursor same =>
          Cursor.Behind.stands (congrArg Token.kind same) (by rw [kind]; rfl)
      exact ran cursor leads ahead

theorem name (what : String) :
    Meets close tail
      (Cursor.Stands fun kind => kind.isQuiet && decide (kind ≠ .identifier))
      (Cursor.Behind .identifier) (Parse.name what) (Parse.name what) := by
  refine peek (fun token more => ?_) fun stands => ?_
  · refine .ite (fun is => ?_) fun _ => ?_
    · refine ((advance token).stronger fun _ holds => holds.2).bind fun _ => .pure ?_
      exact fun cursor same => (congrArg Token.kind same).trans is
    · exact .ite (fun _ => (fail _).stronger fun _ holds => holds.2.stands)
        fun _ => (fail _).stronger fun _ holds => holds.2.stands
  · have both := Bool.and_eq_true_iff.mp (stands rfl)
    have other : close.kind ≠ .identifier := by
      rw [closes]
      decide
    rw [if_neg (of_decide_eq_true both.2), if_neg other]
    split <;> split <;> exact .behind both.1 rfl rfl

theorem parameters {first second : Nat} (le : second ≤ first) (done : List Name) :
    Meets close tail
      (Cursor.Stands fun kind => kind.isQuiet && decide (kind ≠ .identifier))
      (Cursor.Stands Token.Kind.isQuiet) (Parse.parameters first done)
      (Parse.parameters second done) := by
  induction second generalizing first done with
  | zero =>
      rw [Parse.parameters.eq_1 done]
      exact fun _ _ _ => .short _
  | succ second ih =>
      obtain ⟨first, rfl⟩ := Nat.exists_eq_add_of_le' (Nat.lt_of_lt_of_le (Nat.succ_pos second) le)
      rw [Parse.parameters, Parse.parameters]
      refine (name closes _).bind fun parameter => accept closes ?_ ?_
      · refine (ih (Nat.le_of_succ_le_succ le) _).stronger fun cursor behind => ?_
        exact behind.stands rfl
      · exact .pure fun cursor behind => behind.stands rfl

omit closes in
theorem integer {token : Token} (is : token.kind = .integer) :
    Meets close tail (Cursor.Before token) (Cursor.Stands Token.Kind.isRest) Parse.integer
      Parse.integer := by
  refine peek_before ?_
  cases Number.readInteger? token.lexeme.toList with
  | none => exact (fail _).stronger fun _ before => before.stands
  | some value =>
      refine (advance token).bind fun _ => .pure fun cursor same => ?_
      exact Cursor.Behind.stands ((congrArg Token.kind same).trans is) rfl

omit closes in
theorem float {token : Token} (is : token.kind = .float) :
    Meets close tail (Cursor.Before token) (Cursor.Stands Token.Kind.isRest) Parse.float
      Parse.float := by
  refine peek_before ?_
  cases Number.readFloat? token.lexeme.toList with
  | none => exact (fail _).stronger fun _ before => before.stands
  | some value =>
      refine (advance token).bind fun _ => .pure fun cursor same => ?_
      exact Cursor.Behind.stands ((congrArg Token.kind same).trans is) rfl

end Meets

/-! ## Behind a sign -/

/-- Where a sign is the last token, an operand is asked for without end. -/
theorem operand_endless (sign : tail.kind = .minus ∨ tail.kind = .bang) (fuel : Nat) :
    operand fuel ⟨tail, []⟩ = .endless := by
  induction fuel using Nat.strongRecOn with
  | ind fuel ih =>
      have again {fuel : Nat} (less : expression fuel .unary ⟨tail, []⟩ = .endless) :
          operand (fuel + 1) ⟨tail, []⟩ = .endless := by
        have stays : Cursor.advance ⟨tail, []⟩ = ⟨tail, []⟩ := rfl
        rcases sign with is | is <;>
          simp only [operand, bind, andThen, Parse.peek, Cursor.peek, is, Parse.advance, stays, less]
      cases fuel with
      | zero =>
          rw [operand]
          rfl
      | succ fuel =>
          refine again ?_
          rw [expression.eq_def]
          cases fuel with
          | zero => rfl
          | succ fuel => simp only [bind, andThen, ih fuel (by omega)]

theorem expression_endless (sign : tail.kind = .minus ∨ tail.kind = .bang) (fuel : Nat)
    (floor : Precedence) : expression fuel floor ⟨tail, []⟩ = .endless := by
  cases fuel with
  | zero =>
      rw [expression]
      rfl
  | succ fuel =>
      rw [expression]
      simp only [bind, andThen, operand_endless sign fuel]

/-- Behind the last token there is no operand. -/
theorem operand_behind {fuel : Nat} (awaits : tail.kind.awaitsOperand = true)
    (quiet : tail.kind.isQuiet = true) :
    ∃ fault, operand (fuel + 2) ⟨tail, []⟩ = .failed ⟨fault, tail⟩ ⟨tail, []⟩ := by
  cases kind : tail.kind <;> rw [kind] at awaits quiet <;>
    first | exact absurd awaits (by decide) | exact absurd quiet (by decide) | skip
  all_goals
    simp only [operand, conditional, whileLoop, forLoop, functionLiteral, bind, andThen, Parse.peek,
      Cursor.peek, kind]
    exact ⟨_, rfl⟩

/-! ## All readers -/

/-- Each reader with the first amount of fuel and no end comes to the same as with the second amount
and an end. -/
structure Paired (close tail : Token) (first second : Nat) : Prop where
  expression : ∀ floor, Meets close tail (Cursor.Stands Token.Kind.awaitsOperand)
    (Cursor.Stands Token.Kind.isRest) (Parse.expression first floor) (Parse.expression second floor)
  extensions : ∀ floor left, Meets close tail (Cursor.Stands Token.Kind.isRest)
    (Cursor.Stands Token.Kind.isRest) (Parse.extensions first floor left)
    (Parse.extensions second floor left)
  extension : ∀ left token, Meets close tail (Cursor.Before token)
    (Cursor.Stands Token.Kind.isRest) (Parse.extension first left) (Parse.extension second left)
  expressions : ∀ kind, Meets close tail (Cursor.Stands Token.Kind.awaitsOperand)
    (Cursor.Stands Token.Kind.isRest) (Parse.expressions first kind) (Parse.expressions second kind)
  moreExpressions : ∀ done, Meets close tail (Cursor.Stands Token.Kind.awaitsOperand)
    (Cursor.Stands Token.Kind.isRest) (Parse.moreExpressions first done)
    (Parse.moreExpressions second done)
  operand : Meets close tail (Cursor.Stands Token.Kind.awaitsOperand)
    (Cursor.Stands Token.Kind.isRest) (Parse.operand first) (Parse.operand second)
  nameOrAssignment : ∀ token, token.kind = .identifier → Meets close tail (Cursor.Before token)
    (Cursor.Stands Token.Kind.isRest) (Parse.nameOrAssignment first) (Parse.nameOrAssignment second)
  conditional : Meets close tail (Cursor.Stands Token.Kind.isQuiet)
    (Cursor.Behind .rightBrace) (Parse.conditional first) (Parse.conditional second)
  whileLoop : Meets close tail (Cursor.Stands Token.Kind.isQuiet)
    (Cursor.Behind .rightBrace) (Parse.whileLoop first) (Parse.whileLoop second)
  forLoop : Meets close tail (Cursor.Stands Token.Kind.isQuiet)
    (Cursor.Behind .rightBrace) (Parse.forLoop first) (Parse.forLoop second)
  functionLiteral : Meets close tail (Cursor.Stands Token.Kind.isQuiet)
    (Cursor.Behind .rightBrace) (Parse.functionLiteral first) (Parse.functionLiteral second)
  block : Meets close tail (Cursor.Stands Token.Kind.isQuiet)
    (Cursor.Behind .rightBrace) (Parse.block first) (Parse.block second)
  blockStatements : ∀ done, Meets close tail (Cursor.Stands Token.Kind.isQuiet)
    (Cursor.Stands Token.Kind.isQuiet) (Parse.blockStatements first done)
    (Parse.blockStatements second done)
  binding : Meets close tail (Cursor.Stands Token.Kind.isQuiet)
    (Cursor.Stands Token.Kind.isQuiet) (Parse.binding first) (Parse.binding second)
  statement : Meets close tail (fun cursor => cursor.rest ≠ [])
    (Cursor.Stands Token.Kind.isQuiet) (Parse.statement first) (Parse.statement second)

theorem Meets.isQuiet_of_isRest {cursor : Cursor} (stands : cursor.Stands Token.Kind.isRest) :
    cursor.Stands Token.Kind.isQuiet := by
  intro none
  exact (Bool.and_eq_true_iff.mp (stands none)).2

namespace Paired

variable {first second : Nat} (paired : Paired close tail first second)

include paired

theorem expression_succ (floor : Precedence) :
    Meets close tail (Cursor.Stands Token.Kind.awaitsOperand) (Cursor.Stands Token.Kind.isRest)
      (Parse.expression (first + 1) floor) (Parse.expression (second + 1) floor) := by
  rw [Parse.expression, Parse.expression]
  exact paired.operand.bind fun left => paired.extensions floor left

variable (closes : close.kind = .endOfInput)

include closes

theorem extensions_succ (floor : Precedence) (left : Expression) :
    Meets close tail (Cursor.Stands Token.Kind.isRest) (Cursor.Stands Token.Kind.isRest)
      (Parse.extensions (first + 1) floor left) (Parse.extensions (second + 1) floor left) := by
  rw [Parse.extensions, Parse.extensions]
  refine Meets.peek (fun token more => ?_) fun stands => ?_
  · refine .ite (fun _ => ?_) fun _ => .pure fun _ holds => holds.1
    refine ((paired.extension left token).stronger fun _ holds => holds.2).bind fun larger => ?_
    exact paired.extensions floor larger
  · have rest := stands rfl
    simp only [Token.Kind.isRest, Bool.and_eq_true, decide_eq_true_eq] at rest
    have lowest : ¬floor.rank < tail.kind.precedence.rank := by
      rw [rest.1.1]
      exact Nat.not_lt_zero _
    have ended : ¬floor.rank < close.kind.precedence.rank := by
      rw [closes]
      exact Nat.not_lt_zero _
    rw [if_neg lowest, if_neg ended]
    exact .done left ⟨List.forall_mem_nil _, rfl⟩ stands

theorem extension_succ (left : Expression) (token : Token) :
    Meets close tail (Cursor.Before token) (Cursor.Stands Token.Kind.isRest)
      (Parse.extension (first + 1) left) (Parse.extension (second + 1) left) := by
  rw [Parse.extension, Parse.extension]
  refine Meets.peek_before ?_
  cases operates : BinaryOperator.ofKind? token.kind with
  | some operator =>
      have awaits : token.kind.awaitsOperand = true := by
        cases kind : token.kind <;> rw [kind] at operates <;> first | rfl | cases operates
      refine (Meets.advance token).bind fun _ => ((paired.expression _).stronger ?_).bind fun _ =>
        .pure fun _ holds => holds
      exact fun cursor same => Cursor.Behind.stands (congrArg Token.kind same) awaits
  | none =>
      refine .ite (fun _ => ?_) fun _ => .ite (fun _ => ?_) fun _ => .pure fun _ before => before.stands
      · refine ((Meets.require closes _).stronger fun _ before => before.stands).bind fun _ => ?_
        refine ((paired.expressions _).stronger fun _ behind => behind.stands rfl).bind fun _ => ?_
        refine ((Meets.require closes _).stronger fun _ => Meets.isQuiet_of_isRest).bind fun _ => ?_
        exact .pure fun _ behind => behind.stands rfl
      · refine ((Meets.require closes _).stronger fun _ before => before.stands).bind fun _ => ?_
        refine ((paired.expression _).stronger fun _ behind => behind.stands rfl).bind fun _ => ?_
        refine ((Meets.require closes _).stronger fun _ => Meets.isQuiet_of_isRest).bind fun _ => ?_
        exact .pure fun _ behind => behind.stands rfl

theorem expressions_succ (kind : Token.Kind) :
    Meets close tail (Cursor.Stands Token.Kind.awaitsOperand) (Cursor.Stands Token.Kind.isRest)
      (Parse.expressions (first + 1) kind) (Parse.expressions (second + 1) kind) := by
  rw [Parse.expressions, Parse.expressions]
  refine Meets.looksAt closes fun seen => ?_
  cases seen with
  | false => exact (paired.moreExpressions []).stronger fun _ holds => holds.1
  | true =>
      refine .pure fun cursor holds => ?_
      obtain ⟨token, -, before⟩ := Meets.before_of_looksAt holds.2
      exact before.stands

theorem moreExpressions_succ (done : List Expression) :
    Meets close tail (Cursor.Stands Token.Kind.awaitsOperand) (Cursor.Stands Token.Kind.isRest)
      (Parse.moreExpressions (first + 1) done) (Parse.moreExpressions (second + 1) done) := by
  rw [Parse.moreExpressions, Parse.moreExpressions]
  refine (paired.expression _).bind fun item => Meets.accept closes ?_ ?_
  · exact (paired.moreExpressions _).stronger fun _ behind => behind.stands rfl
  · exact .pure fun _ holds => holds

theorem nameOrAssignment_succ (token : Token) (is : token.kind = .identifier) :
    Meets close tail (Cursor.Before token) (Cursor.Stands Token.Kind.isRest)
      (Parse.nameOrAssignment (first + 1)) (Parse.nameOrAssignment (second + 1)) := by
  rw [Parse.nameOrAssignment, Parse.nameOrAssignment]
  refine (Meets.advance token).bind fun word => Meets.peek (fun next more => ?_) fun same => ?_
  · cases assigns : assignment? next.kind with
    | none => exact .pure fun _ holds => holds.2.stands
    | some operator =>
        have awaits : next.kind.awaitsOperand = true := by
          cases kind : next.kind <;> rw [kind] at assigns <;> first | rfl | cases assigns
        refine ((Meets.advance next).stronger fun _ holds => holds.2).bind fun _ => ?_
        refine ((paired.expression _).stronger fun cursor same => ?_).bind fun _ =>
          .pure fun _ holds => holds
        exact Cursor.Behind.stands (congrArg Token.kind same) awaits
  · obtain rfl : tail = token := same
    rw [is, closes]
    refine .done _ ⟨List.forall_mem_nil _, rfl⟩ fun _ => ?_
    rw [is]
    rfl

theorem conditional_succ :
    Meets close tail (Cursor.Stands Token.Kind.isQuiet) (Cursor.Behind .rightBrace)
      (Parse.conditional (first + 1)) (Parse.conditional (second + 1)) := by
  rw [Parse.conditional, Parse.conditional]
  refine (Meets.require closes _).bind fun word => ?_
  refine ((Meets.require closes _).stronger fun _ behind => behind.stands rfl).bind fun _ => ?_
  refine ((paired.expression _).stronger fun _ behind => behind.stands rfl).bind fun condition => ?_
  refine ((Meets.require closes _).stronger fun _ => Meets.isQuiet_of_isRest).bind fun _ => ?_
  refine (paired.block.stronger fun _ behind => behind.stands rfl).bind fun consequence => ?_
  refine Meets.accept closes ?_ (.pure fun _ behind => behind)
  refine Meets.looksAt closes fun again => .ite (fun _ => ?_) fun _ => ?_
  · refine (paired.conditional.stronger fun _ holds => holds.1.stands rfl).bind fun _ => ?_
    exact .pure fun _ behind => behind
  · refine (paired.block.stronger fun _ holds => holds.1.stands rfl).bind fun _ => ?_
    exact .pure fun _ behind => behind

theorem whileLoop_succ :
    Meets close tail (Cursor.Stands Token.Kind.isQuiet) (Cursor.Behind .rightBrace)
      (Parse.whileLoop (first + 1)) (Parse.whileLoop (second + 1)) := by
  rw [Parse.whileLoop, Parse.whileLoop]
  refine (Meets.require closes _).bind fun word => ?_
  refine ((Meets.require closes _).stronger fun _ behind => behind.stands rfl).bind fun _ => ?_
  refine ((paired.expression _).stronger fun _ behind => behind.stands rfl).bind fun condition => ?_
  refine ((Meets.require closes _).stronger fun _ => Meets.isQuiet_of_isRest).bind fun _ => ?_
  refine (paired.block.stronger fun _ behind => behind.stands rfl).bind fun body => ?_
  exact .pure fun _ behind => behind

theorem forLoop_succ :
    Meets close tail (Cursor.Stands Token.Kind.isQuiet) (Cursor.Behind .rightBrace)
      (Parse.forLoop (first + 1)) (Parse.forLoop (second + 1)) := by
  rw [Parse.forLoop, Parse.forLoop]
  refine (Meets.require closes _).bind fun word => ?_
  refine ((Meets.require closes _).stronger fun _ behind => behind.stands rfl).bind fun _ => ?_
  refine Meets.looksAt closes fun seen => .ite (fun _ => ?_) fun _ => ?_
  · exact (Meets.fail _).stronger fun _ holds => holds.1.stands rfl
  · refine (paired.binding.stronger fun _ holds => holds.1.stands rfl).bind fun start => ?_
    refine Meets.previous fun last => .ite (fun _ => ?_) fun is => ?_
    · exact (Meets.fail _).stronger fun _ holds => holds.1
    · have ended : last.kind = .semicolon := Decidable.not_not.mp is
      refine ((paired.expression _).stronger fun cursor holds => ?_).bind fun condition => ?_
      · exact Cursor.Behind.stands ((congrArg Token.kind holds.2).trans ended) rfl
      refine ((Meets.require closes _).stronger fun _ => Meets.isQuiet_of_isRest).bind fun _ => ?_
      refine ((paired.expression _).stronger fun _ behind => behind.stands rfl).bind fun post => ?_
      refine ((Meets.require closes _).stronger fun _ => Meets.isQuiet_of_isRest).bind fun _ => ?_
      refine (paired.block.stronger fun _ behind => behind.stands rfl).bind fun body => ?_
      exact .pure fun _ behind => behind

theorem functionLiteral_succ (le : second ≤ first) :
    Meets close tail (Cursor.Stands Token.Kind.isQuiet) (Cursor.Behind .rightBrace)
      (Parse.functionLiteral (first + 1)) (Parse.functionLiteral (second + 1)) := by
  rw [Parse.functionLiteral, Parse.functionLiteral]
  refine (Meets.require closes _).bind fun word => ?_
  refine ((Meets.require closes _).stronger fun _ behind => behind.stands rfl).bind fun _ => ?_
  have rest (names : List Name) : Meets close tail (Cursor.Stands Token.Kind.isQuiet)
      (Cursor.Behind .rightBrace)
      (Parse.require .rightParen "')' after parameters" >>= fun _ =>
        Parse.block first >>= fun body =>
          Pure.pure (Expression.function names body (word.span.merge body.span)))
      (Parse.require .rightParen "')' after parameters" >>= fun _ =>
        Parse.block second >>= fun body =>
          Pure.pure (Expression.function names body (word.span.merge body.span))) := by
    refine (Meets.require closes _).bind fun _ => ?_
    refine (paired.block.stronger fun _ behind => behind.stands rfl).bind fun body => ?_
    exact .pure fun _ behind => behind
  refine Meets.looksAt closes fun none => .ite (fun _ => ?_) fun _ => ?_
  · exact (rest []).stronger fun _ holds => holds.1.stands rfl
  · refine ((Meets.parameters closes le []).stronger fun _ holds => ?_).bind rest
    exact holds.1.stands rfl

theorem block_succ :
    Meets close tail (Cursor.Stands Token.Kind.isQuiet) (Cursor.Behind .rightBrace)
      (Parse.block (first + 1)) (Parse.block (second + 1)) := by
  rw [Parse.block, Parse.block]
  refine (Meets.require closes _).bind fun opening => ?_
  refine ((paired.blockStatements []).stronger fun _ behind => behind.stands rfl).bind fun _ => ?_
  exact (Meets.require closes _).bind fun _ => .pure fun _ behind => behind

theorem blockStatements_succ (done : List Statement) :
    Meets close tail (Cursor.Stands Token.Kind.isQuiet) (Cursor.Stands Token.Kind.isQuiet)
      (Parse.blockStatements (first + 1) done) (Parse.blockStatements (second + 1) done) := by
  rw [Parse.blockStatements, Parse.blockStatements]
  refine Meets.looksAt closes fun closed => Meets.atEnd closes fun ended => .ite (fun _ => ?_)
    fun on => ?_
  · exact .pure fun _ holds => holds.1.1
  · refine (paired.statement.stronger fun cursor holds none => on ?_).bind fun next =>
      paired.blockStatements _
    have ends : cursor.atEnd = true := by rw [Cursor.atEnd, none]
    rw [← holds.2, ends, Bool.or_true]

theorem binding_succ :
    Meets close tail (Cursor.Stands Token.Kind.isQuiet) (Cursor.Stands Token.Kind.isQuiet)
      (Parse.binding (first + 1)) (Parse.binding (second + 1)) := by
  rw [Parse.binding, Parse.binding]
  refine (Meets.require closes _).bind fun word => ?_
  refine ((Meets.name closes _).stronger fun _ behind => behind.stands rfl).bind fun name => ?_
  refine ((Meets.require closes _).stronger fun _ behind => behind.stands rfl).bind fun _ => ?_
  refine ((paired.expression _).stronger fun _ behind => behind.stands rfl).bind fun value => ?_
  refine ((Meets.optionalSemicolon closes _).stronger fun _ => Meets.isQuiet_of_isRest).bind fun _ => ?_
  exact .pure fun _ stands => stands

theorem statement_succ :
    Meets close tail (fun cursor => cursor.rest ≠ []) (Cursor.Stands Token.Kind.isQuiet)
      (Parse.statement (first + 1)) (Parse.statement (second + 1)) := by
  have plain : Meets close tail (fun cursor => cursor.rest ≠ []) (Cursor.Stands Token.Kind.isQuiet)
      (Parse.expression first .lowest >>= fun value => Parse.peek >>= fun next =>
        if (assignment? next.kind).isSome then Parse.fail .badAssignmentTarget
        else Parse.optionalSemicolon value.span >>= fun span =>
          Pure.pure (Statement.expression value span))
      (Parse.expression second .lowest >>= fun value => Parse.peek >>= fun next =>
        if (assignment? next.kind).isSome then Parse.fail .badAssignmentTarget
        else Parse.optionalSemicolon value.span >>= fun span =>
          Pure.pure (Statement.expression value span)) := by
    refine ((paired.expression _).stronger fun _ more none => absurd none more).bind fun value => ?_
    refine Meets.peek (fun next more => .ite (fun _ => ?_) fun _ => ?_) fun stands => ?_
    · exact (Meets.fail _).stronger fun _ holds => holds.2.stands
    · refine ((Meets.optionalSemicolon closes _).stronger fun _ holds => holds.2.stands).bind
        fun span => ?_
      exact .pure fun _ stands => stands
    · have rest := stands rfl
      simp only [Token.Kind.isRest, Bool.and_eq_true, decide_eq_true_eq] at rest
      have ended : (assignment? close.kind).isSome = false := by
        rw [closes]
        rfl
      have none : (assignment? tail.kind).isSome = false := by
        rw [← Option.not_isNone, rest.1.2]
        rfl
      rw [none, ended]
      have ran : Meets close tail (Cursor.Stands Token.Kind.isQuiet)
          (Cursor.Stands Token.Kind.isQuiet)
          (Parse.optionalSemicolon value.span >>= fun span =>
            Pure.pure (Statement.expression value span))
          (Parse.optionalSemicolon value.span >>= fun span =>
            Pure.pure (Statement.expression value span)) :=
        (Meets.optionalSemicolon closes _).bind fun span => .pure fun _ holds => holds
      exact ran _ ⟨List.forall_mem_nil _, rfl⟩ (Meets.isQuiet_of_isRest stands)
  rw [Parse.statement, Parse.statement]
  refine Meets.peek (fun token more => ?_) fun more => absurd rfl more
  cases token.kind with
  | varWord =>
      refine (paired.binding.stronger fun _ holds => holds.2.stands).bind fun _ => ?_
      exact .pure fun _ stands => stands
  | returnWord =>
      refine ((Meets.require closes _).stronger fun _ holds => holds.2.stands).bind fun word => ?_
      refine Meets.looksAt closes fun semicolon => Meets.looksAt closes fun brace =>
        Meets.atEnd closes fun ended => .ite (fun _ => ?_) fun on => ?_
      · refine ((Meets.optionalSemicolon closes _).stronger fun _ holds => ?_).bind fun span => ?_
        · exact holds.1.1.1.stands rfl
        · exact .pure fun _ stands => stands
      · refine ((paired.expression _).stronger fun _ holds => ?_).bind fun value => ?_
        · exact holds.1.1.1.stands rfl
        refine ((Meets.optionalSemicolon closes _).stronger fun _ => Meets.isQuiet_of_isRest).bind
          fun span => ?_
        exact .pure fun _ stands => stands
  | _ => exact plain.stronger fun _ holds => holds.1

/-- In front of a token an operand is read. -/
theorem operand_before (token : Token) :
    Meets close tail (Cursor.Before token) (Cursor.Stands Token.Kind.isRest)
      (Parse.operand (first + 1)) (Parse.operand (second + 1)) := by
  have taken {kind : Token.Kind} (is : token.kind = kind) (rests : kind.isRest = true)
      (value : Token → Expression) :
      Meets close tail (Cursor.Before token) (Cursor.Stands Token.Kind.isRest)
        (Parse.advance >>= fun token => Pure.pure (value token))
        (Parse.advance >>= fun token => Pure.pure (value token)) :=
    (Meets.advance token).bind fun _ => .pure fun cursor same =>
      Cursor.Behind.stands ((congrArg Token.kind same).trans is) rests
  have signed (sign : token.kind.awaitsOperand = true) :
      Meets close tail (Cursor.Before token) (Cursor.Stands Token.Kind.isRest)
        (Parse.advance >>= fun sign => Parse.expression first .unary >>= fun inner =>
          Pure.pure (Expression.unary (if sign.kind = .minus then UnaryOperator.negate else .not) inner
            (sign.span.merge inner.span)))
        (Parse.advance >>= fun sign => Parse.expression second .unary >>= fun inner =>
          Pure.pure (Expression.unary (if sign.kind = .minus then UnaryOperator.negate else .not) inner
            (sign.span.merge inner.span))) := by
    refine (Meets.advance token).bind fun _ => ((paired.expression _).stronger ?_).bind fun _ =>
      .pure fun _ holds => holds
    exact fun cursor same => Cursor.Behind.stands (congrArg Token.kind same) sign
  have worded {first second : Parse Expression}
      (meets : Meets close tail (Cursor.Stands Token.Kind.isQuiet) (Cursor.Behind .rightBrace) first
        second) :
      Meets close tail (Cursor.Before token) (Cursor.Stands Token.Kind.isRest) first second :=
    (meets.stronger fun _ before => before.stands).weaker fun _ behind => behind.stands rfl
  rw [Parse.operand, Parse.operand]
  refine Meets.peek_before ?_
  cases is : token.kind with
  | integer => exact Meets.integer is
  | float => exact Meets.float is
  | string => exact taken is rfl _
  | trueWord => exact taken is rfl _
  | falseWord => exact taken is rfl _
  | identifier => exact paired.nameOrAssignment token is
  | leftParen =>
      refine ((Meets.require closes _).stronger fun _ before => before.stands).bind fun _ => ?_
      refine ((paired.expression _).stronger fun _ behind => behind.stands rfl).bind fun _ => ?_
      refine ((Meets.require closes _).stronger fun _ => Meets.isQuiet_of_isRest).bind fun _ => ?_
      exact .pure fun _ behind => behind.stands rfl
  | leftBracket =>
      refine ((Meets.require closes _).stronger fun _ before => before.stands).bind fun _ => ?_
      refine ((paired.expressions _).stronger fun _ behind => behind.stands rfl).bind fun _ => ?_
      refine ((Meets.require closes _).stronger fun _ => Meets.isQuiet_of_isRest).bind fun _ => ?_
      exact .pure fun _ behind => behind.stands rfl
  | minus => exact signed (by rw [is]; rfl)
  | bang => exact signed (by rw [is]; rfl)
  | ifWord => exact worded paired.conditional
  | whileWord => exact worded paired.whileLoop
  | forWord => exact worded paired.forLoop
  | funcWord => exact worded paired.functionLiteral
  | _ => exact (Meets.fail _).stronger fun _ before => before.stands

theorem operand_succ (some : 0 < first) :
    Meets close tail (Cursor.Stands Token.Kind.awaitsOperand) (Cursor.Stands Token.Kind.isRest)
      (Parse.operand (first + 1)) (Parse.operand (second + 1)) := by
  intro cursor leads stands
  match left : cursor.rest with
  | token :: rest => exact paired.operand_before closes token cursor leads ⟨rest, left⟩
  | [] =>
      obtain rfl := leads.eq_of_rest_eq_nil left
      have ended : Parse.operand (second + 1) (Cursor.closed close ⟨tail, []⟩) =
          .failed ⟨.expectedBut "expression" .endOfInput, close⟩ ⟨tail, [close]⟩ := by
        simp only [Parse.operand, bind, andThen, Parse.peek, Cursor.peek, Cursor.closed,
          List.nil_append, closes]
        rfl
      rw [ended]
      cases quiet : tail.kind.isQuiet with
      | true =>
          obtain ⟨fuel, rfl⟩ := Nat.exists_eq_add_of_le' some
          obtain ⟨fault, failed⟩ := operand_behind (stands rfl) quiet
          rw [failed]
          exact .behind quiet rfl rfl
      | false =>
          have sign : tail.kind = .minus ∨ tail.kind = .bang := by
            have awaits := stands rfl
            cases kind : tail.kind <;> simp_all [Token.Kind.isQuiet, Token.Kind.awaitsOperand]
          rw [operand_endless sign]
          exact .loops sign rfl

end Paired

/-- Without an end behind the tokens a reader comes to the same as with one, if it has more fuel. -/
theorem paired (closes : close.kind = .endOfInput) (tail : Token) {first second : Nat}
    (less : second < first) : Paired close tail first second := by
  induction second generalizing first with
  | zero =>
      constructor
      all_goals
        intros
        exact fun _ _ _ => .short _
  | succ second ih =>
      obtain ⟨first, rfl⟩ := Nat.exists_eq_add_of_le' (Nat.lt_of_le_of_lt (Nat.zero_le _) less)
      have fewer : second < first := Nat.lt_of_succ_lt_succ less
      have paired := ih fewer
      exact {
        expression := paired.expression_succ
        extensions := paired.extensions_succ closes
        extension := paired.extension_succ closes
        expressions := paired.expressions_succ closes
        moreExpressions := paired.moreExpressions_succ closes
        operand := paired.operand_succ closes (Nat.lt_of_le_of_lt (Nat.zero_le _) fewer)
        nameOrAssignment := paired.nameOrAssignment_succ closes
        conditional := paired.conditional_succ closes
        whileLoop := paired.whileLoop_succ closes
        forLoop := paired.forLoop_succ closes
        functionLiteral := paired.functionLiteral_succ closes (Nat.le_of_lt fewer)
        block := paired.block_succ closes
        blockStatements := paired.blockStatements_succ closes
        binding := paired.binding_succ closes
        statement := paired.statement_succ closes }

end Parse

end MonkeyLang
