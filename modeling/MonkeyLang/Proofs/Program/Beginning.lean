import MonkeyLang.Proofs.Program.Spelling
import MonkeyLang.Proofs.Program.Taking

/-!
# How expressions are read back

The reader of an expression takes its tokens and then looks for extensions; how it does so is
the same for every expression (`Parse.Begins`). A token behind that does not bind more tightly
than the floor ends the search (`Parse.Begins.takes`), and one that does takes the expression
as its left operand (`Parse.Begins.extend`).

Expressions, bindings, blocks and statements are read back from their words with four times as
much fuel as there are tokens (`Expression.Rereads` and its companions). An expression that is
read back is read back between parentheses as well (`Expression.Rereads.grouped`).
-/

set_option autoImplicit false

namespace MonkeyLang

namespace Parse

variable {α : Type} {floor : Precedence} {tokens left right others : List Token} {token next : Token}
  {fuel : Nat} {good fine : Expression → Prop}

/-! ## Expressions and what extends them -/

/-- The reader of expressions takes these tokens as one that may be extended. No more fuel is used
up than there are tokens. -/
def Begins (floor : Precedence) (tokens others : List Token) (good : Expression → Prop) : Prop :=
  ∀ (fuel : Nat) (previous : Token), 4 * tokens.length ≤ fuel → ∃ (remaining : Nat) (value : Expression),
    fuel ≤ remaining + tokens.length ∧
    expression fuel floor ⟨previous, tokens ++ others⟩ =
      extensions remaining floor value ⟨tokens.getLastD previous, others⟩ ∧
    good value

namespace Begins

theorem of_operand
    (takes : ∀ fuel, 4 * (token :: tokens).length ≤ fuel + 3 →
      (operand (fuel + 2)).Takes (token :: tokens) others good) :
    Begins floor (token :: tokens) others good := by
  intro fuel previous enough
  obtain ⟨less, rfl⟩ : ∃ less, fuel = less + 3 := Nat.exists_eq_add_of_le' (by
    simp only [List.length_cons] at enough
    omega)
  obtain ⟨value, ran, holds⟩ := takes less enough previous
  refine ⟨less + 2, value, by simp only [List.length_cons]; omega, ?_, holds⟩
  rw [expression, bind_of_done ran]

theorem weaken (begins : Begins floor tokens others good)
    (implies : ∀ value, good value → fine value) : Begins floor tokens others fine := by
  intro fuel previous enough
  obtain ⟨remaining, value, used, ran, holds⟩ := begins fuel previous enough
  exact ⟨remaining, value, used, ran, implies value holds⟩

/-- The token behind does not bind more tightly than the floor. -/
theorem takes (begins : Begins floor (token :: tokens) (next :: others) good)
    (stops : next.kind.precedence.rank ≤ floor.rank) (enough : 4 * (token :: tokens).length ≤ fuel) :
    (expression fuel floor).Takes (token :: tokens) (next :: others) good := by
  intro previous
  obtain ⟨remaining, value, used, ran, holds⟩ := begins fuel previous enough
  refine ⟨value, ran.trans ?_, holds⟩
  cases remaining with
  | zero => simp only [List.length_cons] at used enough; omega
  | succ remaining =>
    rw [extensions]
    show (if floor.rank < next.kind.precedence.rank then _ else _ : Parse Expression) _ = _
    rw [if_neg (by omega)]
    rfl

/-- The token behind binds more tightly than the floor, and an extension begins with it. -/
theorem extend (begins : Begins floor left (next :: right ++ others) good)
    (binds : floor.rank < next.kind.precedence.rank)
    (takes : ∀ fuel value, good value → 4 * right.length ≤ fuel + 1 →
      (extension (fuel + 2) value).Takes (next :: right) others fine) :
    Begins floor (left ++ next :: right) others fine := by
  intro fuel previous enough
  simp only [List.length_append, List.length_cons] at enough
  obtain ⟨remaining, value, used, ran, holds⟩ := begins fuel previous (by omega)
  obtain ⟨less, rfl⟩ : ∃ less, remaining = less + 3 := Nat.exists_eq_add_of_le' (by omega)
  obtain ⟨larger, extended, well⟩ := takes less value holds (by omega) (left.getLastD previous)
  refine ⟨less + 2, larger, by simp only [List.length_append, List.length_cons]; omega, ?_, well⟩
  rw [List.append_assoc, ran, extensions]
  show (if floor.rank < next.kind.precedence.rank then _ else _ : Parse Expression) _ = _
  rw [if_pos binds, bind_of_done extended, getLastD_append]

end Begins

end Parse

/-! ## What is read back -/

/-- The words of an expression are read as that expression, except for spans. -/
def Expression.Rereads (expression : Expression) : Prop :=
  ∀ ⦃floor : Precedence⦄ ⦃tokens : List Token⦄ ⦃next : Token⦄ ⦃others : List Token⦄,
    Spells tokens expression.words → floor.rank < expression.entry →
    next.kind.Closes expression.strength →
    Parse.Begins floor tokens (next :: others) (·.withoutSpans = expression.withoutSpans)

/-- The words of a binding are read as that binding, except for spans. -/
def Binding.Rereads (binding : Binding) : Prop :=
  ∀ ⦃fuel : Nat⦄ ⦃tokens others : List Token⦄, Spells tokens binding.words →
    4 * tokens.length ≤ fuel + 1 →
    (Parse.binding fuel).Takes tokens others (·.withoutSpans = binding.withoutSpans)

/-- The words of a block are read as that block, except for spans. -/
def Block.Rereads (block : Block) : Prop :=
  ∀ ⦃fuel : Nat⦄ ⦃tokens others : List Token⦄, Spells tokens block.words →
    4 * tokens.length ≤ fuel + 1 →
    (Parse.block fuel).Takes tokens others (·.withoutSpans = block.withoutSpans)

/-- The words of a statement are read as that statement, except for spans. -/
def Statement.Rereads (statement : Statement) : Prop :=
  ∀ ⦃fuel : Nat⦄ ⦃tokens others : List Token⦄, Spells tokens statement.words →
    4 * tokens.length ≤ fuel →
    (Parse.statement fuel).Takes tokens others (·.withoutSpans = statement.withoutSpans)

/-! ## Operands in their places -/

namespace Expression.Rereads

open Parse

variable {expression : Expression} {floor : Precedence} {tokens others : List Token} {next : Token}
  {fuel asked : Nat}

/-- Where nothing is in front, an expression is read up to a token that closes all of them. -/
theorem whole (rereads : expression.Rereads) (spelled : Spells tokens expression.words)
    (closes : next.kind.Closes 0) (enough : 4 * tokens.length ≤ fuel) :
    (Parse.expression fuel .lowest).Takes tokens (next :: others)
      (·.withoutSpans = expression.withoutSpans) := by
  obtain ⟨token, more, rfl, -⟩ := expression.opens.tokens spelled
  exact (rereads spelled expression.lowest_lt_entry closes.of_lowest).takes closes.1 enough

/-- An expression between parentheses. -/
theorem parenthesized (rereads : expression.Rereads)
    (spelled : Spells tokens
      (.fixed .leftParen :: (expression.words ++ [.fixed .rightParen]))) :
    Begins floor tokens others (·.withoutSpans = expression.withoutSpans) := by
  obtain ⟨opening, _, rfl, opens, spelled⟩ := spelled.fixed
  obtain ⟨inside, _, rfl, spelled_inside, spelled⟩ := spelled.append
  obtain ⟨close, rfl, closed⟩ := spelled.singleton_fixed
  refine .of_operand fun fuel enough => ?_
  simp only [List.length_cons, List.length_append, List.length_nil] at enough
  rw [operand]
  refine Takes.peek rfl ?_
  simp only [opens]
  refine Takes.bind_cons (takes_require opens (by decide) _) ?_
  refine Takes.bind (rereads.whole spelled_inside (by rw [closed]; decide) (by omega)) ?_
  intro value same
  refine Takes.bind_cons (takes_require closed (by decide) _) ?_
  exact Takes.pure same

/-- An expression with parentheses where they are needed. -/
theorem grouped (rereads : expression.Rereads)
    (spelled : Spells tokens (MonkeyLang.grouped asked expression.strength expression.words))
    (enters : asked ≤ expression.strength → floor.rank < expression.entry)
    (closes : next.kind.Closes asked) :
    Begins floor tokens (next :: others) (·.withoutSpans = expression.withoutSpans) := by
  rw [MonkeyLang.grouped] at spelled
  split at spelled
  case isFalse tight =>
    exact rereads spelled (enters (by omega)) (closes.weaken (by omega))
  case isTrue loose => exact rereads.parenthesized spelled

end Expression.Rereads

end MonkeyLang
