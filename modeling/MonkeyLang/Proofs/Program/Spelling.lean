import Mathlib.Data.List.Forall2
import MonkeyLang.Proofs.Program.Words

/-!
# Tokens that spell words

Tokens spell words if they are those words one by one (`Spells`). The tokens of an expression
begin with one that opens an expression (`Expression.opens`), and the token behind it closes the
expression if it neither extends nor assigns it and starts no other case
(`Token.Kind.Closes`).
-/

set_option autoImplicit false

namespace MonkeyLang

/-! ## Tokens one by one -/

/-- The tokens are the words, wherever they stand. -/
def Spells (tokens : List Token) (words : List Word) : Prop := List.Forall₂ Token.Shows tokens words

namespace Spells

variable {tokens : List Token} {word : Word} {words left right : List Word}

theorem eq_nil (spelled : Spells tokens []) : tokens = [] := List.forall₂_nil_right_iff.1 spelled

theorem cons (spelled : Spells tokens (word :: words)) :
    ∃ token others, tokens = token :: others ∧ token.Shows word ∧ Spells others words := by
  obtain ⟨token, others, shown, rest, rfl⟩ := List.forall₂_cons_right_iff.1 spelled
  exact ⟨token, others, rfl, shown, rest⟩

theorem fixed {kind : Token.Kind} (spelled : Spells tokens (.fixed kind :: words)) :
    ∃ token others, tokens = token :: others ∧ token.kind = kind ∧ Spells others words := by
  obtain ⟨token, others, rfl, shown, rest⟩ := spelled.cons
  exact ⟨token, others, rfl, shown.kind, rest⟩

theorem name {text : String} (spelled : Spells tokens (.name text :: words)) :
    ∃ token others, tokens = token :: others ∧ token.kind = .identifier ∧ token.lexeme = text ∧
      Spells others words := by
  obtain ⟨token, others, rfl, shown, rest⟩ := spelled.cons
  exact ⟨token, others, rfl, shown.kind, shown.lexeme, rest⟩

theorem singleton (spelled : Spells tokens [word]) : ∃ token, tokens = [token] ∧ token.Shows word := by
  obtain ⟨token, others, rfl, shown, rest⟩ := spelled.cons
  exact ⟨token, by rw [rest.eq_nil], shown⟩

theorem singleton_fixed {kind : Token.Kind} (spelled : Spells tokens [.fixed kind]) :
    ∃ token, tokens = [token] ∧ token.kind = kind := by
  obtain ⟨token, rfl, shown⟩ := spelled.singleton
  exact ⟨token, rfl, shown.kind⟩

theorem append (spelled : Spells tokens (left ++ right)) :
    ∃ front back, tokens = front ++ back ∧ Spells front left ∧ Spells back right := by
  induction left generalizing tokens with
  | nil => exact ⟨[], tokens, rfl, .nil, spelled⟩
  | cons word words ih =>
    obtain ⟨token, others, rfl, shown, rest⟩ := spelled.cons
    obtain ⟨front, back, rfl, first, second⟩ := ih rest
    exact ⟨token :: front, back, rfl, List.Forall₂.cons shown first, second⟩

end Spells

/-! ## How expressions begin -/

/-- Whether an expression may begin with a token of this kind. -/
def Token.Kind.opensExpression : Token.Kind → Bool
  | .integer | .float | .string | .trueWord | .falseWord | .identifier | .bang | .minus
  | .leftParen | .leftBracket | .ifWord | .whileWord | .forWord | .funcWord => true
  | _ => false

/-- The words begin with one that opens an expression. -/
def Opens (words : List Word) : Prop :=
  ∃ word others, words = word :: others ∧ word.kind.opensExpression = true

namespace Opens

variable {words more : List Word}

theorem append (opens : Opens words) : Opens (words ++ more) := by
  obtain ⟨word, others, rfl, opening⟩ := opens
  exact ⟨word, others ++ more, rfl, opening⟩

theorem grouped {asked strength : Nat} (opens : Opens words) :
    Opens (MonkeyLang.grouped asked strength words) := by
  rw [MonkeyLang.grouped]
  split
  · exact ⟨.fixed .leftParen, words ++ [.fixed .rightParen], rfl, rfl⟩
  · exact opens

theorem tokens {tokens : List Token} (opens : Opens words) (spelled : Spells tokens words) :
    ∃ token others, tokens = token :: others ∧ token.kind.opensExpression = true := by
  obtain ⟨word, more, rfl, opening⟩ := opens
  obtain ⟨token, others, rfl, shown, -⟩ := spelled.cons
  exact ⟨token, others, rfl, shown.kind ▸ opening⟩

end Opens

theorem Literal.word_opens (value : Literal) : value.word.kind.opensExpression = true := by
  cases value with
  | integer value => rfl
  | float value => rfl
  | string value => rfl
  | boolean value => cases value <;> rfl

/-- Every expression begins with a word that opens one. -/
theorem Expression.opens : ∀ expression : Expression, Opens expression.words
  | .literal value _ => ⟨value.word, [], rfl, value.word_opens⟩
  | .name identifier => ⟨.name identifier.text, [], rfl, rfl⟩
  | .unary .not _ _ => ⟨_, _, rfl, rfl⟩
  | .unary .negate _ _ => ⟨_, _, rfl, rfl⟩
  | .binary _ left _ _ => left.opens.grouped.append
  | .conditional _ _ none _ => ⟨_, _, rfl, rfl⟩
  | .conditional _ _ (some _) _ => ⟨_, _, rfl, rfl⟩
  | .whileLoop _ _ _ => ⟨_, _, rfl, rfl⟩
  | .forLoop _ _ _ _ _ => ⟨_, _, rfl, rfl⟩
  | .function _ _ _ => ⟨_, _, rfl, rfl⟩
  | .call callee _ _ => callee.opens.grouped.append
  | .array _ _ => ⟨_, _, rfl, rfl⟩
  | .index target _ _ => target.opens.grouped.append
  | .assign _ _ _ => ⟨_, _, rfl, rfl⟩

/-! ## How expressions end -/

/-- No expression of this strength goes on with a token of this kind. -/
def Token.Kind.Closes (strength : Nat) (kind : Token.Kind) : Prop :=
  kind.precedence.rank ≤ strength ∧ assignment? kind = none ∧ kind ≠ .elseWord

instance (strength : Nat) (kind : Token.Kind) : Decidable (kind.Closes strength) :=
  inferInstanceAs (Decidable (_ ∧ _ ∧ _))

theorem Token.Kind.Closes.weaken {low high : Nat} {kind : Token.Kind} (closes : kind.Closes low)
    (weaker : low ≤ high) : kind.Closes high :=
  ⟨Nat.le_trans closes.1 weaker, closes.2⟩

/-- A token that no operator is closes every expression. -/
theorem Token.Kind.Closes.of_lowest {strength : Nat} {kind : Token.Kind} (closes : kind.Closes 0) :
    kind.Closes strength := closes.weaken strength.zero_le

theorem BinaryOperator.closes (operator : BinaryOperator) :
    operator.kind.Closes operator.precedence.rank := by
  cases operator <;> decide

theorem BinaryOperator.precedence_kind (operator : BinaryOperator) :
    operator.kind.precedence = operator.precedence := by
  cases operator <;> rfl

theorem BinaryOperator.ofKind?_kind (operator : BinaryOperator) :
    ofKind? operator.kind = some operator := by
  cases operator <;> rfl

theorem BinaryOperator.lowest_lt (operator : BinaryOperator) :
    Precedence.lowest.rank < operator.precedence.rank := by
  cases operator <;> decide

theorem BinaryOperator.lt_unary (operator : BinaryOperator) :
    operator.precedence.rank < Precedence.unary.rank := by
  cases operator <;> decide

/-- The strength that an expression has to be entered below: that of its outermost operator, if
this stands between operands. -/
def Expression.entry : Expression → Nat
  | .binary operator _ _ _ => operator.precedence.rank
  | _ => Precedence.call.rank

namespace Expression

theorem lowest_lt_entry (expression : Expression) :
    Precedence.lowest.rank < expression.entry := by
  cases expression with
  | binary operator left right span => exact operator.lowest_lt
  | _ => exact Nat.succ_pos 5

theorem strength_le_entry (expression : Expression) : expression.strength ≤ expression.entry := by
  cases expression with
  | unary operator operand span => exact Nat.le_succ 5
  | assign target value span => exact Nat.zero_le 6
  | _ => exact Nat.le_refl _

/-- What is as tight as an operator in front has no operator between operands outside. -/
theorem entry_of_unary_le {expression : Expression}
    (tight : Precedence.unary.rank ≤ expression.strength) :
    expression.entry = Precedence.call.rank := by
  cases expression with
  | binary operator left right span => exact absurd tight (Nat.not_le.2 operator.lt_unary)
  | _ => rfl

end Expression

end MonkeyLang
