import MonkeyLang.Number.Shortest
import MonkeyLang.Program.Parser
import MonkeyLang.Proofs.Program.Parts

/-!
# Programs written down with few parentheses

A program is written as a list of words (`Program.words`). Parentheses stand around an operand
that binds less tightly than its place asks for, and nowhere else: the left operand of a binary
operator has to bind at least as tightly as the operator, the right operand tighter, the operand
of an operator in front as tightly as such an operator, and what is called or indexed as tightly
as a call. An assignment binds least of all. Every statement ends with a semicolon.

A word says what a token has to be, and leaves open where it stands (`Token.Shows`). Of a double
it says only the value: a text that reads as the value will do, however many digits it has.

Two programs that differ in their spans only are the same without them (`Program.withoutSpans`).
-/

set_option autoImplicit false

namespace MonkeyLang

/-! ## Words -/

/-- What is written at one place. -/
inductive Word where
  /-- A token whose kind tells its text. -/
  | fixed (kind : Token.Kind)
  | name (text : String)
  | integer (value : Int64)
  | float (value : Float)
  | string (value : String)

namespace Word

/-- The kind of token that a word is. -/
def kind : Word → Token.Kind
  | fixed kind => kind
  | name _ => .identifier
  | integer _ => .integer
  | float _ => .float
  | string _ => .string

/-- The lexemes that a word may have. -/
def HasLexeme : Word → String → Prop
  | fixed kind, lexeme => lexeme = kind.spelling
  | name text, lexeme => lexeme = text
  | integer value, lexeme => lexeme.toList = Decimal.digitsOf value.toInt.toNat
  | float value, lexeme => Number.readFloat? lexeme.toList = some value
  | string value, lexeme => lexeme = value

end Word

/-- The token is the word, wherever it stands. -/
structure Token.Shows (token : Token) (word : Word) : Prop where
  kind : token.kind = word.kind
  lexeme : word.HasLexeme token.lexeme

/-! ## How tightly expressions bind -/

/-- The token of an operator in front of its operand. -/
def UnaryOperator.kind : UnaryOperator → Token.Kind
  | not => .bang
  | negate => .minus

/-- The token of an operator between its operands. -/
def BinaryOperator.kind : BinaryOperator → Token.Kind
  | add => .plus
  | sub => .minus
  | mul => .star
  | div => .slash
  | equal => .equalEqual
  | notEqual => .bangEqual
  | less => .less
  | lessEqual => .lessEqual
  | greater => .greater
  | greaterEqual => .greaterEqual

/-- The strength of an operator between its operands. -/
def BinaryOperator.precedence : BinaryOperator → Precedence
  | equal | notEqual => .equality
  | less | lessEqual | greater | greaterEqual => .ordering
  | add | sub => .sum
  | mul | div => .product

/-- How tightly an expression holds together. -/
def Expression.strength : Expression → Nat
  | .assign _ _ _ => Precedence.lowest.rank
  | .binary operator _ _ _ => operator.precedence.rank
  | .unary _ _ _ => Precedence.unary.rank
  | _ => Precedence.call.rank

/-- The words of an expression of some strength at a place that asks for another one. -/
def grouped (asked strength : Nat) (words : List Word) : List Word :=
  if strength < asked then .fixed .leftParen :: (words ++ [.fixed .rightParen]) else words

/-! ## Writing -/

/-- A literal as a word. -/
def Literal.word : Literal → Word
  | integer value => .integer value
  | float value => .float value
  | string value => .string value
  | boolean true => .fixed .trueWord
  | boolean false => .fixed .falseWord

/-- Names with commas between them. -/
def parameterWords : List Name → List Word
  | [] => []
  | [parameter] => [.name parameter.text]
  | parameter :: next :: parameters =>
    .name parameter.text :: .fixed .comma :: parameterWords (next :: parameters)

mutual

/-- The words of an expression. -/
def Expression.words : Expression → List Word
  | .literal value _ => [value.word]
  | .name identifier => [.name identifier.text]
  | .unary operator operand _ =>
    .fixed operator.kind :: grouped Precedence.unary.rank operand.strength operand.words
  | .binary operator left right _ =>
    grouped operator.precedence.rank left.strength left.words ++
      .fixed operator.kind ::
        grouped (operator.precedence.rank + 1) right.strength right.words
  | .conditional condition consequence none _ =>
    .fixed .ifWord :: .fixed .leftParen :: (condition.words ++
      .fixed .rightParen :: consequence.words)
  | .conditional condition consequence (some alternative) _ =>
    .fixed .ifWord :: .fixed .leftParen :: (condition.words ++
      .fixed .rightParen :: (consequence.words ++ .fixed .elseWord :: alternative.words))
  | .whileLoop condition body _ =>
    .fixed .whileWord :: .fixed .leftParen :: (condition.words ++
      .fixed .rightParen :: body.words)
  | .forLoop start condition post body _ =>
    .fixed .forWord :: .fixed .leftParen :: (start.words ++ (condition.words ++
      .fixed .semicolon :: (post.words ++ .fixed .rightParen :: body.words)))
  | .function parameters body _ =>
    .fixed .funcWord :: .fixed .leftParen :: (parameterWords parameters ++
      .fixed .rightParen :: body.words)
  | .call callee arguments _ =>
    grouped Precedence.call.rank callee.strength callee.words ++
      .fixed .leftParen :: (Expression.listWords arguments ++ [.fixed .rightParen])
  | .array elements _ =>
    .fixed .leftBracket :: (Expression.listWords elements ++ [.fixed .rightBracket])
  | .index target index _ =>
    grouped Precedence.call.rank target.strength target.words ++
      .fixed .leftBracket :: (index.words ++ [.fixed .rightBracket])
  | .assign target value _ => .name target.text :: .fixed .assign :: value.words

/-- Expressions with commas between them. -/
def Expression.listWords : List Expression → List Word
  | [] => []
  | [item] => item.words
  | item :: next :: items => item.words ++ .fixed .comma :: Expression.listWords (next :: items)

/-- The words of a binding, with its semicolon. -/
def Binding.words : Binding → List Word
  | .mk name value _ =>
    .fixed .varWord :: .name name.text :: .fixed .assign :: (value.words ++ [.fixed .semicolon])

/-- The words of a block, with its braces. -/
def Block.words : Block → List Word
  | .mk statements _ =>
    .fixed .leftBrace :: (Statement.listWords statements ++ [.fixed .rightBrace])

/-- The words of a statement, with its semicolon. -/
def Statement.words : Statement → List Word
  | .bind binding => binding.words
  | .leave none _ => [.fixed .returnWord, .fixed .semicolon]
  | .leave (some value) _ => .fixed .returnWord :: (value.words ++ [.fixed .semicolon])
  | .expression value _ => value.words ++ [.fixed .semicolon]

/-- The words of statements, one after another. -/
def Statement.listWords : List Statement → List Word
  | [] => []
  | statement :: statements => statement.words ++ Statement.listWords statements

end

/-- The words of a program. -/
def Program.words (program : Program) : List Word := Statement.listWords program.statements

/-! ## Literals -/

/-- A literal that is written without a sign. -/
def Literal.Unsigned : Literal → Prop
  | integer value => 0 ≤ value.toInt
  | _ => True

/-! ## Programs without their spans -/

/-- The name without its span. -/
def Name.withoutSpan (name : Name) : Name := ⟨name.text, .dummy⟩

mutual

/-- The expression without spans. -/
def Expression.withoutSpans : Expression → Expression
  | .literal value _ => .literal value .dummy
  | .name identifier => .name identifier.withoutSpan
  | .unary operator operand _ => .unary operator operand.withoutSpans .dummy
  | .binary operator left right _ =>
    .binary operator left.withoutSpans right.withoutSpans .dummy
  | .conditional condition consequence none _ =>
    .conditional condition.withoutSpans consequence.withoutSpans none .dummy
  | .conditional condition consequence (some alternative) _ =>
    .conditional condition.withoutSpans consequence.withoutSpans (some alternative.withoutSpans)
      .dummy
  | .whileLoop condition body _ => .whileLoop condition.withoutSpans body.withoutSpans .dummy
  | .forLoop start condition post body _ =>
    .forLoop start.withoutSpans condition.withoutSpans post.withoutSpans body.withoutSpans .dummy
  | .function parameters body _ =>
    .function (parameters.map Name.withoutSpan) body.withoutSpans .dummy
  | .call callee arguments _ =>
    .call callee.withoutSpans (Expression.listWithoutSpans arguments) .dummy
  | .array elements _ => .array (Expression.listWithoutSpans elements) .dummy
  | .index target index _ => .index target.withoutSpans index.withoutSpans .dummy
  | .assign target value _ => .assign target.withoutSpan value.withoutSpans .dummy

/-- The expressions without spans. -/
def Expression.listWithoutSpans : List Expression → List Expression
  | [] => []
  | item :: items => item.withoutSpans :: Expression.listWithoutSpans items

/-- The binding without spans. -/
def Binding.withoutSpans : Binding → Binding
  | .mk name value _ => .mk name.withoutSpan value.withoutSpans .dummy

/-- The block without spans. -/
def Block.withoutSpans : Block → Block
  | .mk statements _ => .mk (Statement.listWithoutSpans statements) .dummy

/-- The statement without spans. -/
def Statement.withoutSpans : Statement → Statement
  | .bind binding => .bind binding.withoutSpans
  | .leave none _ => .leave none .dummy
  | .leave (some value) _ => .leave (some value.withoutSpans) .dummy
  | .expression value _ => .expression value.withoutSpans .dummy

/-- The statements without spans. -/
def Statement.listWithoutSpans : List Statement → List Statement
  | [] => []
  | statement :: statements => statement.withoutSpans :: Statement.listWithoutSpans statements

end

theorem Expression.eq_literal_of_withoutSpans {expression : Expression} {written : Literal}
    {span : Span} (same : expression.withoutSpans = .literal written span) :
    ∃ other, expression = .literal written other := by
  unfold Expression.withoutSpans at same
  split at same <;> cases same
  exact ⟨_, rfl⟩

theorem Expression.eq_unary_of_withoutSpans {expression operand : Expression}
    {operator : UnaryOperator} {span : Span}
    (same : expression.withoutSpans = .unary operator operand span) :
    ∃ inner other, expression = .unary operator inner other ∧ inner.withoutSpans = operand := by
  unfold Expression.withoutSpans at same
  split at same <;> cases same
  exact ⟨_, _, rfl, rfl⟩

theorem Expression.listWithoutSpans_eq_map (items : List Expression) :
    Expression.listWithoutSpans items = items.map Expression.withoutSpans := by
  induction items with
  | nil => rfl
  | cons item items ih => rw [Expression.listWithoutSpans, ih, List.map_cons]

theorem Statement.listWithoutSpans_eq_map (statements : List Statement) :
    Statement.listWithoutSpans statements = statements.map Statement.withoutSpans := by
  induction statements with
  | nil => rfl
  | cons statement statements ih => rw [Statement.listWithoutSpans, ih, List.map_cons]

/-- The program without spans. -/
def Program.withoutSpans (program : Program) : Program :=
  ⟨Statement.listWithoutSpans program.statements⟩

end MonkeyLang
