import MonkeyLang.Proofs.Program.Writing

/-!
# Assignments that are operands

An assignment takes the whole expression behind its sign. So where it is followed by an operator, by
arguments or by an index of which it is the first part, it stands in parentheses. Where it is behind
an operator there is a choice: with parentheses the operator is told apart from the assignment, and
without them the assignment is taken as the operand nevertheless.

`Expression.Delimits` and its companions are the ways to write a program in which assignments of the
first kind are in parentheses, and, if this is strict, those of the second kind as well. Short forms
of assignments are no exception: the operator that such a form stands for is not written between two
operands, so what is computed with it needs no parentheses.
-/

set_option autoImplicit false

namespace MonkeyLang

/-- Whether an expression is an assignment. -/
def Expression.isAssignment : Expression → Bool
  | .assign _ _ _ => true
  | _ => false

/-- If the expression is an assignment, it is written in parentheses. -/
def Expression.Apart (expression : Expression) (words : List Word) : Prop :=
  expression.isAssignment = true → ∃ inner,
    words = .fixed .leftParen :: (inner ++ [.fixed .rightParen]) ∧ expression.Writes inner

theorem Expression.apart_of_no_assignment {expression : Expression}
    (other : expression.isAssignment = false) (words : List Word) : expression.Apart words :=
  fun is => Bool.noConfusion (other.symm.trans is)

mutual

/-- The words are a way to write the expression. Assignments in front of something that belongs to
them are in parentheses, and if this is strict, assignments behind an operator are too. -/
inductive Expression.Delimits (strict : Bool) : Expression → List Word → Prop where
  | literal (value : Literal) (span : Span) :
      Expression.Delimits strict (.literal value span) [value.word]
  | name (identifier : Name) :
      Expression.Delimits strict (.name identifier) [.name identifier.text]
  | unary {operand : Expression} {words : List Word} (operator : UnaryOperator) (span : Span)
      (inner : Expression.Delimits strict operand words)
      (apart : strict = true → operand.Apart words) :
      Expression.Delimits strict (.unary operator operand span) (.fixed operator.kind :: words)
  | binary {left right : Expression} {first second : List Word} (operator : BinaryOperator)
      (span : Span) (before : Expression.Delimits strict left first) (apart : left.Apart first)
      (behind : Expression.Delimits strict right second)
      (also : strict = true → right.Apart second) :
      Expression.Delimits strict (.binary operator left right span)
        (first ++ .fixed operator.kind :: second)
  | conditional {condition : Expression} {consequence : Block} {first second : List Word}
      (span : Span) (chooses : Expression.Delimits strict condition first)
      (yes : Block.Delimits strict consequence second) :
      Expression.Delimits strict (.conditional condition consequence none span)
        (.fixed .ifWord :: .fixed .leftParen :: (first ++ .fixed .rightParen :: second))
  | otherwise {condition : Expression} {consequence alternative : Block}
      {first second third : List Word} (span : Span)
      (chooses : Expression.Delimits strict condition first)
      (yes : Block.Delimits strict consequence second)
      (no : Block.Delimits strict alternative third) :
      Expression.Delimits strict (.conditional condition consequence (some alternative) span)
        (.fixed .ifWord :: .fixed .leftParen :: (first ++
          .fixed .rightParen :: (second ++ .fixed .elseWord :: third)))
  | elseIf {condition asked : Expression} {consequence block : Block} {other : Option Block}
      {first second third : List Word} (span inner statement braces : Span)
      (chooses : Expression.Delimits strict condition first)
      (yes : Block.Delimits strict consequence second)
      (no : Expression.Delimits strict (.conditional asked block other inner)
        (.fixed .ifWord :: third)) :
      Expression.Delimits strict
        (.conditional condition consequence
          (some (.mk [.expression (.conditional asked block other inner) statement] braces)) span)
        (.fixed .ifWord :: .fixed .leftParen :: (first ++
          .fixed .rightParen :: (second ++ .fixed .elseWord :: .fixed .ifWord :: third)))
  | whileLoop {condition : Expression} {body : Block} {first second : List Word} (span : Span)
      (chooses : Expression.Delimits strict condition first)
      (loops : Block.Delimits strict body second) :
      Expression.Delimits strict (.whileLoop condition body span)
        (.fixed .whileWord :: .fixed .leftParen :: (first ++ .fixed .rightParen :: second))
  | forLoop {start : Binding} {condition post : Expression} {body : Block}
      {first second third fourth : List Word} (span : Span)
      (starts : Binding.Delimits strict start first)
      (chooses : Expression.Delimits strict condition second)
      (steps : Expression.Delimits strict post third) (loops : Block.Delimits strict body fourth) :
      Expression.Delimits strict (.forLoop start condition post body span)
        (.fixed .forWord :: .fixed .leftParen :: (first ++ .fixed .semicolon :: (second ++
          .fixed .semicolon :: (third ++ .fixed .rightParen :: fourth))))
  | function {body : Block} {words : List Word} (parameters : List Name) (span : Span)
      (inner : Block.Delimits strict body words) :
      Expression.Delimits strict (.function parameters body span)
        (.fixed .funcWord :: .fixed .leftParen :: (parameterWords parameters ++
          .fixed .rightParen :: words))
  | call {callee : Expression} {arguments : List Expression} {first second : List Word}
      (span : Span) (before : Expression.Delimits strict callee first) (apart : callee.Apart first)
      (inner : Expression.ListDelimits strict arguments second) :
      Expression.Delimits strict (.call callee arguments span)
        (first ++ .fixed .leftParen :: (second ++ [.fixed .rightParen]))
  | array {elements : List Expression} {words : List Word} (span : Span)
      (inner : Expression.ListDelimits strict elements words) :
      Expression.Delimits strict (.array elements span)
        (.fixed .leftBracket :: (words ++ [.fixed .rightBracket]))
  | index {target index : Expression} {first second : List Word} (span : Span)
      (before : Expression.Delimits strict target first) (apart : target.Apart first)
      (inner : Expression.Delimits strict index second) :
      Expression.Delimits strict (.index target index span)
        (first ++ .fixed .leftBracket :: (second ++ [.fixed .rightBracket]))
  | assign {value : Expression} {words : List Word} (target : Name) (span : Span)
      (behind : Expression.Delimits strict value words) :
      Expression.Delimits strict (.assign target value span)
        (.name target.text :: .fixed .assign :: words)
  | compound {value : Expression} {words : List Word} (target : Name) {operator : BinaryOperator}
      {sign : Token.Kind} (inner span : Span) (names : assignment? sign = some (some operator))
      (behind : Expression.Delimits strict value words) :
      Expression.Delimits strict
        (.assign target (.binary operator (.name target) value inner) span)
        (.name target.text :: .fixed sign :: words)
  | grouped {expression : Expression} {words : List Word}
      (inner : Expression.Delimits strict expression words) :
      Expression.Delimits strict expression (.fixed .leftParen :: (words ++ [.fixed .rightParen]))

/-- The words are a way to write the expressions in this sense, with commas between them. -/
inductive Expression.ListDelimits (strict : Bool) : List Expression → List Word → Prop where
  | nil : Expression.ListDelimits strict [] []
  | single {item : Expression} {words : List Word}
      (only : Expression.Delimits strict item words) : Expression.ListDelimits strict [item] words
  | cons {item next : Expression} {items : List Expression} {first rest : List Word}
      (head : Expression.Delimits strict item first)
      (tail : Expression.ListDelimits strict (next :: items) rest) :
      Expression.ListDelimits strict (item :: next :: items) (first ++ .fixed .comma :: rest)

/-- The words are a way to write the binding in this sense, without its semicolon. -/
inductive Binding.Delimits (strict : Bool) : Binding → List Word → Prop where
  | mk {value : Expression} {words : List Word} (name : Name) (span : Span)
      (behind : Expression.Delimits strict value words) :
      Binding.Delimits strict (.mk name value span)
        (.fixed .varWord :: .name name.text :: .fixed .assign :: words)

/-- The words are a way to write the block in this sense. -/
inductive Block.Delimits (strict : Bool) : Block → List Word → Prop where
  | mk {statements : List Statement} {words : List Word} (span : Span)
      (inner : Statement.ListDelimits strict statements words) :
      Block.Delimits strict (.mk statements span)
        (.fixed .leftBrace :: (words ++ [.fixed .rightBrace]))

/-- The words are a way to write the statement in this sense, without its semicolon. -/
inductive Statement.Delimits (strict : Bool) : Statement → List Word → Prop where
  | bind {binding : Binding} {words : List Word} (inner : Binding.Delimits strict binding words) :
      Statement.Delimits strict (.bind binding) words
  | leave (span : Span) : Statement.Delimits strict (.leave none span) [.fixed .returnWord]
  | leaveWith {value : Expression} {words : List Word} (span : Span)
      (inner : Expression.Delimits strict value words) :
      Statement.Delimits strict (.leave (some value) span) (.fixed .returnWord :: words)
  | expression {value : Expression} {words : List Word} (span : Span)
      (inner : Expression.Delimits strict value words) :
      Statement.Delimits strict (.expression value span) words

/-- The words are a way to write the statements in this sense, each with or without a semicolon
behind it. -/
inductive Statement.ListDelimits (strict : Bool) : List Statement → List Word → Prop where
  | nil : Statement.ListDelimits strict [] []
  | cons {statement : Statement} {statements : List Statement} {first rest : List Word}
      (head : Statement.Delimits strict statement first)
      (tail : Statement.ListDelimits strict statements rest) :
      Statement.ListDelimits strict (statement :: statements) (first ++ rest)
  | ended {statement : Statement} {statements : List Statement} {first rest : List Word}
      (head : Statement.Delimits strict statement first)
      (tail : Statement.ListDelimits strict statements rest) :
      Statement.ListDelimits strict (statement :: statements)
        (first ++ .fixed .semicolon :: rest)

end

/-! ## These are ways to write -/

mutual

theorem Expression.Delimits.writes {strict : Bool} {expression : Expression} {words : List Word} :
    expression.Delimits strict words → expression.Writes words
  | .literal value span => .literal value span
  | .name identifier => .name identifier
  | .unary operator span inner _ => .unary operator span inner.writes
  | .binary operator span before _ behind _ => .binary operator span before.writes behind.writes
  | .conditional span chooses yes => .conditional span chooses.writes yes.writes
  | .otherwise span chooses yes no => .otherwise span chooses.writes yes.writes no.writes
  | .elseIf span inner statement braces chooses yes no =>
    .elseIf span inner statement braces chooses.writes yes.writes no.writes
  | .whileLoop span chooses loops => .whileLoop span chooses.writes loops.writes
  | .forLoop span starts chooses steps loops =>
    .forLoop span starts.writes chooses.writes steps.writes loops.writes
  | .function parameters span inner => .function parameters span inner.writes
  | .call span before _ inner => .call span before.writes inner.writes
  | .array span inner => .array span inner.writes
  | .index span before _ inner => .index span before.writes inner.writes
  | .assign target span behind => .assign target span behind.writes
  | .compound target inner span names behind => .compound target inner span names behind.writes
  | .grouped inner => .grouped inner.writes

theorem Expression.ListDelimits.writes {strict : Bool} {items : List Expression}
    {words : List Word} :
    Expression.ListDelimits strict items words → Expression.ListWrites items words
  | .nil => .nil
  | .single only => .single only.writes
  | .cons head tail => .cons head.writes tail.writes

theorem Binding.Delimits.writes {strict : Bool} {binding : Binding} {words : List Word} :
    binding.Delimits strict words → binding.Writes words
  | .mk name span behind => .mk name span behind.writes

theorem Block.Delimits.writes {strict : Bool} {block : Block} {words : List Word} :
    block.Delimits strict words → block.Writes words
  | .mk span inner => .mk span inner.writes

theorem Statement.Delimits.writes {strict : Bool} {statement : Statement} {words : List Word} :
    statement.Delimits strict words → statement.Writes words
  | .bind inner => .bind inner.writes
  | .leave span => .leave span
  | .leaveWith span inner => .leaveWith span inner.writes
  | .expression span inner => .expression span inner.writes

theorem Statement.ListDelimits.writes {strict : Bool} {statements : List Statement}
    {words : List Word} :
    Statement.ListDelimits strict statements words → Statement.ListWrites statements words
  | .nil => .nil
  | .cons head tail => .cons head.writes tail.writes
  | .ended head tail => .ended head.writes tail.writes

end

end MonkeyLang
