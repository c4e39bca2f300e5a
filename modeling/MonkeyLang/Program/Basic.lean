import MonkeyLang.Span

/-!
# Programs

A program is a list of statements.  Almost everything is an expression: conditionals yield
the value of the branch taken, loops yield null, and a function literal may stand wherever a
value may.  Every node carries the span it was read from, so that a message about it can
point at the source.

Groups in parentheses, compound assignments and the short form of nested conditionals leave
no node of their own; the reader turns them into the nodes below.
-/

set_option autoImplicit false

namespace MonkeyLang

/-- A name as it is written at one place. -/
structure Name where
  text : String
  span : Span
  deriving DecidableEq, Repr, Inhabited

/-- A value that is written down. -/
inductive Literal where
  | integer (value : Int64)
  | float (value : Float)
  | string (value : String)
  | boolean (value : Bool)
  deriving Repr, Inhabited

/-- An operator in front of its operand. -/
inductive UnaryOperator where
  | not
  | negate
  deriving DecidableEq, Repr, Inhabited

/-- An operator between its operands. -/
inductive BinaryOperator where
  | add
  | sub
  | mul
  | div
  | equal
  | notEqual
  | less
  | lessEqual
  | greater
  | greaterEqual
  deriving DecidableEq, Repr, Inhabited

mutual

/-- What yields a value. -/
inductive Expression where
  | literal (value : Literal) (span : Span)
  | name (identifier : Name)
  | unary (operator : UnaryOperator) (operand : Expression) (span : Span)
  | binary (operator : BinaryOperator) (left right : Expression) (span : Span)
  /-- One of two blocks, or null if the second is chosen and missing. -/
  | conditional (condition : Expression) (consequence : Block) (alternative : Option Block)
      (span : Span)
  | whileLoop (condition : Expression) (body : Block) (span : Span)
  /-- A loop that binds a name first and evaluates `post` after each pass. -/
  | forLoop (start : Binding) (condition post : Expression) (body : Block) (span : Span)
  | function (parameters : List Name) (body : Block) (span : Span)
  | call (callee : Expression) (arguments : List Expression) (span : Span)
  | array (elements : List Expression) (span : Span)
  | index (target index : Expression) (span : Span)
  | assign (target : Name) (value : Expression) (span : Span)

/-- A name bound to a value. -/
inductive Binding where
  | mk (name : Name) (value : Expression) (span : Span)

/-- Statements between braces. -/
inductive Block where
  | mk (statements : List Statement) (span : Span)

/-- What a program and a block consist of. -/
inductive Statement where
  | bind (binding : Binding)
  /-- Leaves the function, with null if there is no value. -/
  | leave (value : Option Expression) (span : Span)
  | expression (value : Expression) (span : Span)

end

/-- A whole program. -/
structure Program where
  statements : List Statement

namespace Binding

/-- The span of a binding, with the keyword in front. -/
def span : Binding → Span
  | mk _ _ span => span

end Binding

namespace Block

/-- The statements of a block. -/
def statements : Block → List Statement
  | mk statements _ => statements

/-- The span of a block, with its braces. -/
def span : Block → Span
  | mk _ span => span

end Block

/-- The span of an expression. -/
def Expression.span : Expression → Span
  | literal _ span => span
  | name identifier => identifier.span
  | unary _ _ span => span
  | binary _ _ _ span => span
  | conditional _ _ _ span => span
  | whileLoop _ _ span => span
  | forLoop _ _ _ _ span => span
  | function _ _ span => span
  | call _ _ span => span
  | array _ span => span
  | index _ _ span => span
  | assign _ _ span => span

/-- The span of a statement. -/
def Statement.span : Statement → Span
  | bind binding => binding.span
  | leave _ span => span
  | expression _ span => span

/-- Whether a statement is an expression whose value can be observed. -/
def Statement.isExpression : Statement → Bool
  | expression _ _ => true
  | _ => false

/-- Whether a list of statements ends in an expression. -/
def endsInExpression (statements : List Statement) : Bool :=
  match statements.getLast? with
  | some statement => statement.isExpression
  | none => false

end MonkeyLang
