import MonkeyLang.Program.Basic

/-!
# The literals and the spans of a program

What a program holds at its leaves, in the order in which it is written: its literals, and the
spans of its nodes and names.
-/

set_option autoImplicit false

namespace MonkeyLang

/-! ## The literals of a program -/

mutual

/-- The literals in an expression. -/
def Expression.literals : Expression → List Literal
  | .literal value _ => [value]
  | .name _ => []
  | .unary _ operand _ => operand.literals
  | .binary _ left right _ => left.literals ++ right.literals
  | .conditional condition consequence none _ => condition.literals ++ consequence.literals
  | .conditional condition consequence (some alternative) _ =>
    condition.literals ++ (consequence.literals ++ alternative.literals)
  | .whileLoop condition body _ => condition.literals ++ body.literals
  | .forLoop start condition post body _ =>
    start.literals ++ (condition.literals ++ (post.literals ++ body.literals))
  | .function _ body _ => body.literals
  | .call callee arguments _ => callee.literals ++ Expression.listLiterals arguments
  | .array elements _ => Expression.listLiterals elements
  | .index target index _ => target.literals ++ index.literals
  | .assign _ value _ => value.literals

/-- The literals in expressions. -/
def Expression.listLiterals : List Expression → List Literal
  | [] => []
  | item :: items => item.literals ++ Expression.listLiterals items

/-- The literals in a binding. -/
def Binding.literals : Binding → List Literal
  | .mk _ value _ => value.literals

/-- The literals in a block. -/
def Block.literals : Block → List Literal
  | .mk statements _ => Statement.listLiterals statements

/-- The literals in a statement. -/
def Statement.literals : Statement → List Literal
  | .bind binding => binding.literals
  | .leave none _ => []
  | .leave (some value) _ => value.literals
  | .expression value _ => value.literals

/-- The literals in statements. -/
def Statement.listLiterals : List Statement → List Literal
  | [] => []
  | statement :: statements => statement.literals ++ Statement.listLiterals statements

end

/-- The literals in a program. -/
def Program.literals (program : Program) : List Literal :=
  Statement.listLiterals program.statements

/-! ## The spans of a program -/

mutual

/-- The spans in an expression. -/
def Expression.spans : Expression → List Span
  | .literal _ span => [span]
  | .name identifier => [identifier.span]
  | .unary _ operand span => span :: operand.spans
  | .binary _ left right span => span :: (left.spans ++ right.spans)
  | .conditional condition consequence none span =>
    span :: (condition.spans ++ consequence.spans)
  | .conditional condition consequence (some alternative) span =>
    span :: (condition.spans ++ (consequence.spans ++ alternative.spans))
  | .whileLoop condition body span => span :: (condition.spans ++ body.spans)
  | .forLoop start condition post body span =>
    span :: (start.spans ++ (condition.spans ++ (post.spans ++ body.spans)))
  | .function parameters body span => span :: (parameters.map Name.span ++ body.spans)
  | .call callee arguments span => span :: (callee.spans ++ Expression.listSpans arguments)
  | .array elements span => span :: Expression.listSpans elements
  | .index target index span => span :: (target.spans ++ index.spans)
  | .assign target value span => span :: target.span :: value.spans

/-- The spans in expressions. -/
def Expression.listSpans : List Expression → List Span
  | [] => []
  | item :: items => item.spans ++ Expression.listSpans items

/-- The spans in a binding. -/
def Binding.spans : Binding → List Span
  | .mk name value span => span :: name.span :: value.spans

/-- The spans in a block. -/
def Block.spans : Block → List Span
  | .mk statements span => span :: Statement.listSpans statements

/-- The spans in a statement. -/
def Statement.spans : Statement → List Span
  | .bind binding => binding.spans
  | .leave none span => [span]
  | .leave (some value) span => span :: value.spans
  | .expression value span => span :: value.spans

/-- The spans in statements. -/
def Statement.listSpans : List Statement → List Span
  | [] => []
  | statement :: statements => statement.spans ++ Statement.listSpans statements

end

/-- The spans in a program. -/
def Program.spans (program : Program) : List Span := Statement.listSpans program.statements

end MonkeyLang
