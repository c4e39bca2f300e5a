import MonkeyLang.Proofs.Program.Words

/-!
# Programs down to what is compiled

The same can be written in more than one way. A loop with a header of three parts, of which the
value is not wanted, is a binding and a loop with a condition, in which the last part of the header
stands behind the body (`Expression.unrolled`). The core of a program is the program without its
spans, in which all statements that are such loops are unrolled. As an unrolled loop is two
statements, the core of a statement is a list of them.
-/

set_option autoImplicit false

namespace MonkeyLang

/-- The statements that an expression without spans is where it stands as a statement. -/
def Expression.unrolled : Expression → List Statement
  | .forLoop start condition post (.mk body _) _ =>
    [.bind start,
      .expression (.whileLoop condition (.mk (body ++ post.unrolled) .dummy) .dummy) .dummy]
  | other => [.expression other .dummy]

mutual

/-- The core of an expression. A loop with a header stays one, since its value may be wanted. -/
def Expression.core : Expression → Expression
  | .literal value _ => .literal value .dummy
  | .name identifier => .name identifier.withoutSpan
  | .unary operator operand _ => .unary operator operand.core .dummy
  | .binary operator left right _ => .binary operator left.core right.core .dummy
  | .conditional condition consequence none _ =>
    .conditional condition.core consequence.core none .dummy
  | .conditional condition consequence (some alternative) _ =>
    .conditional condition.core consequence.core (some alternative.core) .dummy
  | .whileLoop condition body _ => .whileLoop condition.core body.core .dummy
  | .forLoop start condition post body _ =>
    .forLoop start.core condition.core post.core body.core .dummy
  | .function parameters body _ => .function (parameters.map Name.withoutSpan) body.core .dummy
  | .call callee arguments _ => .call callee.core (Expression.listCore arguments) .dummy
  | .array elements _ => .array (Expression.listCore elements) .dummy
  | .index target index _ => .index target.core index.core .dummy
  | .assign target value _ => .assign target.withoutSpan value.core .dummy

/-- The cores of expressions. -/
def Expression.listCore : List Expression → List Expression
  | [] => []
  | item :: items => item.core :: Expression.listCore items

/-- The core of a binding. -/
def Binding.core : Binding → Binding
  | .mk name value _ => .mk name.withoutSpan value.core .dummy

/-- The core of a block. -/
def Block.core : Block → Block
  | .mk statements _ => .mk (Statement.listCore statements) .dummy

/-- The core of a statement. -/
def Statement.core : Statement → List Statement
  | .bind binding => [.bind binding.core]
  | .leave none _ => [.leave none .dummy]
  | .leave (some value) _ => [.leave (some value.core) .dummy]
  | .expression value _ => value.core.unrolled

/-- The core of statements, one after another. -/
def Statement.listCore : List Statement → List Statement
  | [] => []
  | statement :: statements => statement.core ++ Statement.listCore statements

end

/-- The core of a program. -/
def Program.core (program : Program) : Program := ⟨Statement.listCore program.statements⟩

theorem Expression.listCore_eq_map (items : List Expression) :
    Expression.listCore items = items.map Expression.core := by
  induction items with
  | nil => rfl
  | cons item items ih => rw [Expression.listCore, ih, List.map_cons]

theorem Statement.listCore_eq_flatMap (statements : List Statement) :
    Statement.listCore statements = statements.flatMap Statement.core := by
  induction statements with
  | nil => rfl
  | cons statement statements ih => rw [Statement.listCore, ih, List.flatMap_cons]

theorem Statement.listCore_append (first second : List Statement) :
    Statement.listCore (first ++ second) =
      Statement.listCore first ++ Statement.listCore second := by
  simp only [Statement.listCore_eq_flatMap, List.flatMap_append]

theorem Statement.listCore_reverse_cons (statement : Statement) (done : List Statement) :
    Statement.listCore (statement :: done).reverse =
      Statement.listCore done.reverse ++ statement.core := by
  rw [List.reverse_cons, Statement.listCore_append, Statement.listCore, Statement.listCore,
    List.append_nil]

theorem Expression.unrolled_ne_nil (expression : Expression) : expression.unrolled ≠ [] := by
  unfold Expression.unrolled
  split <;> exact List.cons_ne_nil _ _

theorem Statement.core_ne_nil (statement : Statement) : statement.core ≠ [] := by
  unfold Statement.core
  split
  · exact List.cons_ne_nil _ _
  · exact List.cons_ne_nil _ _
  · exact List.cons_ne_nil _ _
  · exact Expression.unrolled_ne_nil _

theorem Statement.listCore_ne_nil {statements : List Statement} (some : statements ≠ []) :
    Statement.listCore statements ≠ [] := by
  cases statements with
  | nil => exact absurd rfl some
  | cons statement rest =>
      exact List.append_ne_nil_of_left_ne_nil statement.core_ne_nil _

/-- Names with the same text have the same core. -/
theorem Name.withoutSpan_eq_iff {first second : Name} :
    first.withoutSpan = second.withoutSpan ↔ first.text = second.text := by
  simp [Name.withoutSpan]

end MonkeyLang
