import MonkeyLang.Compiler.Generate
import Mathlib.Logic.Function.Basic

/-!
# The walk through a program

What a name means depends on the place where it stands. The compiler goes through a program
once, in a fixed order, and binds names as it meets them: the operands of `<` and `>=` from
right to left and everything else from left to right, both branches of a conditional, the parts
of a loop once, and the body of a function before anything behind it.

The walk of this module goes the same way and keeps only what gives a meaning to the parts of a
program: the names in scope, and a number for every function literal. Literals share their
numbers with the other constants of the program, so that no two of them have the same number.
Unlike the compiler the walk never fails; of a program that does not compile it says nothing.
-/

set_option autoImplicit false

namespace MonkeyLang

/-- What a call needs to know of a function literal. -/
structure Routine where
  parameters : Nat
  /-- How many slots a call has, those of the arguments included. -/
  locals : Nat
  body : List Statement
  /-- The names in scope where the body starts. -/
  scope : Scope
  /-- How many constants stand in front of the body. -/
  number : Nat

/-- The routine of a function that does nothing. -/
def Routine.idle : Routine := ⟨0, 0, [], Scope.empty.enter, 0⟩

/-- What the walk knows at a place of a program. -/
structure Walk where
  scope : Scope
  /-- How many constants the walk has met. -/
  number : Nat
  /-- The function literals by their numbers. -/
  routines : Nat → Routine

namespace Walk

/-- A walk that starts behind a number of constants. -/
def start (scope : Scope) (number : Nat) : Walk := ⟨scope, number, fun _ => .idle⟩

/-- Passes a constant. -/
def addConstant (walk : Walk) : Walk := { walk with number := walk.number + 1 }

/-- Binds a name. -/
def define (walk : Walk) (name : Name) : Walk :=
  { walk with scope := (walk.scope.define name.text).2 }

/-- Goes into a function, behind its parameters. -/
def enter (walk : Walk) (parameters : List Name) : Walk :=
  parameters.foldl define { walk with scope := walk.scope.enter }

theorem definitions_foldl_define (names : List Name) (walk : Walk) :
    (names.foldl define walk).scope.definitions = walk.scope.definitions + names.length := by
  induction names generalizing walk with
  | nil => rfl
  | cons name names ih =>
      rw [List.foldl_cons, ih, List.length_cons]
      simp only [define, Scope.define, SymbolTable.define, Scope.definitions]
      omega

theorem definitions_enter (walk : Walk) (parameters : List Name) :
    (walk.enter parameters).scope.definitions = parameters.length :=
  (definitions_foldl_define parameters _).trans (Nat.zero_add _)

/-- Leaves a function whose body the walk has gone through, from `inside` to `behind`. -/
def close (walk inside behind : Walk) (parameters : List Name) (body : List Statement) : Walk where
  scope := walk.scope
  number := behind.number + 1
  routines := Function.update behind.routines behind.number
    ⟨parameters.length, behind.scope.definitions, body, inside.scope, inside.number⟩

end Walk

/-- The walk at the start of the body of a routine. -/
def Routine.walk (routine : Routine) : Walk := .start routine.scope routine.number

/-- Passes a literal; the two truth values are no constants. -/
def Literal.walk : Literal → Walk → Walk
  | .boolean _, walk => walk
  | _, walk => walk.addConstant

mutual

/-- The walk behind an expression. -/
def Expression.walk : Expression → Walk → Walk
  | .literal value _, walk => value.walk walk
  | .name _, walk => walk
  | .unary _ operand _, walk => operand.walk walk
  | .binary operator left right _, walk =>
    if operator.isSwapped then left.walk (right.walk walk) else right.walk (left.walk walk)
  | .conditional condition consequence none _, walk => consequence.walk (condition.walk walk)
  | .conditional condition consequence (some alternative) _, walk =>
    alternative.walk (consequence.walk (condition.walk walk))
  | .whileLoop condition body _, walk => body.walk (condition.walk walk)
  | .forLoop first condition post body _, walk =>
    post.walk (body.walk (condition.walk (first.walk walk)))
  | .function parameters body _, walk => body.walkFunction parameters walk
  | .call callee arguments _, walk => Expression.walkAll arguments (callee.walk walk)
  | .array elements _, walk => Expression.walkAll elements walk
  | .index target index _, walk => index.walk (target.walk walk)
  | .assign _ value _, walk => value.walk walk

/-- The walk behind expressions. -/
def Expression.walkAll : List Expression → Walk → Walk
  | [], walk => walk
  | item :: items, walk => Expression.walkAll items (item.walk walk)

/-- The walk behind a binding. A function literal is bound before its body, and any other value
before its name. -/
def Binding.walk : Binding → Walk → Walk
  | .mk name (.function parameters body _) _, walk =>
    body.walkFunction parameters (walk.define name)
  | .mk name value _, walk => (value.walk walk).define name

/-- The walk behind a function literal with this body. -/
def Block.walkFunction : Block → List Name → Walk → Walk
  | .mk body _, parameters, walk =>
    walk.close (walk.enter parameters) (Statement.walkAll body (walk.enter parameters))
      parameters body

/-- The walk behind a block. -/
def Block.walk : Block → Walk → Walk
  | .mk body _, walk => Statement.walkAll body walk

/-- The walk behind a statement. -/
def Statement.walk : Statement → Walk → Walk
  | .bind bound, walk => bound.walk walk
  | .leave none _, walk => walk
  | .leave (some value) _, walk => value.walk walk
  | .expression value _, walk => value.walk walk

/-- The walk behind statements. -/
def Statement.walkAll : List Statement → Walk → Walk
  | [], walk => walk
  | first :: rest, walk => Statement.walkAll rest (first.walk walk)

end

end MonkeyLang
