import MonkeyLang.Proofs.Evaluator.Basic
import MonkeyLang.Proofs.Evaluator.Walk

/-!
# Evaluating a program by its tree

The evaluator gives a program its meaning without compiling it. It follows the tree: the value
of an expression comes from the values of its parts, and a call evaluates the body of the
routine that is called. A name stands for the slot that the scope gives it at its place of the
walk (`MonkeyLang.Walk`).

A program need not end, so the evaluator is given fuel, which bounds how deep calls are nested
and how often a loop is repeated. All other recursion is on the tree.

A function value holds the number and the name of its literal, and no code. What a call
evaluates is looked up by the number.
-/

set_option autoImplicit false

namespace MonkeyLang

/-- The value that is written down. -/
def Literal.value : Literal → Value
  | .integer value => .integer value
  | .float value => .float value
  | .string value => .string value
  | .boolean value => .boolean value

/-- The logical negation of a value. -/
def Value.inverted (value : Value) : Value := .boolean !value.isTruthy

/-- The result of an operator in front of its operand. -/
def UnaryOperator.apply : UnaryOperator → Value → Except Fault Value
  | .not, operand => .ok operand.inverted
  | .negate, operand => operand.negated

/-- The result of an operator between its operands. All orders come from "greater". -/
def BinaryOperator.apply : BinaryOperator → Value → Value → Except Fault Value
  | .add, left, right => left.arithmetic .add right
  | .sub, left, right => left.arithmetic .sub right
  | .mul, left, right => left.arithmetic .mul right
  | .div, left, right => left.arithmetic .div right
  | .equal, left, right => left.compare .equal right
  | .notEqual, left, right => left.compare .notEqual right
  | .less, left, right => right.compare .greater left
  | .lessEqual, left, right => (left.compare .greater right).map Value.inverted
  | .greater, left, right => left.compare .greater right
  | .greaterEqual, left, right => (right.compare .greater left).map Value.inverted

namespace Evaluator

open Evaluating

/-- The value of a function literal. -/
def functionValue (name : Option String) (parameters : List Name) : Block → Walk → Value
  | .mk body _, walk =>
    let behind := Statement.walkAll body (walk.enter parameters)
    .function ⟨behind.number, name, parameters.length, behind.scope.definitions, #[]⟩

/-- Calls a value. -/
def call (invoke : Nat → List Value → Evaluating Value) (callee : Value)
    (arguments : List Value) : Evaluating Value :=
  match callee with
  | .function body => invoke body.identity arguments
  | .builtin builtin => do
    modify fun store => { store with output := store.output ++ builtin.output arguments }
    return builtin.result arguments
  | other => throw (.fault (.notCallable other.kind))

/-- The value of a branch whose last statement had this value, if it was an expression. -/
def branchValue : Option Value → Evaluating Value
  | some value => pure value
  | none => yield .null

section

variable (invoke : Nat → List Value → Evaluating Value) (turns : Nat)

mutual

/-- Evaluates an expression. -/
def expression : Expression → Walk → Evaluating Value
  | .literal value _, _ => yield value.value
  | .name identifier, walk => do yield (← valueIn (walk.scope.resolve? identifier.text))
  | .unary operator operand _, walk => do
    let value ← expression operand walk
    ofResult (operator.apply value)
  | .binary operator left right _, walk =>
    if operator.isSwapped then do
      let second ← expression right walk
      let first ← holding 1 (expression left (right.walk walk))
      ofResult (operator.apply first second)
    else do
      let first ← expression left walk
      let second ← holding 1 (expression right (left.walk walk))
      ofResult (operator.apply first second)
  | .conditional condition consequence none _, walk => do
    let test ← expression condition walk
    if test.isTruthy then branchValue (← block consequence (condition.walk walk))
    else yield .null
  | .conditional condition consequence (some alternative) _, walk => do
    let test ← expression condition walk
    if test.isTruthy then branchValue (← block consequence (condition.walk walk))
    else branchValue (← block alternative (consequence.walk (condition.walk walk)))
  | .whileLoop condition body _, walk => do
    loop turns do
      let test ← expression condition walk
      if test.isTruthy then do
        let _ ← block body (condition.walk walk)
        return true
      else return false
    yield .null
  | .forLoop first condition post body _, walk => do
    binding first walk
    let again := first.walk walk
    let inside := condition.walk again
    loop turns do
      let test ← expression condition again
      if test.isTruthy then do
        let _ ← block body inside
        let _ ← expression post (body.walk inside)
        return true
      else return false
    yield .null
  | .function parameters body _, walk => yield (functionValue none parameters body walk)
  | .call callee arguments _, walk => do
    let target ← expression callee walk
    let values ← holding 1 (expressions arguments (callee.walk walk))
    call invoke target values
  | .array elements _, walk => do yield (.array (← expressions elements walk))
  | .index target index _, walk => do
    let first ← expression target walk
    let second ← holding 1 (expression index (target.walk walk))
    ofResult (first.indexed second)
  | .assign target value _, walk => do
    let result ← expression value walk
    assign (walk.scope.resolve? target.text) result
    return result

/-- Evaluates expressions from left to right. -/
def expressions : List Expression → Walk → Evaluating (List Value)
  | [], _ => pure []
  | item :: items, walk => do
    let value ← expression item walk
    let values ← holding 1 (expressions items (item.walk walk))
    return value :: values

/-- Evaluates a binding. -/
def binding : Binding → Walk → Evaluating Unit
  | .mk name (.function parameters body _) _, walk => do
    let value ← yield (functionValue (some name.text) parameters body (walk.define name))
    assign ((walk.define name).scope.resolve? name.text) value
  | .mk name value _, walk => do
    let result ← expression value walk
    assign (((value.walk walk).define name).scope.resolve? name.text) result

/-- Evaluates a block; the result is the value of its last statement if that is an expression. -/
def block : Block → Walk → Evaluating (Option Value)
  | .mk body _, walk => statements body walk none

/-- Evaluates a statement; the result is its value if it is an expression. -/
def statement : Statement → Walk → Evaluating (Option Value)
  | .bind bound, walk => do
    binding bound walk
    return none
  | .leave none _, _ => do throw (.leave (← yield .null))
  | .leave (some value) _, walk => do throw (.leave (← expression value walk))
  | .expression value _, walk => return some (← expression value walk)

/-- Evaluates statements; `last` is what the statement in front of them yielded. -/
def statements : List Statement → Walk → Option Value → Evaluating (Option Value)
  | [], _, last => pure last
  | first :: rest, walk, _ => do
    let value ← statement first walk
    statements rest (first.walk walk) value

end

end

/-- Calls the routine with a number. -/
def invoke (routines : Nat → Routine) : Nat → Nat → List Value → Evaluating Value
  | 0, _, _ => throw .exhausted
  | fuel + 1, number, arguments => do
    let routine := routines number
    if arguments.length ≠ routine.parameters then
      throw (.fault (.wrongArity routine.parameters arguments.length))
    else do
      require (·.frames) ((← read).depth + 1) .frameOverflow
      require (·.stack) ((← read).held + 1 + routine.locals) .stackOverflow
      inCall routine.parameters routine.locals arguments
        (statements (invoke routines fuel) fuel routine.body routine.walk none)

/-- Evaluates the statements of a program, outside of all functions. -/
def run (routines : Nat → Routine) (fuel : Nat) (capacity : Capacity) (body : List Statement)
    (walk : Walk) : EStateM Exit Store (Option Value) :=
  statements (invoke routines fuel) fuel body walk none ⟨capacity, 0, 1⟩

theorem statements_append (invoke : Nat → List Value → Evaluating Value) (turns : Nat)
    (first second : List Statement) (walk : Walk) (last : Option Value) :
    statements invoke turns (first ++ second) walk last =
      statements invoke turns first walk last >>=
        statements invoke turns second (Statement.walkAll first walk) := by
  induction first generalizing walk last with
  | nil => simp only [List.nil_append, statements, Statement.walkAll, pure_bind]
  | cons statement rest ih =>
      simp only [List.cons_append, statements, Statement.walkAll, ih, bind_assoc]

end Evaluator

end MonkeyLang
