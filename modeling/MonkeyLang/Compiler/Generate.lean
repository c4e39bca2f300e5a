import MonkeyLang.Compiler.State
import MonkeyLang.Bytecode.CompiledProgram

/-!
# Generating code

The code of an expression leaves one value on the stack.  The code of a statement leaves
nothing: what an expression yields is popped again.  What becomes of the last statement of a
list depends on what the list is for: the value of a branch stays on the stack, the value of a
function body leaves the function, and the value of a loop body is popped like any other.

Code is generated for the offset at which it will stand.  A jump over a part of the code is
written when that part is generated and its size is known.

There is one instruction for all orders of two values, "greater".  The operands of `<` and `>=`
are compiled in the opposite order, and `<=` and `>=` negate the result.
-/

set_option autoImplicit false

namespace MonkeyLang

/-- The instruction of an operator in front of its operand. -/
def UnaryOperator.opcode : UnaryOperator → Opcode
  | not => .not
  | negate => .negate

/-- The instructions of an operator, to be run when both operands are on the stack. -/
def BinaryOperator.opcodes : BinaryOperator → List Opcode
  | add => [.add]
  | sub => [.sub]
  | mul => [.mul]
  | div => [.div]
  | equal => [.equal]
  | notEqual => [.notEqual]
  | less => [.greater]
  | lessEqual => [.greater, .not]
  | greater => [.greater]
  | greaterEqual => [.greater, .not]

/-- Whether the right operand is evaluated first. -/
def BinaryOperator.isSwapped : BinaryOperator → Bool
  | less | greaterEqual => true
  | _ => false

/-- What a list of statements is for. -/
inductive Ending where
  /-- The body of a loop, or a whole program: no value is wanted. -/
  | discard
  /-- A branch: its value is wanted on the stack. -/
  | keep
  /-- The body of a function: its value is what a call yields. -/
  | leave
  deriving DecidableEq, Repr, Inhabited

namespace Ending

/-- The instructions behind a last statement that is an expression. -/
def behindExpression : Ending → List Opcode
  | discard => [.pop]
  | keep => []
  | leave => [.returnValue]

/-- The instructions behind a last statement that leaves the function. -/
def behindLeave : Ending → List Opcode
  | discard => []
  | keep => [.null]
  | leave => []

/-- The instructions behind any other last statement, or in place of a missing one. -/
def behindOther : Ending → List Opcode
  | discard => []
  | keep => [.null]
  | leave => [.returnNull]

end Ending

/-- A fragment with opcodes without operands behind it. -/
def Fragment.emitAll (fragment : Fragment) (opcodes : List Opcode) : Fragment :=
  opcodes.foldl (fun code opcode => code.emit opcode []) fragment

namespace Compiling

/-- The size of an instruction that jumps. -/
def jumpSize : Nat := 3

/-- Fails if an offset is too large for the operand of a jump. -/
def requireTarget (target : Nat) (span : Span) : Compiling Unit :=
  require (target ≤ Limit.instructionBytes.bound) .instructionBytes span

/-- The instruction that pushes what a symbol stands for. -/
def load (symbol : Symbol) : Instruction :=
  match symbol.storage with
  | .global => ⟨.getGlobal, [symbol.index]⟩
  | .frame => ⟨.getLocal, [symbol.index]⟩
  | .builtin => ⟨.getBuiltin, [symbol.index]⟩

/-- The instruction that pops a value into the slot of a symbol. -/
def store (name : Name) (symbol : Symbol) : Compiling Instruction :=
  match symbol.storage with
  | .global => pure ⟨.setGlobal, [symbol.index]⟩
  | .frame => pure ⟨.setLocal, [symbol.index]⟩
  | .builtin => throw (.assignToBuiltin name)

/-- The code that pushes a constant. -/
def constant (value : Value) (span : Span) : Compiling Fragment := do
  return .single .constant [← addConstant value span]

/-- The code that pushes what is written down. -/
def literal (value : Literal) (span : Span) : Compiling Fragment :=
  match value with
  | .integer value => constant (.integer value) span
  | .float value => constant (.float value) span
  | .string value => constant (.string value) span
  | .boolean true => pure (.single .true [])
  | .boolean false => pure (.single .false [])

/-- The code that pushes a function.  A function is known by the index of its constant. -/
def functionConstant (name : Option String) (parameters : List Name) (span : Span)
    (body : Fragment) (locals : Nat) : Compiling Fragment := do
  let identity := (← get).constants.size
  constant (.function ⟨identity, name, parameters.length, locals, body.encode⟩) span

mutual

/-- The code of an expression that will stand at an offset. -/
def expression : Expression → Nat → Compiling Fragment
  | .literal value span, _ => literal value span
  | .name identifier, _ => do
    let symbol ← resolve identifier
    return Fragment.empty.push (load symbol)
  | .unary operator operand _, start => do
    let code ← expression operand start
    return code.emit operator.opcode []
  | .binary operator left right _, start => do
    if operator.isSwapped then
      let first ← expression right start
      let second ← expression left (start + first.size)
      return (first ++ second).emitAll operator.opcodes
    else
      let first ← expression left start
      let second ← expression right (start + first.size)
      return (first ++ second).emitAll operator.opcodes
  | .conditional condition consequence alternative span, start => do
    let test ← expression condition start
    let chosen ← block .keep consequence (start + test.size + jumpSize)
    let otherStart := start + test.size + jumpSize + chosen.size + jumpSize
    requireTarget otherStart span
    let other ←
      match alternative with
      | some alternative => block .keep alternative otherStart
      | none => pure (Fragment.single .null [])
    let stop := otherStart + other.size
    requireTarget stop span
    return ((test.emit .jumpNotTruthy [otherStart]) ++ chosen).emit .jump [stop] ++ other
  | .whileLoop condition body span, start => do
    let test ← expression condition start
    let pass ← block .discard body (start + test.size + jumpSize)
    let stop := start + test.size + jumpSize + pass.size + jumpSize
    requireTarget stop span
    return (((test.emit .jumpNotTruthy [stop]) ++ pass).emit .jump [start]).emit .null []
  | .forLoop first condition post body span, start => do
    let preparation ← binding first start
    let again := start + preparation.size
    let test ← expression condition again
    let bodyStart := again + test.size + jumpSize
    let pass ← block .discard body bodyStart
    let step ← expression post (bodyStart + pass.size)
    let next := step.emit .pop []
    let stop := bodyStart + pass.size + next.size + jumpSize
    requireTarget stop span
    let cycle := (test.emit .jumpNotTruthy [stop]) ++ pass ++ next
    return ((preparation ++ cycle).emit .jump [again]).emit .null []
  | .function parameters body span, _ => function none parameters span body
  | .call callee arguments span, start => do
    require (arguments.length ≤ Limit.callArguments.bound) .callArguments span
    let code ← expression callee start
    let code ← expressions arguments start code
    return code.emit .call [arguments.length]
  | .array elements span, start => do
    require (elements.length ≤ Limit.arrayElements.bound) .arrayElements span
    let code ← expressions elements start .empty
    return code.emit .array [elements.length]
  | .index target index _, start => do
    let first ← expression target start
    let second ← expression index (start + first.size)
    return (first ++ second).emit .index []
  | .assign target value _, start => do
    let symbol ← resolve target
    let code ← expression value start
    let instruction ← store target symbol
    return (code.push instruction).push (load symbol)

/-- The code of expressions, one after another, behind code that stands at an offset. -/
def expressions : List Expression → Nat → Fragment → Compiling Fragment
  | [], _, before => pure before
  | item :: items, start, before => do
    let code ← expression item (start + before.size)
    expressions items start (before ++ code)

/-- The code that pushes a function.  Its parameters have the first of its slots. -/
def function (name : Option String) (parameters : List Name) (span : Span) :
    Block → Compiling Fragment
  | .mk body _ => do
    let (code, locals) ← inFunction do
      parameters.forM fun parameter => discard (define parameter)
      statements .leave body 0 .empty
    functionConstant name parameters span code locals

/-- The code of a binding.  A function knows its own name; any other value is computed before
its name is bound. -/
def binding : Binding → Nat → Compiling Fragment
  | .mk name (.function parameters body span) _, _ => do
    let symbol ← define name
    let code ← function (some name.text) parameters span body
    let instruction ← store name symbol
    return code.push instruction
  | .mk name value _, start => do
    let code ← expression value start
    let symbol ← define name
    let instruction ← store name symbol
    return code.push instruction

/-- The code of a block. -/
def block (ending : Ending) : Block → Nat → Compiling Fragment
  | .mk body _, start => statements ending body start .empty

/-- The code of a statement that is not the last one. -/
def statement : Statement → Nat → Compiling Fragment
  | .bind bound, start => binding bound start
  | .leave value span, start => departure value span start
  | .expression value _, start => do
    let code ← expression value start
    return code.emit .pop []

/-- The code that leaves a function. -/
def departure : Option Expression → Span → Nat → Compiling Fragment
  | value, span, start => do
    if (← get).scope.isGlobal then throw (.returnOutsideFunction span)
    let code ←
      match value with
      | some value => expression value start
      | none => pure (Fragment.single .null [])
    return code.emit .returnValue []

/-- The code of statements, one after another, behind code that stands at an offset. -/
def statements (ending : Ending) : List Statement → Nat → Fragment → Compiling Fragment
  | [], _, before => pure (before.emitAll ending.behindOther)
  | [.expression value _], start, before => do
    let code ← expression value (start + before.size)
    return (before ++ code).emitAll ending.behindExpression
  | [.leave value span], start, before => do
    let code ← departure value span (start + before.size)
    return (before ++ code).emitAll ending.behindLeave
  | first :: rest, start, before => do
    let code ← statement first (start + before.size)
    statements ending rest start (before ++ code)

end

end Compiling

namespace Compiler

/-- Compiles a program.  The compiler keeps what it has collected, also if there is a fault. -/
def compile (compiler : Compiler) (program : Program) :
    Except CompileFault CompiledProgram × Compiler :=
  match Compiling.statements .discard program.statements 0 .empty compiler with
  | .ok code compiler => (.ok ⟨code.encode, compiler.constants⟩, compiler)
  | .error fault compiler => (.error fault, compiler)

end Compiler

end MonkeyLang
