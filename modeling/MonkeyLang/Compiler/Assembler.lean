import MonkeyLang.Compiler.Buffer
import MonkeyLang.Compiler.Generate

/-!
# The assembler

The assembler goes through a program once.  There is a buffer for each function that is open, and
one for the program; instructions are put into the innermost one.  A jump forward is written with a
placeholder and gets its target when the code in between has been written.  A branch and the body of
a function are written like any other statements, and the `pop` at their end is taken back, or
becomes the instruction that leaves the function.

The buffers and the table of names stand in step: to enter a function opens one of each, and to
leave it closes both.  An error stops the work wherever it is, and the functions that are open then
are left afterwards.  What was collected up to there is kept, but for the code.

Work ends for good if there is no buffer to write into, or if something is to be written over bytes
that a buffer does not have.
-/

set_option autoImplicit false

namespace MonkeyLang

/-- What the assembler has collected, with the buffers of the open functions, the innermost first,
and of the program. -/
structure Assembler where
  compiler : Compiler
  buffers : List Buffer

/-- Why the assembler stops. -/
inductive Obstacle where
  /-- The program is refused. -/
  | rejected (fault : CompileFault)
  /-- There is no such buffer, or no such place in it. -/
  | outOfRange
  deriving DecidableEq, Repr

/-- A piece of the assembler's work. -/
abbrev Assembling := EStateM Obstacle Assembler

/-- What was collected, seen from outside of the innermost function.  Outside of all functions the
table is gone. -/
def Compiler.leave (compiler : Compiler) : Compiler :=
  { compiler with scope := compiler.scope.leave?.getD .empty }

namespace Assembler

/-- The assembler that goes on with what was collected, and has no code yet. -/
def start (compiler : Compiler) : Assembler := ⟨compiler, [.empty]⟩

/-- An assembler that goes on with the names and the constants of an earlier one. -/
def resume (scope : Scope) (constants : Array Value) : Assembler :=
  start (Compiler.resume scope constants)

/-- An assembler that knows the builtin functions only. -/
def new : Assembler := start Compiler.new

/-- Opens a function. -/
def enter (assembler : Assembler) : Assembler :=
  ⟨{ assembler.compiler with scope := assembler.compiler.scope.enter },
    .empty :: assembler.buffers⟩

/-- Closes the innermost function.  Yields its code and how many slots it has. -/
def leave (assembler : Assembler) : (Code × Nat) × Assembler :=
  (((assembler.buffers.headD .empty).code, assembler.compiler.scope.definitions),
    ⟨assembler.compiler.leave, assembler.buffers.tail⟩)

/-- Closes all functions and drops the code of the program; `none` if the program has no buffer. -/
def unwind? : Compiler → List Buffer → Option Assembler
  | _, [] => none
  | compiler, [_] => some (start compiler)
  | compiler, _ :: buffer :: buffers => unwind? compiler.leave (buffer :: buffers)

/-- Takes the code of the program out of its buffer; `none` if the program has no buffer. -/
def takeCode? (assembler : Assembler) : Option (Code × Assembler) :=
  assembler.buffers.getLast?.map fun root =>
    (root.code, { assembler with buffers := assembler.buffers.dropLast ++ [.empty] })

end Assembler

namespace Assembling

/-- The part of the work that touches no code. -/
def collecting {α : Type} (work : Compiling α) : Assembling α := fun assembler =>
  match work assembler.compiler with
  | .ok result compiler => .ok result { assembler with compiler }
  | .error fault compiler => .error (.rejected fault) { assembler with compiler }

/-- Works on the innermost buffer. -/
def inBuffer {α : Type} (work : Buffer → Option (α × Buffer)) : Assembling α := fun assembler =>
  match assembler.buffers with
  | [] => .error .outOfRange assembler
  | buffer :: others =>
    match work buffer with
    | some (result, buffer) => .ok result { assembler with buffers := buffer :: others }
    | none => .error .outOfRange assembler

/-- Puts an instruction behind the code.  Yields the offset at which it starts. -/
def emit (opcode : Opcode) (operands : List Nat) : Assembling Nat :=
  inBuffer fun buffer => some (buffer.emit ⟨opcode, operands⟩)

/-- The offset of the next instruction. -/
def position : Assembling Nat := inBuffer fun buffer => some (buffer.code.size, buffer)

/-- Whether the last instruction has an opcode. -/
def endsWith (opcode : Opcode) : Assembling Bool :=
  inBuffer fun buffer => some (buffer.endsWith opcode, buffer)

/-- Takes the last instruction back. -/
def removeLast : Assembling Unit := inBuffer fun buffer => some ((), buffer.removeLast)

/-- Writes an instruction over the last one. -/
def replaceLast (opcode : Opcode) : Assembling Unit :=
  inBuffer fun buffer => (buffer.replaceLast? opcode).map ((), ·)

/-- Gives a jump at an offset its target. -/
def patch (position : Nat) (opcode : Opcode) (target : Nat) (span : Span) : Assembling Unit := do
  collecting (Compiling.requireTarget target span)
  inBuffer fun buffer => (buffer.replace? position ⟨opcode, [target]⟩).map ((), ·)

/-- Opens a function. -/
def enter : Assembling Unit := fun assembler => .ok () assembler.enter

/-- Closes the innermost function.  Yields its code and how many slots it has. -/
def leave : Assembling (Code × Nat) := fun assembler =>
  let (function, assembler) := assembler.leave
  .ok function assembler

/-- Whether a function is open. -/
def inFunction : Assembling Bool := fun assembler => .ok (1 < assembler.buffers.length) assembler

/-- Writes what pushes a constant. -/
def constant (value : Value) (span : Span) : Assembling Unit := do
  let index ← collecting (Compiling.addConstant value span)
  let _ ← emit .constant [index]

/-- Writes what pushes a value that is written down. -/
def literal (value : Literal) (span : Span) : Assembling Unit :=
  match value with
  | .integer value => constant (.integer value) span
  | .float value => constant (.float value) span
  | .string value => constant (.string value) span
  | .boolean true => discard (emit .true [])
  | .boolean false => discard (emit .false [])

/-- Writes what pushes the value that a symbol stands for. -/
def load (symbol : Symbol) : Assembling Unit :=
  match symbol.storage with
  | .global => discard (emit .getGlobal [symbol.index])
  | .frame => discard (emit .getLocal [symbol.index])
  | .builtin => discard (emit .getBuiltin [symbol.index])

/-- Writes what pops a value into the slot of a symbol. -/
def store (name : Name) (symbol : Symbol) : Assembling Unit :=
  match symbol.storage with
  | .global => discard (emit .setGlobal [symbol.index])
  | .frame => discard (emit .setLocal [symbol.index])
  | .builtin => throw (.rejected (.assignToBuiltin name))

/-- Writes what pushes a function. -/
def functionConstant (name : Option String) (parameters : List Name) (span : Span)
    (code : Code) (locals : Nat) : Assembling Unit := do
  let identity := (← get).compiler.constants.size
  constant (.function ⟨identity, name, parameters.length, locals, code⟩) span

/-- Leaves the value of a branch on the stack. -/
def keepLast : Assembling Unit := do
  if ← endsWith .pop then removeLast else discard (emit .null [])

/-- Lets the body of a function leave with its value. -/
def leaveLast : Assembling Unit := do
  if ← endsWith .pop then replaceLast .returnValue
  if !(← endsWith .returnValue) then discard (emit .returnNull [])

mutual

/-- Writes the code of an expression. -/
def expression : Expression → Assembling Unit
  | .literal value span => literal value span
  | .name identifier => do
    let symbol ← collecting (Compiling.resolve identifier)
    load symbol
  | .unary operator operand _ => do
    expression operand
    let _ ← emit operator.opcode []
  | .binary operator left right _ => do
    if operator.isSwapped then
      expression right
      expression left
    else
      expression left
      expression right
    operator.opcodes.forM fun opcode => discard (emit opcode [])
  | .conditional condition consequence alternative span => do
    expression condition
    let exit ← emit .jumpNotTruthy [Instruction.placeholder]
    branch consequence
    let beyond ← emit .jump [Instruction.placeholder]
    patch exit .jumpNotTruthy (← position) span
    match alternative with
    | some alternative => branch alternative
    | none => discard (emit .null [])
    patch beyond .jump (← position) span
  | .whileLoop condition body span => do
    let again ← position
    expression condition
    let exit ← emit .jumpNotTruthy [Instruction.placeholder]
    block body
    let _ ← emit .jump [again]
    patch exit .jumpNotTruthy (← position) span
    let _ ← emit .null []
  | .forLoop first condition post body span => do
    binding first
    let again ← position
    expression condition
    let exit ← emit .jumpNotTruthy [Instruction.placeholder]
    block body
    expression post
    let _ ← emit .pop []
    let _ ← emit .jump [again]
    patch exit .jumpNotTruthy (← position) span
    let _ ← emit .null []
  | .function parameters body span => function none parameters span body
  | .call callee arguments span => do
    collecting (Compiling.require (arguments.length ≤ Limit.callArguments.bound)
      .callArguments span)
    expression callee
    expressions arguments
    let _ ← emit .call [arguments.length]
  | .array elements span => do
    collecting (Compiling.require (elements.length ≤ Limit.arrayElements.bound)
      .arrayElements span)
    expressions elements
    let _ ← emit .array [elements.length]
  | .index target index _ => do
    expression target
    expression index
    let _ ← emit .index []
  | .assign target value _ => do
    let symbol ← collecting (Compiling.resolve target)
    expression value
    store target symbol
    load symbol

/-- Writes the code of expressions, one after another. -/
def expressions : List Expression → Assembling Unit
  | [] => pure ()
  | item :: items => do
    expression item
    expressions items

/-- Writes the code of a function into a buffer of its own, and then what pushes the function. -/
def function (name : Option String) (parameters : List Name) (span : Span) :
    Block → Assembling Unit
  | .mk body _ => do
    enter
    parameters.forM fun parameter => discard (collecting (Compiling.define parameter))
    statements body
    leaveLast
    let (code, locals) ← leave
    functionConstant name parameters span code locals

/-- Writes the code of a branch, whose value stays on the stack. -/
def branch : Block → Assembling Unit
  | .mk body _ => do
    statements body
    keepLast

/-- Writes the code of a block. -/
def block : Block → Assembling Unit
  | .mk body _ => statements body

/-- Writes the code of a binding. -/
def binding : Binding → Assembling Unit
  | .mk name (.function parameters body span) _ => do
    let symbol ← collecting (Compiling.define name)
    function (some name.text) parameters span body
    store name symbol
  | .mk name value _ => do
    expression value
    let symbol ← collecting (Compiling.define name)
    store name symbol

/-- Writes the code of a statement. -/
def statement : Statement → Assembling Unit
  | .bind bound => binding bound
  | .leave value span => departure value span
  | .expression value _ => do
    expression value
    let _ ← emit .pop []

/-- Writes what leaves a function. -/
def departure : Option Expression → Span → Assembling Unit
  | value, span => do
    if !(← inFunction) then throw (.rejected (.returnOutsideFunction span))
    match value with
    | some value => expression value
    | none => discard (emit .null [])
    let _ ← emit .returnValue []

/-- Writes the code of statements, one after another. -/
def statements : List Statement → Assembling Unit
  | [] => pure ()
  | first :: rest => do
    statement first
    statements rest

end

end Assembling

namespace Assembler

/-- Compiles a program.  The code is taken out of its buffer, or dropped with all functions that
are open if the program is refused. -/
def compile (assembler : Assembler) (program : Program) :
    Except Obstacle CompiledProgram × Assembler :=
  match Assembling.statements program.statements assembler with
  | .ok () assembler =>
    match assembler.takeCode? with
    | some (code, assembler) => (.ok ⟨code, assembler.compiler.constants⟩, assembler)
    | none => (.error .outOfRange, assembler)
  | .error (.rejected fault) assembler =>
    match unwind? assembler.compiler assembler.buffers with
    | some assembler => (.error (.rejected fault), assembler)
    | none => (.error .outOfRange, assembler)
  | .error .outOfRange assembler => (.error .outOfRange, assembler)

end Assembler

end MonkeyLang
