import MonkeyLang.Compiler.Generate
import MonkeyLang.Machine.Run
import MonkeyLang.Program.Source
import MonkeyLang.Files.Access

/-!
# Evaluating a text

A text is read, compiled and run from scratch.  Each stage starts only if the one before found
no error.  The value of a program is the value of its last statement if that is an expression,
and null otherwise.  Warnings are told only if the program comes to its end.

The diagnostics of a file carry its name, also the one about a file that cannot be read.
-/

set_option autoImplicit false

namespace MonkeyLang

/-- A program with its compiled form. -/
structure Compilation where
  program : Program
  compiled : CompiledProgram
  warnings : List Diagnostic

/-- Compiles a text. -/
def compileSource (source : List Char) : Except (List Diagnostic) Compilation := do
  let program ← Program.ofSource source
  let (compiled, compiler) := Compiler.new.compile program
  match compiled with
  | .ok compiled =>
    return ⟨program, compiled, compiler.warnings.toList.map (Diagnostic.locate source)⟩
  | .error fault => throw [fault.diagnostic.locate source]

/-- The value of a program that has come to its end. -/
def Machine.result? (machine : Machine) (program : Program) : Option Value :=
  if endsInExpression program.statements then some machine.lastPopped else none

/-- What a successful evaluation yields. -/
structure Completion where
  value : Value
  warnings : List Diagnostic

/-- What an evaluation yields and prints. -/
structure Evaluation where
  /-- Missing if the evaluation needs more steps than it was given. -/
  result : Option (Except (List Diagnostic) Completion)
  output : String

/-- Evaluates a text with at most a given number of steps of the machine. -/
def evaluate (steps : Nat) (limits : Limits) (source : List Char) : Evaluation :=
  match compileSource source with
  | .error diagnostics => ⟨some (.error diagnostics), ""⟩
  | .ok compilation =>
    let machine := Machine.load compilation.compiled limits (Globals.ofSize limits.globalsSize)
    let (outcome, machine) := machine.run steps
    let result := outcome.map fun
      | .ok _ => .ok ⟨(machine.result? compilation.program).getD .null, compilation.warnings⟩
      | .error fault => .error [fault.diagnostic]
    ⟨result, machine.output⟩

/-! ## Files -/

/-- The diagnostic about a file that cannot be read. -/
def unreadableFile (path : String) (fault : FileFault) : Diagnostic :=
  (Diagnostic.error Diagnostic.Code.other s!"failed to read {path}: {fault.message}"
    Span.dummy).inFile path

/-- An evaluation whose diagnostics carry the name of a file. -/
def Evaluation.inFile (evaluation : Evaluation) (path : String) : Evaluation :=
  { evaluation with
    result := evaluation.result.map fun
      | .ok completion => .ok completion
      | .error diagnostics => .error (diagnostics.map (·.inFile path)) }

/-- Evaluates the text of a file. -/
def evaluateFile {m : Type → Type} [Monad m] (files : Files m) (steps : Nat) (limits : Limits)
    (path : String) : m Evaluation := do
  match ← files.read path with
  | .error fault => return ⟨some (.error [unreadableFile path fault]), ""⟩
  | .ok source => return (evaluate steps limits source.toList).inFile path

end MonkeyLang
