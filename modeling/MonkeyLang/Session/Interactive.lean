import MonkeyLang.Session.Evaluate

/-!
# Interactive sessions

A session evaluates one input after another.  Names, constants and global slots are kept, and
nothing is taken back after an error: a name that an input bound before its error stays bound,
and what a program stored before its fault stays stored.
-/

set_option autoImplicit false

namespace MonkeyLang

/-- What is kept between inputs. -/
structure Session where
  scope : Scope
  constants : Array Value
  globals : Globals
  limits : Limits

namespace Session

/-- The answer to an input. -/
structure Reply where
  /-- The value of the input, if it has one. -/
  value : Option Value
  /-- Warnings and errors. -/
  diagnostics : List Diagnostic
  output : String

/-- Whether an input failed. -/
def Reply.hasErrors (reply : Reply) : Bool := reply.diagnostics.any Diagnostic.isError

/-- A session without inputs. -/
def new (limits : Limits) : Session where
  scope := Compiler.new.scope
  constants := Compiler.new.constants
  globals := Globals.ofSize limits.globalsSize
  limits

/-- The session without what was evaluated so far. -/
def reset (session : Session) : Session := new session.limits

/-- The global names, in the order of their slots. -/
def names (session : Session) : List String := session.scope.slotNames

/-- The session with the names and the constants that a compiler has collected. -/
def keep (session : Session) (compiler : Compiler) : Session :=
  { session with scope := compiler.scope, constants := compiler.constants }

/-- What became of a program in a session. -/
structure Execution where
  /-- How the run came out, if the program was compiled, and where the machine is afterwards.
  There is no outcome if the steps were used up. -/
  result : Except CompileFault (Option (Except Fault Unit) × Machine)
  warnings : Array Diagnostic

/-- Compiles a program and runs it with at most a given number of steps of the machine. -/
def execute (steps : Nat) (session : Session) (program : Program) : Execution × Session :=
  let (compiled, compiler) := (Compiler.resume session.scope session.constants).compile program
  let session := session.keep compiler
  match compiled with
  | .error fault => (⟨.error fault, compiler.warnings⟩, session)
  | .ok compiled =>
    let run := (Machine.load compiled session.limits session.globals).run steps
    (⟨.ok run, compiler.warnings⟩, { session with globals := run.2.globals })

/-- Evaluates an input with at most a given number of steps of the machine.  An input that
needs more has no value yet. -/
def evaluate (steps : Nat) (session : Session) (source : List Char) : Reply × Session :=
  match Program.ofSource source with
  | .error diagnostics => (⟨none, diagnostics, ""⟩, session)
  | .ok program =>
    let (execution, session) := session.execute steps program
    let warnings := execution.warnings.toList.map (Diagnostic.locate source)
    match execution.result with
    | .error fault => (⟨none, warnings ++ [fault.diagnostic.locate source], ""⟩, session)
    | .ok (some (.ok _), machine) =>
      (⟨machine.result? program, warnings, machine.output⟩, session)
    | .ok (some (.error fault), machine) =>
      (⟨none, warnings ++ [fault.diagnostic], machine.output⟩, session)
    | .ok (none, machine) => (⟨none, warnings, machine.output⟩, session)

end Session

end MonkeyLang
