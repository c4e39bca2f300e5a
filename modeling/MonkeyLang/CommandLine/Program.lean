import MonkeyLang.CommandLine.Commands
import MonkeyLang.CommandLine.Interactive

/-!
# The program

The program reads its arguments, loads the settings and does what it is asked to do.  Its exit
code tells whether it failed, and whether the arguments were at fault.
-/

set_option autoImplicit false

namespace MonkeyLang.CommandLine

variable {m : Type → Type} [Monad m]

/-- What the user reads about wrong arguments. -/
def usageText (mistake : String) : String :=
  s!"error: {mistake}\n\nFor more information, try '--help'.\n"

/-- Does what the program is asked to do.  A run may take at most a given number of steps of the
machine, and a session at most a given number of lines. -/
def perform (world : World m) (steps lines : Nat) (arguments : Arguments) : Action m Unit := do
  let settings ← loadSettings world arguments.options
  match arguments.command with
  | .run file json =>
    runFile world steps settings.limits file (json || wantsJson world.environment)
  | .interact noHistory => ExceptT.lift (interact world steps lines settings noHistory)
  | .list file => listFile world file
  | .tree file => treeOfFile world file

/-- The whole program, up to its exit code. -/
def exitCode (world : World m) (steps lines : Nat) (arguments : List String) : m UInt32 := do
  match Arguments.read world.environment arguments with
  | .error mistake =>
    world.complain (usageText mistake)
    return 2
  | .ok arguments =>
    match ← (perform world steps lines arguments).run with
    | .ok _ => return 0
    | .error failure =>
      world.complain failure.text
      return 1

end MonkeyLang.CommandLine
