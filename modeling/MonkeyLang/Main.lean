import MonkeyLang.CommandLine.Program
import MonkeyLang.Program.Exchange
import MonkeyLang.Toml.Reader

/-!
# The executable

The world of the executable is the machine that it runs on.
-/

set_option autoImplicit false

namespace MonkeyLang

/-- The fault that an error of the operating system stands for. -/
def FileFault.ofError (error : IO.Error) : FileFault :=
  match error with
  | .noFileOrDirectory _ _ _ => .missing
  | .alreadyExists _ _ _ => .alreadyExists
  | .inappropriateType _ code _ =>
    if code = 20 then .notDirectory else if code = 21 then .isDirectory
    else .other (toString error)
  | unnamed => .other (toString unnamed)

/-- Runs an action of the operating system. -/
def attempt {α : Type} (action : IO α) : IO (Except FileFault α) := do
  match ← action.toBaseIO with
  | .ok result => return .ok result
  | .error error => return .error (.ofError error)

/-- The files of the machine. -/
def machineFiles : Files IO where
  read path := do
    match ← attempt (IO.FS.readBinFile path) with
    | .error fault => return .error fault
    | .ok bytes =>
      match String.fromUTF8? bytes with
      | some text => return .ok text
      | none => return .error .notText
  doesExist path := do ((← IO.currentDir) / path).pathExists
  isFile path := do
    let place := (← IO.currentDir) / path
    return (← place.pathExists) && !(← place.isDir)
  isDirectory path := do ((← IO.currentDir) / path).isDir
  makeDirectory path := attempt (IO.FS.createDir path)

/-- A line without its end. -/
def withoutEnd (line : String) : String :=
  let text := line.toList
  let isEnded := text.getLast? == some '\n'
  let text := if isEnded then text.dropLast else text
  String.ofList (if isEnded && text.getLast? == some '\r' then text.dropLast else text)

/-- The next line of the input. -/
def readInput (prompt : String) : IO (Option String) := do
  let input ← IO.getStdin
  if ← input.isTty then
    IO.print prompt
    (← IO.getStdout).flush
  let line ← input.getLine
  return if line.isEmpty then none else some (withoutEnd line)

/-- The variables of the environment that have a meaning. -/
def knownVariables : List String :=
  ["MONKEY_STACK_SIZE", "MONKEY_MAX_FRAMES", "MONKEY_GLOBALS_SIZE", "MONKEY_HISTORY_FILE",
   "MONKEY_NO_HISTORY", "MONKEY_DIAGNOSTICS"]

/-- The home directory of the user.  A variable that is empty names none. -/
def homeDirectory : IO (Option String) := do
  return (← IO.getEnv "HOME").filter fun home => !home.isEmpty

/-- The world of the executable. -/
def machineWorld : IO (CommandLine.World IO) := do
  let known ← knownVariables.filterMapM fun name => do
    return (← IO.getEnv name).map fun value => (name, value)
  return {
    files := machineFiles
    environment := fun name => known.lookup name
    home := ← homeDirectory
    workingDirectory := toString (← IO.currentDir)
    toml := .standard
    json := .standard
    write := fun text => do
      IO.print text
      (← IO.getStdout).flush
    complain := fun text => IO.eprint text
    readLine := readInput }

/-- More steps, and more lines, than anybody waits for. -/
def longEnough : Nat := Number.twoTo 60

end MonkeyLang

/-- The executable. -/
def main (arguments : List String) : IO UInt32 := do
  MonkeyLang.CommandLine.exitCode (← MonkeyLang.machineWorld) MonkeyLang.longEnough
    MonkeyLang.longEnough arguments
