import MonkeyLang.CommandLine.Arguments
import MonkeyLang.CommandLine.World
import MonkeyLang.Diagnostic.Report
import MonkeyLang.Program.Writer
import MonkeyLang.Session.Evaluate
import MonkeyLang.Settings.Loader

/-!
# Commands

Settings are loaded before any command runs.  Limits among the arguments count more than those in
files and in the environment.  Diagnostics are complaints, or, where they are wanted as data,
output.
-/

set_option autoImplicit false

namespace MonkeyLang.CommandLine

variable {m : Type → Type} [Monad m]

/-- Fails with a message. -/
def fail {α : Type} (message : String) : Action m α := throw ⟨message, []⟩

/-- What failed because of the settings. -/
def withCause (message : String) (fault : SettingsFault) : Failure := ⟨message, fault.messages⟩

/-- The settings with the limits among the arguments. -/
def Options.applyTo (options : Options) (settings : Settings) : Settings :=
  { settings with
    limits :=
      { settings.limits with
        stackSize := options.stackSize.getD settings.limits.stackSize
        maxFrames := options.maxFrames.getD settings.limits.maxFrames } }

/-- The settings for a command. -/
def loadSettings (world : World m) (options : Options) : Action m Settings := do
  let userFile := Settings.userFile? world.home
  let loaded ← match options.settingsFile with
    | some path =>
      (Settings.loadWith world.toml world.files world.environment userFile path).adapt
        (withCause s!"Failed to load configuration from {path}")
    | none =>
      (Settings.loadFor world.toml world.files world.environment userFile
        world.workingDirectory).adapt (withCause "Failed to load configuration")
  let settings := options.applyTo loaded.settings
  match settings.validate with
  | .ok _ => return settings
  | .error fault => throw (withCause "Invalid command-line limits" fault)

/-- Whether the environment asks for diagnostics as data. -/
def wantsJson (environment : Environment) : Bool :=
  ((environment "MONKEY_DIAGNOSTICS").map fun value => value.map Char.toLower == "json").getD false

/-- The text of a source file. -/
def readSource (world : World m) (file : String) : Action m (List Char) := do
  match ← world.files.read file with
  | .ok text => return text.toList
  | .error fault => throw ⟨s!"Failed to read source file: {file}", [fault.message]⟩

/-- Shows diagnostics about a file. -/
def report (world : World m) (file : String) (json : Bool) (diagnostics : List Diagnostic) :
    Action m Unit := do
  let tagged := diagnostics.map (·.inFile file)
  if json then world.writeLine (Json.array (tagged.map Diagnostic.toJson)).indented
  else tagged.forM fun diagnostic => world.complain diagnostic.report

/-- Runs a file and shows its value, unless that is null. -/
def runFile (world : World m) (steps : Nat) (limits : Limits) (file : String) (json : Bool) :
    Action m Unit := do
  let source ← readSource world file
  let evaluation := evaluate steps limits source
  world.write evaluation.output
  match evaluation.result with
  | none => fail s!"Failed to execute {file}"
  | some (.ok completion) =>
    if !completion.warnings.isEmpty then report world file json completion.warnings
    if !completion.value.isNull then world.writeLine completion.value.text
  | some (.error diagnostics) =>
    report world file json diagnostics
    fail s!"Failed to execute {file}"

/-- Lists the instructions of a file. -/
def listFile (world : World m) (file : String) : Action m Unit := do
  let source ← readSource world file
  match compileSource source with
  | .ok compilation => world.write compilation.compiled.listing
  | .error diagnostics =>
    report world file false diagnostics
    fail s!"Failed to compile {file}"

/-- Shows the program in a file as data. -/
def treeOfFile (world : World m) (file : String) : Action m Unit := do
  let source ← readSource world file
  match Program.ofSource source with
  | .ok program => world.writeLine (program.write world.json)
  | .error diagnostics =>
    report world file false diagnostics
    fail "Parse errors"

end MonkeyLang.CommandLine
