import MonkeyLang.Settings.Schema
import MonkeyLang.Text.Ranges

/-!
# Layers of settings

Settings come from several tables and from the environment.  A later table is laid over an
earlier one key by key, section by section; the environment overrides all tables.  Only the
outcome has to make sense: a limit that is overridden may have any value.
-/

set_option autoImplicit false

namespace MonkeyLang

/-- The variables of the environment. -/
abbrev Environment := String → Option String

namespace Toml

mutual

/-- A value laid over another: two tables are joined key by key, and any other value takes the
place of the one below. -/
def Value.over : Value → Value → Value
  | .table above, .table below => .table (Table.over above below)
  | above, _ => above

/-- A table laid over another. -/
def Table.over : List (String × Value) → Table → Table
  | [], below => below
  | (key, value) :: rest, below =>
    let joined := match below.find? key with
      | some old => Value.over value old
      | none => value
    Table.over rest (below.replace key joined)

end

end Toml

namespace Settings

/-- The size in a variable of the environment, if it is set. -/
def sizeVariable (environment : Environment) (name : String) :
    Except SettingsFault (Option Nat) :=
  match environment name with
  | none => .ok none
  | some raw =>
    match Number.readSize? (Text.trimBlanks raw.toList) with
    | some size => .ok (some size)
    | none => .error (.invalid name s!"expected a non-negative integer, got '{raw}'")

/-- Whether the text of a variable means yes. -/
def isYes (text : String) : Bool := ["true", "1", "yes"].contains (text.map Char.toLower)

/-- The settings with what the environment overrides. -/
def withEnvironment (environment : Environment) (settings : Settings) :
    Except SettingsFault Settings := do
  let stackSize ← sizeVariable environment "MONKEY_STACK_SIZE"
  let maxFrames ← sizeVariable environment "MONKEY_MAX_FRAMES"
  let globalsSize ← sizeVariable environment "MONKEY_GLOBALS_SIZE"
  let limits : Limits :=
    ⟨stackSize.getD settings.limits.stackSize, maxFrames.getD settings.limits.maxFrames,
      globalsSize.getD settings.limits.globalsSize⟩
  let isSilenced := ((environment "MONKEY_NO_HISTORY").map isYes).getD false
  return { settings with
    limits
    history := settings.history && !isSilenced
    historyFile := (environment "MONKEY_HISTORY_FILE").orElse fun _ => settings.historyFile }

/-- The settings in tables, of which the later ones are laid over the earlier ones, and in the
environment.  A fault of the tables is told of the last file. -/
def layered (layers : List (String × Toml.Table)) (environment : Environment) :
    Except SettingsFault Settings := do
  let merged := layers.foldl (fun below (_, above) => Toml.Table.over above below) []
  let lastFile := ((layers.getLast?).map Prod.fst).getD ""
  match if hasSurplus merged then none else ofTable? merged with
  | none => throw (.unfit lastFile)
  | some settings =>
    let settings ← settings.withEnvironment environment
    settings.validate
    return settings

end Settings

end MonkeyLang
