import MonkeyLang.Machine.Basic

/-!
# Settings

The settings are the limits of the machine and the preferences of interactive sessions.  Not all
limits make sense: each must be positive, and there are no more global slots than an operand can
name.
-/

set_option autoImplicit false

namespace MonkeyLang

/-- The settings. -/
structure Settings where
  limits : Limits
  /-- What an interactive session writes in front of an input. -/
  prompt : String
  /-- Whether inputs are kept for later sessions. -/
  history : Bool
  /-- Where they are kept; there is a usual place. -/
  historyFile : Option String
  deriving DecidableEq, Repr

/-- The settings where none are made. -/
def Settings.default : Settings := ⟨Limits.default, ">> ", true, none⟩

instance : Inhabited Settings := ⟨Settings.default⟩

/-- Why there are no settings to work with. -/
inductive SettingsFault where
  | missing (path : String)
  /-- A file or directory cannot be used; the reason is the operating system's. -/
  | unusable (reason : String)
  /-- A file is no table of settings. -/
  | unfit (path : String)
  | invalid (field reason : String)
  | homeless
  deriving DecidableEq, Repr

namespace SettingsFault

/-- The name of a kind of fault. -/
def name : SettingsFault → String
  | missing _ => "NotFound"
  | unusable _ => "IoError"
  | unfit _ => "TomlParseError"
  | invalid _ _ => "InvalidValue"
  | homeless => "HomeNotFound"

/-- What the user reads about a fault. -/
def message : SettingsFault → String
  | missing path => s!"Configuration file not found: {path}"
  | unusable reason => s!"Failed to read configuration file: {reason}"
  | unfit path => s!"Invalid TOML syntax in {path}"
  | invalid field reason => s!"Invalid value for '{field}': {reason}"
  | homeless => "Home directory not found"

/-- The messages of a fault and of what caused it. -/
def messages (fault : SettingsFault) : List String :=
  match fault with
  | unusable reason => [fault.message, reason]
  | _ => [fault.message]

end SettingsFault

namespace Limits

/-- A limit that must be positive. -/
def requirePositive (field : String) (value : Nat) : Except SettingsFault Unit :=
  if value = 0 then .error (.invalid field "must be greater than zero") else .ok ()

/-- Whether the limits make sense. -/
def validate (limits : Limits) : Except SettingsFault Unit := do
  requirePositive "vm.stack_size" limits.stackSize
  requirePositive "vm.max_frames" limits.maxFrames
  requirePositive "vm.globals_size" limits.globalsSize
  if Limits.default.globalsSize < limits.globalsSize then
    throw (.invalid "vm.globals_size" s!"must be at most {Limits.default.globalsSize}")

end Limits

/-- Whether the settings make sense. -/
def Settings.validate (settings : Settings) : Except SettingsFault Unit :=
  settings.limits.validate

end MonkeyLang
