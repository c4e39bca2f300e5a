import MonkeyLang.Number.Read
import MonkeyLang.Settings.Basic
import MonkeyLang.Toml.Basic

/-!
# Settings as tables

A table of settings has a section for the machine and one for interactive sessions.  What is
left out keeps its usual value, and a key that means nothing is a mistake.  A section may also be
an array of its values in their order; what is missing at its end keeps its usual value.
-/

set_option autoImplicit false

namespace MonkeyLang

open Toml (Table Value)

namespace Settings

/-- The keys of the section for the machine. -/
def machineKeys : List String := ["stack_size", "max_frames", "globals_size"]

/-- The keys of the section for interactive sessions. -/
def sessionKeys : List String := ["prompt", "history", "history_file"]

/-- The entries of a section, if its keys have a meaning.  The values of an array belong to the
keys in their order; values behind the last key are passed over. -/
def entries? (keys : List String) : Toml.Value → Option Table
  | .table entries => if entries.all fun entry => keys.contains entry.1 then some entries else none
  | .array items => some (keys.zip items)
  | _ => none

/-- A size, or its usual value. -/
def size? (entries : Table) (key : String) (usual : Nat) : Option Nat :=
  match entries.find? key with
  | none => some usual
  | some (.integer value) => if 0 ≤ value then some value.toNat else none
  | some _ => none

/-- A string, or its usual value. -/
def string? (entries : Table) (key usual : String) : Option String :=
  match entries.find? key with
  | none => some usual
  | some (.string value) => some value
  | some _ => none

/-- A truth value, or its usual value. -/
def boolean? (entries : Table) (key : String) (usual : Bool) : Option Bool :=
  match entries.find? key with
  | none => some usual
  | some (.boolean value) => some value
  | some _ => none

/-- A string that may be missing. -/
def optionalString? (entries : Table) (key : String) : Option (Option String) :=
  match entries.find? key with
  | none => some none
  | some (.string value) => some (some value)
  | some _ => none

/-- The limits in a section. -/
def limitsOf? (content : Toml.Value) : Option Limits := do
  let entries ← entries? machineKeys content
  return ⟨← size? entries "stack_size" Limits.default.stackSize,
    ← size? entries "max_frames" Limits.default.maxFrames,
    ← size? entries "globals_size" Limits.default.globalsSize⟩

/-- The settings in a table. -/
def ofTable? (table : Table) : Option Settings := do
  if !table.all fun entry => ["vm", "repl"].contains entry.1 then none
  let limits ← match table.find? "vm" with
    | none => some Limits.default
    | some content => limitsOf? content
  let entries ← match table.find? "repl" with
    | none => some []
    | some content => entries? sessionKeys content
  return ⟨limits, ← string? entries "prompt" Settings.default.prompt,
    ← boolean? entries "history" Settings.default.history,
    ← optionalString? entries "history_file"⟩

/-- Whether a section is an array with more values than there are keys. -/
def hasSurplus (table : Table) : Bool :=
  table.any fun
    | (_, .array items) => machineKeys.length < items.length
    | _ => false

/-- The settings as a table. -/
def toTable (settings : Settings) : Table :=
  let sizes := [settings.limits.stackSize, settings.limits.maxFrames, settings.limits.globalsSize]
  let machine : Table := (machineKeys.zip sizes).map fun (key, size) => (key, .integer size)
  let session : Table := [("prompt", .string settings.prompt), ("history", .boolean settings.history)]
  let historyFile : Table := settings.historyFile.toList.map fun path => ("history_file", .string path)
  [("vm", .table machine), ("repl", .table (session ++ historyFile))]

/-- The settings as a file. -/
def write? (library : Toml.Library) (settings : Settings) : Option String :=
  library.write? settings.toTable

end Settings

end MonkeyLang
