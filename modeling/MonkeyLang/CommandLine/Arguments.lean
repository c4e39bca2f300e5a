import MonkeyLang.Number.Read

/-!
# Arguments

The first argument that is no option names a command; what follows belongs to the command.  The
options for limits and for the file of settings may stand in front of the command or behind it,
once in each place, and those behind it count.
-/

set_option autoImplicit false

namespace MonkeyLang.CommandLine

/-- What the program is asked to do. -/
inductive Command where
  /-- Run a file; diagnostics are wanted as data or not. -/
  | run (file : String) (json : Bool)
  /-- Evaluate inputs one after another; they are not kept if `noHistory` is set. -/
  | interact (noHistory : Bool)
  /-- List the instructions of a file. -/
  | list (file : String)
  /-- Show the program in a file as data. -/
  | tree (file : String)
  deriving DecidableEq, Repr

/-- The options that go with every command. -/
structure Options where
  stackSize : Option Nat
  maxFrames : Option Nat
  /-- A file of settings in place of that of the project. -/
  settingsFile : Option String
  deriving DecidableEq, Repr

namespace Options

/-- No options. -/
def empty : Options := ⟨none, none, none⟩

/-- Options of which the first ones count where both are given. -/
def orElse (first second : Options) : Options :=
  ⟨first.stackSize.or second.stackSize, first.maxFrames.or second.maxFrames,
    first.settingsFile.or second.settingsFile⟩

end Options

/-- The arguments of the program. -/
structure Arguments where
  options : Options
  command : Command
  deriving DecidableEq, Repr

/-- The arguments behind the options, with what has been read. -/
structure Reading where
  options : Options
  /-- The switches that are set. -/
  switches : List String
  /-- The arguments that are no options. -/
  words : List String

/-- An option that may be given once. -/
def once {α : Type} (name : String) (old : Option α) (value : α) : Except String (Option α) :=
  match old with
  | some _ => .error s!"the argument '{name}' cannot be used multiple times"
  | none => .ok (some value)

/-- The size in an argument. -/
def sizeArgument (name value : String) : Except String Nat :=
  match Number.readSize? value.toList with
  | some size => .ok size
  | none => .error s!"invalid value '{value}' for '{name}': invalid digit found in string"

/-- The options with one more. -/
def Options.withValue (options : Options) (name value : String) :
    Except String Options := do
  match name with
  | "--stack-size" =>
    let size ← sizeArgument name value
    return { options with stackSize := ← once name options.stackSize size }
  | "--max-frames" =>
    let size ← sizeArgument name value
    return { options with maxFrames := ← once name options.maxFrames size }
  | "--config" => return { options with settingsFile := ← once name options.settingsFile value }
  | _ => throw s!"unexpected argument '{name}' found"

/-- The names of the options that have a value. -/
def valueOptions : List String := ["--stack-size", "--max-frames", "--config"]

/-- The name and the value of an option that are written together. -/
def joined? (argument : String) : Option (String × String) :=
  let text := argument.toList
  let name := String.ofList (text.takeWhile (· != '='))
  if valueOptions.contains name && text.contains '=' then
    some (name, String.ofList ((text.dropWhile (· != '=')).drop 1))
  else none

/-- Reads options up to the next word, or, if `all` is set, to the end. -/
def readOptions (all : Bool) : List String → Reading → Except String (Reading × List String)
  | [], reading => .ok (reading, [])
  | argument :: rest, reading =>
    if !argument.startsWith "-" || argument == "-" then
      if all then readOptions all rest { reading with words := reading.words ++ [argument] }
      else .ok (reading, argument :: rest)
    else
      match joined? argument with
      | some (name, value) => do
        let options ← reading.options.withValue name value
        readOptions all rest { reading with options }
      | none =>
        if valueOptions.contains argument then
          match rest with
          | [] => .error s!"a value is required for '{argument}' but none was supplied"
          | value :: rest =>
            if value.startsWith "-" && value != "-" then
              .error s!"unexpected argument '{value}' found"
            else do
              let options ← reading.options.withValue argument value
              readOptions all rest { reading with options }
        else if reading.switches.contains argument then
          .error s!"the argument '{argument}' cannot be used multiple times"
        else readOptions all rest { reading with switches := argument :: reading.switches }

/-- The one file that a command wants. -/
def oneFile (words : List String) : Except String String :=
  match words with
  | [file] => .ok file
  | [] => .error "the following required arguments were not provided:\n  <FILE>"
  | _ :: extra :: _ => .error s!"unexpected argument '{extra}' found"

/-- Fails if a switch is set that is not among the known ones. -/
def onlySwitches (known switches : List String) : Except String Unit :=
  match switches.find? fun switch => !known.contains switch with
  | some switch => .error s!"unexpected argument '{switch}' found"
  | none => .ok ()

/-- A switch that the environment sets if the arguments do not. -/
def switchOr (switches : List String) (name : String) (fallback : Option String) :
    Except String Bool :=
  if switches.contains name then .ok true
  else
    match fallback with
    | none => .ok false
    | some "true" => .ok true
    | some "false" => .ok false
    | some value =>
      .error s!"invalid value '{value}' for '{name}'\n  [possible values: true, false]"

/-- The command with a name. -/
def commandOf (environment : String → Option String) (name : String)
    (switches words : List String) : Except String Command := do
  match name with
  | "run" | "r" =>
    onlySwitches ["--json"] switches
    return .run (← oneFile words) (switches.contains "--json")
  | "repl" =>
    onlySwitches ["--no-history"] switches
    match words with
    | [] =>
      return .interact (← switchOr switches "--no-history" (environment "MONKEY_NO_HISTORY"))
    | word :: _ => throw s!"unexpected argument '{word}' found"
  | "disasm" | "d" =>
    onlySwitches [] switches
    return .list (← oneFile words)
  | "ast" =>
    onlySwitches [] switches
    return .tree (← oneFile words)
  | _ => throw s!"unrecognized subcommand '{name}'"

/-- The arguments of the program, or what is wrong with them. -/
def Arguments.read (environment : String → Option String) (arguments : List String) :
    Except String Arguments := do
  let (before, rest) ← readOptions false arguments ⟨.empty, [], []⟩
  onlySwitches [] before.switches
  match rest with
  | [] => throw "a command is missing"
  | name :: rest =>
    let (behind, _) ← readOptions true rest ⟨.empty, [], []⟩
    let command ← commandOf environment name behind.switches behind.words
    return ⟨behind.options.orElse before.options, command⟩

end MonkeyLang.CommandLine
