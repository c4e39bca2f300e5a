import MonkeyLang.CommandLine.World
import MonkeyLang.Diagnostic.Report
import MonkeyLang.Session.Interactive
import MonkeyLang.Settings.Loader

/-!
# The interactive command

Every line of the input is evaluated, except for those that start with a colon: they are requests
to the program itself.
-/

set_option autoImplicit false

namespace MonkeyLang.CommandLine

/-- The version of the program. -/
def version : String := "0.1.0"

/-- What a line asks for. -/
inductive Request where
  | nothing
  | quit
  | reset
  | help
  | names
  | unknown (text : String)
  | evaluate
  deriving DecidableEq, Repr

/-- What a line asks for. -/
def Request.ofLine (line : String) : Request :=
  match Text.trim line with
  | "" => nothing
  | ":quit" | ":q" => quit
  | ":reset" => reset
  | ":help" | ":h" => help
  | ":vars" | ":v" => names
  | text => if text.startsWith ":" then unknown text else evaluate

/-- The text about the requests. -/
def helpText : String :=
  "Monkey REPL Commands:\n"
    ++ "  :quit, :q         Exit the REPL\n"
    ++ "  :reset            Clear all variables and functions\n"
    ++ "  :help, :h         Show this help message\n"
    ++ "  :vars, :v         List defined globals\n"
    ++ "\n"
    ++ "Type any Monkey expression or statement to evaluate it.\n"
    ++ "Examples:\n"
    ++ "  >> 1 + 2\n"
    ++ "  >> var x = 42;\n"
    ++ "  >> var double = func(n) \x7b n * 2 \x7d;\n"
    ++ "  >> double(x)\n"

/-- The text at the start. -/
def greeting : String :=
  s!"Monkey v{version} REPL\nType expressions or statements, or :quit to exit\n\n"

/-- The list of the global names. -/
def namesText (names : List String) : String :=
  if names.isEmpty then "No variables defined.\n"
  else String.join (names.map fun name => s!"  {name}\n")

/-- What is shown of the answer to an input: what it printed, then its diagnostics, then its
value, unless that is null. -/
def replyText (reply : Session.Reply) : String :=
  let diagnostics := reply.diagnostics.map fun diagnostic => diagnostic.brief ++ "\n"
  let value := match reply.value with
    | some value => if value.isNull then "" else value.text ++ "\n"
    | none => ""
  reply.output ++ String.join diagnostics ++ value

/-- The text that answers a line, and the session behind it; none if the line ends the
session. -/
def respond (steps : Nat) (session : Session) (line : String) : String × Option Session :=
  match Request.ofLine line with
  | .nothing => ("", some session)
  | .quit => ("Goodbye!\n", none)
  | .reset => ("REPL state reset\n", some session.reset)
  | .help => (helpText, some session)
  | .names => (namesText session.names, some session)
  | .unknown text => (s!"Unknown command {text} (try :help)\n", some session)
  | .evaluate =>
    let (reply, session) := session.evaluate steps line.toList
    (replyText reply, some session)

variable {m : Type → Type} [Monad m]

/-- Answers lines until the input or the session ends, at most a given number of them. -/
def answerLines (world : World m) (prompt : String) (steps : Nat) : Nat → Session → m Unit
  | 0, _ => pure ()
  | lines + 1, session => do
    match ← world.readLine prompt with
    | none => world.writeLine "Goodbye!"
    | some line =>
      let (text, next) := respond steps session line
      world.write text
      match next with
      | some session => answerLines world prompt steps lines session
      | none => pure ()

/-- The interactive command.  That the place for the history cannot be made is no failure. -/
def interact (world : World m) (steps lines : Nat) (settings : Settings) (noHistory : Bool) :
    m Unit := do
  if !noHistory then
    let _ ← (settings.prepareHistory world.files world.home).run
  world.write greeting
  answerLines world settings.prompt steps lines (Session.new settings.limits)

end MonkeyLang.CommandLine
