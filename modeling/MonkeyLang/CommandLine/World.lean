import MonkeyLang.Files.Access
import MonkeyLang.Json.Basic
import MonkeyLang.Settings.Layers

/-!
# The world around the program

A command reads and writes files, lines of input, output and complaints.  All of this is given as
a record over any monad.
-/

set_option autoImplicit false

namespace MonkeyLang.CommandLine

/-- What a command can do, and what it knows. -/
structure World (m : Type → Type) where
  files : Files m
  environment : Environment
  /-- The home directory of the user, if the operating system knows one. -/
  home : Option String
  workingDirectory : String
  /-- What files of settings are read with. -/
  toml : Toml.Library
  /-- What programs are written with as data. -/
  json : Json.Library
  /-- Writes to the output. -/
  write : String → m Unit
  /-- Writes to the place for complaints. -/
  complain : String → m Unit
  /-- The next line of the input without its end; none at the end of the input.  Somebody who
  types it sees the given text in front. -/
  readLine : String → m (Option String)

variable {m : Type → Type}

/-- Writes a line. -/
def World.writeLine (world : World m) (text : String) : m Unit := world.write (text ++ "\n")

/-- Why a command fails: what failed, and what caused it, each because of the next. -/
structure Failure where
  message : String
  causes : List String
  deriving DecidableEq, Repr

namespace Failure

/-- A text whose lines but the first are moved to the right. -/
def indented (margin text : String) : String := text.replace "\n" ("\n" ++ margin)

/-- A cause in a list of several. -/
def numberedCause (index : Nat) (cause : String) : String :=
  let digits := toString index
  "\n" ++ String.ofList (List.replicate (5 - digits.length) ' ') ++ digits ++ ": "
    ++ indented "       " cause

/-- What the user reads about a failure. -/
def text (failure : Failure) : String :=
  let causes := match failure.causes with
    | [] => ""
    | [cause] => "\n\nCaused by:\n    " ++ indented "    " cause
    | causes =>
      "\n\nCaused by:" ++ String.join (causes.zipIdx.map fun (cause, index) =>
        numberedCause index cause)
  s!"Error: {failure.message}{causes}\n"

end Failure

/-- A part of a command; it may fail. -/
abbrev Action (m : Type → Type) := ExceptT Failure m

end MonkeyLang.CommandLine
