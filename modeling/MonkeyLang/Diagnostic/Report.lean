import MonkeyLang.Diagnostic.Basic
import MonkeyLang.Json.Writer

/-!
# Showing diagnostics

A diagnostic is shown to people in three ways: as a full report with the marked line, as
one line, and as the bare finding of an interactive session.  Programs get it as JSON.
-/

set_option autoImplicit false

namespace MonkeyLang.Diagnostic

/-- The level, the code and the message. -/
def headline (diagnostic : Diagnostic) : String :=
  s!"{diagnostic.level.name}[{diagnostic.code}]: {diagnostic.message}"

/-- A number, with blanks in front, in at least the given number of places. -/
def padded (places : Nat) (number : Nat) : String :=
  let digits := toString number
  String.ofList (List.replicate (places - digits.length) ' ') ++ digits

/-- The line of carets under the marked characters, with the remark behind them. -/
def caretLine (diagnostic : Diagnostic) : String :=
  let indent := String.ofList (List.replicate (diagnostic.column - 1) ' ')
  let carets := String.ofList (List.replicate diagnostic.length '^')
  let remark := if diagnostic.label.isEmpty then "" else " " ++ diagnostic.label
  "   | " ++ indent ++ carets ++ remark ++ "\n"

/-- The line of the source with the marked characters, if it is known. -/
def excerpt (diagnostic : Diagnostic) : String :=
  if diagnostic.snippet.isEmpty then ""
  else
    let gutter := padded 2 diagnostic.line
    let marked := if 0 < diagnostic.length then diagnostic.caretLine else ""
    s!"   |\n{gutter} | {diagnostic.snippet}\n" ++ marked

/-- The full report. -/
def report (diagnostic : Diagnostic) : String :=
  let place := s!"  --> {diagnostic.file}:{diagnostic.line}:{diagnostic.column}\n"
  let notes := diagnostic.notes.map fun note => s!"   = note: {note}\n"
  let help := match diagnostic.help with
    | some help => s!"   = help: {help}\n"
    | none => ""
  diagnostic.headline ++ "\n" ++ place ++ diagnostic.excerpt ++ String.join notes ++ help

/-- The report on one line. -/
def oneLine (diagnostic : Diagnostic) : String :=
  s!"{diagnostic.line}:{diagnostic.column}: {diagnostic.level.name}: {diagnostic.message}"

/-- The finding as an interactive session shows it, where the input is one line. -/
def brief (diagnostic : Diagnostic) : String :=
  if diagnostic.snippet.isEmpty then diagnostic.headline
  else s!"{diagnostic.headline} (column {diagnostic.column})"

/-- The finding as data; no notes and no help are left out. -/
def toJson (diagnostic : Diagnostic) : Json :=
  let notes := if diagnostic.notes.isEmpty then []
    else [("notes", Json.array (diagnostic.notes.map .string))]
  let help := match diagnostic.help with
    | some help => [("help", Json.string help)]
    | none => []
  .object <|
    [("diag_version", .natural formVersion),
     ("level", .string diagnostic.level.name),
     ("code", .string diagnostic.code),
     ("message", .string diagnostic.message),
     ("file", .string diagnostic.file),
     ("line", .natural diagnostic.line),
     ("column", .natural diagnostic.column),
     ("length", .natural diagnostic.length),
     ("snippet", .string diagnostic.snippet),
     ("label", .string diagnostic.label)] ++ notes ++ help

end MonkeyLang.Diagnostic
