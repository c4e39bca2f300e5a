import MonkeyLang.Span
import MonkeyLang.Text.Lines

/-!
# Diagnostics

A diagnostic is an error or a warning about a program, whichever part of the
implementation found it.  It has a stable code, a message, the span it is about and the
place of that span in a file.  A new diagnostic does not know its text yet: it takes the
whole input for one line.  `Diagnostic.locate` finds its line, its column and the text of
the line.
-/

set_option autoImplicit false

namespace MonkeyLang

/-- How bad a finding is. -/
inductive Diagnostic.Level where
  | error
  | warning
  deriving DecidableEq, Repr, Inhabited

/-- A finding about a program. -/
structure Diagnostic where
  level : Diagnostic.Level
  code : String
  message : String
  file : String
  /-- The line, counted from one. -/
  line : Nat
  /-- The column, counted from one in characters. -/
  column : Nat
  /-- How many characters the finding is about. -/
  length : Nat
  /-- The text of the line, as far as it is known. -/
  snippet : String
  /-- A short remark beside the marked characters. -/
  label : String
  notes : List String
  help : Option String
  span : Span
  deriving DecidableEq, Repr, Inhabited

namespace Diagnostic

/-- The version of the form in which diagnostics are exchanged. -/
def formVersion : Nat := 1

/-- The name of a level. -/
def Level.name : Level → String
  | .error => "error"
  | .warning => "warning"

/-! ## Codes -/

namespace Code

def typeMismatch : String := "MK0001"
def undefinedName : String := "MK0002"
def assignToBuiltin : String := "MK0003"
def returnOutsideFunction : String := "MK0004"
def divideByZero : String := "MK0005"
def capturedLocal : String := "MK0006"
def limitExceeded : String := "MK0007"
def syntaxError : String := "MK1000"
def unexpectedCharacter : String := "MK1001"
def unterminatedString : String := "MK1002"
def invalidEscape : String := "MK1003"
def invalidNumber : String := "MK1004"
def shadowsBuiltin : String := "MK2001"
def arityMismatch : String := "MK3005"
def notCallable : String := "MK3006"
def notIndexable : String := "MK3011"
def frameOverflow : String := "MK9990"
def machineState : String := "MK9991"
def badOperand : String := "MK9995"
def stackOverflow : String := "MK9996"
def stackUnderflow : String := "MK9997"
def unknownOpcode : String := "MK9998"
def other : String := "MK9999"

end Code

/-! ## Making diagnostics -/

/-- A diagnostic that knows its span only. -/
def make (level : Level) (code message : String) (span : Span) : Diagnostic where
  level
  code
  message
  file := "<input>"
  line := 1
  column := span.start + 1
  length := span.length
  snippet := ""
  label := ""
  notes := []
  help := none
  span

/-- An error with a code. -/
def error (code message : String) (span : Span) : Diagnostic := make .error code message span

/-- A warning with a code. -/
def warning (code message : String) (span : Span) : Diagnostic :=
  make .warning code message span

/-- Whether the finding is an error. -/
def isError (diagnostic : Diagnostic) : Bool := diagnostic.level == .error

/-- The same finding in a named file. -/
def inFile (diagnostic : Diagnostic) (file : String) : Diagnostic := { diagnostic with file }

/-- The same finding on a given line. -/
def onLine (diagnostic : Diagnostic) (line : Nat) : Diagnostic := { diagnostic with line }

/-- The same finding, showing a given text of its line. -/
def showing (diagnostic : Diagnostic) (snippet : String) : Diagnostic :=
  { diagnostic with snippet }

/-- The same finding with a remark beside the marked characters. -/
def labelled (diagnostic : Diagnostic) (label : String) : Diagnostic := { diagnostic with label }

/-- The same finding with one more note. -/
def noting (diagnostic : Diagnostic) (note : String) : Diagnostic :=
  { diagnostic with notes := diagnostic.notes ++ [note] }

/-- The same finding with a hint for the user. -/
def helped (diagnostic : Diagnostic) (help : String) : Diagnostic :=
  { diagnostic with help := some help }

/-! ## Finding the place -/

/-- How many characters stand between the last line feed and the end of a text. -/
def lastLineLength (text : List Char) : Nat := (text.reverse.takeWhile (· != '\n')).length

/-- The same finding with the line, the column and the text of the line in which its span
starts. -/
def locate (source : List Char) (diagnostic : Diagnostic) : Diagnostic :=
  let before := source.take diagnostic.span.start
  let lineStart := before.length - lastLineLength before
  let earlierLines := before.count '\n'
  { diagnostic with
    line := earlierLines + 1
    column := diagnostic.span.start - lineStart + 1
    snippet := String.ofList (Text.lineAt earlierLines source) }

end Diagnostic

end MonkeyLang
