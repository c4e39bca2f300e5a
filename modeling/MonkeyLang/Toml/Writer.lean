import MonkeyLang.Number.Read
import MonkeyLang.Toml.Basic

/-!
# Writing tables

A table is written section by section.  A string has four written forms: between single or double
quotes, on one line or over several.  Between single quotes nothing has an escape; between double
quotes a run of quotes may need escapes too.  The first form is taken, in the order double, single,
long double, long single, in which the string needs no escape.  If there is none, double quotes and
escapes are used.
-/

set_option autoImplicit false

namespace MonkeyLang.Toml

/-- The written forms of a string. -/
inductive StringForm where
  | basic
  | literal
  | longBasic
  | longLiteral
  deriving DecidableEq, Repr

namespace StringForm

/-- What stands on both sides of the string. -/
def quotes : StringForm → String
  | basic => "\""
  | literal => "'"
  | longBasic => "\"\"\""
  | longLiteral => "'''"

/-- Whether the string may go over several lines. -/
def isLong : StringForm → Bool
  | basic | literal => false
  | longBasic | longLiteral => true

/-- Whether characters can be escaped. -/
def hasEscapes : StringForm → Bool
  | basic | longBasic => true
  | literal | longLiteral => false

end StringForm

/-- The longest run of a character in a text, given the length of the run that goes on where it
starts. -/
def longestRun (c : Char) (run : Nat) : List Char → Nat
  | [] => run
  | next :: rest =>
    if next = c then longestRun c (run + 1) rest else max run (longestRun c 0 rest)

/-- Whether a character can only be written by an escape. -/
def needsEscape (c : Char) : Bool :=
  (c.toNat < 32 && c != '\t' && c != '\n') || c == '\x7f'

/-- Whether a text can be written in a form without escapes. -/
def fits (text : List Char) (form : StringForm) : Bool :=
  let mostQuotes := if form.isLong then 2 else 0
  !text.any needsEscape && (form.isLong || !text.contains '\n') &&
    if form.hasEscapes then !text.contains '\\' && longestRun '"' 0 text ≤ mostQuotes
    else longestRun '\'' 0 text ≤ mostQuotes

/-- The form that a string is written in. -/
def formOf (text : List Char) : StringForm :=
  match [StringForm.basic, .literal, .longBasic, .longLiteral].find? (fits text) with
  | some form => form
  | none => if text.contains '\n' then .longBasic else .basic

/-- A number in at least four upper-case hexadecimal digits. -/
def fourHexDigits (number : Nat) : List Char :=
  let digits := (Nat.toDigits 16 number).map Char.toUpper
  List.replicate (4 - digits.length) '0' ++ digits

/-- One character between double quotes, unless it is a quote. -/
def escape (isLong : Bool) (c : Char) : List Char :=
  match c with
  | '\x08' => ['\\', 'b']
  | '\t' => ['\\', 't']
  | '\n' => if isLong then ['\n'] else ['\\', 'n']
  | '\x0c' => ['\\', 'f']
  | '\r' => ['\\', 'r']
  | '\\' => ['\\', '\\']
  | c => if needsEscape c then ['\\', 'u'] ++ fourHexDigits c.toNat else [c]

/-- A text between double quotes.  On one line every quote has an escape; over several lines every
third one of a run has, so that no three stand together. -/
def escaped (isLong : Bool) (quotes : Nat) : List Char → List Char
  | [] => []
  | '"' :: rest =>
    if isLong && quotes < 2 then '"' :: escaped isLong (quotes + 1) rest
    else '\\' :: '"' :: escaped isLong 0 rest
  | c :: rest => escape isLong c ++ escaped isLong 0 rest

/-- A string as it is written.  A string with line ends starts on a line of its own. -/
def stringText (value : String) : String :=
  let text := value.toList
  let form := formOf text
  let opening := if form.isLong && text.contains '\n' then form.quotes ++ "\n" else form.quotes
  let content := if form.hasEscapes then escaped form.isLong 0 text else text
  opening ++ String.ofList content ++ form.quotes

/-- A line that gives a value to a key. -/
def entryLine (key value : String) : String := s!"{key} = {value}\n"

/-- Whether a character may stand in a key without quotes. -/
def isBare (c : Char) : Bool := c.isAlphanum || c == '_' || c == '-'

/-- Whether a name may stand without quotes. -/
def isBareName (name : String) : Bool := !name.toList.isEmpty && name.toList.all isBare

/-- A value on one line.  Nothing but strings, truth values and whole numbers that are not negative
and not too large is written here. -/
def leafText? : Value → Option String
  | .integer value =>
    if 0 ≤ value && value ≤ Number.greatestInteger then some (toString value) else none
  | .boolean value => some (if value then "true" else "false")
  | .string value => some (stringText value)
  | _ => none

/-- The lines of a section. -/
def sectionLines? (entries : Table) : Option (List String) :=
  entries.mapM fun (key, value) =>
    if isBareName key then (leafText? value).map (entryLine key) else none

/-- A section with its lines. -/
def sectionText (name : String) (lines : List String) : String :=
  s!"[{name}]\n" ++ String.join lines

/-- A file: its sections with blank lines between them. -/
def fileText (sections : List String) : String := String.intercalate "\n" sections

/-- The text of a file with a table of sections. -/
def Table.write? (table : Table) : Option String := do
  let sections ← table.mapM fun
    | (name, .table entries) =>
      if isBareName name then (sectionLines? entries).map (sectionText name) else none
    | _ => none
  return fileText sections

end MonkeyLang.Toml
