/-!
# Lines of a text

A line ends before a line feed, or at the end of the text.  A carriage return directly
before the line feed belongs to the end of the line, not to the line.
-/

set_option autoImplicit false

namespace MonkeyLang.Text

/-- The text behind a number of line feeds. -/
def dropLines : Nat → List Char → List Char
  | 0, text => text
  | count + 1, text => dropLines count ((text.dropWhile (· != '\n')).drop 1)

/-- The first line of a text. -/
def firstLine (text : List Char) : List Char :=
  let line := text.takeWhile (· != '\n')
  if line.length < text.length && line.getLast? = some '\r' then line.dropLast else line

/-- The line with a given index, from zero; past the last line there is the empty one. -/
def lineAt (index : Nat) (text : List Char) : List Char := firstLine (dropLines index text)

end MonkeyLang.Text
