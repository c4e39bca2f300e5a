import MonkeyLang.Json.Basic
import MonkeyLang.Number.Written
import MonkeyLang.Text.Quoted

/-!
# Writing JSON

The compact form has no blanks.  The indented form puts every item and every member on a
line of its own, two spaces deeper than what holds it, and a space after each colon; empty
arrays and objects stay closed.  Doubles are written in the data form, and a double that is
not finite becomes null.
-/

set_option autoImplicit false

namespace MonkeyLang.Json

/-- A control character by its number, in four hexadecimal digits. -/
def numberedEscape (c : Char) : List Char :=
  let digits := Text.hexDigits c.toNat
  ['\\', 'u'] ++ Number.zeros (4 - digits.length) ++ digits

/-- One character as it stands in a string. -/
def escape (c : Char) : List Char :=
  match c with
  | '"' => ['\\', '"']
  | '\\' => ['\\', '\\']
  | '\x08' => ['\\', 'b']
  | '\x0c' => ['\\', 'f']
  | '\n' => ['\\', 'n']
  | '\r' => ['\\', 'r']
  | '\t' => ['\\', 't']
  | other => if other.toNat < 32 then numberedEscape other else [other]

/-- A string between its quotes. -/
def writeString (text : String) : List Char :=
  '"' :: text.toList.flatMap escape ++ ['"']

/-- A double, or null if it is not finite. -/
def writeReal (value : Float) : List Char :=
  match Number.dataText? value with
  | some text => text.toList
  | none => ['n', 'u', 'l', 'l']

/-- A value that holds no other value. -/
def writeScalar : Json → List Char
  | .null => ['n', 'u', 'l', 'l']
  | .bool true => ['t', 'r', 'u', 'e']
  | .bool false => ['f', 'a', 'l', 's', 'e']
  | .integer value => (toString value).toList
  | .real value => writeReal value
  | .string text => writeString text
  | .array _ => []
  | .object _ => []

/-- A new line, indented by two spaces a level. -/
def lineBreak (level : Nat) : List Char := '\n' :: List.replicate (2 * level) ' '

mutual

/-- The compact form of a value. -/
def compactCharacters : Json → List Char
  | .array items => '[' :: compactItems items ++ [']']
  | .object members => '\x7b' :: compactMembers members ++ ['\x7d']
  | scalar => writeScalar scalar

/-- The compact form of items, with commas between them. -/
def compactItems : List Json → List Char
  | [] => []
  | [item] => compactCharacters item
  | item :: next :: items => compactCharacters item ++ ',' :: compactItems (next :: items)

/-- The compact form of members, with commas between them. -/
def compactMembers : List (String × Json) → List Char
  | [] => []
  | [(name, value)] => writeString name ++ ':' :: compactCharacters value
  | (name, value) :: next :: members =>
    writeString name ++ ':' :: compactCharacters value ++ ',' :: compactMembers (next :: members)

end

mutual

/-- The indented form of a value that starts on a line of the given level. -/
def indentedCharacters (level : Nat) : Json → List Char
  | .array [] => ['[', ']']
  | .array (item :: items) =>
    '[' :: lineBreak (level + 1) ++ indentedCharacters (level + 1) item
      ++ indentedItems (level + 1) items ++ lineBreak level ++ [']']
  | .object [] => ['\x7b', '\x7d']
  | .object ((name, value) :: members) =>
    '\x7b' :: lineBreak (level + 1) ++ writeString name ++ [':', ' ']
      ++ indentedCharacters (level + 1) value
      ++ indentedMembers (level + 1) members ++ lineBreak level ++ ['\x7d']
  | scalar => writeScalar scalar

/-- The items after the first one, each behind a comma on a line of its own. -/
def indentedItems (level : Nat) : List Json → List Char
  | [] => []
  | item :: items =>
    ',' :: lineBreak level ++ indentedCharacters level item ++ indentedItems level items

/-- The members after the first one, each behind a comma on a line of its own. -/
def indentedMembers (level : Nat) : List (String × Json) → List Char
  | [] => []
  | (name, value) :: members =>
    ',' :: lineBreak level ++ writeString name ++ [':', ' ']
      ++ indentedCharacters level value ++ indentedMembers level members

end

/-- The compact form of a value. -/
def compact (value : Json) : String := String.ofList (compactCharacters value)

/-- The indented form of a value. -/
def indented (value : Json) : String := String.ofList (indentedCharacters 0 value)

end MonkeyLang.Json
