/-!
# Strings in tables

A string stands between double quotes, where a backslash starts an escape, or between single
quotes, where every character stands for itself.  Between three quotes of either kind a string
may go over several lines; a line end directly behind the opening quotes does not count.  Up to
two quotes may stand directly before the closing ones.  A backslash at the end of a line, between
double quotes, joins the line with the next character that is no blank.
-/

set_option autoImplicit false

namespace MonkeyLang.Toml

/-- A string with the rest of the text, unless the text holds none. -/
abbrev StringReading := Option (String × List Char)

/-- Whether a character may separate the parts of a line. -/
def isBlank (c : Char) : Bool := c == ' ' || c == '\t'

/-- Whether a character may stand for itself in a line: any but the controls, of which the tab
is allowed. -/
def isPlain (c : Char) : Bool := c == '\t' || (32 ≤ c.toNat && c != '\x7f')

/-- The characters read so far, kept with the last one first, as a string. -/
def collected (done : List Char) : String := String.ofList done.reverse

/-- The character of an escape of two characters. -/
def simpleEscape? (c : Char) : Option Char :=
  match c with
  | 'b' => some '\x08'
  | 't' => some '\t'
  | 'n' => some '\n'
  | 'f' => some '\x0c'
  | 'r' => some '\r'
  | '"' => some '"'
  | '\\' => some '\\'
  | _ => none

/-- The value of a hexadecimal digit. -/
def hexDigit? (c : Char) : Option Nat :=
  if c.isDigit then some (c.toNat - 48)
  else if 'a' ≤ c && c ≤ 'f' then some (c.toNat - 87)
  else if 'A' ≤ c && c ≤ 'F' then some (c.toNat - 55)
  else none

/-- The character with a number in hexadecimal digits. -/
def numberedCharacter? (digits : List Char) : Option Char := do
  let number ← digits.foldlM (fun number c => (hexDigit? c).map (16 * number + ·)) 0
  if number.isValidChar then some (Char.ofNat number) else none

/-- The text behind a line end, if it starts with one. -/
def behindLineEnd? : List Char → Option (List Char)
  | '\n' :: rest => some rest
  | '\r' :: '\n' :: rest => some rest
  | _ => none

/-- The text without a line end at its start. -/
def withoutLineEnd (text : List Char) : List Char := (behindLineEnd? text).getD text

/-- Whether nothing but blanks stands before the end of the line. -/
def isBlankLine (text : List Char) : Bool := (behindLineEnd? (text.dropWhile isBlank)).isSome

/-- The rest of a string between double quotes on one line. -/
def basicRest (done : List Char) : List Char → StringReading
  | [] => none
  | '"' :: rest => some (collected done, rest)
  | '\\' :: 'u' :: a :: b :: c :: d :: rest => do
    basicRest ((← numberedCharacter? [a, b, c, d]) :: done) rest
  | '\\' :: 'U' :: a :: b :: c :: d :: e :: f :: g :: h :: rest => do
    basicRest ((← numberedCharacter? [a, b, c, d, e, f, g, h]) :: done) rest
  | '\\' :: c :: rest => do basicRest ((← simpleEscape? c) :: done) rest
  | c :: rest => if isPlain c then basicRest (c :: done) rest else none

/-- Closing quotes have been read: up to two more quotes belong to the string. -/
def closing (quote : Char) (done : List Char) : List Char → StringReading
  | c :: d :: rest =>
    if c = quote then
      if d = quote then some (collected (quote :: quote :: done), rest)
      else some (collected (quote :: done), d :: rest)
    else some (collected done, c :: d :: rest)
  | [c] => if c = quote then some (collected (quote :: done), []) else some (collected done, [c])
  | [] => some (collected done, [])

/-- The rest of a string between three double quotes.  Behind a backslash at the end of a line,
blanks and line ends are skipped. -/
def longBasicRest (skipping : Bool) (done : List Char) : List Char → StringReading
  | [] => none
  | '\n' :: rest => longBasicRest skipping (if skipping then done else '\n' :: done) rest
  | '\r' :: '\n' :: rest => longBasicRest skipping (if skipping then done else '\n' :: done) rest
  | '"' :: '"' :: '"' :: rest => closing '"' done rest
  | '"' :: rest => longBasicRest false ('"' :: done) rest
  | '\\' :: 'u' :: a :: b :: c :: d :: rest => do
    longBasicRest false ((← numberedCharacter? [a, b, c, d]) :: done) rest
  | '\\' :: 'U' :: a :: b :: c :: d :: e :: f :: g :: h :: rest => do
    longBasicRest false ((← numberedCharacter? [a, b, c, d, e, f, g, h]) :: done) rest
  | '\\' :: c :: rest =>
    match simpleEscape? c with
    | some plain => longBasicRest false (plain :: done) rest
    | none => if isBlankLine (c :: rest) then longBasicRest true done (c :: rest) else none
  | c :: rest =>
    if skipping && isBlank c then longBasicRest true done rest
    else if isPlain c then longBasicRest false (c :: done) rest
    else none

/-- The rest of a string between single quotes on one line. -/
def literalRest (done : List Char) : List Char → StringReading
  | [] => none
  | '\'' :: rest => some (collected done, rest)
  | c :: rest => if isPlain c then literalRest (c :: done) rest else none

/-- The rest of a string between three single quotes. -/
def longLiteralRest (done : List Char) : List Char → StringReading
  | [] => none
  | '\n' :: rest => longLiteralRest ('\n' :: done) rest
  | '\r' :: '\n' :: rest => longLiteralRest ('\n' :: done) rest
  | '\'' :: '\'' :: '\'' :: rest => closing '\'' done rest
  | c :: rest => if isPlain c then longLiteralRest (c :: done) rest else none

/-- A string on one line. -/
def shortString? : List Char → StringReading
  | '"' :: rest => basicRest [] rest
  | '\'' :: rest => literalRest [] rest
  | _ => none

/-- A string. -/
def string? : List Char → StringReading
  | '"' :: '"' :: '"' :: rest => longBasicRest false [] (withoutLineEnd rest)
  | '\'' :: '\'' :: '\'' :: rest => longLiteralRest [] (withoutLineEnd rest)
  | text => shortString? text

end MonkeyLang.Toml
