import MonkeyLang.Text.Escaped

/-!
# Quoted texts

A quoted text stands between double quotes.  The quote itself, the backslash and the
usual controls have an escape of two characters; every other character without a
picture of its own is written by its number in braces.
-/

set_option autoImplicit false

namespace MonkeyLang.Text

/-- The lower-case hexadecimal digits of a number, without leading zeros. -/
def hexDigits (number : Nat) : List Char := Nat.toDigits 16 number

/-- One character as it stands in a quoted text. -/
def escape (c : Char) : List Char :=
  match c with
  | '\x00' => ['\\', '0']
  | '\t' => ['\\', 't']
  | '\r' => ['\\', 'r']
  | '\n' => ['\\', 'n']
  | '\\' => ['\\', '\\']
  | '"' => ['\\', '"']
  | other =>
    if isEscaped other then ['\\', 'u', '\x7b'] ++ hexDigits other.toNat ++ ['\x7d']
    else [other]

/-- A text in double quotes. -/
def quote (text : String) : String :=
  String.ofList ('"' :: text.toList.flatMap escape ++ ['"'])

end MonkeyLang.Text
