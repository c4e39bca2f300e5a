import MonkeyLang.Json.Basic
import MonkeyLang.Number.Read

/-!
# Reading JSON

A text is read from its front; what is left is handed on.  Two faults are told apart: the
text ends too early, or a character stands where it must not.

A number with a fraction or an exponent, or with more digits than sixty-four bits hold, is
read as a double in three steps: as many leading digits as fit into sixty-four bits, made a
double; then one multiplication or division by a power of ten, itself made a double.  For
numbers of at most fifteen digits and small exponents this is the nearest double.
-/

set_option autoImplicit false

namespace MonkeyLang.Json

/-- Why a text is no JSON. -/
inductive Fault where
  | unfinished
  | malformed
  deriving DecidableEq, Repr

/-- What a reader gives: a value and the rest of the text, or a fault. -/
abbrev Reading (α : Type) := Except Fault (α × List Char)

/-- How many arrays and objects may stand inside one another, plus one. -/
def depthLimit : Nat := 128

/-- Whether a character may stand between the parts of a value. -/
def isGap (c : Char) : Bool := c == ' ' || c == '\n' || c == '\t' || c == '\r'

/-- The text from the next character that is no gap. -/
def skipGaps (text : List Char) : List Char := text.dropWhile isGap

/-! ## Words -/

/-- A word whose first character has been read. -/
def word : List Char → Json → List Char → Reading Json
  | [], value, rest => .ok (value, rest)
  | _ :: _, _, [] => .error .unfinished
  | expected :: more, value, c :: rest =>
    if c = expected then word more value rest else .error .malformed

/-! ## Strings -/

/-- The value of a hexadecimal digit. -/
def hexValue? (c : Char) : Option Nat :=
  if c.isDigit then some (c.toNat - 48)
  else if 'a' ≤ c && c ≤ 'f' then some (c.toNat - 87)
  else if 'A' ≤ c && c ≤ 'F' then some (c.toNat - 55)
  else none

/-- The number that four hexadecimal digits stand for. -/
def hexNumber? (a b c d : Char) : Option Nat := do
  let a ← hexValue? a
  let b ← hexValue? b
  let c ← hexValue? c
  let d ← hexValue? d
  return ((a * 16 + b) * 16 + c) * 16 + d

/-- The fault of a numbered escape without its four digits: the text is unfinished if fewer
than four bytes are left. -/
def shortEscape (rest : List Char) : Fault :=
  if (String.ofList rest).utf8ByteSize < 4 then .unfinished else .malformed

/-- The characters of the escapes of two characters. -/
def simpleEscape? (c : Char) : Option Char :=
  match c with
  | '"' => some '"'
  | '\\' => some '\\'
  | '/' => some '/'
  | 'b' => some '\x08'
  | 'f' => some '\x0c'
  | 'n' => some '\n'
  | 'r' => some '\r'
  | 't' => some '\t'
  | _ => none

/-- Whether a number is the first half of a pair that stands for one character. -/
def isLeading (number : Nat) : Bool := 0xD800 ≤ number && number ≤ 0xDBFF

/-- Whether a number is the second half of such a pair. -/
def isTrailing (number : Nat) : Bool := 0xDC00 ≤ number && number ≤ 0xDFFF

/-- The character that a pair stands for. -/
def pairCharacter (leading trailing : Nat) : Char :=
  Char.ofNat ((leading - 0xD800) * 1024 + (trailing - 0xDC00) + 0x10000)

/-- The rest of a string whose opening quote has been read; `done` holds what came before,
the last character first. -/
def stringRest (done : List Char) : List Char → Reading String
  | [] => .error .unfinished
  | '"' :: rest => .ok (String.ofList done.reverse, rest)
  | ['\\'] => .error .unfinished
  | '\\' :: 'u' :: a :: b :: c :: d :: rest =>
    match hexNumber? a b c d with
    | none => .error (shortEscape (a :: b :: c :: d :: rest))
    | some number =>
      if isTrailing number then .error .malformed
      else if isLeading number then
        match rest with
        | [] => .error .unfinished
        | ['\\'] => .error .unfinished
        | '\\' :: 'u' :: e :: f :: g :: h :: more =>
          match hexNumber? e f g h with
          | none => .error (shortEscape (e :: f :: g :: h :: more))
          | some trailing =>
            if isTrailing trailing then stringRest (pairCharacter number trailing :: done) more
            else .error .malformed
        | '\\' :: 'u' :: more => .error (shortEscape more)
        | _ => .error .malformed
      else stringRest (Char.ofNat number :: done) rest
  | '\\' :: 'u' :: rest => .error (shortEscape rest)
  | '\\' :: c :: rest =>
    match simpleEscape? c with
    | some plain => stringRest (plain :: done) rest
    | none => .error .malformed
  | c :: rest => if c.toNat < 32 then .error .malformed else stringRest (c :: done) rest

/-! ## Numbers -/

/-- The leading digits that fit into sixty-four bits, put behind those already read, and how
many more digits there are. -/
def fitDigits : Nat → List Char → Nat × Nat
  | value, [] => (value, 0)
  | value, digit :: digits =>
    let longer := 10 * value + Number.digitValue digit
    if longer ≤ Number.greatestSize then fitDigits longer digits
    else (value, digits.length + 1)

/-- A power of ten as a double. -/
def powerOfTen (exponent : Nat) : Float := Binary64.nearest false (Number.tenTo exponent) 1

/-- A double divided by a power of ten, by at most 308 places at a time; three times bring
every double to zero. -/
def divideDown : Nat → Float → Nat → Float
  | 0, value, _ => value
  | rounds + 1, value, places =>
    if places ≤ 308 then value / powerOfTen places
    else divideDown rounds (value / powerOfTen 308) (places - 308)

/-- The double that leading digits and a power of ten stand for. -/
def scale (negative : Bool) (digits : Nat) (exponent : Int) : Except Fault Float :=
  let signed (value : Float) : Float := if negative then -value else value
  let value := Binary64.nearest false digits 1
  if digits = 0 then .ok (signed value)
  else if exponent < 0 then .ok (signed (divideDown 4 value exponent.natAbs))
  else if 308 < exponent then .error .malformed
  else
    let product := value * powerOfTen exponent.toNat
    if product.isInf then .error .malformed else .ok (signed product)

/-- The greatest exponent that is read as a number. -/
def greatestExponent : Nat := 2147483647

/-- An exponent whose letter has been read, and the number that it ends. -/
def exponentRest (negative : Bool) (digits : Nat) (shift : Int) (text : List Char) :
    Reading Json :=
  let (down, unsigned) := Number.splitSign text
  match unsigned with
  | [] => .error .unfinished
  | c :: _ =>
    if !c.isDigit then .error .malformed
    else
      let rest := unsigned.dropWhile Char.isDigit
      let size := Number.natOfDigits (unsigned.takeWhile Char.isDigit)
      if greatestExponent < size then
        if digits ≠ 0 && !down then .error .malformed
        else .ok (.real (if negative then -0.0 else 0.0), rest)
      else
        let exponent : Int := if down then shift - size else shift + size
        (scale negative digits exponent).map fun value => (.real value, rest)

/-- The end of a number that is a double: an exponent, or nothing. -/
def realRest (negative : Bool) (digits : Nat) (shift : Int) (text : List Char) : Reading Json :=
  match text with
  | 'e' :: rest => exponentRest negative digits shift rest
  | 'E' :: rest => exponentRest negative digits shift rest
  | _ => (scale negative digits shift).map fun value => (.real value, text)

/-- A fraction whose point has been read, and the number that it ends. -/
def fractionRest (negative : Bool) (digits : Nat) (shift : Int) (text : List Char) :
    Reading Json :=
  let fraction := text.takeWhile Char.isDigit
  let rest := text.dropWhile Char.isDigit
  if fraction.isEmpty then .error (if rest.isEmpty then .unfinished else .malformed)
  else
    let (longer, dropped) := fitDigits digits fraction
    realRest negative longer (shift - (fraction.length - dropped : Nat)) rest

/-- A whole number of sixty-four bits, signed if it is negative.  Minus zero and what is too
small are doubles. -/
def wholeNumber (negative : Bool) (digits : Nat) : Json :=
  if !negative then .integer digits
  else if digits = 0 || Number.twoTo 63 < digits then .real (-(Binary64.nearest false digits 1))
  else .integer (-(digits : Int))

/-- A number without its sign. -/
def unsignedNumber (negative : Bool) (text : List Char) : Reading Json :=
  let whole := text.takeWhile Char.isDigit
  let rest := text.dropWhile Char.isDigit
  match whole with
  | [] => .error (if rest.isEmpty then .unfinished else .malformed)
  | '0' :: _ :: _ => .error .malformed
  | _ =>
    let (digits, dropped) := fitDigits 0 whole
    match rest with
    | '.' :: more => fractionRest negative digits dropped more
    | _ =>
      if rest.head? = some 'e' || rest.head? = some 'E' || dropped ≠ 0 then
        realRest negative digits dropped rest
      else .ok (wholeNumber negative digits, rest)

/-! ## Values -/

/-- The name of the next member with the text behind its colon, or the text behind the brace
that closes the object. -/
def nextName (first : Bool) (text : List Char) : Reading (Option String) :=
  let start (text : List Char) : Reading (Option String) :=
    match text with
    | [] => .error .unfinished
    | '"' :: rest =>
      match stringRest [] rest with
      | .error fault => .error fault
      | .ok (name, rest) =>
        match skipGaps rest with
        | [] => .error .unfinished
        | ':' :: rest => .ok (some name, rest)
        | _ => .error .malformed
    | _ => .error .malformed
  match skipGaps text with
  | [] => .error .unfinished
  | '\x7d' :: rest => .ok (none, rest)
  | ',' :: rest => if first then .error .malformed else start (skipGaps rest)
  | other => if first then start other else .error .malformed

/-- Where the next item starts, or the text behind the bracket that closes the array. -/
def nextItem (first : Bool) (text : List Char) : Except Fault (Bool × List Char) :=
  match skipGaps text with
  | [] => .error .unfinished
  | ']' :: rest => .ok (false, rest)
  | ',' :: rest =>
    if first then .ok (true, text)
    else
      match skipGaps rest with
      | [] => .error .unfinished
      | ']' :: _ => .error .malformed
      | other => .ok (true, other)
  | other => if first then .ok (true, other) else .error .malformed

mutual

/-- A value.  Every call but the first of an array or object has read a character since the
one before, so that twice the length of the text is fuel enough. -/
def value : Nat → Nat → List Char → Reading Json
  | 0, _, _ => .error .malformed
  | fuel + 1, depth, text =>
    match skipGaps text with
    | [] => .error .unfinished
    | 'n' :: rest => word ['u', 'l', 'l'] .null rest
    | 't' :: rest => word ['r', 'u', 'e'] (.bool true) rest
    | 'f' :: rest => word ['a', 'l', 's', 'e'] (.bool false) rest
    | '"' :: rest => (stringRest [] rest).map fun (text, rest) => (.string text, rest)
    | '-' :: rest => unsignedNumber true rest
    | '[' :: rest => if depth ≤ 1 then .error .malformed else items fuel (depth - 1) [] rest
    | '\x7b' :: rest => if depth ≤ 1 then .error .malformed else members fuel (depth - 1) [] rest
    | c :: rest => if c.isDigit then unsignedNumber false (c :: rest) else .error .malformed

/-- The items of an array up to its bracket; `done` holds those read, the last one first. -/
def items : Nat → Nat → List Json → List Char → Reading Json
  | 0, _, _, _ => .error .malformed
  | fuel + 1, depth, done, text =>
    match nextItem done.isEmpty text with
    | .error fault => .error fault
    | .ok (false, rest) => .ok (.array done.reverse, rest)
    | .ok (true, rest) =>
      match value fuel depth rest with
      | .error fault => .error fault
      | .ok (item, rest) => items fuel depth (item :: done) rest

/-- The members of an object up to its brace; `done` holds those read, the last one first. -/
def members : Nat → Nat → List (String × Json) → List Char → Reading Json
  | 0, _, _, _ => .error .malformed
  | fuel + 1, depth, done, text =>
    match nextName done.isEmpty text with
    | .error fault => .error fault
    | .ok (none, rest) => .ok (.object done.reverse, rest)
    | .ok (some name, rest) =>
      match value fuel depth rest with
      | .error fault => .error fault
      | .ok (member, rest) => members fuel depth ((name, member) :: done) rest

end

/-- Fuel enough for every value in a text. -/
def fuelFor (text : List Char) : Nat := 2 * text.length + 2

/-- The value at the front of a text, no more than the given depth. -/
def readValue (depth : Nat) (text : List Char) : Reading Json := value (fuelFor text) depth text

end MonkeyLang.Json
