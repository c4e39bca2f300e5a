import MonkeyLang.Number.Binary64

/-!
# Reading numbers

Whole numbers are an optional sign and digits; the bounds belong to the type that is read.
A double is an optional sign and either one of the names of infinity and of the undefined
number, in any case, or digits with an optional point and an optional exponent, at least
one digit standing before the exponent.  It is rounded once, from its exact value.
-/

set_option autoImplicit false

namespace MonkeyLang.Number

/-- The value of a digit. -/
def digitValue (c : Char) : Nat := c.toNat - 48

/-- The value of a run of digits. -/
def natOfDigits (digits : List Char) : Nat :=
  digits.foldl (fun value c => 10 * value + digitValue c) 0

/-- The value of a non-empty run of digits, and of nothing else. -/
def readDigits? (text : List Char) : Option Nat :=
  if text.isEmpty || !text.all Char.isDigit then none else some (natOfDigits text)

/-- The sign in front of a text, and the rest: is it a minus? -/
def splitSign : List Char → Bool × List Char
  | '-' :: rest => (true, rest)
  | '+' :: rest => (false, rest)
  | text => (false, text)

/-- The least 64-bit integer. -/
def leastInteger : Int := -9223372036854775808

/-- The greatest 64-bit integer. -/
def greatestInteger : Int := 9223372036854775807

/-- A 64-bit integer: an optional sign and digits. -/
def readInteger? (text : List Char) : Option Int64 :=
  let (negative, digits) := splitSign text
  match readDigits? digits with
  | none => none
  | some magnitude =>
    let value : Int := if negative then -(magnitude : Int) else magnitude
    if leastInteger ≤ value && value ≤ greatestInteger then some (Int64.ofInt value) else none

/-- The greatest size: the sizes are the numbers of sixty-four bits. -/
def greatestSize : Nat := 18446744073709551615

/-- A size: an optional plus and digits, at most `greatestSize`. -/
def readSize? (text : List Char) : Option Nat :=
  let digits := match text with
    | '+' :: rest => rest
    | _ => text
  match readDigits? digits with
  | none => none
  | some size => if size ≤ greatestSize then some size else none

/-- The double nearest to `digits * 10 ^ exponent`.  Far outside the range of the doubles
the power is not computed: the result is infinite or zero. -/
def scaleTen (negative : Bool) (digits : Nat) (exponent : Int) : Float :=
  let length : Int := (Nat.toDigits 10 digits).length
  if digits = 0 || length + exponent < -400 then Binary64.nearest negative 0 1
  else if 400 < length + exponent then Binary64.nearest negative (twoTo 1024) 1
  else Binary64.nearest negative (digits * tenTo exponent.toNat) (tenTo (-exponent).toNat)

/-- The exponent at the end of a number: nothing, or the letter, an optional sign and
digits. -/
def readExponent? : List Char → Option Int
  | [] => some 0
  | c :: rest =>
    if c = 'e' || c = 'E' then
      let (negative, digits) := splitSign rest
      (readDigits? digits).map fun size => if negative then -(size : Int) else size
    else none

/-- A double without its sign. -/
def readMagnitude? (negative : Bool) (text : List Char) : Option Float :=
  let name := text.map Char.toLower
  if name = "inf".toList || name = "infinity".toList then
    some (Binary64.nearest negative (twoTo 1024) 1)
  else if name = "nan".toList then some (Float.ofBits 0x7ff8000000000000)
  else
    let before := text.takeWhile Char.isDigit
    let rest := text.dropWhile Char.isDigit
    let (after, tail) := match rest with
      | '.' :: more => (more.takeWhile Char.isDigit, more.dropWhile Char.isDigit)
      | _ => ([], rest)
    if before.isEmpty && after.isEmpty then none
    else
      (readExponent? tail).map fun exponent =>
        scaleTen negative (natOfDigits (before ++ after)) (exponent - after.length)

/-- A double: an optional sign and a magnitude. -/
def readFloat? (text : List Char) : Option Float :=
  let (negative, magnitude) := splitSign text
  readMagnitude? negative magnitude

end MonkeyLang.Number
