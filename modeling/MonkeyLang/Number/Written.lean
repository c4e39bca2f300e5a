import MonkeyLang.Number.Shortest

/-!
# Written forms of doubles

Three forms share the shortest digits.  The *plain* form is positional, whatever the size.
The *display* form shows a whole number exactly, with one place of zero, and every other
number plainly.  The *data* form always has a point or an exponent, and turns to exponents
outside of sixteen places before and five places after the point.
-/

set_option autoImplicit false

namespace MonkeyLang.Number

/-- A list of zeros. -/
def zeros (count : Nat) : List Char := List.replicate count '0'

/-- Digits around a point at a given position, with no point when none is needed. -/
def positional (digits : List Char) (point : Int) : List Char :=
  if point ≤ 0 then '0' :: '.' :: zeros (-point).toNat ++ digits
  else if digits.length ≤ point.toNat then digits ++ zeros (point.toNat - digits.length)
  else digits.take point.toNat ++ '.' :: digits.drop point.toNat

/-- A sign in front of a text. -/
def signed (negative : Bool) (text : List Char) : List Char :=
  if negative then '-' :: text else text

/-- The plain form: the shortest digits without an exponent. -/
def plainCharacters (value : Float) : List Char :=
  match Binary64.ofFloat value with
  | .nan => ['N', 'a', 'N']
  | .infinite negative => signed negative ['i', 'n', 'f']
  | .finite negative 0 _ => signed negative ['0']
  | .finite negative mantissa exponent =>
    let (digits, point) := (Decimal.shortest .up mantissa exponent).significant
    signed negative (positional digits point)

/-- The plain form of a double. -/
def plain (value : Float) : String := String.ofList (plainCharacters value)

/-- The whole number that a double is, if it is one. -/
def whole? (mantissa : Nat) (exponent : Int) : Option Nat :=
  let divisor := twoTo (-exponent).toNat
  if mantissa % divisor = 0 then some (mantissa / divisor * twoTo exponent.toNat) else none

/-- The display form of a double. -/
def display (value : Float) : String :=
  match Binary64.ofFloat value with
  | .finite negative mantissa exponent =>
    match whole? mantissa exponent with
    | some number => String.ofList (signed negative (Decimal.digitsOf number ++ ['.', '0']))
    | none => plain value
  | _ => plain value

/-- The digits of an exponent after its letter, with the sign always written. -/
def exponentPart (exponent : Int) : List Char :=
  'e' :: (if exponent < 0 then '-' else '+') :: Decimal.digitsOf exponent.natAbs

/-- Digits with an exponent: one digit, a point if more follow, the rest. -/
def scientific (digits : List Char) (point : Int) : List Char :=
  match digits with
  | [] => []
  | [digit] => digit :: exponentPart (point - 1)
  | digit :: more => digit :: '.' :: more ++ exponentPart (point - 1)

/-- The data form of a finite double. -/
def dataForm (digits : List Char) (point : Int) : List Char :=
  if point ≤ -5 || 16 < point then scientific digits point
  else
    let text := positional digits point
    if text.contains '.' then text else text ++ ['.', '0']

/-- The data form of a double; what is not finite has none. -/
def dataText? (value : Float) : Option String :=
  match Binary64.ofFloat value with
  | .finite negative 0 _ => some (String.ofList (signed negative ['0', '.', '0']))
  | .finite negative mantissa exponent =>
    let (digits, point) := (Decimal.shortest .even mantissa exponent).significant
    some (String.ofList (signed negative (dataForm digits point)))
  | _ => none

end MonkeyLang.Number
