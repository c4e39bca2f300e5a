/-!
# Binary floating point numbers

A finite double is a whole number of at most 53 bits times a power of two.  This module
takes a double apart into the two, and rounds a quotient of whole numbers to the nearest
double, a tie going to the even mantissa.  Both work on exact whole numbers.
-/

set_option autoImplicit false

namespace MonkeyLang.Number

/-- A power of two. -/
def twoTo (exponent : Nat) : Nat := Nat.pow 2 exponent

/-- A power of ten. -/
def tenTo (exponent : Nat) : Nat := Nat.pow 10 exponent

end MonkeyLang.Number

namespace MonkeyLang

/-- A double, taken apart.  A finite one is `mantissa * 2 ^ exponent`, with its sign. -/
inductive Binary64 where
  | nan
  | infinite (negative : Bool)
  | finite (negative : Bool) (mantissa : Nat) (exponent : Int)
  deriving DecidableEq, Repr

namespace Binary64

open Number (twoTo)

/-- The least exponent of a double, that of the subnormal ones. -/
def leastExponent : Int := -1074

/-- The mantissa of the powers of two among the normal doubles. -/
def hiddenBit : Nat := twoTo 52

/-- The parts that sixty-four bits stand for: sign, eleven bits of exponent, fraction. -/
def ofBits (bits : Nat) : Binary64 :=
  let negative := bits / twoTo 63 % 2 == 1
  let biased : Nat := bits / twoTo 52 % twoTo 11
  let fraction : Nat := bits % twoTo 52
  if biased = 2047 then
    if fraction = 0 then .infinite negative else .nan
  else if biased = 0 then .finite negative fraction leastExponent
  else .finite negative (hiddenBit + fraction) ((biased : Int) + leastExponent - 1)

/-- The parts of a double. -/
def ofFloat (value : Float) : Binary64 := ofBits value.toBits.toNat

/-- The quotient rounded to the nearest whole number, a half going to the even one. -/
def roundHalfEven (numerator denominator : Nat) : Nat :=
  let whole := numerator / denominator
  let twice := 2 * (numerator % denominator)
  if twice > denominator || (twice == denominator && whole % 2 == 1) then whole + 1 else whole

/-- The greatest `e` with `2 ^ e` at most the quotient of two positive numbers. -/
def floorLog2 (numerator denominator : Nat) : Int :=
  let guess : Int := (numerator.log2 : Int) - (denominator.log2 : Int)
  if numerator * twoTo (-guess).toNat < denominator * twoTo guess.toNat then guess - 1 else guess

/-- The sixty-three magnitude bits of the double nearest to a quotient.  The exponent field
and the mantissa are added, so that a mantissa that rounds up to the next power of two
carries into the exponent; what is too large becomes the bits of infinity. -/
def magnitudeBits (numerator denominator : Nat) : Nat :=
  if numerator = 0 then 0
  else
    let exponent := max (floorLog2 numerator denominator - 52) leastExponent
    let mantissa :=
      roundHalfEven (numerator * twoTo (-exponent).toNat)
        (denominator * twoTo exponent.toNat)
    min ((exponent - leastExponent).toNat * twoTo 52 + mantissa) (2047 * twoTo 52)

/-- The double nearest to a signed quotient. -/
def nearest (negative : Bool) (numerator denominator : Nat) : Float :=
  let sign := if negative then twoTo 63 else 0
  Float.ofBits (UInt64.ofNat (sign + magnitudeBits numerator denominator))

/-- The double nearest to a whole number. -/
def ofInt (value : Int) : Float := nearest (value < 0) value.natAbs 1

end Binary64

end MonkeyLang
