import MonkeyLang.Number.Binary64

/-!
# The shortest decimal of a double

A decimal reads back as a double when it lies in the interval of numbers that round to it.
The interval reaches half the gap to each neighbouring double, its ends included exactly
when the mantissa is even.  On the grid of decimals with a given number of digits only the
two neighbours of the double itself need testing: if any point of the grid lies in the
interval, so does one of the two.  The first grid with a hit gives the fewest digits, and
of two hits the nearer is taken.
-/

set_option autoImplicit false

namespace MonkeyLang

/-- The number `digits * 10 ^ exponent`. -/
structure Decimal where
  digits : Nat
  exponent : Int
  deriving DecidableEq, Repr, Inhabited

/-- Which of two equally near decimals is taken. -/
inductive Tie where
  | up
  | even
  deriving DecidableEq, Repr

namespace Decimal

open Number (twoTo tenTo)

/-- The digits of a number in base ten, the most significant first. -/
def digitsOf (number : Nat) : List Char := Nat.toDigits 10 number

/-- A positive quotient with the interval of numbers that round to it.  The gaps are in
quarters of one over the denominator. -/
structure Target where
  numerator : Nat
  denominator : Nat
  gapBelow : Nat
  gapAbove : Nat
  closed : Bool

/-- The interval of `mantissa * 2 ^ exponent`.  Below a power of two the doubles lie twice
as close, except at the least exponent. -/
def Target.ofBinary (mantissa : Nat) (exponent : Int) : Target :=
  let unit := twoTo exponent.toNat
  let narrow := mantissa == Binary64.hiddenBit && Binary64.leastExponent < exponent
  { numerator := mantissa * unit
    denominator := twoTo (-exponent).toNat
    gapBelow := if narrow then unit else 2 * unit
    gapAbove := 2 * unit
    closed := mantissa % 2 == 0 }

namespace Target

/-- The position of the decimal point: the target lies below `10 ^ point`, and not below
`10 ^ (point - 1)`.  Four hundred more places are enough for every double. -/
def point (target : Target) : Int :=
  let scaled := target.numerator * tenTo 400 / target.denominator
  ((digitsOf scaled).length : Int) - 400

/-- The grid point `digits * 10 ^ exponent` and the target over one common denominator. -/
def onGrid (target : Target) (digits : Nat) (exponent : Int) : Nat × Nat :=
  (digits * tenTo exponent.toNat * target.denominator,
   target.numerator * tenTo (-exponent).toNat)

/-- Whether a grid point lies in the interval. -/
def accepts (target : Target) (digits : Nat) (exponent : Int) : Bool :=
  let (grid, value) := target.onGrid digits exponent
  let gap := if grid ≤ value then target.gapBelow else target.gapAbove
  let reach := gap * tenTo (-exponent).toNat
  let distance := 4 * ((grid - value) + (value - grid))
  if target.closed then distance ≤ reach else distance < reach

/-- The grid point of an exponent that is nearest to the target, among those in the
interval. -/
def nearest? (target : Target) (tie : Tie) (exponent : Int) : Option Nat :=
  let (step, value) := target.onGrid 1 exponent
  let lower := value / step
  match target.accepts lower exponent, target.accepts (lower + 1) exponent with
  | true, true =>
    let twice := 2 * (value % step)
    let roundUp := twice > step || (twice == step && (tie == .up || lower % 2 == 1))
    some (if roundUp then lower + 1 else lower)
  | true, false => some lower
  | false, true => some (lower + 1)
  | false, false => none

end Target

/-- The shortest decimal that reads back as `mantissa * 2 ^ exponent`, for a positive
mantissa.  Seventeen digits are always enough. -/
def shortest (tie : Tie) (mantissa : Nat) (exponent : Int) : Decimal :=
  let target := Target.ofBinary mantissa exponent
  let point := target.point
  let found := (List.range 17).findSome? fun fewer =>
    let gridExponent := point - (fewer + 1 : Nat)
    (target.nearest? tie gridExponent).map fun digits => (⟨digits, gridExponent⟩ : Decimal)
  found.getD ⟨0, 0⟩

/-- The digits without trailing zeros, and where the point stands: the number is
`0.d₁d₂… * 10 ^ point`. -/
def significant (decimal : Decimal) : List Char × Int :=
  let all := digitsOf decimal.digits
  ((all.reverse.dropWhile (· == '0')).reverse, (all.length : Int) + decimal.exponent)

end Decimal

end MonkeyLang
