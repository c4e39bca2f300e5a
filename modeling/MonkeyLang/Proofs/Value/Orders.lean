import MonkeyLang.Proofs.Evaluator.Program

/-!
# How numbers compare

Two numbers of one kind come one before the other or are the same, unless one of them is the
double that is no number: that one has no place in the order, and every comparison with it is
false (`Value.order?`). There is one comparison at run time, "greater", from which the others are
made by exchanging the operands and by negating the result. So what an operator yields can be told
from the order of its operands alone (`BinaryOperator.apply_of_comparable`).
-/

set_option autoImplicit false

namespace MonkeyLang

namespace Double

open Float.Model (UnpackedFloat)

/-- Magnitudes compare by their exponents, and by their mantissas if these are the same. -/
theorem magnitude_swap (exponent power : Int) (mantissa digits : Nat) :
    (Ord.compare power exponent).then (Ord.compare digits mantissa) =
      ((Ord.compare exponent power).then (Ord.compare mantissa digits)).swap := by
  rw [Ordering.swap_then, Int.compare_swap, Nat.compare_swap]

/-- Exchanged doubles compare the other way round. -/
theorem compare_swap (left right : UnpackedFloat) :
    right.compare left = (left.compare right).map Ordering.swap := by
  rcases left with (_ | _) | _ | _ | ⟨(_ | _), mantissa, exponent, _⟩ <;>
    rcases right with (_ | _) | _ | _ | ⟨(_ | _), digits, power, _⟩
  case finite.negative.finite.negative =>
    exact congrArg (some ∘ Ordering.swap) (magnitude_swap exponent power mantissa digits)
  case finite.positive.finite.positive =>
    exact congrArg some (magnitude_swap exponent power mantissa digits)
  all_goals rfl

/-- Doubles have no order only if one of them is no number. -/
theorem compare_eq_none_iff (left right : UnpackedFloat) :
    left.compare right = none ↔ left.isNaN = true ∨ right.isNaN = true := by
  rcases left with (_ | _) | _ | _ | ⟨(_ | _), _, _, _⟩ <;>
    rcases right with (_ | _) | _ | _ | ⟨(_ | _), _, _, _⟩ <;>
    first
    | exact iff_of_true rfl (.inl rfl)
    | exact iff_of_true rfl (.inr rfl)
    | exact iff_of_false nofun (not_or.mpr ⟨nofun, nofun⟩)

theorem decide_lt (left right : Float) :
    decide (left < right) = (left.toModel.compare right.toModel == some .lt) :=
  Bool.decide_eq_true.trans Bool.decide_eq_true

end Double

namespace Value

/-- Two numbers of one kind. -/
inductive Comparable : Value → Value → Prop where
  | integers (left right : Int64) : Comparable (.integer left) (.integer right)
  | floats (left right : Float) : Comparable (.float left) (.float right)

/-- Whether a value is the double that is no number. -/
def isNaN : Value → Bool
  | .float value => value.isNaN
  | _ => false

/-- How two numbers of one kind stand to each other, unless one of them is no number. -/
def order? : Value → Value → Option Ordering
  | .integer left, .integer right => some (Ord.compare left right)
  | .float left, .float right => left.toModel.compare right.toModel
  | _, _ => none

namespace Comparable

variable {left right : Value}

theorem swap (comparable : Comparable left right) : Comparable right left := by
  cases comparable with
  | integers left right => exact .integers right left
  | floats left right => exact .floats right left

theorem order?_swap (comparable : Comparable left right) :
    right.order? left = (left.order? right).map Ordering.swap := by
  cases comparable with
  | integers left right => exact congrArg some Std.OrientedCmp.eq_swap
  | floats left right => exact Double.compare_swap _ _

/-- What is behind in one order is before in the other. -/
theorem order?_swap_eq_gt (comparable : Comparable left right) :
    (right.order? left == some .gt) = (left.order? right == some .lt) := by
  rw [comparable.order?_swap]
  rcases left.order? right with _ | _ | _ | _ <;> rfl

theorem order?_eq_none_iff (comparable : Comparable left right) :
    left.order? right = none ↔ left.isNaN = true ∨ right.isNaN = true := by
  cases comparable with
  | integers left right => simp [order?, isNaN]
  | floats left right => exact Double.compare_eq_none_iff _ _

theorem equal (comparable : Comparable left right) :
    left.equal right = (left.order? right == some .eq) := by
  cases comparable with
  | integers left right =>
      rw [Value.equal, order?, Bool.eq_iff_iff, beq_iff_eq, beq_iff_eq, Option.some.injEq,
        Std.LawfulEqOrd.compare_eq_iff_eq]
  | floats left right => rw [Value.equal]; rfl

theorem greater (comparable : Comparable left right) :
    left.compare .greater right = .ok (.boolean (left.order? right == some .gt)) := by
  cases comparable with
  | integers left right =>
      refine congrArg (Except.ok ∘ boolean) (Bool.eq_iff_iff.mpr ?_)
      rw [decide_eq_true_iff, order?, beq_iff_eq, Option.some.injEq, Std.compare_eq_gt]
  | floats left right =>
      refine congrArg (Except.ok ∘ boolean) ((Double.decide_lt right left).trans ?_)
      exact (order?_swap_eq_gt (.floats right left)).symm

end Comparable

end Value

namespace BinaryOperator

/-- Whether an operator is a comparison. -/
def compares : BinaryOperator → Bool
  | equal | notEqual | less | lessEqual | greater | greaterEqual => true
  | _ => false

/-- What a comparison says of two numbers that stand in an order, or in none. -/
def holds : BinaryOperator → Option Ordering → Bool
  | equal, order => order == some .eq
  | notEqual, order => !(order == some .eq)
  | less, order => order == some .lt
  | lessEqual, order => !(order == some .gt)
  | greater, order => order == some .gt
  | greaterEqual, order => !(order == some .lt)
  | _, _ => false

/-- What a comparison yields is told by the order of its operands. -/
theorem apply_of_comparable {left right : Value} (comparable : left.Comparable right)
    {operator : BinaryOperator} (compares : operator.compares = true) :
    operator.apply left right = .ok (.boolean (operator.holds (left.order? right))) := by
  cases operator with
  | equal => exact congrArg (Except.ok ∘ Value.boolean) comparable.equal
  | notEqual => exact congrArg (Except.ok ∘ Value.boolean ∘ not) comparable.equal
  | less =>
      exact comparable.swap.greater.trans
        (congrArg (Except.ok ∘ Value.boolean) comparable.order?_swap_eq_gt)
  | greater => exact comparable.greater
  | lessEqual => rw [apply, comparable.greater]; rfl
  | greaterEqual => rw [apply, comparable.swap.greater, comparable.order?_swap_eq_gt]; rfl
  | _ => cases compares

end BinaryOperator

end MonkeyLang
