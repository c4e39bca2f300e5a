import MonkeyLang.Machine.Step
import MonkeyLang.Proofs.Stateful
import MonkeyLang.Proofs.Value.Orders

/-!
# When values are equal

Equality of values is symmetric and transitive, and equal values are of one kind. It falls short of
an equivalence in one respect only: the double that is no number differs from itself. An array or a
wrapper differs from itself just if there is such a double somewhere inside of it
(`Value.holdsNaN`), however deep, since both sides are gone through item by item even where they
are one value (`Value.equal_equivalence`).

Most values are equal only to themselves. So the lemmas have one case for these, and one case each
for doubles, for functions and for what holds other values.
-/

set_option autoImplicit false

namespace MonkeyLang

namespace Double

open Float.Model (UnpackedFloat)

/-- Magnitudes are the same if their exponents and their mantissas are. -/
theorem magnitude_eq_eq_iff (exponent power : Int) (mantissa digits : Nat) :
    (Ord.compare exponent power).then (Ord.compare mantissa digits) = .eq ↔
      exponent = power ∧ mantissa = digits := by
  rw [Ordering.then_eq_eq, Std.LawfulEqOrd.compare_eq_iff_eq, Std.LawfulEqOrd.compare_eq_iff_eq]

theorem compare_finite_eq_eq_iff (sign : UnpackedFloat.Sign) {mantissa digits : Nat}
    {exponent power : Int} {positive : 0 < mantissa} {also : 0 < digits} :
    (UnpackedFloat.finite sign mantissa exponent positive).compare
        (.finite sign digits power also) = some .eq ↔
      UnpackedFloat.finite sign mantissa exponent positive = .finite sign digits power also := by
  have magnitude := magnitude_eq_eq_iff exponent power mantissa digits
  have same : UnpackedFloat.finite sign mantissa exponent positive =
      .finite sign digits power also ↔ exponent = power ∧ mantissa = digits := by
    rw [UnpackedFloat.finite.injEq, and_iff_right rfl, and_comm]
  rw [same, ← magnitude]
  cases sign with
  | negative => exact Option.some_inj.trans Ordering.swap_eq_eq
  | positive => exact Option.some_inj

/-- Doubles are equal if they are the same number, or zeros with any signs. -/
theorem compare_eq_eq_iff (left right : UnpackedFloat) : left.compare right = some .eq ↔
    (left.isNaN = false ∧ left = right) ∨
      ∃ sign other, left = .zero sign ∧ right = .zero other := by
  rcases left with (_ | _) | _ | _ | ⟨(_ | _), mantissa, exponent, _⟩ <;>
    rcases right with (_ | _) | _ | _ | ⟨(_ | _), digits, power, _⟩
  case finite.negative.finite.negative | finite.positive.finite.positive =>
    rw [compare_finite_eq_eq_iff]
    constructor
    · exact fun same => .inl ⟨rfl, same⟩
    · rintro (⟨-, same⟩ | ⟨_, _, ⟨⟩, -⟩)
      exact same
  all_goals
    first
    | exact iff_of_true rfl (.inl ⟨rfl, rfl⟩)
    | exact iff_of_true rfl (.inr ⟨_, _, rfl, rfl⟩)
    | exact iff_of_false nofun (by rintro (⟨⟨⟩, ⟨⟩⟩ | ⟨_, _, ⟨⟩, ⟨⟩⟩))

theorem beq_eq_true_iff (left right : Float) :
    (left == right) = true ↔ left.toModel.unpack.compare right.toModel.unpack = some .eq := by
  show (left.toModel.unpack.compare right.toModel.unpack == some .eq) = true ↔ _
  rw [beq_iff_eq]

instance partialEquivBEq : PartialEquivBEq Float where
  symm {left right} same := by
    rw [beq_eq_true_iff] at same ⊢
    rw [compare_swap, same]
    rfl
  trans {first second third} one other := by
    simp only [beq_eq_true_iff, compare_eq_eq_iff] at one other ⊢
    rcases one with ⟨number, one⟩ | ⟨sign, middle, one, between⟩
    · rw [one] at number ⊢
      exact other
    · rcases other with ⟨-, other⟩ | ⟨-, last, -, other⟩
      · exact .inr ⟨sign, middle, one, other ▸ between⟩
      · exact .inr ⟨sign, last, one, other⟩

/-- A double is equal to itself unless it is no number. -/
theorem beq_self_iff (value : Float) : (value == value) = true ↔ value.isNaN = false := by
  rw [beq_eq_true_iff, compare_eq_eq_iff]
  constructor
  · rintro (⟨number, -⟩ | ⟨sign, -, zero, -⟩)
    · exact number
    · show value.toModel.unpack.isNaN = false
      rw [zero]
      rfl
  · exact fun number => .inl ⟨number, rfl⟩

end Double

namespace Value

/-! ## Equal to what -/

/-- A value that is equal to itself and to no other value. -/
def isPlain : Value → Bool
  | .float _ | .array _ | .function _ | .returned _ => false
  | _ => true

section

variable {left right : Value}

theorem equal_of_kind_ne (other : left.kind ≠ right.kind) : left.equal right = false := by
  cases left <;> cases right <;> first | rfl | exact absurd rfl other

theorem equal_plain_left (plain : left.isPlain = true) :
    left.equal right = true ↔ left = right := by
  cases left with
  | float | array | function | returned => cases plain
  | _ => cases right <;> simp [equal]

theorem equal_plain_right (plain : right.isPlain = true) :
    left.equal right = true ↔ left = right := by
  cases right with
  | float | array | function | returned => cases plain
  | _ => cases left <;> simp [equal]

theorem equal_float {value : Float} :
    (float value).equal right = true ↔ ∃ other, right = .float other ∧ (value == other) = true := by
  cases right <;> simp [equal]

theorem equal_function {body : Function} : (function body).equal right = true ↔
    ∃ other, right = .function other ∧ body.identity = other.identity := by
  cases right <;> simp [equal]

theorem equal_array {items : List Value} : (array items).equal right = true ↔
    ∃ others, right = .array others ∧ equalItems items others = true := by
  cases right <;> simp [equal]

theorem equal_returned {value : Value} : (returned value).equal right = true ↔
    ∃ other, right = .returned other ∧ value.equal other = true := by
  cases right <;> simp [equal]

theorem equalItems_cons {item : Value} {items others : List Value} :
    equalItems (item :: items) others = true ↔ ∃ other rest, others = other :: rest ∧
      item.equal other = true ∧ equalItems items rest = true := by
  cases others <;> simp [equalItems, and_assoc]

end

/-- Equal values are of one kind. -/
theorem kind_eq_of_equal {left right : Value} (same : left.equal right = true) :
    left.kind = right.kind := by
  by_contra other
  rw [equal_of_kind_ne other] at same
  cases same

theorem isTruthy_eq_of_equal {left right : Value} (same : left.equal right = true) :
    left.isTruthy = right.isTruthy := by
  cases left with
  | boolean value => rw [(equal_plain_left rfl).mp same]
  | null => rw [(equal_plain_left rfl).mp same]
  | _ =>
      have kinds := kind_eq_of_equal same
      cases right <;> first | rfl | cases kinds

/-! ## Symmetry and transitivity -/

mutual

theorem equal_comm : ∀ left right : Value, left.equal right = right.equal left
  | .float left, right => by
      cases right with
      | float right => exact BEq.comm
      | _ => rfl
  | .array left, right => by
      cases right with
      | array right => exact equalItems_comm left right
      | _ => rfl
  | .function left, right => by
      cases right with
      | function right => exact BEq.comm
      | _ => rfl
  | .returned left, right => by
      cases right with
      | returned right => exact equal_comm left right
      | _ => rfl
  | .integer _, right | .string _, right | .boolean _, right | .null, right | .builtin _, right
  | .error _, right => by
      rw [Bool.eq_iff_iff, equal_plain_left rfl, equal_plain_right rfl, eq_comm]

theorem equalItems_comm : ∀ left right : List Value, equalItems left right = equalItems right left
  | [], [] | [], _ :: _ | _ :: _, [] => rfl
  | left :: lefts, right :: rights => by
      rw [equalItems, equalItems, equal_comm left right, equalItems_comm lefts rights]

end

mutual

theorem equal_trans : ∀ {first second third : Value}, first.equal second = true →
    second.equal third = true → first.equal third = true
  | .float first, _, _, one, other => by
      obtain ⟨second, rfl, same⟩ := equal_float.mp one
      obtain ⟨third, rfl, also⟩ := equal_float.mp other
      exact equal_float.mpr ⟨third, rfl, BEq.trans same also⟩
  | .array first, _, _, one, other => by
      obtain ⟨second, rfl, same⟩ := equal_array.mp one
      obtain ⟨third, rfl, also⟩ := equal_array.mp other
      exact equal_array.mpr ⟨third, rfl, equalItems_trans same also⟩
  | .function first, _, _, one, other => by
      obtain ⟨second, rfl, same⟩ := equal_function.mp one
      obtain ⟨third, rfl, also⟩ := equal_function.mp other
      exact equal_function.mpr ⟨third, rfl, same.trans also⟩
  | .returned first, _, _, one, other => by
      obtain ⟨second, rfl, same⟩ := equal_returned.mp one
      obtain ⟨third, rfl, also⟩ := equal_returned.mp other
      exact equal_returned.mpr ⟨third, rfl, equal_trans same also⟩
  | .integer _, _, _, one, other | .string _, _, _, one, other | .boolean _, _, _, one, other
  | .null, _, _, one, other | .builtin _, _, _, one, other | .error _, _, _, one, other => by
      obtain rfl := (equal_plain_left rfl).mp one
      exact other

theorem equalItems_trans : ∀ {first second third : List Value}, equalItems first second = true →
    equalItems second third = true → equalItems first third = true
  | [], [], _, _, other => other
  | [], _ :: _, _, one, _ => nomatch one
  | first :: firsts, _, _, one, other => by
      obtain ⟨second, seconds, rfl, same, ones⟩ := equalItems_cons.mp one
      obtain ⟨third, thirds, rfl, also, others⟩ := equalItems_cons.mp other
      exact equalItems_cons.mpr
        ⟨third, thirds, rfl, equal_trans same also, equalItems_trans ones others⟩

end

/-! ## Values that differ from themselves -/

mutual

/-- Whether the double that is no number stands anywhere inside of a value. -/
def holdsNaN : Value → Bool
  | .float value => value.isNaN
  | .array items => itemsHoldNaN items
  | .returned value => value.holdsNaN
  | _ => false

/-- Whether the double that is no number stands anywhere inside of some values. -/
def itemsHoldNaN : List Value → Bool
  | [] => false
  | item :: items => item.holdsNaN || itemsHoldNaN items

end

mutual

theorem equal_self_iff : ∀ value : Value, value.equal value = true ↔ value.holdsNaN = false
  | .float value => by
      rw [equal, holdsNaN]
      exact Double.beq_self_iff value
  | .array items => by
      rw [equal, holdsNaN]
      exact equalItems_self_iff items
  | .returned value => by
      rw [equal, holdsNaN]
      exact equal_self_iff value
  | .function body => by simp [equal, holdsNaN]
  | .integer _ | .string _ | .boolean _ | .null | .builtin _ | .error _ =>
      iff_of_true ((equal_plain_left rfl).mpr rfl) rfl

theorem equalItems_self_iff : ∀ items : List Value,
    equalItems items items = true ↔ itemsHoldNaN items = false
  | [] => by simp [equalItems, itemsHoldNaN]
  | item :: items => by
      rw [equalItems, itemsHoldNaN, Bool.and_eq_true, Bool.or_eq_false_iff, equal_self_iff item,
        equalItems_self_iff items]

end

end Value

/-! ## The opcodes -/

namespace Operation

/-- What is pushed and popped again can be pushed at once. -/
theorem push_pop_push (value : Value) (change : Value → Value) :
    (do push value; let top ← pop; push (change top)) = push (change value) := by
  funext machine
  by_cases room : machine.height < machine.stack.size
  · have pushed : push value machine = .ok () _ := dif_pos room
    have again : push (change value) machine = .ok () _ := dif_pos room
    rw [Stateful.bind_of_ok pushed, again]
    simp [bind, EStateM.bind, pop, push, room]
  · have full : push value machine = .error _ machine := dif_neg room
    have again : push (change value) machine = .error _ machine := dif_neg room
    rw [Stateful.bind_of_error full, again]

/-- To test for inequality is to test for equality and to negate the result. -/
theorem execute_notEqual (operand other : Nat) : execute .notEqual operand =
    (do let _ ← execute .equal operand; execute .not other) := by
  have negates (left right : Value) : pushResult (left.compare .notEqual right) =
      (do pushResult (left.compare .equal right); let top ← pop; push (.boolean !top.isTruthy)) :=
    (push_pop_push (.boolean (left.equal right)) fun top => .boolean !top.isTruthy).symm
  simp only [execute, going, combine, bind_assoc, pure_bind, negates]

end Operation

namespace Value

/-- **Equality is an equivalence but for the double that is no number.** It is symmetric and
transitive on all values. Equal values have one name of their kinds and count alike in conditions.
The two opcodes for equality always have a result, the one the opposite of the other. And a value is
equal to itself exactly if that double is nowhere inside of it. -/
theorem equal_equivalence :
    (∀ left right : Value, left.equal right = right.equal left) ∧
    (∀ first second third : Value, first.equal second = true → second.equal third = true →
      first.equal third = true) ∧
    (∀ left right : Value, left.equal right = true →
      left.kind.name = right.kind.name ∧ left.isTruthy = right.isTruthy) ∧
    (∀ left right : Value, left.compare .equal right = .ok (.boolean (left.equal right)) ∧
      left.compare .notEqual right = .ok (.boolean !left.equal right)) ∧
    (∀ operand other : Nat, Operation.execute .notEqual operand =
      (do let _ ← Operation.execute .equal operand; Operation.execute .not other)) ∧
    ∀ value : Value, value.equal value = true ↔ value.holdsNaN = false :=
  ⟨equal_comm, fun _ _ _ => equal_trans,
    fun _ _ same => ⟨congrArg Kind.name (kind_eq_of_equal same), isTruthy_eq_of_equal same⟩,
    fun _ _ => ⟨rfl, rfl⟩, Operation.execute_notEqual, equal_self_iff⟩

/-- Zeros are equal whatever their signs are, in arrays too. An array with the double that is no
number differs from itself. -/
theorem equal_equivalence_zeros :
    (array [.float 0.0, .null]).equal (.array [.float (-0.0), .null]) = true ∧
    (array [.float (-0.0), .null]).equal (.array [.float 0.0, .null]) = true ∧
    (array [.float 0.0, .null]).equal (.array [.float 0.0, .null]) = true ∧
    (array [.float 0.0, .null]).kind.name = (array [.float (-0.0), .null]).kind.name ∧
    (array [.returned (.float (0.0 / 0.0))]).equal (.array [.returned (.float (0.0 / 0.0))]) =
      false := by
  obtain ⟨comm, trans, alike, -, -, self⟩ := equal_equivalence
  have zeros : (array [.float 0.0, .null]).equal (.array [.float (-0.0), .null]) = true := by
    decide
  have others := (comm _ _).symm.trans zeros
  have number : (array [.returned (.float (0.0 / 0.0))]).holdsNaN = true := by decide
  refine ⟨zeros, others, trans _ _ _ zeros others, (alike _ _ zeros).1, ?_⟩
  rw [Bool.eq_false_iff, Ne, self, number]
  decide

end Value

end MonkeyLang
