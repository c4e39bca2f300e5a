import MonkeyLang.Proofs.Session.Answers
import MonkeyLang.Proofs.Value.Orders

/-!
# Comparisons in a session

An input that compares two names is replied to with what the comparison says of the values of the
names. For two numbers of one kind the six comparisons therefore agree with each other as far as
the order of the numbers goes: what comes before is not behind, and `a < b` is what `b > a` is.

The replies to `<=` and `>=` are the negations of those to `>` and `<`. For numbers that stand in
an order this is the same as "before or equal" and "behind or equal". The double that is no number
stands in none, so that with it `<=` and `>=` are true, and `<`, `>` and `==` are false
(`Session.Sound.orders_agree`).
-/

set_option autoImplicit false

namespace MonkeyLang

/-- The operator and the names of an input that is an operator between two names. -/
def compared? (source : List Char) : Option (BinaryOperator × String × String) :=
  match Program.ofSource source with
  | .ok ⟨[.expression (.binary operator (.name left) (.name right) _) _]⟩ =>
    some (operator, left.text, right.text)
  | _ => none

namespace Session

variable {session : Session} {first second : Value} {left right : String}

/-- The reply to a comparison of two names tells the order of the numbers they stand for. -/
theorem Sound.replies_compared (sound : session.Sound) (one : session.Binds left first)
    (other : session.Binds right second) (comparable : first.Comparable second)
    (room : 2 ≤ session.limits.stackSize) {operator : BinaryOperator}
    (compares : operator.compares = true) {source : List Char}
    (asks : compared? source = some (operator, left, right)) :
    session.Replies source ⟨some (.boolean (operator.holds (first.order? second))), [], ""⟩ := by
  unfold compared? at asks
  split at asks
  · next written one' other' span whole read =>
      obtain ⟨rfl, rfl, rfl⟩ : written = operator ∧ one'.text = left ∧ other'.text = right := by
        simpa using asks
      have evaluates := (Evaluates.name sound one one'.span).binary written
        (Evaluates.name sound other other'.span) span
      rw [BinaryOperator.apply_of_comparable comparable compares] at evaluates
      refine sound.replies evaluates (Nat.zero_le _) room ?_ read
      rintro _ _ ⟨⟩
      rfl
  · cases asks

/-- **The comparisons of two numbers of one kind agree with each other.** `a < b` is what `b > a`
is, and `<=` and `>=` are the negations of `>` and `<`. Unless one of the numbers is no number,
`a <= b` is true if and only if `a < b` or `a == b` is, and `a >= b` if and only if `a > b` or
`a == b` is. If one of them is, the first two are true and the others false. -/
theorem Sound.orders_agree (sound : session.Sound) (room : 2 ≤ session.limits.stackSize)
    (comparable : first.Comparable second) (one : session.Binds "a" first)
    (other : session.Binds "b" second) :
    ∃ less more equal atMost atLeast : Bool,
      session.Replies "a < b".toList ⟨some (.boolean less), [], ""⟩ ∧
      session.Replies "b > a".toList ⟨some (.boolean less), [], ""⟩ ∧
      session.Replies "a > b".toList ⟨some (.boolean more), [], ""⟩ ∧
      session.Replies "a == b".toList ⟨some (.boolean equal), [], ""⟩ ∧
      session.Replies "a <= b".toList ⟨some (.boolean atMost), [], ""⟩ ∧
      session.Replies "a >= b".toList ⟨some (.boolean atLeast), [], ""⟩ ∧
      atMost = !more ∧ atLeast = !less ∧
      (first.isNaN = false → second.isNaN = false →
        atMost = (less || equal) ∧ atLeast = (more || equal)) ∧
      (first.isNaN = true ∨ second.isNaN = true →
        less = false ∧ more = false ∧ equal = false) := by
  have exchanged : compared? "b > a".toList = some (.greater, "b", "a") := by decide +kernel
  have above := sound.replies_compared other one comparable.swap room rfl exchanged
  have ordinary := fun (operator : BinaryOperator) (compares : operator.compares = true)
    (source : String) (asks : compared? source.toList = some (operator, "a", "b")) =>
      sound.replies_compared one other comparable room compares asks
  rw [BinaryOperator.holds, comparable.order?_swap_eq_gt] at above
  refine ⟨_, _, _, _, _, ordinary .less rfl _ (by decide +kernel), above,
    ordinary .greater rfl _ (by decide +kernel), ordinary .equal rfl _ (by decide +kernel),
    ordinary .lessEqual rfl _ (by decide +kernel), ordinary .greaterEqual rfl _ (by decide +kernel),
    rfl, rfl, ?_, ?_⟩
  · intro fine also
    have placed : first.order? second ≠ none := by
      rw [Ne, comparable.order?_eq_none_iff, fine, also]
      decide
    obtain ⟨order, stands⟩ := Option.ne_none_iff_exists'.mp placed
    rw [stands]
    cases order <;> decide
  · intro strange
    rw [comparable.order?_eq_none_iff.mpr strange]
    decide

/-- A session in which `a` and `b` stand for two values. -/
def pair (first second : Value) : Session where
  scope := ((Compiler.new.scope.define "a").2.define "b").2
  constants := #[]
  globals := #[first, second]
  limits := ⟨2, 1, 2⟩

/-- Any two numbers of one kind can be the values of `a` and `b`. -/
theorem sound_pair (comparable : first.Comparable second) : (pair first second).Sound where
  scope := (Compiler.sound_new.define "a").define "b"
  isGlobal := rfl
  linked := ⟨_, linked_empty⟩
  globals := by
    intro value member
    have either : value = first ∨ value = second := by simpa [pair] using member
    cases comparable <;> rcases either with rfl | rfl <;> trivial
  globalsSize := rfl

theorem binds_pair (first second : Value) :
    (pair first second).Binds "a" first ∧ (pair first second).Binds "b" second :=
  ⟨⟨⟨"a", .global, 0⟩, rfl, rfl⟩, ⟨⟨"b", .global, 1⟩, rfl, rfl⟩⟩

/-- One and two. -/
theorem orders_agree_pair : ∃ less equal atMost : Bool,
    (pair (.integer 1) (.integer 2)).Replies "a < b".toList ⟨some (.boolean less), [], ""⟩ ∧
    (pair (.integer 1) (.integer 2)).Replies "a == b".toList ⟨some (.boolean equal), [], ""⟩ ∧
    (pair (.integer 1) (.integer 2)).Replies "a <= b".toList ⟨some (.boolean atMost), [], ""⟩ ∧
    atMost = (less || equal) := by
  have comparable : Value.Comparable (.integer 1) (.integer 2) := .integers 1 2
  obtain ⟨one, other⟩ := binds_pair (.integer 1) (.integer 2)
  obtain ⟨less, _, equal, atMost, _, below, -, -, same, notAbove, -, -, -, agree, -⟩ :=
    (sound_pair comparable).orders_agree (Nat.le_refl 2) comparable one other
  exact ⟨less, equal, atMost, below, same, notAbove, (agree rfl rfl).1⟩

/-- The session behind `var a = float("nan"); var b = 1.0;`. -/
def unordered : Session :=
  ((new ⟨2, 1, 2⟩).evaluate 20 "var a = float(\"nan\"); var b = 1.0;".toList).2

/-- With the double that is no number `a <= b` is true, and neither `a < b` nor `a == b` is. -/
theorem not_orders_agree_unordered :
    Reachable ⟨2, 1, 2⟩ unordered ∧
      (unordered.evaluate 9 "a <= b".toList).1.value.map Value.text = some "true" ∧
      (unordered.evaluate 9 "a < b".toList).1.value.map Value.text = some "false" ∧
      (unordered.evaluate 9 "a == b".toList).1.value.map Value.text = some "false" :=
  ⟨.evaluate .new 20 _, by decide +kernel⟩

end Session

end MonkeyLang
