import MonkeyLang.Proofs.Program.Rereading
import MonkeyLang.Proofs.Session.Answers
import MonkeyLang.Proofs.Token.Scanning

/-!
# Integer arithmetic from text to value

A text such as `(-7) / (2)` is scanned, read, compiled and run. What it comes to is the arithmetic
of whole numbers, cut down to sixty-four bits, and a division by zero is the only fault there is
(`evaluate_arithmetic`).

Only the least integer is left out. It is written as a minus and digits, and the digits are scanned
alone, as a number that is too large by one. So the text is rejected where this integer stands.
-/

set_option autoImplicit false

namespace MonkeyLang

open Token (Scans numeralFaults numeralFaults_eq_nil numeralFaults_append toInt_neg_of_ne)

/-! ## Whole numbers -/

section

variable {value : Int64}

theorem Expression.numeral_rereads (other : value ≠ Int64.minValue) :
    (Expression.numeral value).Rereads := by
  refine Expression.rereads _ ?_
  rw [Expression.numeral]
  split
  case isFalse natural =>
    rw [Int64.not_lt, Int64.le_iff_toInt_le] at natural
    exact List.forall_mem_singleton.mpr natural
  case isTrue negative =>
    rw [Int64.lt_iff_toInt_lt, Int64.toInt_zero] at negative
    refine List.forall_mem_singleton.mpr ?_
    show 0 ≤ (-value).toInt
    rw [toInt_neg_of_ne other]
    omega

/-- What a whole number is read as has that number for its value. -/
theorem Session.Evaluates.numeral (session : Session) {expression : Expression}
    (same : expression.withoutSpans = (Expression.numeral value).withoutSpans) :
    session.Evaluates 1 1 expression (.ok (.integer value)) := by
  rw [Expression.numeral] at same
  split at same
  · obtain ⟨inner, span, rfl, inside⟩ := Expression.eq_unary_of_withoutSpans same
    obtain ⟨place, rfl⟩ := Expression.eq_literal_of_withoutSpans inside
    have evaluates := (Evaluates.literal session (.integer (-value)) place).unary .negate span
    have negated : UnaryOperator.negate.apply (.integer (-value)) = .ok (.integer value) :=
      congrArg (fun value => Except.ok (Value.integer value)) Int64.neg_neg
    rwa [Literal.value, negated] at evaluates
  · obtain ⟨place, rfl⟩ := Expression.eq_literal_of_withoutSpans same
    exact .literal session (.integer value) place

end

/-! ## Two expressions in parentheses -/

/-- The words of two expressions in parentheses with an operator between them. -/
def enclosedWords (operator : BinaryOperator) (left right : Expression) : List Word :=
  (.fixed .leftParen :: (left.words ++ [.fixed .rightParen])) ++
    .fixed operator.kind :: .fixed .leftParen :: (right.words ++ [.fixed .rightParen])

/-- What is read has the operator outside, whatever is in the parentheses. -/
theorem Program.ofTokens_of_enclosed {operator : BinaryOperator} {left right : Expression}
    {tokens : List Token} {close : Token} (left_rereads : left.Rereads)
    (right_rereads : right.Rereads) (spelled : Spells tokens (enclosedWords operator left right))
    (ends : close.kind = .endOfInput) : ∃ program,
      ofTokens (tokens ++ [close]) = some ⟨program, []⟩ ∧ ∃ first second span whole,
        program = ⟨[.expression (.binary operator first second span) whole]⟩ ∧
          first.withoutSpans = left.withoutSpans ∧ second.withoutSpans = right.withoutSpans := by
  obtain ⟨front, _, rfl, spelled_left, spelled⟩ := spelled.append
  obtain ⟨sign, back, rfl, sign_kind, spelled_right⟩ := spelled.fixed
  obtain ⟨opening, inside, rfl, opens, -⟩ := spelled_left.fixed
  obtain ⟨token, more, rfl, -, -⟩ := spelled_right.fixed
  have left_begins : Parse.Begins .lowest (opening :: inside) (sign :: (token :: more) ++ [close])
      (·.withoutSpans = left.withoutSpans) := left_rereads.parenthesized spelled_left
  have right_begins : Parse.Begins operator.precedence (token :: more) [close]
      (·.withoutSpans = right.withoutSpans) := right_rereads.parenthesized spelled_right
  have lowest : close.kind.precedence.rank = 0 := by
    rw [ends]
    rfl
  have begins := left_begins.binary sign_kind operator.lowest_lt right_begins
    (lowest ▸ Nat.zero_le _)
  obtain ⟨value, whole, read, first, second, span, rfl, same, also⟩ :=
    ofTokens_of_takes (by rw [opens]; rfl) ends fun fuel enough =>
      begins.takes (Nat.le_of_eq lowest) enough
  exact ⟨_, read, first, second, span, whole, rfl, same, also⟩

/-! ## Arithmetic -/

/-- The text of two whole numbers, written in decimal, with an operator between them. -/
def arithmeticText (operator : BinaryOperator) (a b : Int64) : List Char :=
  s!"({a}) {operator.kind.spelling} ({b})".toList

theorem scans_arithmeticText (operator : BinaryOperator) (a b : Int64) :
    Scans (arithmeticText operator a b) (enclosedWords operator (.numeral a) (.numeral b))
      (numeralFaults a ++ numeralFaults b) := by
  have text : arithmeticText operator a b =
      '(' :: ((toString a).toList ++ ')' :: ' ' :: (operator.kind.spelling.toList ++
        ' ' :: '(' :: ((toString b).toList ++ [')']))) := by
    simp only [arithmeticText, String.toList_append, List.append_assoc]
    rfl
  have second : Scans ('(' :: ((toString b).toList ++ [')']))
      (.fixed .leftParen :: ((Expression.numeral b).words ++ [.fixed .rightParen]))
      (numeralFaults b ++ []) := .leftParen (.numeral b (.rightParen .stop))
  have behind := (Scans.binaryOperator operator second).blank
  rw [text, enclosedWords, List.cons_append, List.append_assoc, ← List.append_nil (numeralFaults b)]
  exact .leftParen (.numeral a (.rightParen behind))

/-- The arithmetic of whole numbers that an operator stands for. A quotient is truncated. -/
def BinaryOperator.exact? : BinaryOperator → Option (Int → Int → Int)
  | .add => some (· + ·)
  | .sub => some (· - ·)
  | .mul => some (· * ·)
  | .div => some Int.tdiv
  | _ => none

/-- Operators on values of sixty-four bits do what they stand for, cut down to as many bits. -/
theorem BinaryOperator.apply_integers {operator : BinaryOperator} {exact : Int → Int → Int}
    (arithmetic : operator.exact? = some exact) (a b : Int64) :
    operator.apply (.integer a) (.integer b) =
      if operator = .div ∧ b = 0 then .error .divisionByZero
      else .ok (.integer (Int64.ofInt (exact a.toInt b.toInt))) := by
  cases operator <;> cases arithmetic
  case add =>
    rw [Int64.ofInt_add, Int64.ofInt_toInt, Int64.ofInt_toInt]
    rfl
  case sub =>
    rw [Int64.ofInt_sub, Int64.ofInt_toInt, Int64.ofInt_toInt]
    rfl
  case mul =>
    rw [Int64.ofInt_mul, Int64.ofInt_toInt, Int64.ofInt_toInt]
    rfl
  case div =>
    rw [Int64.ofInt_tdiv (Int64.le_toInt a) (Int64.toInt_le a) (Int64.le_toInt b)
      (Int64.toInt_le b), Int64.ofInt_toInt, Int64.ofInt_toInt]
    simp [BinaryOperator.apply, Value.arithmetic]

/-- **Arithmetic in a text is that of whole numbers, cut down to sixty-four bits.** For any two
whole numbers of sixty-four bits but the least, the text of an operator between them is evaluated to
the result of the operator, and it fails exactly if it divides by zero. The least number cannot be
written down: where it stands, the text is rejected with the fault of a number that is too large,
and nothing is run. -/
theorem evaluate_arithmetic (limits : Limits) (room : 2 ≤ limits.stackSize)
    {operator : BinaryOperator} {exact : Int → Int → Int}
    (arithmetic : operator.exact? = some exact) (a b : Int64) :
    (a ≠ Int64.minValue → b ≠ Int64.minValue → ∃ enough, ∀ steps, enough ≤ steps →
      evaluate steps limits (arithmeticText operator a b) =
        ⟨some (if operator = .div ∧ b = 0 then .error [Fault.divisionByZero.diagnostic]
          else .ok ⟨.integer (Int64.ofInt (exact a.toInt b.toInt)), []⟩), ""⟩) ∧
    (a = Int64.minValue ∨ b = Int64.minValue → ∃ diagnostics : List Diagnostic,
      (∀ steps, evaluate steps limits (arithmeticText operator a b) =
        ⟨some (.error diagnostics), ""⟩) ∧
      diagnostics.map (fun diagnostic => (diagnostic.code, diagnostic.message)) =
        ([a, b].filter (· = Int64.minValue)).map fun _ =>
          ("MK1004", "Integer literal 9223372036854775808 does not fit in 64 bits")) := by
  refine ⟨fun a_fine b_fine => ?_, fun least => ?_⟩
  · have scans := scans_arithmeticText operator a b
    rw [numeralFaults_eq_nil a_fine, numeralFaults_eq_nil b_fine, List.append_nil] at scans
    obtain ⟨_, read, first, second, span, whole, rfl, same, also⟩ :=
      Program.ofSource_of_scans scans fun tokens close spelled ends =>
        Program.ofTokens_of_enclosed (Expression.numeral_rereads a_fine)
          (Expression.numeral_rereads b_fine) spelled ends
    have evaluates := (Session.Evaluates.numeral (.new limits) same).binary operator
      (.numeral (.new limits) also) span
    rw [BinaryOperator.apply_integers arithmetic] at evaluates
    obtain ⟨enough, comes⟩ := evaluate_of_evaluates evaluates (by decide) room (by
      intro result constants is
      split at is <;> cases is
      rfl) read
    refine ⟨enough, fun steps ready => (comes steps ready).trans ?_⟩
    by_cases zero : operator = .div ∧ b = 0
    · rw [if_pos zero, if_pos zero]
      rfl
    · rw [if_neg zero, if_neg zero]
      rfl
  · have some : numeralFaults a ++ numeralFaults b ≠ [] := by
      rcases least with rfl | rfl <;> simp [numeralFaults]
    obtain ⟨diagnostics, rejected, told⟩ :=
      Program.ofSource_of_faults (scans_arithmeticText operator a b) some
    refine ⟨diagnostics, fun steps => evaluate_of_rejected rejected steps limits, told.trans ?_⟩
    have meant : (fun fault : Token.Fault => (fault.code, fault.message))
        (.integerTooLarge "9223372036854775808") =
          ("MK1004", "Integer literal 9223372036854775808 does not fit in 64 bits") := rfl
    rw [numeralFaults_append, List.map_map]
    exact List.map_congr_left fun _ _ => meant

/-- A quotient is truncated towards zero. -/
theorem evaluate_arithmetic_truncated : 2 ≤ Limits.default.stackSize ∧
    BinaryOperator.div.exact? = some Int.tdiv ∧ ∃ enough, ∀ steps, enough ≤ steps →
      evaluate steps .default "(-7) / (2)".toList = ⟨some (.ok ⟨.integer (-3), []⟩), ""⟩ := by
  have room : 2 ≤ Limits.default.stackSize := by decide
  have text : arithmeticText .div (-7) 2 = "(-7) / (2)".toList := rfl
  have quotient : Int64.ofInt (Int.tdiv (Int64.toInt (-7)) (Int64.toInt 2)) = -3 := by decide
  obtain ⟨enough, comes⟩ :=
    (@evaluate_arithmetic .default room .div _ rfl (-7) 2).1 (by decide) (by decide)
  refine ⟨room, rfl, enough, fun steps ready => ?_⟩
  rw [← text, comes steps ready, quotient]
  rfl

/-- The least integer plus zero does not come to anything. -/
theorem not_evaluate_arithmetic_least :
    arithmeticText .add Int64.minValue 0 = "(-9223372036854775808) + (0)".toList ∧
      ¬∃ steps, evaluate steps .default (arithmeticText .add Int64.minValue 0) =
        ⟨some (.ok ⟨.integer Int64.minValue, []⟩), ""⟩ := by
  refine ⟨rfl, ?_⟩
  rintro ⟨steps, comes⟩
  obtain ⟨diagnostics, rejected, -⟩ := Program.ofSource_of_faults
    (scans_arithmeticText .add Int64.minValue 0) (by simp [numeralFaults])
  rw [evaluate_of_rejected rejected] at comes
  cases comes

end MonkeyLang
