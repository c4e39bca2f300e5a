import MonkeyLang.Json.Reader
import MonkeyLang.Json.Writer
import MonkeyLang.Proofs.Number.Digits

/-!
# JSON numbers are read back

A number is read up to a character that cannot go on with it (`Ends`), whatever stands behind:
a reader that reads a whole text reads the same in front of such a character. A whole number of
sixty-four bits, signed if it is negative, is read back from its digits.

A double need not be read back, since reading rounds in several steps; `ReadsBack` says that one
is.
-/

set_option autoImplicit false

namespace MonkeyLang.Json

open Decimal (digitsOf)
open Number (natOfDigits ne_of_isDigit)

/-- Whether a character may stand inside of a number, behind its first digit. -/
def isNumberPart (c : Char) : Bool := c.isDigit || c == '.' || c == 'e' || c == 'E'

/-- A number ends in front of this text. -/
def Ends (rest : List Char) : Prop := ∀ c ∈ rest.head?, isNumberPart c = false

theorem ends_nil : Ends [] := fun _ member => absurd member (by simp)

theorem ends_cons {c : Char} {rest : List Char} (other : isNumberPart c = false) :
    Ends (c :: rest) := by
  intro head member
  obtain rfl : c = head := by simpa using member
  exact other

/-! ## Reading in front of more text -/

section

variable {text rest left : List Char} {negative : Bool} {digits : Nat} {shift : Int} {value : Json}

theorem Ends.no_digit (ends : Ends rest) : ∀ c ∈ rest.head?, c.isDigit = false := by
  intro c member
  have part := ends c member
  simp only [isNumberPart, Bool.or_eq_false_iff] at part
  exact part.1.1.1

theorem takeWhile_isDigit_append (text : List Char) (ends : Ends rest) :
    (text ++ rest).takeWhile Char.isDigit = text.takeWhile Char.isDigit :=
  Text.takeWhile_append ends.no_digit text

theorem dropWhile_isDigit_append (text : List Char) (ends : Ends rest) :
    (text ++ rest).dropWhile Char.isDigit = text.dropWhile Char.isDigit ++ rest :=
  Text.dropWhile_append ends.no_digit text

theorem splitSign_append {c : Char} (rest : List Char) :
    Number.splitSign (c :: text ++ rest) =
      ((Number.splitSign (c :: text)).1, (Number.splitSign (c :: text)).2 ++ rest) := by
  rw [List.cons_append, Number.splitSign.eq_def, Number.splitSign.eq_def]
  split <;> simp_all

/-- A result that carries the text behind it carries more of it. -/
theorem map_pair_append {result : Except Fault Float} (rest : List Char)
    (read : (result.map fun number => (Json.real number, text)) = .ok (value, left)) :
    (result.map fun number => (Json.real number, text ++ rest)) = .ok (value, left ++ rest) := by
  cases result with
  | error fault => cases read
  | ok number =>
    cases read
    rfl

theorem exponentRest_append (ends : Ends rest)
    (read : exponentRest negative digits shift text = .ok (value, left)) :
    exponentRest negative digits shift (text ++ rest) = .ok (value, left ++ rest) := by
  cases text with
  | nil => cases read
  | cons c text =>
    rw [exponentRest] at read
    rw [exponentRest, splitSign_append]
    dsimp only at read ⊢
    cases unsigned : (Number.splitSign (c :: text)).2 with
    | nil =>
      rw [unsigned] at read
      cases read
    | cons first more =>
      rw [unsigned] at read
      dsimp only [List.cons_append] at read ⊢
      simp only [← List.cons_append, takeWhile_isDigit_append _ ends, dropWhile_isDigit_append _ ends]
      split at read
      case isTrue => cases read
      case isFalse digit =>
        rw [if_neg digit]
        split at read
        case isTrue large =>
          rw [if_pos large]
          split at read
          case isTrue => cases read
          case isFalse fits =>
            rw [if_neg fits]
            cases read
            rfl
        case isFalse small =>
          rw [if_neg small]
          exact map_pair_append rest read

theorem realRest_append (ends : Ends rest)
    (read : realRest negative digits shift text = .ok (value, left)) :
    realRest negative digits shift (text ++ rest) = .ok (value, left ++ rest) := by
  cases text with
  | nil =>
    have plain : realRest negative digits shift rest =
        (scale negative digits shift).map fun value => (.real value, rest) := by
      rw [realRest]
      · rintro more rfl
        exact absurd (ends 'e' (by simp)) (by decide)
      · rintro more rfl
        exact absurd (ends 'E' (by simp)) (by decide)
    rw [List.nil_append, plain]
    exact map_pair_append rest read
  | cons c text =>
    rw [List.cons_append]
    rw [realRest.eq_def] at read ⊢
    split at read
    case h_1 more is =>
      cases is
      exact exponentRest_append ends read
    case h_2 more is =>
      cases is
      exact exponentRest_append ends read
    case h_3 not_low not_high =>
      split
      case h_1 more is =>
        cases is
        exact absurd rfl (not_low text)
      case h_2 more is =>
        cases is
        exact absurd rfl (not_high text)
      case h_3 => exact map_pair_append rest read

theorem fractionRest_append (ends : Ends rest)
    (read : fractionRest negative digits shift text = .ok (value, left)) :
    fractionRest negative digits shift (text ++ rest) = .ok (value, left ++ rest) := by
  rw [fractionRest] at read ⊢
  dsimp only at read ⊢
  rw [takeWhile_isDigit_append _ ends, dropWhile_isDigit_append _ ends]
  split at read
  case isTrue => cases read
  case isFalse some =>
    rw [if_neg some]
    exact realRest_append ends read

/-- The end of a number whose whole digits have been read: a fraction, an exponent or nothing. -/
def wholeRest (negative : Bool) (digits dropped : Nat) (text : List Char) : Reading Json :=
  match text with
  | '.' :: more => fractionRest negative digits dropped more
  | _ =>
    if text.head? = some 'e' || text.head? = some 'E' || dropped ≠ 0 then
      realRest negative digits dropped text
    else .ok (wholeNumber negative digits, text)

theorem unsignedNumber_eq_wholeRest {whole : List Char} (is : text.takeWhile Char.isDigit = whole)
    (some : whole ≠ []) (no_zero : ∀ c more, whole ≠ '0' :: c :: more) :
    unsignedNumber negative text =
      wholeRest negative (fitDigits 0 whole).1 (fitDigits 0 whole).2
        (text.dropWhile Char.isDigit) := by
  rw [unsignedNumber, is]
  dsimp only
  split
  case h_1 => exact absurd rfl some
  case h_2 => exact absurd rfl (no_zero _ _)
  case h_3 => rfl

theorem wholeRest_of_ends {dropped : Nat} (ends : Ends rest) :
    wholeRest negative digits dropped rest =
      if dropped ≠ 0 then realRest negative digits dropped rest
      else .ok (wholeNumber negative digits, rest) := by
  have other : ∀ c, isNumberPart c = true → rest.head? ≠ some c := by
    rintro c part head
    exact Bool.false_ne_true ((ends c head).symm.trans part)
  rw [wholeRest]
  · simp [other 'e' (by decide), other 'E' (by decide)]
  · rintro more rfl
    exact other '.' (by decide) rfl

theorem wholeRest_append {dropped : Nat} (ends : Ends rest)
    (read : wholeRest negative digits dropped text = .ok (value, left)) :
    wholeRest negative digits dropped (text ++ rest) = .ok (value, left ++ rest) := by
  cases text with
  | nil =>
    rw [wholeRest_of_ends ends_nil] at read
    rw [List.nil_append, wholeRest_of_ends ends]
    split at read
    case isTrue many =>
      rw [if_pos many]
      exact realRest_append ends read
    case isFalse all =>
      rw [if_neg all]
      cases read
      rfl
  | cons c text =>
    by_cases point : c = '.'
    · subst point
      exact fractionRest_append ends read
    have no_point : ∀ more tail : List Char, c :: tail ≠ '.' :: more :=
      fun more tail is => point (List.cons.inj is).1
    rw [wholeRest] at read
    · rw [List.cons_append, wholeRest]
      · rw [List.head?_cons] at read ⊢
        split at read
        case isTrue real =>
          rw [if_pos real]
          exact realRest_append ends read
        case isFalse whole =>
          rw [if_neg whole]
          cases read
          rfl
      · exact fun more => no_point more _
    · exact fun more => no_point more _

theorem unsignedNumber_append (ends : Ends rest)
    (read : unsignedNumber negative text = .ok (value, left)) :
    unsignedNumber negative (text ++ rest) = .ok (value, left ++ rest) := by
  have some : text.takeWhile Char.isDigit ≠ [] := by
    intro none
    rw [unsignedNumber, none] at read
    cases read
  have no_zero : ∀ c more, text.takeWhile Char.isDigit ≠ '0' :: c :: more := by
    intro c more zero
    rw [unsignedNumber, zero] at read
    cases read
  rw [unsignedNumber_eq_wholeRest rfl some no_zero] at read
  rw [unsignedNumber_eq_wholeRest (takeWhile_isDigit_append text ends) some no_zero,
    dropWhile_isDigit_append text ends]
  exact wholeRest_append ends read

end

/-! ## Whole numbers -/

theorem le_foldl (digits : List Char) (value : Nat) :
    value ≤ digits.foldl (fun value c => 10 * value + Number.digitValue c) value := by
  induction digits generalizing value with
  | nil => exact Nat.le_refl _
  | cons digit digits ih =>
    exact Nat.le_trans (by omega) (ih (10 * value + Number.digitValue digit))

/-- Digits of a number of sixty-four bits all fit. -/
theorem fitDigits_eq (digits : List Char) (value : Nat)
    (small : digits.foldl (fun value c => 10 * value + Number.digitValue c) value ≤
      Number.greatestSize) :
    fitDigits value digits =
      (digits.foldl (fun value c => 10 * value + Number.digitValue c) value, 0) := by
  induction digits generalizing value with
  | nil => rfl
  | cons digit digits ih =>
    have fits := Nat.le_trans (le_foldl digits _) small
    rw [fitDigits, if_pos fits]
    exact ih _ small

theorem fitDigits_digitsOf {number : Nat} (small : number ≤ Number.greatestSize) :
    fitDigits 0 (digitsOf number) = (number, 0) := by
  have value : natOfDigits (digitsOf number) = number := Number.natOfDigits_digitsOf number
  have fits := fitDigits_eq (digitsOf number) 0
  rw [show (digitsOf number).foldl _ 0 = number from value] at fits
  exact fits small

theorem digitsOf_ne_zero_cons (number : Nat) (c : Char) (more : List Char) :
    digitsOf number ≠ '0' :: c :: more := by
  intro zero
  obtain rfl := Number.eq_zero_of_head?_digitsOf number (by rw [zero]; rfl)
  exact absurd zero (by simp [digitsOf])

/-- A whole number is read up to what ends it. -/
theorem unsignedNumber_digitsOf {number : Nat} {rest : List Char} (negative : Bool)
    (small : number ≤ Number.greatestSize) (ends : Ends rest) :
    unsignedNumber negative (digitsOf number ++ rest) = .ok (wholeNumber negative number, rest) := by
  have all : ∀ c ∈ digitsOf number, c.isDigit = true :=
    fun _ => Number.isDigit_of_mem_digitsOf
  have whole : (digitsOf number ++ rest).takeWhile Char.isDigit = digitsOf number := by
    have none := takeWhile_isDigit_append [] ends
    rw [List.takeWhile_append_of_pos all, ← List.nil_append rest, none, List.takeWhile_nil,
      List.append_nil]
  have behind : (digitsOf number ++ rest).dropWhile Char.isDigit = rest := by
    have none := dropWhile_isDigit_append [] ends
    rw [List.dropWhile_append_of_pos all, ← List.nil_append rest, none, List.dropWhile_nil]
  rw [unsignedNumber_eq_wholeRest whole (Number.digitsOf_ne_nil number)
    (digitsOf_ne_zero_cons number), fitDigits_digitsOf small, behind, wholeRest_of_ends ends]
  exact if_neg (by simp)

/-! ## Numbers as values -/

section

variable {fuel depth : Nat} {rest : List Char}

theorem skipGaps_skipGaps (text : List Char) : skipGaps (skipGaps text) = skipGaps text := by
  induction text with
  | nil => rfl
  | cons c text ih =>
    by_cases gap : isGap c = true
    · have inside : skipGaps (c :: text) = skipGaps text := List.dropWhile_cons_of_pos gap
      rw [inside, ih]
    · have inside : skipGaps (c :: text) = c :: text := List.dropWhile_cons_of_neg gap
      rw [inside, inside]

/-- Gaps in front of a value mean nothing. -/
theorem value_skipGaps (text : List Char) :
    value (fuel + 1) depth (skipGaps text) = value (fuel + 1) depth text := by
  rw [value, value, skipGaps_skipGaps]

theorem skipGaps_append {text : List Char} {c : Char} {more : List Char}
    (skipped : skipGaps text = c :: more) : skipGaps (text ++ rest) = c :: more ++ rest := by
  rw [skipGaps, List.dropWhile_append, show text.dropWhile isGap = _ from skipped]
  rfl

theorem skipGaps_of_isDigit {c : Char} {more : List Char} (digit : c.isDigit = true) :
    skipGaps (c :: more) = c :: more := by
  have no_gap : isGap c = false := by
    simp [isGap, ne_of_isDigit digit ' ' rfl, ne_of_isDigit digit '\n' rfl,
      ne_of_isDigit digit '\t' rfl, ne_of_isDigit digit '\r' rfl]
  exact List.dropWhile_cons_of_neg (by simp [no_gap])

/-- A text that starts with a digit holds a number. -/
theorem value_of_isDigit {c : Char} {more : List Char} (digit : c.isDigit = true) :
    value (fuel + 1) depth (c :: more) = unsignedNumber false (c :: more) := by
  have first : ∀ other tail, other.isDigit = false → c :: more ≠ other :: tail :=
    fun other tail none is => ne_of_isDigit digit other none (List.cons.inj is).1
  rw [value.eq_def]
  dsimp only
  rw [skipGaps_of_isDigit digit]
  split
  case h_1 is => cases is
  case h_2 is => exact absurd is (first _ _ rfl)
  case h_3 is => exact absurd is (first _ _ rfl)
  case h_4 is => exact absurd is (first _ _ rfl)
  case h_5 is => exact absurd is (first _ _ rfl)
  case h_6 is => exact absurd is (first _ _ rfl)
  case h_7 is => exact absurd is (first _ _ rfl)
  case h_8 is => exact absurd is (first _ _ rfl)
  case h_9 is =>
    cases is
    rw [if_pos digit]

/-- Whole numbers of sixty-four bits, signed if they are negative, are read back. -/
theorem value_integer {number : Int} (low : -(Number.twoTo 63 : Int) ≤ number)
    (high : number ≤ Number.greatestSize) (ends : Ends rest) :
    value (fuel + 1) depth ((toString number).toList ++ rest) = .ok (.integer number, rest) := by
  cases number with
  | ofNat number =>
    have small : number ≤ Number.greatestSize := Int.ofNat_le.1 high
    obtain ⟨c, more, digits, digit⟩ := Number.exists_digitsOf number
    rw [show (toString (Int.ofNat number)).toList = _ from Number.toList_toString_natural number]
    have read := unsignedNumber_digitsOf false small ends
    rw [digits, List.cons_append] at read ⊢
    rw [value_of_isDigit digit, read]
    rfl
  | negSucc number =>
    have small : number + 1 ≤ Number.twoTo 63 := by
      rw [Int.negSucc_eq] at low
      omega
    have fits : number + 1 ≤ Number.greatestSize := Nat.le_trans small (by decide)
    rw [show (toString (Int.negSucc number)).toList = _ from Number.toList_toString_negative number]
    have read := unsignedNumber_digitsOf true fits ends
    show unsignedNumber true (digitsOf (number + 1) ++ rest) = _
    rw [read, wholeNumber]
    simp [Nat.not_lt.2 small, Int.negSucc_eq]

theorem word_eq {expected text left : List Char} {result value : Json}
    (read : word expected result text = .ok (value, left)) : value = result := by
  induction expected generalizing text with
  | nil =>
    rw [word] at read
    cases read
    rfl
  | cons c expected ih =>
    cases text with
    | nil => cases read
    | cons d text =>
      rw [word] at read
      split at read
      · exact ih read
      · cases read

/-- A double that is read from a whole text is read in front of more. -/
theorem value_real_append {number : Float} {text left : List Char} {less : Nat}
    (read : value (less + 1) 1 text = .ok (.real number, left)) (ends : Ends rest) :
    value (fuel + 1) depth (text ++ rest) = .ok (.real number, left ++ rest) := by
  rw [value.eq_def] at read
  dsimp only at read
  split at read
  case h_1 => cases read
  case h_2 => cases word_eq read
  case h_3 => cases word_eq read
  case h_4 => cases word_eq read
  case h_5 more _ =>
    cases string : stringRest [] more with
    | error fault => rw [string] at read; cases read
    | ok result => rw [string] at read; cases read
  case h_6 more skipped =>
    rw [value, skipGaps_append skipped]
    exact unsignedNumber_append ends read
  case h_7 => cases read
  case h_8 => cases read
  case h_9 c more _ _ _ _ _ _ _ skipped =>
    split at read
    case isTrue digit =>
      rw [← value_skipGaps, skipGaps_append skipped, List.cons_append, value_of_isDigit digit]
      exact unsignedNumber_append ends read
    case isFalse => cases read

/-- The text written for a double is read as that double. -/
def ReadsBack (number : Float) : Prop :=
  readValue 1 (writeReal number) = .ok (.real number, [])

/-- A double that is read back is read back in front of more text. -/
theorem value_real {number : Float} (reads : ReadsBack number) (ends : Ends rest) :
    value (fuel + 1) depth (writeReal number ++ rest) = .ok (.real number, rest) :=
  value_real_append reads ends

end

end MonkeyLang.Json
