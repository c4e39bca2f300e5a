import MonkeyLang.Proofs.Program.Parsing
import MonkeyLang.Proofs.Number.Digits
import MonkeyLang.Proofs.Program.Parts
import MonkeyLang.Proofs.Program.Taking
import Mathlib.Data.List.TakeWhile

/-!
# Doubles of any length

Digits around a point are cut as one token, however many there are, and they are always read as a
double (`Number.readFloat?_point`). So a text of digits around a point is a program, whether the
double is finite or not (`Program.ofSource_float`).
-/

set_option autoImplicit false

namespace MonkeyLang

variable {whole fraction : List Char} {value : Float}

theorem takeWhile_point (front : ∀ c ∈ whole, c.isDigit = true) (rest : List Char) :
    (whole ++ '.' :: rest).takeWhile Char.isDigit = whole := by
  rw [List.takeWhile_append_of_pos front]
  exact List.append_nil whole

theorem dropWhile_point (front : ∀ c ∈ whole, c.isDigit = true) (rest : List Char) :
    (whole ++ '.' :: rest).dropWhile Char.isDigit = '.' :: rest := by
  rw [List.dropWhile_append_of_pos front]
  rfl

/-! ## The double -/

theorem toLower_of_isDigit {c : Char} (digit : c.isDigit = true) : c.toLower = c := by
  refine dif_neg fun upper => ?_
  have above := Nat.le_trans (UInt32.le_iff_toNat_le.1 upper.1) (Number.toNat_of_isDigit digit).2
  exact absurd above (by decide)

/-- Digits around a point are read as a double. -/
theorem Number.readFloat?_point (front : IsDigits whole) (behind : IsDigits fraction) :
    readFloat? (whole ++ '.' :: fraction) =
      some (scaleTen false (natOfDigits (whole ++ fraction)) (-fraction.length)) := by
  obtain ⟨c, more, rfl⟩ := List.exists_cons_of_ne_nil front.nonempty
  have digit := front.all c List.mem_cons_self
  have no_name : ∀ (letter : Char) (letters : List Char), letter.isDigit = false →
      (c :: more ++ '.' :: fraction).map Char.toLower ≠ letter :: letters := by
    intro letter letters no_digit same
    obtain rfl := (List.cons.inj same).1
    rw [toLower_of_isDigit digit, digit] at no_digit
    cases no_digit
  have no_inf : (c :: more ++ '.' :: fraction).map Char.toLower ≠ "inf".toList :=
    no_name 'i' ['n', 'f'] rfl
  have no_infinity : (c :: more ++ '.' :: fraction).map Char.toLower ≠ "infinity".toList :=
    no_name 'i' ['n', 'f', 'i', 'n', 'i', 't', 'y'] rfl
  have no_nan : (c :: more ++ '.' :: fraction).map Char.toLower ≠ "nan".toList :=
    no_name 'n' ['a', 'n'] rfl
  have all : fraction.takeWhile Char.isDigit = fraction :=
    List.takeWhile_eq_self_iff.2 behind.all
  have none : fraction.dropWhile Char.isDigit = [] := List.dropWhile_eq_nil_iff.2 behind.all
  rw [readFloat?, List.cons_append, splitSign_of_isDigit digit, ← List.cons_append]
  dsimp only
  rw [readMagnitude?]
  simp only [takeWhile_point front.all, dropWhile_point front.all, all, none, no_inf, no_infinity,
    no_nan]
  simp [readExponent?]

/-! ## The token -/

namespace Token

theorem skip_digit {c : Char} (digit : c.isDigit = true) (position : Nat) (rest : List Char) :
    skip false position (c :: rest) = (position, c :: rest) := by
  have other := Number.ne_of_isDigit digit
  simp [skip, other '/' rfl, other '\n' rfl, other ' ' rfl, other '\r' rfl, other '\t' rfl]

theorem cut_digit {c : Char} (digit : c.isDigit = true) (rest : List Char) :
    cut c rest = cutNumber (c :: rest) := by
  unfold cut
  split
  case h_18 => rw [if_pos digit]
  all_goals exact absurd digit (by decide)

theorem cutNumber_point (front : ∀ c ∈ whole, c.isDigit = true) (behind : IsDigits fraction) :
    cutNumber (whole ++ '.' :: fraction) =
      .sound .float (String.ofList (whole ++ '.' :: fraction)) (whole ++ '.' :: fraction).length
        [] := by
  obtain ⟨c, more, rfl⟩ := List.exists_cons_of_ne_nil behind.nonempty
  have all : (c :: more).takeWhile Char.isDigit = c :: more :=
    List.takeWhile_eq_self_iff.2 behind.all
  have none : (c :: more).dropWhile Char.isDigit = [] := List.dropWhile_eq_nil_iff.2 behind.all
  rw [cutNumber, dropWhile_point front]
  show (if c.isDigit = true then Cut.sound .float _ _ _ else _) = _
  rw [if_pos (behind.all c List.mem_cons_self), takeWhile_point front, all, none]

/-- The tokens of a text that is one double. -/
def floatTokens (lexeme : String) (length : Nat) : List Token :=
  [⟨.float, lexeme, ⟨0, length⟩⟩, ⟨.endOfInput, "", ⟨length, length⟩⟩]

theorem scan_float (front : IsDigits whole) (behind : IsDigits fraction) :
    scan (whole ++ '.' :: fraction) =
      ⟨floatTokens (String.ofList (whole ++ '.' :: fraction)) (whole ++ '.' :: fraction).length,
        []⟩ := by
  have cuts := cutNumber_point front.all behind
  obtain ⟨c, more, rfl⟩ := List.exists_cons_of_ne_nil front.nonempty
  have digit := front.all c List.mem_cons_self
  rw [List.cons_append] at cuts ⊢
  rw [scan, scanFrom]
  split
  · next start found =>
      rw [skip_digit digit] at found
      cases found
  · next start first rest found =>
      rw [skip_digit digit] at found
      cases found
      dsimp only
      rw [cut_digit digit, cuts, scanFrom]
      simp [Cut.sound, skip, floatTokens]

end Token

/-! ## The program -/

namespace Parse

variable {lexeme : String} {span close : Span} {previous : Token} {fuel : Nat}

theorem float_eq (reads : Number.readFloat? lexeme.toList = some value) (rest : List Token) :
    Parse.float ⟨previous, ⟨.float, lexeme, span⟩ :: rest⟩ =
      .done (.literal (.float value) span) ⟨⟨.float, lexeme, span⟩, rest⟩ := by
  have looked : peek ⟨previous, ⟨.float, lexeme, span⟩ :: rest⟩ =
      .done ⟨.float, lexeme, span⟩ ⟨previous, ⟨.float, lexeme, span⟩ :: rest⟩ := rfl
  rw [Parse.float, bind_of_done looked, reads]
  rfl

theorem statement_float (reads : Number.readFloat? lexeme.toList = some value) :
    Parse.statement (fuel + 4) ⟨previous, [⟨.float, lexeme, span⟩, ⟨.endOfInput, "", close⟩]⟩ =
      .done (.expression (.literal (.float value) span) span)
        ⟨⟨.float, lexeme, span⟩, [⟨.endOfInput, "", close⟩]⟩ := by
  have operand : Parse.operand (fuel + 2)
      ⟨previous, [⟨.float, lexeme, span⟩, ⟨.endOfInput, "", close⟩]⟩ =
      .done (.literal (.float value) span)
        ⟨⟨.float, lexeme, span⟩, [⟨.endOfInput, "", close⟩]⟩ := float_eq reads _
  have expression : Parse.expression (fuel + 3) .lowest
      ⟨previous, [⟨.float, lexeme, span⟩, ⟨.endOfInput, "", close⟩]⟩ =
      .done (.literal (.float value) span)
        ⟨⟨.float, lexeme, span⟩, [⟨.endOfInput, "", close⟩]⟩ := (bind_of_done operand).trans rfl
  exact (bind_of_done expression).trans rfl

end Parse

namespace Program

/-- The program that is one double. -/
def ofFloat (value : Float) (length : Nat) : Program :=
  ⟨[.expression (.literal (.float value) ⟨0, length⟩) ⟨0, length⟩]⟩

theorem eq_of_mem_literals_ofFloat {other : Float} {length : Nat}
    (member : .float other ∈ (ofFloat value length).literals) : other = value :=
  Literal.float.inj (List.mem_singleton.1 member)

theorem ofTokens_float {lexeme : String} (reads : Number.readFloat? lexeme.toList = some value)
    (length : Nat) :
    ofTokens (Token.floatTokens lexeme length) = some ⟨ofFloat value length, []⟩ := by
  have fuel : fuelFor (Token.floatTokens lexeme length) = 12 + 4 := rfl
  have unfinished : (Cursor.start (Token.floatTokens lexeme length)).atEnd = false := rfl
  have ran : Parse.statement (12 + 4) (Cursor.start (Token.floatTokens lexeme length)) = _ :=
    Parse.statement_float reads
  rw [ofTokens, fuel, readStatements, unfinished, if_neg Bool.false_ne_true, ran]
  rfl

/-- The double that digits around a point stand for. -/
def pointed (whole fraction : List Char) : Float :=
  Number.scaleTen false (Number.natOfDigits (whole ++ fraction)) (-fraction.length)

/-- A text of digits around a point is a program. -/
theorem ofSource_float (front : IsDigits whole) (behind : IsDigits fraction) :
    ofSource (whole ++ '.' :: fraction) =
      .ok (ofFloat (pointed whole fraction) (whole ++ '.' :: fraction).length) := by
  have reads := Number.readFloat?_point front behind
  rw [ofSource_eq, Token.scan_float front behind]
  dsimp only
  rw [ofTokens_float (by rwa [String.toList_ofList])]
  rfl

end Program

end MonkeyLang
