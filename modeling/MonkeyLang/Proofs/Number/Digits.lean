import MonkeyLang.Number.Read
import MonkeyLang.Number.Shortest

/-!
# Digits that are read back

A run of digits (`IsDigits`) is read as the number that it stands for, and nothing in front of it is
taken for a sign. The digits of a number in base ten stand for the number (`natOfDigits_digitsOf`).
So a whole number of sixty-four bits that is not negative is read back from its digits. In its text
a whole number has its digits, behind a minus if it is negative.

Readers cut digits off the front of a text, as they do with names. What they cut off is the same
whatever follows the text, unless it goes on with what would be cut off (`Text.takeWhile_append`).
-/

set_option autoImplicit false

namespace MonkeyLang.Text

/-! ## Cutting off a front -/

variable {p : Char → Bool} {rest : List Char}

theorem takeWhile_append (stops : ∀ c ∈ rest.head?, p c = false) (text : List Char) :
    (text ++ rest).takeWhile p = text.takeWhile p := by
  induction text with
  | nil =>
      cases rest with
      | nil => rfl
      | cons c rest =>
          have stop : ¬ p c = true := Bool.eq_false_iff.mp (stops c rfl)
          rw [List.nil_append, List.takeWhile_cons_of_neg stop, List.takeWhile_nil]
  | cons c text ih => rw [List.cons_append, List.takeWhile_cons, List.takeWhile_cons, ih]

theorem dropWhile_append (stops : ∀ c ∈ rest.head?, p c = false) (text : List Char) :
    (text ++ rest).dropWhile p = text.dropWhile p ++ rest := by
  have whole := List.takeWhile_append_dropWhile (p := p) (l := text ++ rest)
  rw [takeWhile_append stops] at whole
  refine List.append_cancel_left (whole.trans ?_)
  rw [← List.append_assoc, List.takeWhile_append_dropWhile]

end MonkeyLang.Text

/-! ## Digits -/

namespace MonkeyLang

/-- A run of digits, of any length. -/
structure IsDigits (digits : List Char) : Prop where
  nonempty : digits ≠ []
  all : ∀ c ∈ digits, c.isDigit = true

theorem isDigits_singleton {c : Char} (digit : c.isDigit = true) : IsDigits [c] :=
  ⟨List.cons_ne_nil c [], List.forall_mem_singleton.2 digit⟩

end MonkeyLang

namespace MonkeyLang.Number

open Decimal (digitsOf)

theorem natOfDigits_digitsOf (number : Nat) : natOfDigits (digitsOf number) = number :=
  Nat.ofDigitChars_ten_toDigits

theorem isDigit_of_mem_digitsOf {number : Nat} {c : Char} (member : c ∈ digitsOf number) :
    c.isDigit = true :=
  Nat.isDigit_of_mem_toDigits (by decide) (by decide) member

theorem toList_toString_natural (number : Nat) :
    (toString (number : Int)).toList = digitsOf number := by
  show (toString number).toList = _
  rw [Nat.toString_eq_ofList_toDigits, String.toList_ofList]
  rfl

theorem toList_toString_negative (number : Nat) :
    (toString (-((number + 1 : Nat) : Int))).toList = '-' :: digitsOf (number + 1) := by
  show ("-" ++ toString (number + 1)).toList = _
  simp [String.toList_append, digitsOf]

theorem digitsOf_ne_nil (number : Nat) : digitsOf number ≠ [] := Nat.toDigits_ne_nil

theorem exists_digitsOf (number : Nat) :
    ∃ first more, digitsOf number = first :: more ∧ first.isDigit = true := by
  obtain ⟨first, more, digits⟩ := List.exists_cons_of_ne_nil (digitsOf_ne_nil number)
  exact ⟨first, more, digits, isDigit_of_mem_digitsOf (digits ▸ List.mem_cons_self)⟩

theorem toNat_of_isDigit {c : Char} (digit : c.isDigit = true) : 48 ≤ c.toNat ∧ c.toNat ≤ 57 := by
  rw [Char.isDigit, Bool.and_eq_true, decide_eq_true_eq, decide_eq_true_eq] at digit
  exact ⟨UInt32.le_iff_toNat_le.mp digit.1, UInt32.le_iff_toNat_le.mp digit.2⟩

/-- A digit is none of the other characters that a text may start with. -/
theorem ne_of_isDigit {c : Char} (digit : c.isDigit = true) (other : Char)
    (none : other.isDigit = false) : c ≠ other := by
  rintro rfl
  exact Bool.false_ne_true (none.symm.trans digit)

/-- Only zero starts with a zero. -/
theorem eq_zero_of_head?_digitsOf (number : Nat) :
    (digitsOf number).head? = some '0' → number = 0 := by
  induction number using Nat.strongRecOn with
  | ind number ih =>
    intro zero
    by_cases small : number < 10
    · rw [digitsOf, Nat.toDigits_of_lt_base small, List.head?_singleton] at zero
      exact Nat.digitChar_eq_zero.1 (Option.some.inj zero)
    · obtain ⟨first, more, digits⟩ := List.exists_cons_of_ne_nil (digitsOf_ne_nil (number / 10))
      rw [digitsOf, Nat.toDigits_of_base_le (by decide) (Nat.le_of_not_lt small),
        show Nat.toDigits 10 (number / 10) = first :: more from digits] at zero
      have shorter := ih (number / 10) (by omega) (by rw [digits]; exact zero)
      omega

theorem isDigits_digitsOf (number : Nat) : IsDigits (digitsOf number) :=
  ⟨digitsOf_ne_nil number, fun _ => isDigit_of_mem_digitsOf⟩

theorem readDigits?_of_isDigits {digits : List Char} (are : IsDigits digits) :
    readDigits? digits = some (natOfDigits digits) := by
  have all : digits.all Char.isDigit = true := List.all_eq_true.mpr are.all
  have some : digits.isEmpty = false := List.isEmpty_eq_false_iff.mpr are.nonempty
  rw [readDigits?, all, some]
  rfl

theorem isDigits_of_readDigits? {text : List Char} {number : Nat}
    (read : readDigits? text = some number) : IsDigits text := by
  rw [readDigits?] at read
  split at read
  · cases read
  · next digits =>
      rw [Bool.not_eq_true, Bool.or_eq_false_iff, Bool.not_eq_false'] at digits
      exact ⟨List.isEmpty_eq_false_iff.mp digits.1, List.all_eq_true.mp digits.2⟩

theorem readDigits?_digitsOf (number : Nat) : readDigits? (digitsOf number) = some number := by
  rw [readDigits?_of_isDigits (isDigits_digitsOf number), natOfDigits_digitsOf]

/-- A text that starts with a digit has no sign. -/
theorem splitSign_of_isDigit {c : Char} {rest : List Char} (digit : c.isDigit = true) :
    splitSign (c :: rest) = (false, c :: rest) := by
  unfold splitSign
  split
  · next same =>
      obtain ⟨rfl, -⟩ := List.cons.inj same
      exact absurd digit (by decide)
  · next same =>
      obtain ⟨rfl, -⟩ := List.cons.inj same
      exact absurd digit (by decide)
  · rfl

theorem splitSign_of_isDigits {digits : List Char} (are : IsDigits digits) :
    splitSign digits = (false, digits) := by
  obtain ⟨first, more, rfl⟩ := List.exists_cons_of_ne_nil are.nonempty
  exact splitSign_of_isDigit (are.all first List.mem_cons_self)

theorem splitSign_digitsOf (number : Nat) :
    splitSign (digitsOf number) = (false, digitsOf number) :=
  splitSign_of_isDigits (isDigits_digitsOf number)

theorem inside_toInt (value : Int64) :
    (leastInteger ≤ value.toInt && value.toInt ≤ greatestInteger) = true := by
  have low : leastInteger ≤ value.toInt := Int64.le_toInt value
  have high : value.toInt ≤ greatestInteger := Int64.toInt_le value
  simp [low, high]

theorem readInteger?_digitsOf {value : Int64} (natural : 0 ≤ value.toInt) :
    readInteger? (digitsOf value.toInt.toNat) = some value := by
  rw [readInteger?, splitSign_digitsOf]
  dsimp only
  rw [readDigits?_digitsOf]
  dsimp only
  rw [if_neg Bool.false_ne_true, Int.toNat_of_nonneg natural, if_pos (inside_toInt value),
    Int64.ofInt_toInt]

end MonkeyLang.Number
