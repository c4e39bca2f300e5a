import Mathlib.Data.List.TakeWhile
import MonkeyLang.Builtin.Call
import MonkeyLang.Proofs.Number.Digits

/-!
# Integers as texts

A numeral is a run of digits, perhaps behind a sign (`Number.Numeral`). The builtin function `int`
makes an integer of just those strings that are a numeral between white space, if the integer has
sixty-four bits (`Builtin.int_eq_integer_iff`). The bounds are those of the signed number, not of
its digits: the least integer is read, though no integer is as great as its magnitude.

The text of an integer is such a numeral, so that `int` undoes `str`, also if there is white space
around the text (`Builtin.int_str`). The other way round only the value is kept: `str` gives back
neither white space nor a plus nor zeros in front of other digits.

White space are the characters with the Unicode property of this name. They are listed one by one
(`Text.whiteSpaces`).
-/

set_option autoImplicit false

namespace MonkeyLang

/-! ## White space at the ends -/

namespace Text

/-- The code points with the Unicode property White_Space. -/
def whiteSpaces : List Nat :=
  [9, 10, 11, 12, 13, 32, 133, 160, 5760, 8192, 8193, 8194, 8195, 8196, 8197, 8198, 8199, 8200,
   8201, 8202, 8232, 8233, 8239, 8287, 12288]

/-- A text of nothing but white space. It may be empty. -/
def Blank (text : List Char) : Prop := ∀ c ∈ text, c.toNat ∈ whiteSpaces

theorem isBlank_iff {c : Char} : isBlank c = true ↔ c.toNat ∈ whiteSpaces := by
  have space : (c == ' ') = true ↔ c.toNat = 32 := by
    rw [beq_iff_eq, ← Char.toNat_inj]
    rfl
  rw [isBlank]
  split
  · simp only [Bool.or_eq_true, space, Bool.and_eq_true, decide_eq_true_eq, whiteSpaces,
      List.mem_cons, List.not_mem_nil, or_false]
    omega
  · simp only [inRanges_eq_true_iff, blankRanges, whiteSpaces, List.mem_cons, List.not_mem_nil,
      or_false, exists_eq_or_imp, exists_eq_left]
    omega

theorem isBlank_of_isDigit {c : Char} (digit : c.isDigit = true) : isBlank c = false := by
  obtain ⟨low, high⟩ := Number.toNat_of_isDigit digit
  rw [Bool.eq_false_iff, ne_eq, isBlank_iff]
  simp only [whiteSpaces, List.mem_cons, List.not_mem_nil, or_false]
  omega

variable {front text back : List Char}

theorem Blank.isBlank (blank : Blank text) : ∀ c ∈ text, Text.isBlank c = true :=
  fun c member => isBlank_iff.mpr (blank c member)

theorem Blank.reverse (blank : Blank text) : Blank text.reverse :=
  fun c member => blank c (List.mem_reverse.mp member)

theorem blank_iff : Blank text ↔ text.all isBlank = true := by
  simp only [Blank, List.all_eq_true, isBlank_iff]

instance (text : List Char) : Decidable (Blank text) :=
  decidable_of_iff (text.all isBlank = true) blank_iff.symm

theorem blank_takeWhile (text : List Char) : Blank (text.takeWhile isBlank) :=
  fun _ member => isBlank_iff.mp (List.mem_takeWhile_imp member)

/-- White space at the ends makes no difference. -/
theorem trimBlanks_append (blankFront : Blank front) (blankBack : Blank back) :
    trimBlanks (front ++ text ++ back) = trimBlanks text := by
  have none : back.dropWhile isBlank = [] := List.dropWhile_eq_nil_iff.mpr blankBack.isBlank
  rw [trimBlanks, trimBlanks, List.append_assoc, List.dropWhile_append_of_pos blankFront.isBlank,
    List.dropWhile_append, none]
  split
  · next empty => rw [List.isEmpty_iff.mp empty]
  · rw [List.reverse_append, List.dropWhile_append_of_pos blankBack.reverse.isBlank]

theorem dropWhile_eq_self (free : ∀ c ∈ text, isBlank c = false) :
    text.dropWhile isBlank = text := by
  cases text with
  | nil => rfl
  | cons c text =>
      exact List.dropWhile_cons_of_neg (Bool.eq_false_iff.mp (free c List.mem_cons_self))

/-- What is free of white space is kept as it is. -/
theorem trimBlanks_eq_self (free : ∀ c ∈ text, isBlank c = false) : trimBlanks text = text := by
  have behind := dropWhile_eq_self fun c member => free c (List.mem_reverse.mp member)
  rw [trimBlanks, dropWhile_eq_self free, behind, List.reverse_reverse]

/-- Nothing but white space is taken off. -/
theorem exists_trimBlanks (text : List Char) :
    ∃ front back, text = front ++ trimBlanks text ++ back ∧ Blank front ∧ Blank back := by
  let behind := text.dropWhile isBlank
  refine ⟨text.takeWhile isBlank, (behind.reverse.takeWhile isBlank).reverse, ?_,
    blank_takeWhile text, (blank_takeWhile behind.reverse).reverse⟩
  have split : trimBlanks text ++ (behind.reverse.takeWhile isBlank).reverse = behind := by
    rw [trimBlanks, ← List.reverse_append, List.takeWhile_append_dropWhile, List.reverse_reverse]
  rw [List.append_assoc, split, List.takeWhile_append_dropWhile]

end Text

/-! ## Numerals -/

namespace Number

/-- A text stands for an integer: its digits are read in base ten, and there may be a sign in front
of them. -/
inductive Numeral : List Char → Int → Prop where
  | unsigned {digits : List Char} (are : IsDigits digits) : Numeral digits (natOfDigits digits)
  | plus {digits : List Char} (are : IsDigits digits) : Numeral ('+' :: digits) (natOfDigits digits)
  | minus {digits : List Char} (are : IsDigits digits) :
      Numeral ('-' :: digits) (-(natOfDigits digits : Int))

variable {text : List Char} {number : Int} {value : Int64}

/-- There is no white space in a numeral. -/
theorem Numeral.isBlank_eq_false (numeral : Numeral text number) :
    ∀ c ∈ text, Text.isBlank c = false := by
  have free {digits : List Char} (are : IsDigits digits) : ∀ c ∈ digits, Text.isBlank c = false :=
    fun c member => Text.isBlank_of_isDigit (are.all c member)
  cases numeral with
  | unsigned are => exact free are
  | plus are => exact List.forall_mem_cons.mpr ⟨rfl, free are⟩
  | minus are => exact List.forall_mem_cons.mpr ⟨rfl, free are⟩

/-- The text of an integer is a numeral that stands for it. -/
theorem numeral_toString (number : Int) : Numeral (toString number).toList number := by
  cases number with
  | ofNat magnitude =>
      have numeral := Numeral.unsigned (isDigits_digitsOf magnitude)
      rw [natOfDigits_digitsOf] at numeral
      rw [Int.ofNat_eq_natCast, toList_toString_natural]
      exact numeral
  | negSucc before =>
      have numeral := Numeral.minus (isDigits_digitsOf (before + 1))
      rw [natOfDigits_digitsOf] at numeral
      rw [Int.negSucc_eq, ← Int.natCast_succ, toList_toString_negative]
      exact numeral

/-- What is read is the signed number, and the bounds are its bounds. -/
theorem readInteger?_of_splitSign {negative : Bool} {digits : List Char}
    (sign : splitSign text = (negative, digits)) (are : IsDigits digits)
    (signed : (if negative then -(natOfDigits digits : Int) else natOfDigits digits) = number) :
    readInteger? text =
      if leastInteger ≤ number && number ≤ greatestInteger then some (Int64.ofInt number)
      else none := by
  rw [readInteger?, sign]
  dsimp only
  rw [readDigits?_of_isDigits are]
  dsimp only
  rw [signed]

theorem Numeral.readInteger? (numeral : Numeral text number) :
    Number.readInteger? text =
      if leastInteger ≤ number && number ≤ greatestInteger then some (Int64.ofInt number)
      else none := by
  cases numeral with
  | unsigned are => exact readInteger?_of_splitSign (splitSign_of_isDigits are) are rfl
  | plus are => exact readInteger?_of_splitSign rfl are rfl
  | minus are => exact readInteger?_of_splitSign rfl are rfl

/-- Digits behind what is taken for the sign make a numeral. -/
theorem exists_numeral (are : IsDigits (splitSign text).2) : ∃ number, Numeral text number := by
  revert are
  unfold splitSign
  split
  · exact fun are => ⟨_, .minus are⟩
  · exact fun are => ⟨_, .plus are⟩
  · exact fun are => ⟨_, .unsigned are⟩

/-- Only numerals are read. -/
theorem exists_numeral_of_readInteger? (read : readInteger? text = some value) :
    ∃ number, Numeral text number := by
  rw [readInteger?] at read
  dsimp only at read
  split at read
  · cases read
  · next digits => exact exists_numeral (isDigits_of_readDigits? digits)

/-- An integer of sixty-four bits is read from just the numerals that stand for it. -/
theorem readInteger?_eq_some_iff : readInteger? text = some value ↔ Numeral text value.toInt := by
  constructor
  · intro read
    obtain ⟨number, numeral⟩ := exists_numeral_of_readInteger? read
    rw [numeral.readInteger?] at read
    split at read
    · next inside =>
        rw [Bool.and_eq_true, decide_eq_true_eq, decide_eq_true_eq] at inside
        obtain rfl := Option.some.inj read
        rw [Int64.toInt_ofInt_of_le inside.1 (Int.lt_add_one_iff.mpr inside.2)]
        exact numeral
    · cases read
  · intro numeral
    rw [numeral.readInteger?, if_pos (inside_toInt value), Int64.ofInt_toInt]

end Number

/-! ## Conversions -/

namespace Builtin

/-- A string is an integer to `int` just if it is a numeral that stands for it, between white
space. -/
theorem int_eq_integer_iff {text : String} {value : Int64} :
    int.result [.string text] = .integer value ↔
      ∃ front numeral back, text.toList = front ++ numeral ++ back ∧ Text.Blank front ∧
        Text.Blank back ∧ Number.Numeral numeral value.toInt := by
  have reads : int.result [.string text] = .integer value ↔
      Number.readInteger? (Text.trimBlanks text.toList) = some value := by
    show integerOf (.string text) = _ ↔ _
    rw [integerOf]
    cases Number.readInteger? (Text.trimBlanks text.toList) with
    | none => simp [unreadable]
    | some read => simp
  rw [reads, Number.readInteger?_eq_some_iff]
  constructor
  · intro numeral
    obtain ⟨front, back, whole, blankFront, blankBack⟩ := Text.exists_trimBlanks text.toList
    exact ⟨front, _, back, whole, blankFront, blankBack, numeral⟩
  · rintro ⟨front, numeral, back, whole, blankFront, blankBack, stands⟩
    rw [whole, Text.trimBlanks_append blankFront blankBack,
      Text.trimBlanks_eq_self stands.isBlank_eq_false]
    exact stands

/-- The text of an integer between white space is read back. -/
theorem int_between (value : Int64) {front back : String} (blankFront : Text.Blank front.toList)
    (blankBack : Text.Blank back.toList) :
    int.result [.string (front ++ toString value.toInt ++ back)] = .integer value := by
  refine int_eq_integer_iff.mpr ⟨front.toList, (toString value.toInt).toList, back.toList, ?_,
    blankFront, blankBack, Number.numeral_toString value.toInt⟩
  rw [String.toList_append, String.toList_append]

/-- The text of an integer is read back as it stands. -/
theorem int_toString (value : Int64) :
    int.result [.string (toString value.toInt)] = .integer value := by
  have alone := @int_between value "" "" (by decide) (by decide)
  rwa [String.empty_append, String.append_empty] at alone

/-- **Integers survive conversion to text and back.** `int` undoes `str` for each integer of
sixty-four bits, whatever white space is put around the text. So a string that is an integer to
`int` can be replaced by the text of this integer. -/
theorem int_str :
    (∀ value : Int64, ∃ text, str.result [.integer value] = .string text ∧
      ∀ front back : String, Text.Blank front.toList → Text.Blank back.toList →
        int.result [.string (front ++ text ++ back)] = .integer value) ∧
    (∀ value : Int64, int.result [str.result [.integer value]] = .integer value) ∧
    ∀ (text : String) (value : Int64), int.result [.string text] = .integer value →
      int.result [str.result [int.result [.string text]]] = .integer value := by
  have undone (value : Int64) : int.result [str.result [.integer value]] = .integer value :=
    int_toString value
  refine ⟨?_, undone, ?_⟩
  · intro value
    exact ⟨toString value.toInt, rfl, fun _ _ => int_between value⟩
  · intro text value is
    rw [is]
    exact undone value

/-- The least integer between white space of four kinds, the greatest integer, and a string that is
not the text of its integer. -/
theorem int_str_ends :
    Text.Blank "\u3000\t".toList ∧ Text.Blank "\u2028\n".toList ∧
      str.result [.integer Int64.minValue] = .string "-9223372036854775808" ∧
      int.result [.string "\u3000\t-9223372036854775808\u2028\n"] = .integer Int64.minValue ∧
      int.result [str.result [.integer Int64.maxValue]] = .integer Int64.maxValue ∧
      int.result [.string " +007"] = .integer 7 ∧
      int.result [str.result [int.result [.string " +007"]]] = .integer 7 := by
  have blankFront : Text.Blank "\u3000\t".toList := by decide
  have blankBack : Text.Blank "\u2028\n".toList := by decide
  have least : str.result [.integer Int64.minValue] = .string "-9223372036854775808" := rfl
  have seven : int.result [.string " +007"] = .integer 7 := rfl
  obtain ⟨survives, undone, kept⟩ := int_str
  obtain ⟨text, is, between⟩ := survives Int64.minValue
  obtain rfl := Value.string.inj (is.symm.trans least)
  have read := between _ _ blankFront blankBack
  have joined : "\u3000\t" ++ "-9223372036854775808" ++ "\u2028\n" =
      "\u3000\t-9223372036854775808\u2028\n" := by decide
  rw [joined] at read
  exact ⟨blankFront, blankBack, least, read, undone Int64.maxValue, seven, kept _ _ seven⟩

/-- The text is not given back. -/
example : str.result [int.result [.string " +007"]] = .string "7" := rfl

end Builtin

end MonkeyLang
