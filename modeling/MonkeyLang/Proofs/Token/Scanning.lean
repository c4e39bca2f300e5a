import MonkeyLang.Proofs.Program.Parsing
import MonkeyLang.Proofs.Number.Digits
import MonkeyLang.Proofs.Program.Spelling
import MonkeyLang.Proofs.Token.Tiling

/-!
# Scanning word by word

A scan looks at the characters ahead only, and never at those behind. So a text that is put
together from words with blanks between them is scanned word by word, wherever it stands
(`Token.Scans`): each word adds its token, or a fault where the characters are no token.

Digits in front of a character that is neither a digit nor a point are cut as one number. It is a
word if it is below `2 ^ 63` (`Scans.integer`) and a fault otherwise (`Scans.tooLarge`), also
behind a sign: the least integer of sixty-four bits cannot be written down (`Scans.numeral`).

A text without faults is read from its tokens, and one with faults is rejected with all of them
(`Program.ofSource_of_scans`, `Program.ofSource_of_faults`).
-/

set_option autoImplicit false

namespace MonkeyLang

open Decimal (digitsOf)

/-- The expression that a whole number is written as. -/
def Expression.numeral (value : Int64) : Expression :=
  if value < 0 then .unary .negate (.literal (.integer (-value)) .dummy) .dummy
  else .literal (.integer value) .dummy

namespace Token

variable {position start : Nat} {c : Char} {text rest : List Char} {tokens : Array Token}
  {found : Array (Fault × Span)} {word : Word} {words : List Word} {faults : List Fault}

/-! ## One step of a scan -/

theorem scanFrom_of_skip_nil (skipped : skip false position text = (start, [])) :
    scanFrom position text tokens found =
      ⟨tokens.toList ++ [⟨.endOfInput, "", ⟨start, start⟩⟩], found.toList⟩ := by
  rw [scanFrom]
  split
  · next same =>
      obtain ⟨rfl, -⟩ := Prod.mk.inj (same.symm.trans skipped)
      simp
  · next same => cases same.symm.trans skipped

theorem scanFrom_of_skip_cons (skipped : skip false position text = (start, c :: rest)) :
    scanFrom position text tokens found =
      scanFrom (start + (cut c rest).consumed) (cut c rest).rest
        (tokens.push ((cut c rest).tokenAt start)) (found ++ (cut c rest).faultsAt start) := by
  rw [scanFrom]
  split
  · next same => cases same.symm.trans skipped
  · next same =>
      cases same.symm.trans skipped
      rfl

theorem scanFrom_blank (position : Nat) (text : List Char) (tokens : Array Token)
    (found : Array (Fault × Span)) :
    scanFrom position (' ' :: text) tokens found = scanFrom (position + 1) text tokens found := by
  have same : skip false position (' ' :: text) = skip false (position + 1) text := rfl
  match skipped : skip false (position + 1) text with
  | (start, []) => rw [scanFrom_of_skip_nil (same.trans skipped), scanFrom_of_skip_nil skipped]
  | (start, c :: rest) =>
      rw [scanFrom_of_skip_cons (same.trans skipped), scanFrom_of_skip_cons skipped]

/-! ## Whole texts -/

/-- The text is scanned as these words, with these faults. At a fault there may be any word. -/
inductive Scans : List Char → List Word → List Fault → Prop
  | stop : Scans [] [] []
  | blank {text : List Char} {words : List Word} {faults : List Fault}
      (more : Scans text words faults) : Scans (' ' :: text) words faults
  | cut {c : Char} {rest : List Char} {word : Word} {words : List Word} {faults : List Fault}
      (starts : ∀ position, skip false position (c :: rest) = (position, c :: rest))
      (shows : (cut c rest).faults = [] → ∀ start, ((cut c rest).tokenAt start).Shows word)
      (more : Scans (cut c rest).rest words faults) :
      Scans (c :: rest) (word :: words) ((cut c rest).faults.map Prod.fst ++ faults)

namespace Scans

theorem scanFrom_eq (scans : Scans text words faults) (position : Nat) (tokens : Array Token)
    (found : Array (Fault × Span)) : ∃ more others place,
      scanFrom position text tokens found =
        ⟨tokens.toList ++ (more ++ [⟨.endOfInput, "", place⟩]), found.toList ++ others⟩ ∧
      others.map Prod.fst = faults ∧ (faults = [] → Spells more words) := by
  induction scans generalizing position tokens found with
  | stop =>
      have ended : skip false position [] = (position, []) := rfl
      refine ⟨[], [], ⟨position, position⟩, ?_, rfl, fun _ => .nil⟩
      rw [scanFrom_of_skip_nil ended, List.append_nil, List.nil_append]
  | blank _ ih =>
      rw [scanFrom_blank]
      exact ih (position + 1) tokens found
  | @cut c rest word words faults starts shows _ ih =>
      obtain ⟨more, others, place, result, same, spells⟩ :=
        ih (position + (Token.cut c rest).consumed) (tokens.push ((Token.cut c rest).tokenAt position))
          (found ++ (Token.cut c rest).faultsAt position)
      refine ⟨(Token.cut c rest).tokenAt position :: more,
        (Token.cut c rest).faultsAt position ++ others, place, ?_, ?_, fun sound => ?_⟩
      · rw [scanFrom_of_skip_cons (starts position), result]
        simp
      · rw [List.map_append, same, Cut.faultsAt, List.map_map]
        rfl
      · obtain ⟨none, rest_sound⟩ := List.append_eq_nil_iff.mp sound
        exact List.Forall₂.cons (shows (List.map_eq_nil_iff.mp none) position) (spells rest_sound)

/-- The tokens of the text spell the words, unless there are faults. -/
theorem scan (scans : Scans text words faults) : ∃ tokens place,
    (Token.scan text).tokens = tokens ++ [⟨.endOfInput, "", place⟩] ∧
      (Token.scan text).faults.map Prod.fst = faults ∧ (faults = [] → Spells tokens words) := by
  obtain ⟨tokens, others, place, result, same, spells⟩ := scans.scanFrom_eq 0 #[] #[]
  refine ⟨tokens, place, ?_, ?_, spells⟩
  · rw [Token.scan, result]
    rfl
  · rw [Token.scan, result, ← same]
    rfl

/-! ## Fixed tokens -/

/-- A token of one spelling. -/
theorem fixed {kind : Kind}
    (starts : ∀ position, skip false position (c :: rest) = (position, c :: rest))
    (cuts : Token.cut c rest = .fixed kind text) (more : Scans text words faults) :
    Scans (c :: rest) (.fixed kind :: words) faults := by
  have scans : Scans (c :: rest) (.fixed kind :: words)
      ((Token.cut c rest).faults.map Prod.fst ++ faults) :=
    .cut starts (fun _ start => by rw [cuts]; exact ⟨rfl, rfl⟩) (by rw [cuts]; exact more)
  rwa [cuts] at scans

theorem leftParen (more : Scans text words faults) :
    Scans ('(' :: text) (.fixed .leftParen :: words) faults := fixed (fun _ => rfl) rfl more

theorem rightParen (more : Scans text words faults) :
    Scans (')' :: text) (.fixed .rightParen :: words) faults := fixed (fun _ => rfl) rfl more

/-- An operator with a blank behind it. -/
theorem binaryOperator (operator : BinaryOperator) (more : Scans text words faults) :
    Scans (operator.kind.spelling.toList ++ ' ' :: text) (.fixed operator.kind :: words) faults := by
  cases operator <;> exact fixed (fun _ => rfl) rfl more.blank

end Scans

/-! ## Numbers -/

theorem skip_of_isDigit (digit : c.isDigit = true) (position : Nat) (rest : List Char) :
    skip false position (c :: rest) = (position, c :: rest) := by
  have other : ∀ d : Char, d.isDigit = false → c ≠ d := by
    rintro d no_digit rfl
    exact Bool.noConfusion (no_digit.symm.trans digit)
  rw [skip]
  · simp [other '\n' rfl, other ' ' rfl, other '\r' rfl, other '\t' rfl]
  · exact fun _ slash _ => other '/' rfl slash

theorem cut_of_isDigit (digit : c.isDigit = true) (rest : List Char) :
    cut c rest = cutNumber (c :: rest) := by
  unfold cut
  split
  all_goals first
    | exact absurd digit (by decide)
    | exact if_pos digit

/-- Digits are cut up to a character that is neither a digit nor a point. -/
theorem cutNumber_digits {digits : List Char} (all : ∀ d ∈ digits, d.isDigit = true)
    (no_digit : c.isDigit = false) (no_point : c ≠ '.') (rest : List Char) :
    cutNumber (digits ++ c :: rest) = cutInteger digits (c :: rest) := by
  have whole : (digits ++ c :: rest).takeWhile Char.isDigit = digits := by
    rw [List.takeWhile_append_of_pos all, List.takeWhile_cons_of_neg (by simp [no_digit]),
      List.append_nil]
  have behind : (digits ++ c :: rest).dropWhile Char.isDigit = c :: rest := by
    rw [List.dropWhile_append_of_pos all, List.dropWhile_cons_of_neg (by simp [no_digit])]
  unfold cutNumber
  rw [whole, behind]
  dsimp only
  split
  · next point =>
      obtain ⟨rfl, -⟩ := List.cons.inj point
      exact absurd rfl no_point
  · rfl

namespace Scans

variable {next : Char} {number : Nat} {value : Int64} (no_digit : next.isDigit = false)
  (no_point : next ≠ '.') (more : Scans (next :: rest) words faults)

include no_digit no_point more

/-- The digits of a number are one word, or one fault. -/
theorem digits {taken : Cut} (cuts : cutInteger (digitsOf number) (next :: rest) = taken)
    (shows : taken.faults = [] → ∀ start, (taken.tokenAt start).Shows word) :
    Scans (digitsOf number ++ next :: rest) (word :: words)
      (taken.faults.map Prod.fst ++ faults) := by
  have all : ∀ d ∈ digitsOf number, d.isDigit = true :=
    fun _ member => Number.isDigit_of_mem_digitsOf member
  have behind : taken.rest = next :: rest := cuts ▸ cutInteger_rest _ _
  rw [← cutNumber_digits all no_digit no_point rest] at cuts
  obtain ⟨first, others, split, digit⟩ := Number.exists_digitsOf number
  rw [split] at cuts ⊢
  rw [List.cons_append, ← cut_of_isDigit digit] at cuts
  subst cuts
  refine .cut (fun position => skip_of_isDigit digit position _) shows ?_
  show Scans (Token.cut first (others ++ next :: rest)).rest words faults
  rwa [behind]

/-- A number of sixty-four bits that is not negative is a word. -/
theorem integer (natural : 0 ≤ value.toInt) :
    Scans (digitsOf value.toInt.toNat ++ next :: rest) (.integer value :: words) faults := by
  have cuts : cutInteger (digitsOf value.toInt.toNat) (next :: rest) =
      .sound .integer (String.ofList (digitsOf value.toInt.toNat))
        (digitsOf value.toInt.toNat).length (next :: rest) := by
    rw [cutInteger, Number.readInteger?_digitsOf natural]
    rfl
  exact digits no_digit no_point more cuts fun _ _ => ⟨rfl, String.toList_ofList⟩

/-- A number that is too large for sixty-four bits is a fault. -/
theorem tooLarge (large : Number.readInteger? (digitsOf number) = none) (word : Word) :
    Scans (digitsOf number ++ next :: rest) (word :: words)
      (.integerTooLarge (String.ofList (digitsOf number)) :: faults) := by
  have cuts : cutInteger (digitsOf number) (next :: rest) =
      .faulty (.integerTooLarge (String.ofList (digitsOf number))) (digitsOf number).length
        (next :: rest) := by
    rw [cutInteger, large]
    rfl
  exact digits no_digit no_point more cuts fun sound => absurd sound (List.cons_ne_nil _ _)

end Scans

/-! ## Whole numbers as they are written -/

/-- What is wrong with a whole number that is written down. -/
def numeralFaults (value : Int64) : List Fault :=
  if value = Int64.minValue then [.integerTooLarge "9223372036854775808"] else []

theorem numeralFaults_eq_nil {value : Int64} (other : value ≠ Int64.minValue) :
    numeralFaults value = [] := if_neg other

/-- There is one fault for each of two numbers that is the least one. -/
theorem numeralFaults_append (a b : Int64) : numeralFaults a ++ numeralFaults b =
    ([a, b].filter (· = Int64.minValue)).map fun _ => .integerTooLarge "9223372036854775808" := by
  unfold numeralFaults
  by_cases first : a = Int64.minValue <;> by_cases second : b = Int64.minValue <;>
    simp only [first, second, if_true, if_false, List.filter_cons, decide_true, decide_false] <;> rfl

theorem toInt_neg_of_ne {value : Int64} (other : value ≠ Int64.minValue) :
    (-value).toInt = -value.toInt := by
  have low : -9223372036854775808 ≤ value.toInt := Int64.le_toInt value
  have high : value.toInt ≤ 9223372036854775807 := Int64.toInt_le value
  have least : value.toInt ≠ -9223372036854775808 := fun same => other (Int64.toInt_inj.mp same)
  rw [Int64.toInt_neg]
  exact Int.bmod_eq_of_le (by omega) (by omega)

namespace Scans

/-- A minus in front of digits is no other token. -/
theorem minus {number : Nat} (more : Scans (digitsOf number ++ rest) words faults) :
    Scans ('-' :: (digitsOf number ++ rest)) (.fixed .minus :: words) faults := by
  have cuts : Token.cut '-' (digitsOf number ++ rest) =
      cutOperator .minus .minusEqual (digitsOf number ++ rest) := rfl
  refine .fixed (fun _ => rfl) (cuts.trans ?_) more
  obtain ⟨first, behind, split, digit⟩ := Number.exists_digitsOf number
  rw [split, cutOperator.eq_def]
  split
  · next same =>
      obtain ⟨rfl, -⟩ := List.cons.inj same
      exact absurd digit (by decide)
  · rfl

/-- A whole number in front of a closing parenthesis is scanned as it is written. -/
theorem numeral (value : Int64) (more : Scans (')' :: rest) words faults) :
    Scans ((toString value).toList ++ ')' :: rest) ((Expression.numeral value).words ++ words)
      (numeralFaults value ++ faults) := by
  show Scans ((toString value.toInt).toList ++ _) _ _
  rw [Expression.numeral]
  split
  case isFalse natural =>
    rw [Int64.not_lt, Int64.le_iff_toInt_le, Int64.toInt_zero] at natural
    have written : (toString value.toInt).toList = digitsOf value.toInt.toNat := by
      rw [← Number.toList_toString_natural, Int.toNat_of_nonneg natural]
    have other : value ≠ Int64.minValue := by
      rintro rfl
      exact absurd natural (by decide)
    rw [written, numeralFaults_eq_nil other]
    exact .integer (by decide) (by decide) more natural
  case isTrue negative =>
    rw [Int64.lt_iff_toInt_lt, Int64.toInt_zero] at negative
    obtain ⟨number, is⟩ : ∃ number : Nat, value.toInt = -((number + 1 : Nat) : Int) :=
      ⟨(-value.toInt - 1).toNat, by omega⟩
    rw [is, Number.toList_toString_negative]
    refine .minus ?_
    by_cases least : value = Int64.minValue
    · obtain rfl : number = 9223372036854775807 := by
        rw [least, Int64.toInt_minValue] at is
        omega
      rw [numeralFaults, if_pos least]
      exact .tooLarge (by decide) (by decide) more (by decide +kernel) _
    · have size : (-value).toInt = (number + 1 : Nat) := by
        rw [toInt_neg_of_ne least, is, Int.neg_neg]
      have digits : number + 1 = (-value).toInt.toNat := by rw [size, Int.toNat_natCast]
      rw [numeralFaults_eq_nil least, digits]
      exact .integer (by decide) (by decide) more (by omega)

end Scans

end Token

/-! ## Reading what was scanned -/

namespace Program

open Token (Scans)

variable {source : List Char} {words : List Word} {faults : List Token.Fault}

/-- A text without faults is the program that its tokens are read as. -/
theorem ofSource_of_scans {good : Program → Prop} (scans : Scans source words [])
    (reads : ∀ tokens close, Spells tokens words → close.kind = .endOfInput →
      ∃ program, ofTokens (tokens ++ [close]) = some ⟨program, []⟩ ∧ good program) :
    ∃ program, ofSource source = .ok program ∧ good program := by
  obtain ⟨tokens, place, scanned, sound, spells⟩ := scans.scan
  obtain ⟨program, read, holds⟩ := reads tokens ⟨.endOfInput, "", place⟩ (spells rfl) rfl
  have silent : (Token.scan source).diagnostics source = [] :=
    (Token.diagnostics_eq_nil_iff source).mpr (List.map_eq_nil_iff.mp sound)
  refine ⟨program, ?_, holds⟩
  rw [ofSource_eq]
  rw [silent, scanned]
  dsimp only
  rw [read]
  rfl

/-- A text with faults is rejected, and all of its faults are told. -/
theorem ofSource_of_faults (scans : Scans source words faults) (some : faults ≠ []) :
    ∃ diagnostics, ofSource source = .error diagnostics ∧
      diagnostics.map (fun diagnostic => (diagnostic.code, diagnostic.message)) =
        faults.map fun fault => (fault.code, fault.message) := by
  obtain ⟨tokens, place, -, found, -⟩ := scans.scan
  refine ⟨(Token.scan source).diagnostics source, ?_, ?_⟩
  · rw [ofSource_eq]
    split
    · next silent =>
        rw [Token.diagnostics_eq_nil_iff] at silent
        rw [← found, silent] at some
        exact absurd rfl some
    · rfl
  · rw [← found, Token.Lexing.diagnostics, List.map_map, List.map_map]
    rfl

end Program

end MonkeyLang
