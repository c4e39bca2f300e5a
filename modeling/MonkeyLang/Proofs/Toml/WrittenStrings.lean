import MonkeyLang.Proofs.Number.Digits
import MonkeyLang.Toml.Strings
import MonkeyLang.Toml.Writer

/-!
# Strings in tables are read back

Every string is read back from its written form, whichever of the four it is
(`Toml.string?_stringText`). Between double quotes each character stands for itself or has an escape
(`Toml.Written`), and it is the same on one line and over several, except for line ends and quotes.

Between three quotes the reader looks ahead: it takes a quote for itself unless two more follow. So
what is read up to some place is not settled by what stands in front of it, and the induction along
the string keeps up to two quotes apart, which have been written but not yet read
(`Toml.longBasicRest_escaped`, `Toml.longLiteralRest_append`). The third quote of a run has an
escape, or the string is not written between such quotes at all, and at the end of the string the
quotes that were kept apart are read with the closing ones.
-/

set_option autoImplicit false

namespace MonkeyLang.Toml

/-! ## Characters -/

theorem isPlain_of_needsEscape {c : Char} (free : needsEscape c = false) (inLine : c ≠ '\n') :
    isPlain c = true := by
  simp only [needsEscape, isPlain, Bool.or_eq_false_iff, Bool.and_eq_false_iff,
    decide_eq_false_iff_not, bne_eq_false_iff_eq, beq_eq_false_iff_ne] at free ⊢
  obtain ⟨(high | tab) | feed, other⟩ := free
  · simp [Nat.le_of_not_lt high, other]
  · simp [tab]
  · exact absurd feed inLine

theorem ne_newline_of_isPlain {c : Char} (plain : isPlain c = true) : c ≠ '\n' := by
  rintro rfl
  cases plain

theorem ne_return_of_isPlain {c : Char} (plain : isPlain c = true) : c ≠ '\r' := by
  rintro rfl
  cases plain

theorem head?_cons_ne {c quote : Char} {text : List Char} :
    (c :: text).head? ≠ some quote ↔ c ≠ quote :=
  not_congr Option.some_inj

/-- What stands for a character between double quotes. -/
inductive Written (c : Char) : List Char → Prop where
  | plain (own : isPlain c = true) (no_quote : c ≠ '"') (no_backslash : c ≠ '\\') : Written c [c]
  | simple {letter : Char} (stands : simpleEscape? letter = some c) : Written c ['\\', letter]
  | numbered {first second third fourth : Char}
      (stands : numberedCharacter? [first, second, third, fourth] = some c) :
      Written c ['\\', 'u', first, second, third, fourth]

/-- What stands for a character does not start with a quote. -/
theorem Written.head?_append {c : Char} {text : List Char} (written : Written c text)
    (rest : List Char) : (text ++ rest).head? ≠ some '"' := by
  cases written with
  | plain _ no_quote => exact head?_cons_ne.mpr no_quote
  | simple => exact head?_cons_ne.mpr (by decide)
  | numbered => exact head?_cons_ne.mpr (by decide)

/-- A small number has four digits, and they stand for its character. -/
theorem numberedCharacter?_fourHexDigits : ∀ number < 128,
    (fourHexDigits number).length = 4 ∧
      numberedCharacter? (fourHexDigits number) = some (Char.ofNat number) := by
  decide

theorem written_escape {isLong : Bool} {c : Char} (no_quote : c ≠ '"')
    (inLine : isLong = true → c ≠ '\n') : Written c (escape isLong c) := by
  rw [escape.eq_def]
  split
  case h_3 =>
    split
    · next long => exact absurd rfl (inLine long)
    · exact .simple rfl
  case h_7 no_backslash =>
    split
    · next needed =>
      have low : c.toNat < 128 := by
        simp only [needsEscape, Bool.or_eq_true, Bool.and_eq_true, decide_eq_true_eq,
          beq_iff_eq] at needed
        rcases needed with ⟨⟨low, -⟩, -⟩ | rfl
        · omega
        · decide
      obtain ⟨four, stands⟩ := numberedCharacter?_fourHexDigits c.toNat low
      rw [Char.ofNat_toNat] at stands
      match fourHexDigits c.toNat, four, stands with
      | [_, _, _, _], _, stands => exact .numbered stands
    · next free =>
      have feed : c ≠ '\n' := by assumption
      have own := isPlain_of_needsEscape (Bool.eq_false_iff.mpr free) feed
      exact .plain own no_quote (by assumption)
  all_goals exact .simple rfl

/-! ## Between double quotes -/

theorem ne_u_of_simpleEscape? {letter c : Char} (stands : simpleEscape? letter = some c) :
    letter ≠ 'u' ∧ letter ≠ 'U' := by
  refine ⟨?_, ?_⟩ <;> rintro rfl <;> cases stands

theorem Written.basicRest {c : Char} {text : List Char} (written : Written c text)
    (done rest : List Char) : basicRest done (text ++ rest) = basicRest (c :: done) rest := by
  cases written with
  | plain own no_quote no_backslash =>
      rw [List.singleton_append, Toml.basicRest, if_pos own]
      · exact no_quote
      · exact fun _ _ _ _ _ is _ => no_backslash is
      · exact fun _ _ _ _ _ _ _ _ _ is _ => no_backslash is
      · exact fun _ _ is _ => no_backslash is
  | @simple letter stands =>
      obtain ⟨no_four, no_eight⟩ := ne_u_of_simpleEscape? stands
      rw [List.cons_append, List.singleton_append, Toml.basicRest, stands]
      · rfl
      · exact fun _ _ _ _ _ is _ => no_four is
      · exact fun _ _ _ _ _ _ _ _ _ is _ => no_eight is
  | numbered stands =>
      simp only [List.cons_append, List.nil_append]
      rw [Toml.basicRest, stands]
      rfl

theorem Written.longBasicRest {c : Char} {text : List Char} (written : Written c text)
    (done rest : List Char) :
    longBasicRest false done (text ++ rest) = longBasicRest false (c :: done) rest := by
  cases written with
  | plain own no_quote no_backslash =>
      rw [List.singleton_append, Toml.longBasicRest, if_neg nofun, if_pos own]
      · exact ne_newline_of_isPlain own
      · exact fun _ is _ => ne_return_of_isPlain own is
      · exact fun _ is _ => no_quote is
      · exact no_quote
      · exact fun _ _ _ _ _ is _ => no_backslash is
      · exact fun _ _ _ _ _ _ _ _ _ is _ => no_backslash is
      · exact fun _ _ is _ => no_backslash is
  | @simple letter stands =>
      obtain ⟨no_four, no_eight⟩ := ne_u_of_simpleEscape? stands
      rw [List.cons_append, List.singleton_append, Toml.longBasicRest, stands]
      · exact fun _ _ _ _ _ is _ => no_four is
      · exact fun _ _ _ _ _ _ _ _ _ is _ => no_eight is
  | numbered stands =>
      simp only [List.cons_append, List.nil_append]
      rw [Toml.longBasicRest, stands]
      rfl

/-- A quote between double quotes has an escape. -/
theorem written_quote : Written '"' ['\\', '"'] := .simple rfl

theorem escaped_cons {c : Char} (no_quote : c ≠ '"') (isLong : Bool) (quotes : Nat)
    (text : List Char) :
    escaped isLong quotes (c :: text) = escape isLong c ++ escaped isLong 0 text := by
  rw [escaped]
  exact no_quote

/-- A string between double quotes is read back on one line. -/
theorem basicRest_escaped (text : List Char) (quotes : Nat) (done rest : List Char) :
    basicRest done (escaped false quotes text ++ '"' :: rest) =
      some (collected (text.reverse ++ done), rest) := by
  induction text generalizing quotes done with
  | nil => rfl
  | cons c text ih =>
      rw [List.reverse_cons, List.append_assoc, List.singleton_append, ← ih 0 (c :: done)]
      by_cases quote : c = '"'
      · subst quote
        rw [escaped, if_neg nofun]
        exact written_quote.basicRest done _
      · rw [escaped_cons quote, List.append_assoc]
        exact (@written_escape false c quote fun is => nomatch is).basicRest done _

/-! ## Between three double quotes -/

/-- Up to two quotes behind the closing ones are taken too. -/
theorem closing_replicate {count : Nat} (few : count ≤ 2) {quote : Char} (done : List Char)
    {rest : List Char} (ends : rest.head? ≠ some quote) :
    closing quote done (List.replicate count quote ++ rest) =
      some (collected (List.replicate count quote ++ done), rest) := by
  match count, few, rest, ends with
  | 0, _, [], _ => rfl
  | 0, _, [_], ends => exact if_neg (head?_cons_ne.mp ends)
  | 0, _, _ :: _ :: _, ends => exact if_neg (head?_cons_ne.mp ends)
  | 1, _, [], _ => exact if_pos rfl
  | 1, _, _ :: _, ends => exact (if_pos rfl).trans (if_neg (head?_cons_ne.mp ends))
  | 2, _, _, _ => exact (if_pos rfl).trans (if_pos rfl)

theorem longBasicRest_quotes {count : Nat} (few : count ≤ 2) (done : List Char) {text : List Char}
    (behind : text.head? ≠ some '"') :
    longBasicRest false done (List.replicate count '"' ++ text) =
      longBasicRest false (List.replicate count '"' ++ done) text := by
  have other : ∀ rest, text = '"' :: rest → False := by
    rintro rest rfl
    exact behind rfl
  match count, few with
  | 0, _ => rfl
  | 1, _ =>
      show longBasicRest false done ('"' :: text) = _
      rw [longBasicRest]
      · rfl
      · exact fun _ is => other _ is
  | 2, _ =>
      show longBasicRest false done ('"' :: '"' :: text) = _
      rw [longBasicRest, longBasicRest]
      · rfl
      · exact fun _ is => other _ is
      · exact fun _ is => other _ (List.cons.inj is).2

theorem Written.longBasicRest_quotes {c : Char} {text : List Char} (written : Written c text)
    {count : Nat} (few : count ≤ 2) (done rest : List Char) :
    Toml.longBasicRest false done (List.replicate count '"' ++ (text ++ rest)) =
      Toml.longBasicRest false (c :: (List.replicate count '"' ++ done)) rest :=
  (Toml.longBasicRest_quotes few done (written.head?_append rest)).trans
    (written.longBasicRest _ rest)

theorem longBasicRest_closing {count : Nat} (few : count ≤ 2) (done : List Char) {rest : List Char}
    (ends : rest.head? ≠ some '"') :
    longBasicRest false done (List.replicate count '"' ++ '"' :: '"' :: '"' :: rest) =
      some (collected (List.replicate count '"' ++ done), rest) := by
  rw [← closing_replicate few done ends]
  match count, few with
  | 0, _ => rfl
  | 1, _ => rfl
  | 2, _ => rfl

/-- A string between three double quotes is read back, with the quotes in front of it that were kept
apart. -/
theorem longBasicRest_escaped (text : List Char) {quotes : Nat} (few : quotes ≤ 2)
    (done : List Char) {rest : List Char} (ends : rest.head? ≠ some '"') :
    longBasicRest false done (List.replicate quotes '"' ++
      (escaped true quotes text ++ '"' :: '"' :: '"' :: rest)) =
      some (collected (text.reverse ++ (List.replicate quotes '"' ++ done)), rest) := by
  induction text generalizing quotes done with
  | nil => exact longBasicRest_closing few done ends
  | cons c text ih =>
      rw [List.reverse_cons, List.append_assoc, List.singleton_append]
      by_cases quote : c = '"'
      · subst quote
        rw [escaped]
        split
        · next again =>
            rw [Bool.true_and, decide_eq_true_eq] at again
            rw [List.cons_append, List.append_cons, ← List.replicate_succ']
            exact ih again done
        · have read := written_quote.longBasicRest_quotes few done
          exact (read _).trans (ih (Nat.zero_le 2) _)
      · rw [escaped_cons quote, List.append_assoc]
        by_cases feed : c = '\n'
        · subst feed
          refine (longBasicRest_quotes few done (head?_cons_ne.mpr (by decide))).trans ?_
          exact ih (Nat.zero_le 2) ('\n' :: (List.replicate quotes '"' ++ done))
        · have written := @written_escape true c quote fun _ => feed
          exact (written.longBasicRest_quotes few done _).trans (ih (Nat.zero_le 2) _)

/-! ## Between single quotes -/

theorem literalRest_append {text : List Char} (plain : ∀ c ∈ text, isPlain c = true)
    (single : '\'' ∉ text) (done rest : List Char) :
    literalRest done (text ++ '\'' :: rest) = some (collected (text.reverse ++ done), rest) := by
  induction text generalizing done with
  | nil => rfl
  | cons c text ih =>
      obtain ⟨own, others⟩ := List.forall_mem_cons.mp plain
      rw [List.mem_cons, not_or] at single
      obtain ⟨other, single⟩ := single
      rw [List.cons_append, literalRest, if_pos own, ih others single, List.reverse_cons,
        List.append_assoc, List.singleton_append]
      exact fun is => other is.symm

theorem longLiteralRest_quotes {count : Nat} (few : count ≤ 2) (done : List Char)
    {text : List Char} (behind : text.head? ≠ some '\'') :
    longLiteralRest done (List.replicate count '\'' ++ text) =
      longLiteralRest (List.replicate count '\'' ++ done) text := by
  have other : ∀ rest, text = '\'' :: rest → False := by
    rintro rest rfl
    exact behind rfl
  match count, few with
  | 0, _ => rfl
  | 1, _ =>
      show longLiteralRest done ('\'' :: text) = _
      rw [longLiteralRest]
      · rfl
      · exact nofun
      · exact nofun
      · exact fun _ _ is => other _ is
  | 2, _ =>
      show longLiteralRest done ('\'' :: '\'' :: text) = _
      rw [longLiteralRest, longLiteralRest]
      · rfl
      · exact nofun
      · exact nofun
      · exact fun _ _ is => other _ is
      · exact nofun
      · exact nofun
      · exact fun _ _ is => other _ (List.cons.inj is).2

theorem longLiteralRest_closing {count : Nat} (few : count ≤ 2) (done : List Char)
    {rest : List Char} (ends : rest.head? ≠ some '\'') :
    longLiteralRest done (List.replicate count '\'' ++ '\'' :: '\'' :: '\'' :: rest) =
      some (collected (List.replicate count '\'' ++ done), rest) := by
  rw [← closing_replicate few done ends]
  match count, few with
  | 0, _ => rfl
  | 1, _ => rfl
  | 2, _ => rfl

theorem le_longestRun (c : Char) (run : Nat) (text : List Char) : run ≤ longestRun c run text := by
  induction text generalizing run with
  | nil => exact Nat.le_refl run
  | cons next text ih =>
      rw [longestRun]
      split
      · exact Nat.le_of_succ_le (ih (run + 1))
      · exact Nat.le_max_left _ _

theorem not_mem_of_longestRun {c : Char} {text : List Char} (none : longestRun c 0 text = 0) :
    c ∉ text := by
  induction text with
  | nil => exact List.not_mem_nil
  | cons next text ih =>
      rw [longestRun] at none
      split at none
      · exact absurd (none ▸ le_longestRun c 1 text) (by decide)
      · next other =>
        rw [Nat.zero_max] at none
        rw [List.mem_cons, not_or]
        exact ⟨fun is => other is.symm, ih none⟩

/-- A string between three single quotes is read back, with the quotes in front of it that were kept
apart. -/
theorem longLiteralRest_append {text : List Char}
    (plain : ∀ c ∈ text, c ≠ '\n' → isPlain c = true) {quotes : Nat}
    (few : longestRun '\'' quotes text ≤ 2) (done : List Char) {rest : List Char}
    (ends : rest.head? ≠ some '\'') :
    longLiteralRest done (List.replicate quotes '\'' ++
      (text ++ '\'' :: '\'' :: '\'' :: rest)) =
      some (collected (text.reverse ++ (List.replicate quotes '\'' ++ done)), rest) := by
  have fewer : quotes ≤ 2 := Nat.le_trans (le_longestRun _ _ _) few
  induction text generalizing quotes done with
  | nil => exact longLiteralRest_closing fewer done ends
  | cons c text ih =>
      obtain ⟨own, others⟩ := List.forall_mem_cons.mp plain
      rw [List.reverse_cons, List.append_assoc, List.singleton_append]
      rw [longestRun] at few
      split at few
      · next quote =>
        subst quote
        rw [List.cons_append, List.append_cons, ← List.replicate_succ']
        exact ih others few done (Nat.le_trans (le_longestRun _ _ _) few)
      · next other =>
        have none : longestRun '\'' 0 text ≤ 2 := Nat.le_trans (Nat.le_max_right _ _) few
        refine (longLiteralRest_quotes fewer done (head?_cons_ne.mpr other)).trans ?_
        refine Eq.trans ?_ (ih others none (c :: _) (Nat.zero_le 2))
        by_cases feed : c = '\n'
        · subst feed
          rfl
        · rw [longLiteralRest, if_pos (own feed)]
          · rfl
          · exact feed
          · exact fun _ is _ => ne_return_of_isPlain (own feed) is
          · exact fun _ is _ => other is

/-! ## All forms -/

/-- A form without escapes is only taken for a text that fits it. -/
theorem fits_formOf (text : List Char) (literal : (formOf text).hasEscapes = false) :
    fits text (formOf text) = true := by
  unfold formOf at literal ⊢
  split at literal
  · next form found => exact List.find?_some found
  · split at literal <;> cases literal

theorem plain_of_fits_literal {text : List Char} (fitting : fits text .literal = true) :
    (∀ c ∈ text, isPlain c = true) ∧ '\'' ∉ text := by
  simp only [fits, StringForm.isLong, StringForm.hasEscapes, Bool.and_eq_true, Bool.not_eq_true',
    List.any_eq_false, Bool.false_or, List.contains_eq_mem, decide_eq_false_iff_not,
    decide_eq_true_eq, Nat.le_zero, reduceCtorEq, ite_false] at fitting
  obtain ⟨⟨free, single⟩, none⟩ := fitting
  refine ⟨fun c member => ?_, not_mem_of_longestRun none⟩
  exact isPlain_of_needsEscape (Bool.eq_false_iff.mpr (free c member))
    fun is => single (is ▸ member)

theorem plain_of_fits_longLiteral {text : List Char} (fitting : fits text .longLiteral = true) :
    (∀ c ∈ text, c ≠ '\n' → isPlain c = true) ∧ longestRun '\'' 0 text ≤ 2 := by
  simp only [fits, StringForm.isLong, StringForm.hasEscapes, Bool.and_eq_true, Bool.not_eq_true',
    List.any_eq_false, Bool.true_or, and_true, decide_eq_true_eq, reduceCtorEq, ite_false,
    ite_true] at fitting
  obtain ⟨free, few⟩ := fitting
  exact ⟨fun c member => isPlain_of_needsEscape (Bool.eq_false_iff.mpr (free c member)), few⟩

theorem withoutLineEnd_eq {text : List Char} (plain : ∀ c ∈ text.head?, isPlain c = true) :
    withoutLineEnd text = text := by
  rw [withoutLineEnd, behindLineEnd?.eq_def]
  split
  · exact absurd (plain '\n' rfl) nofun
  · exact absurd (plain '\r' rfl) nofun
  · rfl

/-- The line end that stands in front of a text with line ends does not count. -/
theorem withoutLineEnd_opening {text content : List Char}
    (plain : '\n' ∉ text → ∀ c ∈ content.head?, isPlain c = true) :
    withoutLineEnd ((if text.contains '\n' then ['\n'] else []) ++ content) = content := by
  split
  · rfl
  · next single => exact withoutLineEnd_eq (plain (by simpa using single))

theorem Written.isPlain_head? {c : Char} {text : List Char} (written : Written c text)
    (rest : List Char) : ∀ d ∈ (text ++ rest).head?, isPlain d = true := by
  cases written with
  | plain own => rintro d ⟨⟩; exact own
  | simple => rintro d ⟨⟩; rfl
  | numbered => rintro d ⟨⟩; rfl

theorem isPlain_head?_escaped {text : List Char} (single : '\n' ∉ text) (rest : List Char) :
    ∀ c ∈ (escaped true 0 text ++ '"' :: rest).head?, isPlain c = true := by
  cases text with
  | nil => rintro c ⟨⟩; rfl
  | cons c text =>
      by_cases quote : c = '"'
      · subst quote
        rintro c ⟨⟩
        rfl
      · rw [escaped_cons quote, List.append_assoc]
        have feed : c ≠ '\n' := fun is => single (is ▸ List.mem_cons_self)
        exact (@written_escape true c quote fun _ => feed).isPlain_head? _

section

variable (text : List Char) {rest : List Char}

theorem string?_basic (behind : rest.head? ≠ some '"') :
    string? ('"' :: (escaped false 0 text ++ '"' :: rest)) = some (String.ofList text, rest) := by
  have read := basicRest_escaped text 0 [] rest
  rw [collected, List.append_nil, List.reverse_reverse] at read
  rw [string?, shortString?, read]
  · intro more same
    cases text with
    | nil => exact behind (congrArg List.head? (List.cons.inj (List.cons.inj same).2).2)
    | cons c text =>
      by_cases quote : c = '"'
      · subst quote
        cases same
      · rw [escaped_cons quote, List.append_assoc] at same
        have first := (@written_escape false c quote fun is => nomatch is).head?_append
          (escaped false 0 text ++ '"' :: rest)
        exact first (congrArg List.head? (List.cons.inj same).2)
  · nofun

theorem string?_literal (behind : rest.head? ≠ some '\'') (fitting : fits text .literal = true) :
    string? ('\'' :: (text ++ '\'' :: rest)) = some (String.ofList text, rest) := by
  obtain ⟨plain, single⟩ := plain_of_fits_literal fitting
  have read := literalRest_append plain single [] rest
  rw [collected, List.append_nil, List.reverse_reverse] at read
  rw [string?, shortString?, read]
  · nofun
  · intro more same
    cases text with
    | nil => exact behind (congrArg List.head? (List.cons.inj (List.cons.inj same).2).2)
    | cons c text => exact single ((List.cons.inj (List.cons.inj same).2).1 ▸ List.mem_cons_self)

theorem string?_longBasic (behind : rest.head? ≠ some '"') :
    string? ('"' :: '"' :: '"' :: ((if text.contains '\n' then ['\n'] else []) ++
      (escaped true 0 text ++ '"' :: '"' :: '"' :: rest))) = some (String.ofList text, rest) := by
  have read := longBasicRest_escaped text (Nat.zero_le 2) [] behind
  rw [collected, List.replicate_zero, List.nil_append, List.append_nil, List.append_nil,
    List.reverse_reverse] at read
  rw [string?, withoutLineEnd_opening fun single => isPlain_head?_escaped single _, read]

theorem string?_longLiteral (behind : rest.head? ≠ some '\'')
    (fitting : fits text .longLiteral = true) :
    string? ('\'' :: '\'' :: '\'' :: ((if text.contains '\n' then ['\n'] else []) ++
      (text ++ '\'' :: '\'' :: '\'' :: rest))) = some (String.ofList text, rest) := by
  obtain ⟨plain, few⟩ := plain_of_fits_longLiteral fitting
  have read := longLiteralRest_append plain few [] behind
  rw [collected, List.replicate_zero, List.nil_append, List.append_nil, List.append_nil,
    List.reverse_reverse] at read
  rw [string?, withoutLineEnd_opening, read]
  intro single c first
  cases text with
  | nil => cases first; rfl
  | cons =>
      cases first
      exact plain c List.mem_cons_self fun is => single (is ▸ List.mem_cons_self)

end

/-- A text as it is written in a form. -/
def StringForm.written (form : StringForm) (text : List Char) : List Char :=
  form.quotes.toList ++ ((if form.isLong && text.contains '\n' then ['\n'] else []) ++
    ((if form.hasEscapes then escaped form.isLong 0 text else text) ++ form.quotes.toList))

theorem toList_stringText (value : String) :
    (stringText value).toList = (formOf value.toList).written value.toList := by
  unfold stringText StringForm.written
  dsimp only
  split <;> simp

/-- A text is read back from each form that it may be written in. -/
theorem string?_written {form : StringForm} {text : List Char}
    (fitting : form.hasEscapes = false → fits text form = true) {rest : List Char}
    (no_double : rest.head? ≠ some '"') (no_single : rest.head? ≠ some '\'') :
    string? (form.written text ++ rest) = some (String.ofList text, rest) := by
  cases form with
  | basic =>
      have read := string?_basic text no_double
      simpa [StringForm.written, StringForm.quotes, StringForm.isLong, StringForm.hasEscapes]
        using read
  | literal =>
      have read := string?_literal text no_single (fitting rfl)
      simpa [StringForm.written, StringForm.quotes, StringForm.isLong, StringForm.hasEscapes]
        using read
  | longBasic =>
      have read := string?_longBasic text no_double
      simpa [StringForm.written, StringForm.quotes, StringForm.isLong, StringForm.hasEscapes]
        using read
  | longLiteral =>
      have read := string?_longLiteral text no_single (fitting rfl)
      simpa [StringForm.written, StringForm.quotes, StringForm.isLong, StringForm.hasEscapes]
        using read

/-- Every string is read back from the way it is written. -/
theorem string?_stringText (value : String) {rest : List Char}
    (no_double : rest.head? ≠ some '"') (no_single : rest.head? ≠ some '\'') :
    string? ((stringText value).toList ++ rest) = some (value, rest) := by
  rw [toList_stringText, string?_written (fits_formOf _) no_double no_single, String.ofList_toList]

/-- A written string starts with a quote. -/
theorem exists_stringText (value : String) : ∃ more,
    (stringText value).toList = '"' :: more ∨ (stringText value).toList = '\'' :: more := by
  rw [toList_stringText, StringForm.written]
  cases formOf value.toList with
  | basic => exact ⟨_, .inl rfl⟩
  | literal => exact ⟨_, .inr rfl⟩
  | longBasic => exact ⟨_, .inl rfl⟩
  | longLiteral => exact ⟨_, .inr rfl⟩

end MonkeyLang.Toml
