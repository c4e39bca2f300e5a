import MonkeyLang.Token.Lexer

/-!
# What a cut says of its text

A token is cut off the front of a text. Whatever the text is, the token covers at least one of the
characters that were read, it is never the token for the end of input, and it is an error token
exactly if there are faults. Without faults the token covers all that was read, and shows it: a
string by what stands between its quotes, read escape by escape (`Denotes`), and every other token
by the characters themselves (`Kind.Shows`).

All of this is one predicate on cuts (`Cut.Fits`), shown for each way of cutting and then for
`cut` (`cut_fits`).
-/

set_option autoImplicit false

namespace MonkeyLang.Token

/-! ## What tokens show -/

/-- The letters that may stand behind a backslash in a string, and what they stand for there. -/
def escapes : List (Char × Char) :=
  [('n', '\n'), ('r', '\r'), ('t', '\t'), ('\\', '\\'), ('"', '"')]

/-- What the characters between two quotes stand for. -/
inductive Denotes : List Char → List Char → Prop
  | nil : Denotes [] []
  | plain {c : Char} {written meant : List Char} (no_quote : c ≠ '"') (no_backslash : c ≠ '\\')
      (rest : Denotes written meant) : Denotes (c :: written) (c :: meant)
  | escape {letter c : Char} {written meant : List Char} (known : (letter, c) ∈ escapes)
      (rest : Denotes written meant) : Denotes ('\\' :: letter :: written) (c :: meant)

theorem Denotes.append {first first_meant second second_meant : List Char}
    (left : Denotes first first_meant) (right : Denotes second second_meant) :
    Denotes (first ++ second) (first_meant ++ second_meant) := by
  induction left with
  | nil => exact right
  | plain no_quote no_backslash _ ih => exact .plain no_quote no_backslash ih
  | escape known _ ih => exact .escape known ih

/-- What a token of a kind has to do with the characters that it covers. -/
def Kind.Shows (kind : Kind) (lexeme : String) (characters : List Char) : Prop :=
  if kind = .string then
    ∃ body, characters = '"' :: (body ++ ['"']) ∧ Denotes body lexeme.toList
  else lexeme.toList = characters

/-- A kind of tokens that are no strings, no error tokens and not the end of input. -/
def Kind.isPlain (kind : Kind) : Bool :=
  kind != .string && kind != .error && kind != .endOfInput

theorem Kind.shows_of_isPlain {kind : Kind} {lexeme : String} {characters : List Char}
    (plain : kind.isPlain = true) (same : lexeme.toList = characters) :
    kind.Shows lexeme characters := by
  have other : kind ≠ .string := by
    rintro rfl
    cases plain
  rw [Kind.Shows, if_neg other]
  exact same

/-- A word is a keyword or a name. -/
theorem Kind.isPlain_of_word (word : String) :
    ((Kind.keyword? word).getD .identifier).isPlain = true := by
  unfold Kind.keyword?
  split <;> rfl

/-! ## Cuts that fit their text -/

/-- The cut takes characters off the front of the text, and its token tells the truth about
them. -/
structure Cut.Fits (next : Cut) (text : List Char) : Prop where
  taken : text = text.take next.consumed ++ next.rest
  inside : next.consumed ≤ text.length
  nonempty : 0 < next.width
  within : next.width ≤ next.consumed
  goes : next.kind ≠ .endOfInput
  faulty : next.kind = .error ↔ next.faults ≠ []
  whole : next.faults = [] → next.width = next.consumed
  shows : next.faults = [] → next.kind.Shows next.lexeme (text.take next.consumed)

namespace Cut.Fits

variable {kind : Kind} {lexeme : String} {taken rest : List Char}

/-- A token without faults that shows the characters in front of the others. -/
theorem sound (some : taken ≠ []) (no_error : kind ≠ .error) (goes : kind ≠ .endOfInput)
    (shows : kind.Shows lexeme taken) :
    (Cut.sound kind lexeme taken.length rest).Fits (taken ++ rest) where
  taken := by simp [Cut.sound]
  inside := by simp [Cut.sound]
  nonempty := List.length_pos_iff.mpr some
  within := Nat.le_refl _
  goes := goes
  faulty := by simp [Cut.sound, no_error]
  whole := fun _ => rfl
  shows := fun _ => by simpa [Cut.sound] using shows

theorem plain (some : taken ≠ []) (plain : kind.isPlain = true) (same : lexeme.toList = taken) :
    (Cut.sound kind lexeme taken.length rest).Fits (taken ++ rest) := by
  refine sound some ?_ ?_ (Kind.shows_of_isPlain plain same)
  · rintro rfl
    cases plain
  · rintro rfl
    cases plain

/-- A token of one spelling, in front of others. -/
theorem fixed (some : taken ≠ []) (plain : kind.isPlain = true)
    (spelled : kind.spelling.toList = taken) : (Cut.fixed kind rest).Fits (taken ++ rest) := by
  have width : kind.spelling.length = taken.length := by rw [← spelled, String.length_toList]
  rw [Cut.fixed, width]
  exact Fits.plain some plain spelled

/-- An error token that covers some of the characters in front of the others. -/
theorem broken {next : Cut} (read : next.consumed = taken.length) (some : 0 < next.width)
    (within : next.width ≤ taken.length) (error : next.kind = .error) (faults : next.faults ≠ []) :
    next.Fits (taken ++ next.rest) where
  taken := by simp [read]
  inside := by simp [read]
  nonempty := some
  within := read ▸ within
  goes := by simp [error]
  faulty := by simp [error, faults]
  whole := fun none => absurd none faults
  shows := fun none => absurd none faults

theorem faulty_of (fault : Fault) (some : taken ≠ []) :
    (Cut.faulty fault taken.length rest).Fits (taken ++ rest) :=
  broken rfl (List.length_pos_iff.mpr some) (Nat.le_refl _) rfl (List.cons_ne_nil _ _)

end Cut.Fits

/-! ## Operators, numbers and names -/

theorem cutOperator_fits {short long : Kind} {c : Char} (rest : List Char)
    (plain : short.isPlain = true ∧ long.isPlain = true)
    (spelled : short.spelling.toList = [c] ∧ long.spelling.toList = [c, '=']) :
    (cutOperator short long rest).Fits (c :: rest) := by
  unfold cutOperator
  split
  · exact .fixed (List.cons_ne_nil _ _) plain.2 spelled.2
  · exact .fixed (List.cons_ne_nil _ _) plain.1 spelled.1

theorem cutInteger_fits {digits : List Char} (some : digits ≠ []) (rest : List Char) :
    (cutInteger digits rest).Fits (digits ++ rest) := by
  rw [cutInteger]
  split
  · exact .plain some rfl String.toList_ofList
  · exact .faulty_of _ some

theorem cutNumber_fits {c : Char} (digit : c.isDigit = true) (rest : List Char) :
    (cutNumber (c :: rest)).Fits (c :: rest) := by
  have split_text := List.takeWhile_append_dropWhile (p := Char.isDigit) (l := c :: rest)
  have some : (c :: rest).takeWhile Char.isDigit ≠ [] := by
    rw [List.takeWhile_cons_of_pos digit]
    exact List.cons_ne_nil _ _
  unfold cutNumber
  dsimp only
  generalize (c :: rest).takeWhile Char.isDigit = whole at split_text some ⊢
  generalize (c :: rest).dropWhile Char.isDigit = behind at split_text ⊢
  rw [← split_text]
  split
  · next following more =>
      split
      · have fraction :=
          List.takeWhile_append_dropWhile (p := Char.isDigit) (l := following :: more)
        have shape : whole ++ '.' :: following :: more =
            (whole ++ '.' :: (following :: more).takeWhile Char.isDigit) ++
              (following :: more).dropWhile Char.isDigit := by
          rw [List.append_assoc, List.cons_append, fraction]
        rw [shape]
        exact .plain (by simp) rfl String.toList_ofList
      · exact cutInteger_fits some _
  · exact cutInteger_fits some _

theorem cutName_fits {c : Char} (start : startsName c = true) (rest : List Char) :
    (cutName (c :: rest)).Fits (c :: rest) := by
  have split_text := List.takeWhile_append_dropWhile (p := continuesName) (l := c :: rest)
  have some : (c :: rest).takeWhile continuesName ≠ [] := by
    rw [List.takeWhile_cons_of_pos (continuesName_of_startsName start)]
    exact List.cons_ne_nil _ _
  have fits : (cutName (c :: rest)).Fits
      ((c :: rest).takeWhile continuesName ++ (c :: rest).dropWhile continuesName) :=
    .plain some (Kind.isPlain_of_word (String.ofList ((c :: rest).takeWhile continuesName)))
      String.toList_ofList
  rwa [split_text] at fits

/-! ## Strings -/

/-- A backslash in a string starts an escape, or else it ends the text. -/
theorem ne_backslash {c : Char} {rest : List Char} (no_end : c = '\\' → rest = [] → False)
    (no_escape : ∀ letter more, c = '\\' → rest = letter :: more → False) : c ≠ '\\' := by
  intro backslash
  cases rest with
  | nil => exact no_end backslash rfl
  | cons letter more => exact no_escape letter more backslash rfl

theorem mem_escapes_of_unescape? {letter c : Char} (known : unescape? letter = some c) :
    (letter, c) ∈ escapes := by
  unfold unescape? at known
  split at known <;> cases known <;> decide

/-- A string without its closing quote takes all that is left. -/
theorem cutUnterminated_fits {read : List Char} {bad : Option (Fault × Nat)} (some : read ≠ []) :
    (cutUnterminated read.length bad).Fits read := by
  have fits : (cutUnterminated read.length bad).Fits (read ++ []) :=
    .broken rfl (List.length_pos_iff.mpr some) (Nat.le_refl _) rfl (by simp [cutUnterminated])
  rwa [List.append_nil] at fits

/-- Behind the opening quote and some more characters of the string the rest is cut off. The
characters are those that were collected, as long as there was no bad escape; a bad escape ends
among them. -/
theorem cutString_fits (contents : List Char) (consumed : Nat) (bad : Option (Fault × Nat))
    (text body : List Char) (read : consumed = body.length + 1)
    (denotes : bad = none → Denotes body contents.reverse)
    (ends : ∀ fault ∈ bad, 0 < fault.2 ∧ fault.2 ≤ consumed) :
    (cutString contents consumed bad text).Fits ('"' :: (body ++ text)) := by
  fun_induction cutString contents consumed bad text generalizing body with
  | case1 contents consumed bad =>
      have fits : (cutUnterminated ('"' :: body).length bad).Fits ('"' :: body) :=
        cutUnterminated_fits (List.cons_ne_nil '"' body)
      rwa [List.length_cons, ← read, ← List.append_nil body] at fits
  | case2 contents consumed rest =>
      have shows : Kind.string.Shows (String.ofList contents.reverse) ('"' :: (body ++ ['"'])) :=
        ⟨body, rfl, by simpa using denotes rfl⟩
      have length : ('"' :: (body ++ ['"'])).length = consumed + 1 := by simp [read]
      have fits : (Cut.sound .string (String.ofList contents.reverse)
          ('"' :: (body ++ ['"'])).length rest).Fits ('"' :: (body ++ ['"']) ++ rest) :=
        .sound (by simp) (by decide) (by decide) shows
      rw [length] at fits
      simpa using fits
  | case3 contents consumed rest fault width =>
      obtain ⟨some, within⟩ := ends (fault, width) rfl
      have length : ('"' :: (body ++ ['"'])).length = consumed + 1 := by simp [read]
      have covered : width ≤ ('"' :: (body ++ ['"'])).length := by
        rw [length]
        exact Nat.le_succ_of_le within
      have fits : Cut.Fits ⟨.error, fault.message, width, consumed + 1, [(fault, width)], rest⟩
          ('"' :: (body ++ ['"']) ++ rest) :=
        .broken length.symm some covered rfl (List.cons_ne_nil _ _)
      simpa using fits
  | case4 contents consumed bad =>
      have fits : (cutUnterminated ('"' :: (body ++ ['\\'])).length bad).Fits
          ('"' :: (body ++ ['\\'])) := cutUnterminated_fits (List.cons_ne_nil '"' (body ++ ['\\']))
      rwa [List.length_cons, List.length_append, List.length_singleton, ← read] at fits
  | case5 contents consumed bad c rest plain known ih =>
      have fits := ih (body ++ ['\\', c]) (by simp [read]) ?_ ?_
      · simpa using fits
      · intro sound
        rw [List.reverse_cons]
        exact (denotes sound).append (.escape (mem_escapes_of_unescape? known) .nil)
      · intro fault member
        have bounds := ends fault member
        omega
  | case6 contents consumed bad c rest unknown ih =>
      have fits := ih (body ++ ['\\', c]) (by simp [read]) ?_ ?_
      · simpa using fits
      · intro sound
        cases bad <;> cases sound
      · intro fault member
        cases bad with
        | none =>
            obtain rfl : (.invalidEscape c, consumed + 2) = fault := by simpa using member
            exact ⟨by simp, Nat.le_refl _⟩
        | some first =>
            obtain rfl : first = fault := by simpa using member
            have bounds := ends first rfl
            omega
  | case7 contents consumed bad c rest no_quote no_end no_escape ih =>
      have fits := ih (body ++ [c]) (by simp [read]) ?_ ?_
      · simpa using fits
      · intro sound
        rw [List.reverse_cons]
        have no_backslash := ne_backslash no_end no_escape
        exact (denotes sound).append (.plain no_quote no_backslash .nil)
      · intro fault member
        have bounds := ends fault member
        omega

/-! ## All tokens -/

/-- The token that is cut off the front of a text fits the text. -/
theorem cut_fits (c : Char) (rest : List Char) : (cut c rest).Fits (c :: rest) := by
  have fixed : ∀ (kind : Kind) (c : Char), kind.isPlain = true → kind.spelling.toList = [c] →
      (Cut.fixed kind rest).Fits (c :: rest) :=
    fun kind c plain spelled => .fixed (List.cons_ne_nil c []) plain spelled
  unfold cut
  split
  case h_1 => exact fixed .leftParen _ rfl rfl
  case h_2 => exact fixed .rightParen _ rfl rfl
  case h_3 => exact fixed .leftBrace _ rfl rfl
  case h_4 => exact fixed .rightBrace _ rfl rfl
  case h_5 => exact fixed .leftBracket _ rfl rfl
  case h_6 => exact fixed .rightBracket _ rfl rfl
  case h_7 => exact fixed .semicolon _ rfl rfl
  case h_8 => exact fixed .comma _ rfl rfl
  case h_9 => exact cutOperator_fits rest ⟨rfl, rfl⟩ ⟨rfl, rfl⟩
  case h_10 => exact cutOperator_fits rest ⟨rfl, rfl⟩ ⟨rfl, rfl⟩
  case h_11 => exact cutOperator_fits rest ⟨rfl, rfl⟩ ⟨rfl, rfl⟩
  case h_12 => exact cutOperator_fits rest ⟨rfl, rfl⟩ ⟨rfl, rfl⟩
  case h_13 => exact cutOperator_fits rest ⟨rfl, rfl⟩ ⟨rfl, rfl⟩
  case h_14 => exact cutOperator_fits rest ⟨rfl, rfl⟩ ⟨rfl, rfl⟩
  case h_15 => exact cutOperator_fits rest ⟨rfl, rfl⟩ ⟨rfl, rfl⟩
  case h_16 => exact cutOperator_fits rest ⟨rfl, rfl⟩ ⟨rfl, rfl⟩
  case h_17 =>
    have nothing : ∀ fault ∈ (none : Option (Fault × Nat)), 0 < fault.2 ∧ fault.2 ≤ 1 := by simp
    exact cutString_fits [] 1 none rest [] rfl (fun _ => .nil) nothing
  case h_18 =>
    split
    · next digit => exact cutNumber_fits digit rest
    · split
      · next start => exact cutName_fits start rest
      · have fits : (Cut.faulty (.unexpectedCharacter c) [c].length rest).Fits ([c] ++ rest) :=
          .faulty_of _ (List.cons_ne_nil c [])
        exact fits

end MonkeyLang.Token
