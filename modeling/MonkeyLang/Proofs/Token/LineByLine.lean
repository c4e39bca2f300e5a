import MonkeyLang.Proofs.Number.Digits
import MonkeyLang.Proofs.Text.Lines
import MonkeyLang.Proofs.Token.Identifiers
import MonkeyLang.Proofs.Token.Tiling

/-!
# Scanning line by line

No token, no comment and no look at the characters ahead reaches over a line feed, unless it stands
in a string. So a text without faults can be scanned apart from what follows in the next line: the
tokens of both texts are put one behind the other (`Token.scan_append_line`), and what is said of
the second text is said of it some lines further down.

A cut takes what it took of the text in front of the line feed, and leaves the line feed for the
next one (`Token.cut_append_line`). Only a string goes on if its closing quote is missing, which is
a fault.
-/

set_option autoImplicit false

namespace MonkeyLang

/-- The span as many characters further on. -/
def Span.moved (distance : Nat) (span : Span) : Span :=
  ⟨span.start + distance, span.stop + distance⟩

theorem Span.length_moved (distance : Nat) (span : Span) :
    (span.moved distance).length = span.length := by
  simp only [Span.length, Span.moved, Nat.add_sub_add_right]

/-- The token as many characters further on. -/
def Token.moved (distance : Nat) (token : Token) : Token :=
  { token with span := token.span.moved distance }

/-- The finding as many lines and characters further on. -/
def Diagnostic.moved (lines distance : Nat) (diagnostic : Diagnostic) : Diagnostic :=
  { diagnostic with
    line := diagnostic.line + lines
    span := diagnostic.span.moved distance }

/-! ## Places behind a line feed -/

namespace Text

theorem dropLines_add (count more : Nat) (text : List Char) :
    dropLines (count + more) text = dropLines more (dropLines count text) := by
  induction count generalizing text with
  | zero => rw [Nat.zero_add, dropLines]
  | succ count ih => rw [Nat.succ_add, dropLines, dropLines, ih]

/-- Lines behind a line feed are counted from there. -/
theorem lineAt_append_line (front text : List Char) (index : Nat) :
    lineAt (front.count '\n' + 1 + index) (front ++ '\n' :: text) = lineAt index text := by
  have count : (front ++ ['\n']).count '\n' = front.count '\n' + 1 := by simp
  have ends : ∀ c ∈ (front ++ ['\n']).getLast?, c = '\n' := by simp
  have behind := dropLines_append ends text
  rw [count, List.append_assoc, List.singleton_append] at behind
  rw [lineAt, lineAt, dropLines_add, behind]

end Text

namespace Diagnostic

theorem lastLineLength_append_line (front text : List Char) :
    lastLineLength (front ++ '\n' :: text) = lastLineLength text := by
  have stops : ∀ c ∈ ('\n' :: front.reverse).head?, (c != '\n') = false := by simp
  rw [lastLineLength, lastLineLength, List.reverse_append, List.reverse_cons, List.append_assoc,
    List.singleton_append, Text.takeWhile_append stops]

/-- A finding behind a line feed is located as in the text there, but so many lines further down. -/
theorem locate_append_line (front text : List Char) (diagnostic : Diagnostic) :
    { diagnostic with span := diagnostic.span.moved (front.length + 1) }.locate
        (front ++ '\n' :: text) =
      (diagnostic.locate text).moved (front.count '\n' + 1) (front.length + 1) := by
  have taken : (front ++ '\n' :: text).take (diagnostic.span.start + (front.length + 1)) =
      front ++ '\n' :: text.take diagnostic.span.start := by
    rw [Nat.add_comm, Nat.add_assoc, List.take_length_add_append, Nat.add_comm 1,
      List.take_succ_cons]
  have lines : (front ++ '\n' :: text.take diagnostic.span.start).count '\n' =
      front.count '\n' + 1 + (text.take diagnostic.span.start).count '\n' := by
    rw [List.count_append, List.count_cons_self]
    omega
  have inside : lastLineLength (text.take diagnostic.span.start) ≤
      (text.take diagnostic.span.start).length := by
    rw [lastLineLength]
    exact Nat.le_trans (List.takeWhile_sublist _).length_le (Nat.le_of_eq List.length_reverse)
  simp only [locate, moved, Span.moved, taken, lines, lastLineLength_append_line,
    Text.lineAt_append_line, Diagnostic.mk.injEq, List.length_append, List.length_cons, true_and,
    and_true]
  omega

end Diagnostic

/-- What is said of a fault behind a line feed. -/
theorem Token.Fault.diagnostic_append_line (fault : Fault) (front text : List Char) (span : Span) :
    fault.diagnostic (front ++ '\n' :: text) (span.moved (front.length + 1)) =
      (fault.diagnostic text span).moved (front.count '\n' + 1) (front.length + 1) := by
  have same : (Diagnostic.error fault.code fault.message (span.moved (front.length + 1))).locate
      (front ++ '\n' :: text) = ((Diagnostic.error fault.code fault.message span).locate text).moved
        (front.count '\n' + 1) (front.length + 1) := by
    -- The column of a new finding is told by its span too, but it does not count.
    refine Eq.trans ?_ (Diagnostic.locate_append_line front text _)
    simp only [Diagnostic.error, Diagnostic.make, Diagnostic.locate, Span.length_moved]
  exact congrArg (Diagnostic.labelled · "lexer error") same

namespace Token

variable {c : Char} {rest more : List Char}

/-! ## Cutting in front of a line feed -/

/-- The cut with more text behind what is left. -/
def Cut.before (next : Cut) (more : List Char) : Cut := { next with rest := next.rest ++ more }

theorem cutOperator_append_line (short long : Kind) (text more : List Char) :
    cutOperator short long (text ++ '\n' :: more) =
      (cutOperator short long text).before ('\n' :: more) := by
  cases text with
  | nil => rfl
  | cons c rest =>
      by_cases longer : c = '='
      · subst longer
        rfl
      · have alone : ∀ text : List Char, cutOperator short long (c :: text) = .fixed short (c :: text) :=
          fun text => cutOperator.eq_2 _ _ _ fun _ same => longer (List.cons.inj same).1
        rw [List.cons_append, alone, alone]
        rfl

theorem cutInteger_before (digits rest more : List Char) :
    cutInteger digits (rest ++ more) = (cutInteger digits rest).before more := by
  unfold cutInteger
  dsimp only
  split <;> rfl

/-- A number goes on behind a point if there is a digit. -/
theorem cutNumber_of_fraction {text : List Char}
    (behind : text.dropWhile Char.isDigit = '.' :: c :: rest) (digit : c.isDigit = true) :
    cutNumber text =
      let lexeme := text.takeWhile Char.isDigit ++ '.' :: (c :: rest).takeWhile Char.isDigit
      .sound .float (String.ofList lexeme) lexeme.length ((c :: rest).dropWhile Char.isDigit) := by
  unfold cutNumber
  rw [behind]
  exact if_pos digit

theorem cutNumber_of_no_fraction {text : List Char}
    (behind : ∀ c rest, text.dropWhile Char.isDigit = '.' :: c :: rest → c.isDigit = false) :
    cutNumber text =
      cutInteger (text.takeWhile Char.isDigit) (text.dropWhile Char.isDigit) := by
  unfold cutNumber
  split
  · next c rest same =>
      rw [behind c rest same, same]
      rfl
  · rfl

theorem cutNumber_append_line (text more : List Char) :
    cutNumber (text ++ '\n' :: more) = (cutNumber text).before ('\n' :: more) := by
  have stops : ∀ c ∈ ('\n' :: more).head?, c.isDigit = false := by simp
  have whole := Text.takeWhile_append stops text
  have left := Text.dropWhile_append stops text
  by_cases fraction : ∃ c rest, text.dropWhile Char.isDigit = '.' :: c :: rest ∧ c.isDigit = true
  · obtain ⟨c, rest, behind, digit⟩ := fraction
    have longer : (text ++ '\n' :: more).dropWhile Char.isDigit =
        '.' :: c :: (rest ++ '\n' :: more) := by
      rw [left, behind]
      rfl
    rw [cutNumber_of_fraction longer digit, cutNumber_of_fraction behind digit, whole,
      ← List.cons_append, Text.takeWhile_append stops, Text.dropWhile_append stops]
    rfl
  · have none : ∀ c rest, text.dropWhile Char.isDigit = '.' :: c :: rest → c.isDigit = false :=
      fun c rest behind => Bool.eq_false_iff.mpr fun digit => fraction ⟨c, rest, behind, digit⟩
    rw [cutNumber_of_no_fraction none, cutNumber_of_no_fraction, whole, left, cutInteger_before]
    intro c rest behind
    rw [left] at behind
    -- A point at the end of the text has the line feed behind it.
    match cut : text.dropWhile Char.isDigit with
    | [] => rw [cut] at behind; cases behind
    | [_] => rw [cut] at behind; cases behind; rfl
    | _ :: next :: others =>
        rw [cut] at behind
        cases behind
        exact none _ _ cut

theorem cutName_append_line (text more : List Char) :
    cutName (text ++ '\n' :: more) = (cutName text).before ('\n' :: more) := by
  have stops : ∀ c ∈ ('\n' :: more).head?, continuesName c = false := by
    rintro c ⟨⟩
    exact not_continuesName.1
  unfold cutName
  rw [Text.takeWhile_append stops, Text.dropWhile_append stops]
  rfl

/-- A string that is closed ends where it ended. -/
theorem cutString_append (contents : List Char) (consumed : Nat) (bad : Option (Fault × Nat))
    (text more : List Char) (sound : (cutString contents consumed bad text).faults = []) :
    cutString contents consumed bad (text ++ more) =
      (cutString contents consumed bad text).before more := by
  fun_induction cutString contents consumed bad text with
  | case1 contents consumed bad => exact absurd sound (by simp [cutUnterminated])
  | case2 contents consumed rest => rfl
  | case3 contents consumed rest fault width => cases sound
  | case4 contents consumed bad => exact absurd sound (by simp [cutUnterminated])
  | case5 contents consumed bad c rest plain known ih =>
      rw [List.cons_append, List.cons_append, cutString, known]
      exact ih sound
  | case6 contents consumed bad c rest unknown ih =>
      rw [List.cons_append, List.cons_append, cutString, unknown]
      exact ih sound
  | case7 contents consumed bad c rest no_quote no_end no_escape ih =>
      have no_backslash := ne_backslash no_end no_escape
      rw [List.cons_append, cutString]
      · exact ih sound
      · exact no_quote
      · exact fun same => absurd same no_backslash
      · exact fun _ _ same => absurd same no_backslash

/-- A token without faults is cut off in the same way if the text goes on in another line. -/
theorem cut_append_line (c : Char) (rest more : List Char) (sound : (cut c rest).faults = []) :
    cut c (rest ++ '\n' :: more) = (cut c rest).before ('\n' :: more) := by
  unfold cut at sound ⊢
  split
  case h_9 | h_10 | h_11 | h_12 | h_13 | h_14 | h_15 | h_16 => exact cutOperator_append_line _ _ _ _
  case h_17 => exact cutString_append _ _ _ _ _ sound
  case h_18 =>
    split
    · exact cutNumber_append_line (_ :: rest) more
    · split
      · exact cutName_append_line (_ :: rest) more
      · rfl
  all_goals rfl

/-! ## Skipping in front of a line feed -/

/-- What is skipped ends where it ended, or goes on in the next line, where no comment is open. -/
theorem skip_append_line (inComment : Bool) (position : Nat) (text more : List Char) :
    skip inComment position (text ++ '\n' :: more) =
      match skip inComment position text with
      | (_, []) => skip false (position + text.length + 1) more
      | (start, c :: rest) => (start, c :: (rest ++ '\n' :: more)) := by
  have no_comment {c : Char} {rest : List Char}
      (alone : ∀ others : List Char, c = '/' → rest = '/' :: others → False) :
      ∀ others : List Char, c = '/' → rest ++ '\n' :: more = '/' :: others → False := by
    intro others slash same
    cases rest with
    | nil => cases same
    | cons d rest => exact alone _ slash (by rw [(List.cons.inj same).1])
  have further (position : Nat) (c : Char) (rest : List Char) :
      position + 1 + rest.length + 1 = position + (c :: rest).length + 1 := by
    rw [List.length_cons, Nat.add_right_comm position, Nat.add_assoc position]
  fun_induction skip inComment position text with
  | case1 => rfl
  | case2 inComment position rest ih =>
      have further : position + ('/' :: '/' :: rest).length + 1 =
          position + 2 + rest.length + 1 := by
        simp only [List.length_cons]
        omega
      rw [further]
      exact ih
  | case3 inComment position rest alone ih =>
      rw [List.cons_append, skip.eq_3 _ _ _ _ (no_comment alone), if_pos rfl, ih, further]
  | case4 inComment position c rest alone no_break goes ih =>
      rw [List.cons_append, skip.eq_3 _ _ _ _ (no_comment alone), if_neg no_break, if_pos goes, ih,
        further]
  | case5 inComment position c rest alone no_break stays =>
      rw [List.cons_append, skip.eq_3 _ _ _ _ (no_comment alone), if_neg no_break, if_neg stays]

/-- What is skipped does not depend on where the text stands. -/
theorem skip_moved (inComment : Bool) (position distance : Nat) (text : List Char) :
    skip inComment (position + distance) text =
      ((skip inComment position text).1 + distance, (skip inComment position text).2) := by
  fun_induction skip inComment position text with
  | case1 => rfl
  | case2 inComment position rest ih =>
      rw [skip, Nat.add_right_comm, ih]
  | case3 inComment position rest alone ih =>
      rw [skip.eq_3 _ _ _ _ alone, if_pos rfl, Nat.add_right_comm, ih]
  | case4 inComment position c rest alone no_break goes ih =>
      rw [skip.eq_3 _ _ _ _ alone, if_neg no_break, if_pos goes, Nat.add_right_comm, ih]
  | case5 inComment position c rest alone no_break stays =>
      rw [skip.eq_3 _ _ _ _ alone, if_neg no_break, if_neg stays]

/-! ## Rows of tokens -/

namespace Yields

variable {position : Nat} {text : List Char} {tokens : List Token} {faults : List (Fault × Span)}

theorem unique (yields : Yields position text tokens faults) {others : List Token}
    {others_faults : List (Fault × Span)} (also : Yields position text others others_faults) :
    tokens = others ∧ faults = others_faults := by
  induction yields generalizing others others_faults with
  | stop skipped =>
      cases also with
      | stop again => cases skipped.symm.trans again; exact ⟨rfl, rfl⟩
      | cut again => cases skipped.symm.trans again
  | cut skipped more ih =>
      cases also with
      | stop again => cases skipped.symm.trans again
      | cut again rest =>
          cases skipped.symm.trans again
          obtain ⟨rfl, rfl⟩ := ih rest
          exact ⟨rfl, rfl⟩

theorem of_skip {place : Nat} {other : List Char}
    (same : skip false place other = skip false position text)
    (yields : Yields position text tokens faults) : Yields place other tokens faults := by
  cases yields with
  | stop skipped => exact .stop (same.trans skipped)
  | cut skipped more => exact .cut (same.trans skipped) more

/-- Where a text stands makes no difference but to the spans. -/
theorem moved (yields : Yields position text tokens faults) (distance : Nat) :
    Yields (position + distance) text (tokens.map (Token.moved distance))
      (faults.map fun fault => (fault.1, fault.2.moved distance)) := by
  induction yields with
  | @stop position start text skipped =>
      have further : skip false (position + distance) text = (start + distance, []) := by
        rw [skip_moved, skipped]
      exact .stop further
  | @cut position start c text rest tokens faults skipped more ih =>
      have further : skip false (position + distance) text = (start + distance, c :: rest) := by
        rw [skip_moved, skipped]
      rw [Nat.add_right_comm] at ih
      have yields := Yields.cut further ih
      have token : (Token.cut c rest).tokenAt (start + distance) =
          ((Token.cut c rest).tokenAt start).moved distance := by
        simp only [Cut.tokenAt, Token.moved, Span.moved, Nat.add_right_comm]
      have fault : (Token.cut c rest).faultsAt (start + distance) =
          ((Token.cut c rest).faultsAt start).map fun fault => (fault.1, fault.2.moved distance) := by
        simp only [Cut.faultsAt, List.map_map, Function.comp_def, Span.moved, Nat.add_right_comm]
      rwa [token, fault, ← List.map_cons, ← List.map_append] at yields

/-- In front of a line feed, all but the token for the end is as it was. -/
theorem append_line (yields : Yields position text tokens faults) (sound : faults = [])
    {more : List Char} {others : List Token} {others_faults : List (Fault × Span)}
    (behind : Yields (position + text.length + 1) more others others_faults) :
    ∃ before, tokens = before ++
        [⟨.endOfInput, "", ⟨position + text.length, position + text.length⟩⟩] ∧
      Yields position (text ++ '\n' :: more) (before ++ others) others_faults := by
  induction yields with
  | @stop position start text skipped =>
      obtain ⟨gap, rfl, rfl, -⟩ := gap_of_skip skipped
      rw [List.append_nil] at skipped behind ⊢
      refine ⟨[], rfl, behind.of_skip ?_⟩
      rw [skip_append_line, skipped]
  | @cut position start c text rest tokens faults skipped next ih =>
      obtain ⟨silent, others_silent⟩ := List.append_eq_nil_iff.mp sound
      have cuts := cut_append_line c rest more (List.map_eq_nil_iff.mp silent)
      have longer : skip false position (text ++ '\n' :: more) =
          (start, c :: (rest ++ '\n' :: more)) := by
        rw [skip_append_line, skipped]
      have stop : start + (Token.cut c rest).consumed + (Token.cut c rest).rest.length =
          position + text.length := by
        obtain ⟨gap, rfl, rfl, -⟩ := gap_of_skip skipped
        have size := congrArg List.length (cut_fits c rest).taken
        rw [List.length_append, List.length_take_of_le (cut_fits c rest).inside] at size
        rw [List.length_append, size]
        omega
      rw [← stop] at behind
      obtain ⟨before, rfl, yields⟩ := ih others_silent behind
      refine ⟨(Token.cut c rest).tokenAt start :: before, by rw [stop]; rfl, ?_⟩
      have whole : Yields (start + (Token.cut c (rest ++ '\n' :: more)).consumed)
          (Token.cut c (rest ++ '\n' :: more)).rest (before ++ others) others_faults := by
        rw [cuts]
        exact yields
      have yields := Yields.cut longer whole
      rw [cuts] at yields
      have none : ((Token.cut c rest).before ('\n' :: more)).faultsAt start = [] := silent
      rwa [none] at yields

end Yields

/-- **A text without faults is scanned apart from the lines below.** A text, a line feed and another
text have the tokens of the first one but the token for the end, and then those of the second one.
They stand so many characters further on as there are in front of them, and what is said of the
second text is said so many lines further down. -/
theorem scan_append_line {first second : List Char}
    (sound : (scan first).diagnostics first = []) :
    ∃ tokens, (scan first).tokens =
        tokens ++ [⟨.endOfInput, "", ⟨first.length, first.length⟩⟩] ∧
      (scan (first ++ '\n' :: second)).tokens =
        tokens ++ (scan second).tokens.map (Token.moved (first.length + 1)) ∧
      (scan (first ++ '\n' :: second)).diagnostics (first ++ '\n' :: second) =
        ((scan second).diagnostics second).map
          (Diagnostic.moved (first.count '\n' + 1) (first.length + 1)) := by
  have behind := (scan_yields second).moved (first.length + 1)
  rw [Nat.zero_add] at behind
  obtain ⟨tokens, split, yields⟩ := (scan_yields first).append_line
    ((diagnostics_eq_nil_iff first).mp sound) (by rwa [Nat.zero_add])
  rw [Nat.zero_add] at split
  obtain ⟨same, faults⟩ := (scan_yields (first ++ '\n' :: second)).unique yields
  refine ⟨tokens, split, same, ?_⟩
  rw [Lexing.diagnostics, Lexing.diagnostics, faults, List.map_map, List.map_map]
  exact List.map_congr_left fun fault _ => fault.1.diagnostic_append_line first second fault.2

/-- A comment ends where the line ends, and the character below is a fault in the second line. -/
theorem scan_append_line_commented :
    (scan "1 // one".toList).diagnostics "1 // one".toList = [] ∧
      ∃ tokens, (scan "1 // one".toList).tokens = tokens ++ [⟨.endOfInput, "", ⟨8, 8⟩⟩] ∧
        (scan "1 // one\n@".toList).tokens =
          tokens ++ [⟨.error, "Unexpected character '@'", ⟨9, 10⟩⟩, ⟨.endOfInput, "", ⟨10, 10⟩⟩] := by
  have sound : (scan "1 // one".toList).diagnostics "1 // one".toList = [] := by decide +kernel
  have below : (scan ['@']).tokens =
    [⟨.error, "Unexpected character '@'", ⟨0, 1⟩⟩, ⟨.endOfInput, "", ⟨1, 1⟩⟩] := by decide +kernel
  obtain ⟨tokens, split, whole, -⟩ := @scan_append_line "1 // one".toList ['@'] sound
  rw [below] at whole
  exact ⟨sound, tokens, split, whole⟩

end Token

end MonkeyLang
