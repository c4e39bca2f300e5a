import MonkeyLang.Proofs.Token.Cuts

/-!
# Tokens tile the text

A text is a row of gaps and tokens, with a gap at its end (`Tiles`); a gap is made of blanks and of
comments that run to the end of their line (`Gap`). So the spans of the tokens are in order, do not
overlap and lie inside the text, and one token for the end of input stands behind all others.
Without faults each token shows the characters of its span, and a character outside of all spans is
a blank or part of a comment (`scan_tiles`). A fault is found exactly where there is an error token.

The main statement speaks of positions in the whole text, and `Tiles` of what is left of it. The
lemmas about `Tiles` therefore have the characters in front as a parameter.
-/

set_option autoImplicit false

namespace MonkeyLang

namespace Span

/-- The span covers the character at a position. -/
def Covers (span : Span) (position : Nat) : Prop := span.start ≤ position ∧ position < span.stop

/-- The characters of the span. -/
def textOf (span : Span) (source : List Char) : List Char :=
  (source.drop span.start).take span.length

theorem textOf_append (front text : List Char) (size : Nat) :
    Span.textOf ⟨front.length, front.length + size⟩ (front ++ text) = text.take size := by
  simp [textOf, length]

end Span

namespace Token

/-! ## Gaps -/

/-- Whether a character may stand between tokens outside of comments. -/
def isBlank (c : Char) : Bool := c == ' ' || c == '\t' || c == '\r' || c == '\n'

/-- The span holds two slashes and what follows them up to the end of the line. -/
def IsComment (source : List Char) (span : Span) : Prop :=
  ∃ before text after, source = before ++ ('/' :: '/' :: text ++ after) ∧ '\n' ∉ text ∧
    (∀ c ∈ after.head?, c = '\n') ∧ span = ⟨before.length, before.length + (text.length + 2)⟩

/-- What may stand in front of the rest of a text without being part of a token. -/
inductive Gap (rest : List Char) : List Char → Prop
  | nil : Gap rest []
  | blank {c : Char} {gap : List Char} (is : isBlank c = true) (more : Gap rest gap) :
      Gap rest (c :: gap)
  | comment {text gap : List Char} (line : '\n' ∉ text) (ends : ∀ c ∈ (gap ++ rest).head?, c = '\n')
      (more : Gap rest gap) : Gap rest ('/' :: '/' :: text ++ gap)

/-- What is skipped is a gap, behind the rest of a comment if one has started. -/
theorem skip_gap (inComment : Bool) (position : Nat) (text : List Char) :
    ∃ comment gap, text = comment ++ gap ++ (skip inComment position text).2 ∧
      (skip inComment position text).1 = position + comment.length + gap.length ∧
      Gap (skip inComment position text).2 gap ∧
      (inComment = false → comment = []) ∧ '\n' ∉ comment ∧
      (inComment = true → ∀ c ∈ (gap ++ (skip inComment position text).2).head?, c = '\n') := by
  fun_induction skip inComment position text with
  | case1 => exact ⟨[], [], rfl, rfl, .nil, fun _ => rfl, by simp, by simp⟩
  | case2 inComment position rest ih =>
      obtain ⟨comment, gap, split, stop, more, -, line, ends⟩ := ih
      have longer : (skip true (position + 2) rest).1 =
          position + ('/' :: '/' :: comment).length + gap.length := by
        simp only [stop, List.length_cons]
        omega
      cases inComment with
      | true =>
          refine ⟨'/' :: '/' :: comment, gap, ?_, longer, more, by simp, by simp [line], ends⟩
          simpa using split
      | false =>
          refine ⟨[], '/' :: '/' :: comment ++ gap, ?_, ?_, .comment line (ends rfl) more,
            fun _ => rfl, by simp, by simp⟩
          · simpa using split
          · rw [List.length_nil, Nat.add_zero, List.length_append, ← Nat.add_assoc]
            exact longer
  | case3 inComment position rest no_slash ih =>
      obtain ⟨comment, gap, split, stop, more, none, -, -⟩ := ih
      obtain rfl := none rfl
      refine ⟨[], '\n' :: gap, ?_, ?_, .blank rfl more, fun _ => rfl, by simp, by simp⟩
      · simpa using split
      · simp only [stop, List.length_cons, List.length_nil]
        omega
  | case4 inComment position c rest no_slash no_break goes ih =>
      obtain ⟨comment, gap, split, stop, more, none, line, ends⟩ := ih
      cases inComment with
      | true =>
          refine ⟨c :: comment, gap, by simpa using split, ?_, more, by simp, ?_, ends⟩
          · simp only [stop, List.length_cons]
            omega
          · simpa using ⟨Ne.symm no_break, line⟩
      | false =>
          obtain rfl := none rfl
          have blank : isBlank c = true := by
            simp only [Bool.false_or, Bool.or_eq_true, decide_eq_true_eq] at goes
            rcases goes with (rfl | rfl) | rfl <;> rfl
          refine ⟨[], c :: gap, by simpa using split, ?_, .blank blank more, fun _ => rfl,
            by simp, by simp⟩
          simp only [stop, List.length_cons, List.length_nil]
          omega
  | case5 inComment position c rest no_slash no_break stays =>
      have outside : inComment = false := by
        cases inComment
        · rfl
        · simp at stays
      exact ⟨[], [], rfl, rfl, .nil, fun _ => rfl, by simp, by simp [outside]⟩

/-- In front of the next token there is a gap. -/
theorem gap_of_skip {position start : Nat} {text rest : List Char}
    (skipped : skip false position text = (start, rest)) :
    ∃ gap, text = gap ++ rest ∧ start = position + gap.length ∧ Gap rest gap := by
  obtain ⟨comment, gap, split, stop, more, none, -, -⟩ := skip_gap false position text
  obtain rfl := none rfl
  rw [skipped] at split stop more
  exact ⟨gap, split, by simpa using stop, more⟩

/-- A position in a gap holds a blank, or a comment in the gap covers it. -/
theorem Gap.filled {rest gap : List Char} (is : Gap rest gap) (front : List Char) {position : Nat}
    (behind : front.length ≤ position) (inside : position < front.length + gap.length) :
    (∃ c, (front ++ (gap ++ rest))[position]? = some c ∧ isBlank c = true) ∨
      ∃ span, IsComment (front ++ (gap ++ rest)) span ∧ span.Covers position ∧
        front.length ≤ span.start ∧ span.stop ≤ front.length + gap.length := by
  induction is generalizing front with
  | nil =>
      rw [List.length_nil] at inside
      omega
  | @blank c gap blank more ih =>
      rcases Nat.eq_or_lt_of_le behind with rfl | later
      · exact .inl ⟨c, by simp, blank⟩
      · have shape : front ++ (c :: gap ++ rest) = (front ++ [c]) ++ (gap ++ rest) := by simp
        have filled := ih (front ++ [c])
          (by simp only [List.length_append, List.length_singleton]; omega)
          (by simp only [List.length_append, List.length_cons] at inside ⊢; omega)
        rw [shape]
        refine filled.imp_right fun ⟨span, held, covers, starts, stops⟩ =>
          ⟨span, held, covers, ?_, ?_⟩
        · simp only [List.length_append] at starts
          omega
        · simp only [List.length_append, List.length_cons, List.length_nil] at stops ⊢
          omega
  | @comment text gap line ends more ih =>
      have shape : front ++ ('/' :: '/' :: text ++ gap ++ rest) =
          front ++ ('/' :: '/' :: text ++ (gap ++ rest)) := by simp
      by_cases here : position < front.length + (text.length + 2)
      · refine .inr ⟨⟨front.length, front.length + (text.length + 2)⟩, ?_, ⟨behind, here⟩,
          Nat.le_refl _, ?_⟩
        · exact ⟨front, text, gap ++ rest, shape, line, ends, rfl⟩
        · simp only [List.length_append, List.length_cons]
          omega
      · have filled := ih (front ++ '/' :: '/' :: text)
          (by simp only [List.length_append, List.length_cons]; omega)
          (by simp only [List.length_append, List.length_cons] at inside ⊢; omega)
        rw [List.append_assoc, ← shape] at filled
        refine filled.imp_right fun ⟨span, held, covers, starts, stops⟩ =>
          ⟨span, held, covers, ?_, ?_⟩
        · simp only [List.length_append] at starts
          omega
        · simp only [List.length_append, List.length_cons] at stops ⊢
          omega

/-! ## Rows of gaps and tokens -/

/-- The faults of a cut, each with its span. -/
def Cut.faultsAt (next : Cut) (start : Nat) : List (Fault × Span) :=
  next.faults.map fun (fault, width) => (fault, ⟨start, start + width⟩)

/-- The token of a cut. -/
def Cut.tokenAt (next : Cut) (start : Nat) : Token :=
  ⟨next.kind, next.lexeme, ⟨start, start + next.width⟩⟩

/-- The text from a position on is scanned as these tokens, with these faults. -/
inductive Yields : Nat → List Char → List Token → List (Fault × Span) → Prop
  | stop {position start : Nat} {text : List Char}
      (skipped : skip false position text = (start, [])) :
      Yields position text [⟨.endOfInput, "", ⟨start, start⟩⟩] []
  | cut {position start : Nat} {c : Char} {text rest : List Char} {tokens : List Token}
      {faults : List (Fault × Span)} (skipped : skip false position text = (start, c :: rest))
      (more : Yields (start + (Token.cut c rest).consumed) (Token.cut c rest).rest tokens faults) :
      Yields position text ((Token.cut c rest).tokenAt start :: tokens)
        ((Token.cut c rest).faultsAt start ++ faults)

/-- A scan finds the tokens and faults of the text behind those that were found before. -/
theorem scanFrom_yields (position : Nat) (text : List Char) (tokens : Array Token)
    (faults : Array (Fault × Span)) : ∃ more others, Yields position text more others ∧
      scanFrom position text tokens faults =
        ⟨tokens.toList ++ more, faults.toList ++ others⟩ := by
  fun_induction scanFrom position text tokens faults with
  | case1 position text tokens faults start found =>
      exact ⟨_, _, .stop found, by simp⟩
  | case2 position text tokens faults start c rest found next token more ih =>
      obtain ⟨later, others, yields, result⟩ := ih
      refine ⟨_, _, .cut found yields, ?_⟩
      rw [result]
      simp [Cut.faultsAt, Cut.tokenAt, next, token, more]

theorem scan_yields (text : List Char) : Yields 0 text (scan text).tokens (scan text).faults := by
  obtain ⟨tokens, faults, yields, result⟩ := scanFrom_yields 0 text #[] #[]
  rw [scan, result]
  exact yields

/-- The text from a position on is a row of gaps and tokens, with these tokens and faults. -/
inductive Tiles : Nat → List Char → List Token → List (Fault × Span) → Prop
  | stop {position : Nat} {gap : List Char} (is : Gap [] gap) :
      Tiles position gap
        [⟨.endOfInput, "", ⟨position + gap.length, position + gap.length⟩⟩] []
  | cut {position : Nat} {gap text : List Char} {next : Cut} {tokens : List Token}
      {faults : List (Fault × Span)} (is : Gap text gap) (fits : next.Fits text)
      (more : Tiles (position + gap.length + next.consumed) next.rest tokens faults) :
      Tiles position (gap ++ text) (next.tokenAt (position + gap.length) :: tokens)
        (next.faultsAt (position + gap.length) ++ faults)

/-- What a scan finds is a row. -/
theorem Yields.tiles {position : Nat} {text : List Char} {tokens : List Token}
    {faults : List (Fault × Span)} (yields : Yields position text tokens faults) :
    Tiles position text tokens faults := by
  induction yields with
  | stop skipped =>
      obtain ⟨gap, rfl, rfl, is⟩ := gap_of_skip skipped
      rw [List.append_nil]
      exact .stop is
  | @cut position start c text rest tokens faults skipped more ih =>
      obtain ⟨gap, rfl, rfl, is⟩ := gap_of_skip skipped
      exact .cut is (cut_fits c rest) ih

namespace Tiles

variable {position : Nat} {text : List Char} {tokens : List Token} {faults : List (Fault × Span)}

/-- One token for the end of input stands at the end of the text, behind all other tokens. These are
not empty and lie in the text. -/
theorem spans (tiles : Tiles position text tokens faults) :
    ∃ before, tokens = before ++
        [⟨.endOfInput, "", ⟨position + text.length, position + text.length⟩⟩] ∧
      ∀ token ∈ before, token.kind ≠ .endOfInput ∧ position ≤ token.span.start ∧
        token.span.start < token.span.stop ∧ token.span.stop ≤ position + text.length := by
  induction tiles with
  | stop => exact ⟨[], rfl, by simp⟩
  | @cut position gap text next tokens faults is fits more ih =>
      obtain ⟨before, rfl, all⟩ := ih
      have size : text.length = next.consumed + next.rest.length := by
        have length := congrArg List.length fits.taken
        rwa [List.length_append, List.length_take_of_le fits.inside] at length
      have stop : position + gap.length + next.consumed + next.rest.length =
          position + (gap ++ text).length := by
        rw [List.length_append]
        omega
      rw [stop] at all ⊢
      refine ⟨_ :: before, rfl, List.forall_mem_cons.2 ⟨⟨fits.goes, ?_, ?_, ?_⟩, ?_⟩⟩
      · exact Nat.le_add_right _ _
      · exact Nat.lt_add_of_pos_right fits.nonempty
      · have := fits.within
        simp only [Cut.tokenAt]
        omega
      · intro token member
        obtain ⟨goes, starts, others⟩ := all token member
        exact ⟨goes, by omega, others⟩

/-- No token starts in front of the row. -/
theorem le_start (tiles : Tiles position text tokens faults) {token : Token}
    (member : token ∈ tokens) : position ≤ token.span.start := by
  obtain ⟨before, rfl, all⟩ := tiles.spans
  rcases List.mem_append.1 member with member | member
  · exact (all token member).2.1
  · obtain rfl := List.mem_singleton.1 member
    exact Nat.le_add_right _ _

theorem ordered (tiles : Tiles position text tokens faults) :
    tokens.Pairwise fun earlier later => earlier.span.stop ≤ later.span.start := by
  induction tiles with
  | stop => exact List.pairwise_singleton _ _
  | @cut position gap text next tokens faults is fits more ih =>
      refine List.pairwise_cons.2 ⟨fun later member => ?_, ih⟩
      have starts := more.le_start member
      have within := fits.within
      simp only [Cut.tokenAt]
      omega

/-- There is a fault exactly if there is an error token. -/
theorem faults_eq_nil_iff (tiles : Tiles position text tokens faults) :
    faults = [] ↔ ∀ token ∈ tokens, token.kind ≠ .error := by
  induction tiles with
  | stop => simp
  | @cut position gap text next tokens faults is fits more ih =>
      have first : next.faultsAt (position + gap.length) = [] ↔
          (next.tokenAt (position + gap.length)).kind ≠ .error := by
        rw [Cut.faultsAt, List.map_eq_nil_iff, Cut.tokenAt, Ne, fits.faulty, Decidable.not_not]
      rw [List.append_eq_nil_iff, first, ih, List.forall_mem_cons]

/-- Without faults each token shows the characters of its span. -/
theorem shows (tiles : Tiles position text tokens faults) (sound : faults = [])
    (front : List Char) (behind : front.length = position) :
    ∀ token ∈ tokens, token.kind.Shows token.lexeme (token.span.textOf (front ++ text)) := by
  induction tiles generalizing front with
  | @stop position gap is =>
      refine List.forall_mem_singleton.2 (Kind.Shows.eq_1 .. ▸ ?_)
      simp [Span.textOf, Span.length]
  | @cut position gap text next tokens faults is fits more ih =>
      subst behind
      obtain ⟨none, others⟩ := List.append_eq_nil_iff.1 sound
      have silent : next.faults = [] := List.map_eq_nil_iff.1 none
      have shape : front ++ (gap ++ text) = (front ++ gap) ++ text := by simp
      refine List.forall_mem_cons.2 ⟨?_, ?_⟩
      · have shown := fits.shows silent
        rw [Cut.tokenAt, shape, ← List.length_append, fits.whole silent, Span.textOf_append]
        exact shown
      · have rest := ih others (front ++ gap ++ text.take next.consumed) (by
          simp [Nat.min_eq_left fits.inside, Nat.add_assoc])
        rwa [List.append_assoc _ _ next.rest, ← fits.taken, ← shape] at rest

/-- Without faults a position outside of all tokens holds a blank, or it is part of a comment
outside of all tokens. -/
theorem filled (tiles : Tiles position text tokens faults) (sound : faults = [])
    (front : List Char) (behind : front.length = position) {place : Nat}
    (starts : position ≤ place) (stops : place < position + text.length)
    (outside : ∀ token ∈ tokens, ¬token.span.Covers place) :
    (∃ c, (front ++ text)[place]? = some c ∧ isBlank c = true) ∨
      ∃ span, IsComment (front ++ text) span ∧ span.Covers place ∧ position ≤ span.start ∧
        ∀ other, span.Covers other → ∀ token ∈ tokens, ¬token.span.Covers other := by
  induction tiles generalizing front with
  | @stop position gap is =>
      subst behind
      have gaps := is.filled front starts stops
      rw [List.append_nil] at gaps
      refine gaps.imp_right fun ⟨span, comment, covers, first, last⟩ =>
        ⟨span, comment, covers, first, fun other inside token member => ?_⟩
      obtain rfl := List.mem_singleton.1 member
      simp only [Span.Covers]
      omega
  | @cut position gap text next tokens faults is fits more ih =>
      subst behind
      obtain ⟨none, others⟩ := List.append_eq_nil_iff.1 sound
      have silent : next.faults = [] := List.map_eq_nil_iff.1 none
      have width := fits.whole silent
      have size := congrArg List.length fits.taken
      rw [List.length_append, List.length_take_of_le fits.inside] at size
      rw [List.length_append] at stops
      obtain ⟨first, rest⟩ := List.forall_mem_cons.1 outside
      by_cases early : place < front.length + gap.length
      · -- all tokens stand behind the gap
        refine (is.filled front starts early).imp_right
          fun ⟨span, comment, covers, begins, ends⟩ =>
            ⟨span, comment, covers, begins, fun other inside token member => ?_⟩
        have start : front.length + gap.length ≤ token.span.start := by
          rcases List.mem_cons.1 member with rfl | member
          · exact Nat.le_refl _
          · exact Nat.le_trans (Nat.le_add_right _ _) (more.le_start member)
        simp only [Span.Covers] at inside ⊢
        omega
      · have passed : front.length + gap.length + next.consumed ≤ place := by
          simp only [Span.Covers, Cut.tokenAt] at first
          omega
        have shape : front ++ gap ++ text.take next.consumed ++ next.rest =
            front ++ (gap ++ text) := by
          rw [List.append_assoc _ _ next.rest, ← fits.taken, List.append_assoc]
        have later := ih others (front ++ gap ++ text.take next.consumed)
          (by simp [Nat.min_eq_left fits.inside, Nat.add_assoc]) passed (by omega) rest
        rw [shape] at later
        refine later.imp_right fun ⟨span, comment, covers, begins, free⟩ =>
          ⟨span, comment, covers, by omega, fun other inside token member => ?_⟩
        rcases List.mem_cons.1 member with rfl | member
        · simp only [Span.Covers, Cut.tokenAt] at inside ⊢
          omega
        · exact free other inside token member

end Tiles

/-! ## Whole texts -/

/-- The scan of a text is the row of its tokens, and its faults. -/
theorem scan_row (source : List Char) :
    Tiles 0 source (scan source).tokens (scan source).faults :=
  (scan_yields source).tiles

theorem diagnostics_eq_nil_iff (source : List Char) :
    (scan source).diagnostics source = [] ↔ (scan source).faults = [] :=
  List.map_eq_nil_iff

/-- **Tokens tile the text.** The one token for the end of input stands at the end, behind tokens
that are not empty, lie in the text and follow one another without overlapping. Without faults, a
character outside of all tokens is a blank or part of a comment that runs to the end of its line
outside of all tokens, and each token shows the characters of its span. There are faults exactly if
there are error tokens. -/
theorem scan_tiles (source : List Char) :
    (∃ tokens, (scan source).tokens =
        tokens ++ [⟨.endOfInput, "", ⟨source.length, source.length⟩⟩] ∧
      ∀ token ∈ tokens, token.kind ≠ .endOfInput ∧
        token.span.start < token.span.stop ∧ token.span.stop ≤ source.length) ∧
    (scan source).tokens.Pairwise (fun earlier later => earlier.span.stop ≤ later.span.start) ∧
    ((scan source).diagnostics source = [] →
      (∀ position c, source[position]? = some c →
        (∀ token ∈ (scan source).tokens, ¬token.span.Covers position) →
        isBlank c = true ∨ ∃ comment, IsComment source comment ∧ comment.Covers position ∧
          ∀ other, comment.Covers other →
            ∀ token ∈ (scan source).tokens, ¬token.span.Covers other) ∧
      ∀ token ∈ (scan source).tokens,
        token.kind.Shows token.lexeme (token.span.textOf source)) ∧
    ((scan source).diagnostics source ≠ [] ↔
      ∃ token ∈ (scan source).tokens, token.kind = .error) := by
  have row := scan_row source
  refine ⟨?_, row.ordered, fun silent => ⟨fun position c is outside => ?_, ?_⟩, ?_⟩
  · obtain ⟨tokens, split, all⟩ := row.spans
    rw [Nat.zero_add] at split all
    exact ⟨tokens, split, fun token member =>
      ⟨(all token member).1, (all token member).2.2⟩⟩
  · have inside : position < 0 + source.length := by
      rw [Nat.zero_add]
      exact (List.getElem?_eq_some_iff.1 is).1
    have sound := (diagnostics_eq_nil_iff source).1 silent
    rcases row.filled sound [] rfl (Nat.zero_le _) inside outside with
      ⟨found, here, blank⟩ | ⟨span, comment, covers, -, free⟩
    · obtain rfl : c = found := Option.some.inj (is.symm.trans here)
      exact .inl blank
    · exact .inr ⟨span, comment, covers, free⟩
  · exact row.shows ((diagnostics_eq_nil_iff source).1 silent) [] rfl
  · rw [Ne, diagnostics_eq_nil_iff, row.faults_eq_nil_iff]
    simp

end Token

end MonkeyLang
