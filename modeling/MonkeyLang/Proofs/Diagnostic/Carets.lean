import MonkeyLang.Diagnostic.Report
import MonkeyLang.Proofs.Number.Digits
import MonkeyLang.Proofs.Text.Lines

/-!
# Carets under the code

A full report shows the line of the source behind a gutter with the number of the line, and below
it the carets behind a gutter of their own. The first gutter makes room for two digits and grows
with more of them, the second one is always five characters wide. So the carets stand under the
characters that they mark just in the first ninety-nine lines of a text; further down, they stand
as many characters too far to the left as the number has digits more than two
(`Diagnostic.underlines_locate`).
-/

set_option autoImplicit false

namespace MonkeyLang

namespace Diagnostic

/-- What the constructors make, and the methods that add to it. -/
inductive Built : Diagnostic → Prop where
  | make (level : Level) (code message : String) (span : Span) :
      Built (Diagnostic.make level code message span)
  | inFile {diagnostic : Diagnostic} (built : Built diagnostic) (file : String) :
      Built (diagnostic.inFile file)
  | onLine {diagnostic : Diagnostic} (built : Built diagnostic) (line : Nat) :
      Built (diagnostic.onLine line)
  | showing {diagnostic : Diagnostic} (built : Built diagnostic) (snippet : String) :
      Built (diagnostic.showing snippet)
  | labelled {diagnostic : Diagnostic} (built : Built diagnostic) (label : String) :
      Built (diagnostic.labelled label)
  | noting {diagnostic : Diagnostic} (built : Built diagnostic) (note : String) :
      Built (diagnostic.noting note)
  | helped {diagnostic : Diagnostic} (built : Built diagnostic) (help : String) :
      Built (diagnostic.helped help)
  | locate {diagnostic : Diagnostic} (built : Built diagnostic) (source : List Char) :
      Built (diagnostic.locate source)

/-- A finding is about as many characters as its span covers. -/
theorem Built.length {diagnostic : Diagnostic} (built : diagnostic.Built) :
    diagnostic.length = diagnostic.span.length := by
  induction built with
  | make => rfl
  | inFile _ _ ih | onLine _ _ ih | showing _ _ ih | labelled _ _ ih | noting _ _ ih
  | helped _ _ ih | locate _ _ ih => exact ih

/-! ## The two lines of a report -/

/-- The full report up to the line of the source. -/
def preface (diagnostic : Diagnostic) : String :=
  let place := s!"  --> {diagnostic.file}:{diagnostic.line}:{diagnostic.column}\n"
  diagnostic.headline ++ "\n" ++ place ++ "   |\n"

/-- What stands behind the carets. -/
def remark (diagnostic : Diagnostic) : String :=
  if diagnostic.label.isEmpty then "" else " " ++ diagnostic.label

/-- The full report below the carets. -/
def postscript (diagnostic : Diagnostic) : String :=
  let notes := diagnostic.notes.map fun note => s!"   = note: {note}\n"
  String.join notes ++ diagnostic.help.elim "" fun help => s!"   = help: {help}\n"

/-- In the full report, this gutter stands in front of the line of the source, and these marks stand
in the line below it. -/
structure Shows (diagnostic : Diagnostic) (gutter marks : List Char) : Prop where
  report : diagnostic.report.toList = diagnostic.preface.toList ++
    (gutter ++ diagnostic.snippet.toList ++ '\n' ::
      (marks ++ diagnostic.remark.toList ++ '\n' :: diagnostic.postscript.toList))
  gutter_single : '\n' ∉ gutter
  marks_single : '\n' ∉ marks

/-- In the full report, the carets stand under the given characters of the line, and nowhere
else. -/
def Underlines (diagnostic : Diagnostic) (first size : Nat) : Prop :=
  ∃ gutter marks, diagnostic.Shows gutter marks ∧ ∀ position, marks[position]? = some '^' ↔
    gutter.length + first ≤ position ∧ position < gutter.length + first + size

/-- What is shown of a line determines its gutter and the marks below it. -/
theorem Shows.unique {diagnostic : Diagnostic} (single : '\n' ∉ diagnostic.snippet.toList)
    {gutter marks edge signs : List Char} (shows : diagnostic.Shows gutter marks)
    (also : diagnostic.Shows edge signs) : gutter = edge ∧ marks = signs := by
  have same := List.append_cancel_left (shows.report.symm.trans also.report)
  have lines := congrArg (List.takeWhile (· != '\n')) same
  rw [Text.takeWhile_append_newline (by simp [shows.gutter_single, single]) (by simp),
    Text.takeWhile_append_newline (by simp [also.gutter_single, single]) (by simp)] at lines
  obtain rfl := List.append_cancel_right lines
  have lower := List.cons.inj (List.append_cancel_left same)
  exact ⟨rfl, List.append_cancel_right (List.append_cancel_right lower.2)⟩

theorem getElem?_append_replicate {mark : Char} {front : List Char} (other : mark ∉ front)
    (count position : Nat) : (front ++ List.replicate count mark)[position]? = some mark ↔
      front.length ≤ position ∧ position < front.length + count := by
  by_cases early : position < front.length
  · rw [List.getElem?_append_left early]
    have member := List.mem_of_getElem? (l := front) (i := position) (a := mark)
    exact ⟨fun found => absurd (member found) other, fun inside => absurd early (by omega)⟩
  · rw [List.getElem?_append_right (by omega), List.getElem?_replicate]
    have within : position - front.length < count ↔ position < front.length + count := by omega
    simp [within]
    omega

/-- A number has at most two digits below one hundred. -/
theorem length_toString_le_two (number : Nat) : (toString number).length ≤ 2 ↔ number < 100 := by
  rw [Nat.toString_eq_ofList_toDigits, String.length_ofList]
  by_cases one : number < 10
  · simp [Nat.toDigits_of_lt_base one]
    omega
  · rw [Nat.toDigits_of_base_le (by decide) (by omega)]
    by_cases two : number / 10 < 10
    · simp [Nat.toDigits_of_lt_base two]
      omega
    · rw [Nat.toDigits_of_base_le (by decide) (by omega)]
      have some := List.length_pos_iff.mpr (Nat.toDigits_ne_nil (n := number / 10 / 10) (b := 10))
      simp
      omega

section

variable (diagnostic : Diagnostic)

/-- The gutter in front of the line of the source. -/
def gutter : List Char := (padded 2 diagnostic.line ++ " | ").toList

/-- The gutter of the line with the carets, and the carets. -/
def marks : List Char :=
  "   | ".toList ++ List.replicate (diagnostic.column - 1) ' ' ++
    List.replicate diagnostic.length '^'

theorem length_gutter :
    diagnostic.gutter.length = max 2 (toString diagnostic.line).length + 3 := by
  have bar : " | ".length = 3 := rfl
  simp only [gutter, padded, String.toList_append, String.toList_ofList, List.length_append,
    List.length_replicate, String.length_toList, bar]
  omega

theorem shows_gutter (shown : diagnostic.snippet ≠ "") (some : 0 < diagnostic.length) :
    diagnostic.Shows diagnostic.gutter diagnostic.marks where
  report := by
    have empty : diagnostic.snippet.isEmpty = false := by simpa using shown
    have report : diagnostic.report = diagnostic.preface ++ (padded 2 diagnostic.line ++ " | " ++
        diagnostic.snippet ++ "\n" ++ ("   | " ++
          String.ofList (List.replicate (diagnostic.column - 1) ' ') ++
          String.ofList (List.replicate diagnostic.length '^') ++ diagnostic.remark ++ "\n" ++
            diagnostic.postscript)) := by
      rw [Diagnostic.report, excerpt, empty, if_pos some, caretLine]
      cases help : diagnostic.help <;>
        simp only [preface, remark, postscript, String.append_assoc, toString, Bool.false_eq_true,
          if_false, help, Option.elim]
    rw [report]
    have feed : "\n".toList = ['\n'] := rfl
    simp only [String.toList_append, List.append_assoc, gutter, marks, String.toList_ofList, feed,
      List.cons_append, List.nil_append]
  gutter_single := by
    intro member
    have digit : '\n' ∈ Nat.toDigits 10 diagnostic.line := by simpa [gutter, padded] using member
    cases Number.isDigit_of_mem_digitsOf digit
  marks_single := by simp [marks]

theorem getElem?_marks (position : Nat) : diagnostic.marks[position]? = some '^' ↔
    5 + (diagnostic.column - 1) ≤ position ∧
      position < 5 + (diagnostic.column - 1) + diagnostic.length := by
  have other : '^' ∉ "   | ".toList ++ List.replicate (diagnostic.column - 1) ' ' := by simp
  have size : ("   | ".toList ++ List.replicate (diagnostic.column - 1) ' ').length =
      5 + (diagnostic.column - 1) := by
    rw [List.length_append, List.length_replicate]
    rfl
  rw [marks, getElem?_append_replicate other, size]

variable {diagnostic}

/-- The carets of a report are in their place just in the lines whose number has at most two
digits. -/
theorem underlines_iff (shown : diagnostic.snippet ≠ "") (single : '\n' ∉ diagnostic.snippet.toList)
    (some : 0 < diagnostic.length) :
    diagnostic.Underlines (diagnostic.column - 1) diagnostic.length ↔ diagnostic.line < 100 := by
  have shows := diagnostic.shows_gutter shown some
  have width := diagnostic.length_gutter
  rw [← length_toString_le_two]
  constructor
  · rintro ⟨gutter, marks, also, placed⟩
    obtain ⟨same, signs⟩ := also.unique single shows
    have first := (diagnostic.getElem?_marks (5 + (diagnostic.column - 1))).mpr (by omega)
    rw [← signs] at first
    have behind := (placed _).mp first
    rw [same, width] at behind
    omega
  · intro few
    refine ⟨_, _, shows, fun position => ?_⟩
    rw [getElem?_marks, width, Nat.max_eq_left few]

end

end Diagnostic

section

variable {before line after : List Char}

/-- A finding with a span in a line is shown with this line, and its carets start at the column of
the span, counted from the fifth character; the line is indented by the digits of its number, but
at least two, and three more characters. So the carets are under the span in the first ninety-nine
lines only. -/
theorem Diagnostic.underlines_locate (is : Text.IsLine before line after) {diagnostic : Diagnostic}
    (built : diagnostic.Built) (nonempty : diagnostic.span.start < diagnostic.span.stop)
    (behind : before.length ≤ diagnostic.span.start)
    (inside : diagnostic.span.stop ≤ before.length + line.length) :
    let located := diagnostic.locate (before ++ (line ++ after))
    let first := diagnostic.span.start - before.length
    let size := diagnostic.span.length
    (located.snippet.toList.drop first).take size =
        diagnostic.span.textOf (before ++ (line ++ after)) ∧
      (∃ gutter marks, located.Shows gutter marks ∧
        gutter.length = max 2 (toString located.line).length + 3 ∧
        ∀ position, marks[position]? = some '^' ↔
          5 + first ≤ position ∧ position < 5 + first + size) ∧
      (located.Underlines first size ↔ located.line < 100) := by
  intro located first size
  have place := locate_of_isLine is diagnostic behind (by omega)
  have snippet : located.snippet = String.ofList line := congrArg Diagnostic.snippet place
  have column : located.column - 1 = first := by
    rw [show located.column = _ from congrArg Diagnostic.column place]
    exact Nat.add_sub_cancel _ _
  have length : located.length = size := built.length
  have shown : located.snippet ≠ "" := by
    intro empty
    have none : line = [] := String.ofList_injective (snippet.symm.trans empty)
    rw [none, List.length_nil] at inside
    omega
  have single : '\n' ∉ located.snippet.toList := by
    rw [snippet, String.toList_ofList]
    exact is.single
  have some : 0 < located.length := by
    rw [length]
    exact Nat.sub_pos_of_lt nonempty
  refine ⟨?_, ⟨located.gutter, located.marks, located.shows_gutter shown some,
    located.length_gutter, fun position => ?_⟩, ?_⟩
  · rw [snippet, String.toList_ofList]
    exact (Span.textOf_line behind (by omega) inside).symm
  · rw [← column, ← length]
    exact located.getElem?_marks position
  · rw [← column, ← length]
    exact underlines_iff shown single some

end

/-- An undefined name at the end of the second line of a text. -/
def Diagnostic.ofSecondLine : Diagnostic :=
  .error Diagnostic.Code.undefinedName "undefined variable c" ⟨19, 20⟩

/-- The second line of a text is shown with the caret under the name at its end. -/
theorem Diagnostic.underlines_locate_secondLine :
    let before := "var a = 1;\n".toList
    let line := "var b = c;".toList
    let located := ofSecondLine.locate (before ++ (line ++ []))
    Text.IsLine before line [] ∧ ofSecondLine.Built ∧
      ((located.snippet.toList.drop 8).take 1 = ofSecondLine.span.textOf (before ++ (line ++ [])) ∧
        (∃ gutter marks, located.Shows gutter marks ∧
          gutter.length = max 2 (toString located.line).length + 3 ∧
          ∀ position, marks[position]? = some '^' ↔ 5 + 8 ≤ position ∧ position < 5 + 8 + 1) ∧
        (located.Underlines 8 1 ↔ located.line < 100)) := by
  have is : Text.IsLine "var a = 1;\n".toList "var b = c;".toList [] :=
    ⟨by simp, by decide, .inl rfl⟩
  have built : ofSecondLine.Built := .make _ _ _ _
  exact ⟨is, built, Diagnostic.underlines_locate is built (by decide) (by decide) (by decide)⟩

/-- An undefined name in the one hundredth line of a text. -/
def Diagnostic.ofHundredthLine : Diagnostic :=
  (Diagnostic.error Diagnostic.Code.undefinedName "undefined variable x" ⟨99, 100⟩).labelled
    "compile error"

/-- The carets of a finding with a span in one line need not be under the span. -/
theorem Diagnostic.not_underlines_hundredthLine : ¬ ∀ (before line after : List Char)
    (diagnostic : Diagnostic), Text.IsLine before line after → diagnostic.Built →
    diagnostic.span.start < diagnostic.span.stop → before.length ≤ diagnostic.span.start →
    diagnostic.span.stop ≤ before.length + line.length →
      (diagnostic.locate (before ++ (line ++ after))).Underlines
        (diagnostic.span.start - before.length) diagnostic.span.length := by
  intro underlines
  have size : (List.replicate 99 '\n').length = 99 := List.length_replicate
  have count : (List.replicate 99 '\n').count '\n' = 99 := List.count_replicate_self
  have is : Text.IsLine (List.replicate 99 '\n') ['x'] [] := ⟨by simp, by decide, .inl rfl⟩
  have under := underlines _ _ _ ofHundredthLine is (.labelled (.make _ _ _ _) _) (by decide)
    (Nat.le_of_eq size) (by rw [size]; decide)
  rw [locate_of_isLine is ofHundredthLine (Nat.le_of_eq size) (by rw [size]; decide), size,
    count] at under
  have early := (underlines_iff (by decide) (by decide) (by decide)).mp under
  exact absurd early (by decide)

end MonkeyLang
