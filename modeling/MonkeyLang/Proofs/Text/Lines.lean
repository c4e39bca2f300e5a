import MonkeyLang.Diagnostic.Basic
import MonkeyLang.Proofs.Token.Tiling

/-!
# The lines of a text

A line is a part of a text: in front of it the text begins or there is a line feed, and behind it
the text is at its end or there is a line feed, or a carriage return with one (`Text.IsLine`). Lines
are counted by the line feeds in front of them, and cut off up to the next line feed; both ways lead
to the same line (`Text.IsLine.lineAt`). A finding whose span lies in a line is located in that line
(`Diagnostic.locate_of_isLine`), where it shows the characters of the span (`Span.textOf_line`).
-/

set_option autoImplicit false

namespace MonkeyLang

namespace Text

/-- Between what is in front of it and what is behind it, this part of a text is a line. -/
structure IsLine (before line after : List Char) : Prop where
  starts : ∀ c ∈ before.getLast?, c = '\n'
  single : '\n' ∉ line
  ends : after = [] ∨ (∃ rest, after = '\n' :: rest ∧ line.getLast? ≠ some '\r') ∨
    ∃ rest, after = '\r' :: '\n' :: rest

theorem takeWhile_append_newline {line after : List Char} (single : '\n' ∉ line)
    (stops : ∀ c ∈ after.head?, c = '\n') :
    (line ++ after).takeWhile (· != '\n') = line := by
  have goes : ∀ c ∈ line, (c != '\n') = true := fun c member =>
    bne_iff_ne.mpr (ne_of_mem_of_not_mem member single)
  rw [List.takeWhile_append_of_pos goes]
  cases after with
  | nil => exact List.append_nil line
  | cons c rest =>
      obtain rfl := stops c rfl
      exact List.append_nil line

/-- What is left of a text behind its first line feeds, which end in front of a line. -/
theorem dropLines_append {before : List Char} (starts : ∀ c ∈ before.getLast?, c = '\n')
    (text : List Char) : dropLines (before.count '\n') (before ++ text) = text := by
  induction before with
  | nil => rfl
  | cons c before ih =>
      cases before with
      | nil =>
          obtain rfl := starts c rfl
          rfl
      | cons d before =>
          have rest := ih fun e last => starts e (by rwa [List.getLast?_cons_cons])
          by_cases feed : c = '\n'
          · subst feed
            rw [List.count_cons_self]
            exact rest
          · have some : 0 < (d :: before).count '\n' := by
              rw [List.count_pos_iff]
              exact List.mem_of_getLast? (by
                obtain ⟨e, last⟩ := List.getLast?_isSome.mpr (List.cons_ne_nil d before) |>
                  Option.isSome_iff_exists.mp
                exact last.trans (congrArg _ (starts e (by rwa [List.getLast?_cons_cons]))))
            rw [List.count_cons_of_ne feed]
            obtain ⟨count, more⟩ := Nat.exists_eq_add_of_lt some
            rw [more] at rest ⊢
            have skips : (c :: (d :: before ++ text)).dropWhile (· != '\n') =
                (d :: before ++ text).dropWhile (· != '\n') :=
              List.dropWhile_cons_of_pos (bne_iff_ne.mpr feed)
            rw [List.cons_append, dropLines, skips]
            exact rest

namespace IsLine

variable {before line after : List Char} (is : IsLine before line after)

include is

theorem firstLine : firstLine (line ++ after) = line := by
  rw [Text.firstLine]
  rcases is.ends with rfl | ⟨rest, rfl, other⟩ | ⟨rest, rfl⟩
  · rw [takeWhile_append_newline is.single (by simp), List.append_nil]
    simp
  · rw [takeWhile_append_newline is.single (by simp)]
    simp [other]
  · have single : '\n' ∉ line ++ ['\r'] := by simp [is.single]
    have shape : line ++ '\r' :: '\n' :: rest = (line ++ ['\r']) ++ '\n' :: rest := by simp
    rw [shape, takeWhile_append_newline single (by simp)]
    simp

/-- The line behind as many line feeds as there are in front of it. -/
theorem lineAt : Text.lineAt (before.count '\n') (before ++ (line ++ after)) = line := by
  rw [Text.lineAt, dropLines_append is.starts, is.firstLine]

/-- No part of the line holds a line feed. -/
theorem count_take (size : Nat) : (line.take size).count '\n' = 0 :=
  List.count_eq_zero.mpr fun member => is.single (List.mem_of_mem_take member)

theorem lastLineLength (size : Nat) (inside : size ≤ line.length) :
    Diagnostic.lastLineLength (before ++ line.take size) = size := by
  have single : '\n' ∉ (line.take size).reverse := fun member =>
    is.single (List.mem_of_mem_take (List.mem_reverse.mp member))
  rw [Diagnostic.lastLineLength, List.reverse_append, takeWhile_append_newline single (by
    rw [List.head?_reverse]
    exact is.starts), List.length_reverse, List.length_take_of_le inside]

end IsLine

/-- A text up to its first line feed, if there is one. -/
theorem exists_head (text : List Char) : ∃ head rest, text = head ++ rest ∧ '\n' ∉ head ∧
    ∀ c ∈ rest.head?, c = '\n' := by
  induction text with
  | nil => exact ⟨[], [], rfl, List.not_mem_nil, by simp⟩
  | cons c text ih =>
      by_cases feed : c = '\n'
      · exact ⟨[], c :: text, rfl, List.not_mem_nil, by simp [feed]⟩
      · obtain ⟨head, rest, rfl, single, stops⟩ := ih
        exact ⟨c :: head, rest, rfl, by simp [single, Ne.symm feed], stops⟩

/-- A part of a text without line breaks is a part of a line. -/
theorem exists_isLine {middle : List Char} (some : middle ≠ []) (feed : '\n' ∉ middle)
    (returns : '\r' ∉ middle) (left right : List Char) : ∃ before front back after,
      left = before ++ front ∧ right = back ++ after ∧
        IsLine before (front ++ (middle ++ back)) after := by
  obtain ⟨front, before, reversed, first, starts⟩ := exists_head left.reverse
  obtain ⟨back, after, rfl, last, stops⟩ := exists_head right
  have split : left = before.reverse ++ front.reverse := by
    rw [← List.reverse_append, ← reversed, List.reverse_reverse]
  have begins : ∀ c ∈ before.reverse.getLast?, c = '\n' := by
    rwa [List.getLast?_reverse]
  have single : '\n' ∉ front.reverse ++ (middle ++ back) := by simp [first, feed, last]
  cases after with
  | nil => exact ⟨_, _, back, [], split, rfl, begins, single, .inl rfl⟩
  | cons c rest =>
      obtain rfl := stops c rfl
      by_cases carriage : back.getLast? = Option.some '\r'
      · obtain ⟨kept, rfl⟩ := List.getLast?_eq_some_iff.mp carriage
        refine ⟨_, _, kept, '\r' :: '\n' :: rest, split, by simp, begins, ?_, .inr (.inr ⟨rest, rfl⟩)⟩
        simp only [List.mem_append, not_or] at single ⊢
        exact ⟨single.1, single.2.1, single.2.2.1⟩
      · refine ⟨_, _, back, '\n' :: rest, split, rfl, begins, single, .inr (.inl ⟨rest, rfl, ?_⟩)⟩
        -- The last character of the line is the last one behind the middle, or in it.
        intro ends
        rw [List.getLast?_append, List.getLast?_append] at ends
        cases tail : back.getLast? with
        | some d =>
            rw [tail] at ends carriage
            exact carriage ends
        | none =>
            cases own : middle.getLast? with
            | none => exact some (List.getLast?_eq_none_iff.mp own)
            | some e =>
                rw [tail, own] at ends
                exact returns (List.mem_of_getLast? (own.trans ends))

end Text

section

variable {before line after : List Char}

/-- A span in a line covers characters of the line. -/
theorem Span.textOf_line {span : Span} (behind : before.length ≤ span.start)
    (ordered : span.start ≤ span.stop) (inside : span.stop ≤ before.length + line.length) :
    span.textOf (before ++ (line ++ after)) =
      (line.drop (span.start - before.length)).take span.length := by
  have start : span.start - before.length ≤ line.length := by omega
  have size : span.length ≤ (line.drop (span.start - before.length)).length := by
    rw [List.length_drop, Span.length]
    omega
  rw [Span.textOf, List.drop_append, List.drop_of_length_le behind, List.nil_append,
    List.drop_append_of_le_length start, List.take_append_of_le_length size]

/-- A finding that starts in a line is located in that line. -/
theorem Diagnostic.locate_of_isLine (is : Text.IsLine before line after) (diagnostic : Diagnostic)
    (behind : before.length ≤ diagnostic.span.start)
    (inside : diagnostic.span.start ≤ before.length + line.length) :
    diagnostic.locate (before ++ (line ++ after)) = { diagnostic with
      line := before.count '\n' + 1
      column := diagnostic.span.start - before.length + 1
      snippet := String.ofList line } := by
  obtain ⟨size, starts⟩ := Nat.exists_eq_add_of_le behind
  have front : (before ++ (line ++ after)).take diagnostic.span.start = before ++ line.take size := by
    rw [starts, List.take_append, List.take_of_length_le (Nat.le_add_right _ _),
      Nat.add_sub_cancel_left, List.take_append_of_le_length (by omega)]
  have length : (before ++ line.take size).length = diagnostic.span.start := by
    rw [List.length_append, List.length_take_of_le (by omega), starts]
  have count : (before ++ line.take size).count '\n' = before.count '\n' := by
    rw [List.count_append, is.count_take, Nat.add_zero]
  rw [Diagnostic.locate]
  rw [front, count, is.lineAt, length, is.lastLineLength size (by omega)]
  have column : diagnostic.span.start - (diagnostic.span.start - size) =
      diagnostic.span.start - before.length := by omega
  rw [column]

end

/-- Where the characters of a span have no line break between them, they are the ones that a
finding marks in the line that it shows. -/
theorem Diagnostic.locate_shows (source : List Char) (diagnostic : Diagnostic)
    (nonempty : diagnostic.span.start < diagnostic.span.stop)
    (inside : diagnostic.span.stop ≤ source.length)
    (feed : '\n' ∉ diagnostic.span.textOf source) (returns : '\r' ∉ diagnostic.span.textOf source) :
    ((diagnostic.locate source).snippet.toList.drop ((diagnostic.locate source).column - 1)).take
      diagnostic.span.length = diagnostic.span.textOf source := by
  have size : (diagnostic.span.textOf source).length = diagnostic.span.length := by
    rw [Span.textOf, List.length_take, List.length_drop, Span.length]
    omega
  have some : diagnostic.span.textOf source ≠ [] := by
    rw [← List.length_pos_iff, size, Span.length]
    omega
  obtain ⟨before, front, back, after, left, right, is⟩ := Text.exists_isLine some feed returns
    (source.take diagnostic.span.start)
    ((source.drop diagnostic.span.start).drop diagnostic.span.length)
  have whole : before ++ (front ++ (diagnostic.span.textOf source ++ back) ++ after) = source := by
    rw [List.append_assoc, List.append_assoc, ← right, Span.textOf, List.take_append_drop,
      ← List.append_assoc, ← left, List.take_append_drop]
  have starts : diagnostic.span.start = before.length + front.length := by
    have lengths := congrArg List.length left
    rw [List.length_append, List.length_take] at lengths
    omega
  have located := locate_of_isLine is diagnostic (by omega) (by
    rw [starts, List.length_append]
    omega)
  rw [whole] at located
  rw [located, String.toList_ofList, Nat.add_sub_cancel, starts, Nat.add_sub_cancel_left,
    List.drop_left, List.take_append_of_le_length (Nat.le_of_eq size.symm),
    List.take_of_length_le (Nat.le_of_eq size)]

end MonkeyLang
