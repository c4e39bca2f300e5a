import MonkeyLang.Bytecode.CompiledProgram
import MonkeyLang.Proofs.Bytecode.Streams
import MonkeyLang.Proofs.Number.Characters

/-!
# The lines of the constants in a listing

A listing starts with the constants of a program. Each is shown behind its number, and a line feed
follows. A constant is shown as programs print it, so a line feed in its text breaks the line. Such
texts are those of strings, and of mistakes and functions with a line feed in the message or the
name; in an array all strings are quoted, but not the other items (`Value.breaks`).

The constants have one line each, with their numbers in front, if and only if no text has a line
feed (`CompiledProgram.constantLines_iff`). A string can even feign the entry that follows it.
-/

set_option autoImplicit false

namespace MonkeyLang

/-! ## Texts on one line -/

namespace Number

theorem newline_notMem_plain (value : Float) : '\n' ∉ (plain value).toList := by
  rw [plain, String.toList_ofList, plainCharacters]
  split
  · decide
  · exact notMem_signed (by decide) _ (by decide)
  · exact notMem_signed (by decide) _ (by decide)
  · exact notMem_signed (by decide) _ (notMem_positional rfl (by decide) (notMem_significant rfl _) _)

/-- Doubles are shown on one line. -/
theorem newline_notMem_display (value : Float) : '\n' ∉ (display value).toList := by
  rw [display]
  split
  · split
    · rw [String.toList_ofList]
      refine notMem_signed (by decide) _ ?_
      simp [notMem_digitsOf (c := '\n') rfl]
    · exact newline_notMem_plain value
  · exact newline_notMem_plain value

/-- Integers are shown on one line. -/
theorem newline_notMem_integer (value : Int) : '\n' ∉ (toString value).toList := by
  rcases value with number | number
  · rw [Int.ofNat_eq_natCast, toList_toString_natural]
    exact notMem_digitsOf rfl number
  · rw [Int.negSucc_eq, ← Int.natCast_succ, toList_toString_negative]
    exact List.not_mem_cons_of_ne_of_not_mem (by decide) (notMem_digitsOf rfl _)

end Number

namespace Text

theorem newline_notMem_hexDigits (number : Nat) : '\n' ∉ hexDigits number := by
  have digit : ∀ value < 16, '\n' ≠ Nat.digitChar value := by decide
  induction number using Nat.strongRecOn with
  | ind number ih =>
      rw [hexDigits, Nat.toDigits_eq_if (by decide)]
      split
      · next less => exact List.not_mem_cons_of_ne_of_not_mem (digit number less) List.not_mem_nil
      · next more =>
          have front := ih (number / 16) (Nat.div_lt_self (by omega) (by decide))
          rw [hexDigits] at front
          have last := digit (number % 16) (Nat.mod_lt _ (by decide))
          simp [front, last]

theorem newline_notMem_escape (c : Char) : '\n' ∉ escape c := by
  unfold escape
  split
  case h_7 =>
    next feed _ _ =>
      split
      · simp [newline_notMem_hexDigits]
      · exact List.not_mem_cons_of_ne_of_not_mem (Ne.symm feed) List.not_mem_nil
  all_goals decide

/-- A quoted text stands on one line. -/
theorem newline_notMem_quote (text : String) : '\n' ∉ (quote text).toList := by
  rw [quote, String.toList_ofList]
  simp [newline_notMem_escape]

end Text

namespace Value

mutual

/-- Whether there is a line feed in what is shown of a value. -/
def breaks : Value → Bool
  | .string text => text.toList.contains '\n'
  | .array items => anyBreaks items
  | .function body => body.name.any (·.toList.contains '\n')
  | .error message => message.toList.contains '\n'
  | .returned value => value.breaks
  | _ => false

/-- Whether there is a line feed in what is shown of the items of an array. A string among them is
quoted. -/
def anyBreaks : List Value → Bool
  | [] => false
  | .string _ :: items => anyBreaks items
  | item :: items => item.breaks || anyBreaks items

end

theorem newline_mem_commaSeparated (texts : List String) :
    '\n' ∈ (commaSeparated texts).toList ↔ ∃ text ∈ texts, '\n' ∈ text.toList := by
  rw [commaSeparated, String.toList_intercalate]
  induction texts with
  | nil => simp
  | cons text texts ih =>
      cases texts with
      | nil => simp
      | cons next texts =>
          have comma : '\n' ∉ ", ".toList := by decide
          rw [List.map_cons, List.map_cons, List.intercalate_cons_cons, ← List.map_cons,
            List.mem_append, List.mem_append, ih, or_iff_left comma]
          simp only [List.exists_mem_cons_iff]

mutual

/-- There is a line feed in what is shown of a value just where there can be one. -/
theorem newline_mem_text : ∀ value : Value, '\n' ∈ value.text.toList ↔ value.breaks = true
  | .integer value => by
      rw [text, breaks, iff_false_right Bool.false_ne_true]
      · exact Number.newline_notMem_integer value.toInt
      all_goals exact nofun
  | .float value => by
      rw [text, breaks, iff_false_right Bool.false_ne_true]
      · exact Number.newline_notMem_display value
      all_goals exact nofun
  | .string value => by
      simp [text, breaks]
  | .boolean value => by
      cases value <;> simp [text, breaks]
  | .null => by
      simp [text, breaks]
  | .array items => by
      have inside := (newline_mem_commaSeparated (itemTexts items)).trans
        (newline_mem_itemTexts items)
      simpa [text, breaks] using inside
  | .function body => by
      rw [text, breaks, Function.text]
      cases body.name <;> simp [toString]
  | .builtin callee => by
      cases callee <;> simp [text, breaks, toString, Builtin.name]
  | .error message => by
      simp [text, breaks, toString]
  | .returned value => by
      rw [text, breaks]
      exact newline_mem_text value

theorem newline_mem_itemTexts : ∀ items : List Value,
    (∃ text ∈ itemTexts items, '\n' ∈ text.toList) ↔ anyBreaks items = true
  | [] => by
      simp [itemTexts, anyBreaks]
  | item :: items => by
      have rest := newline_mem_itemTexts items
      cases item with
      | string value =>
          rw [itemTexts, anyBreaks, List.exists_mem_cons_iff, rest,
            or_iff_right (Text.newline_notMem_quote value)]
      | _ =>
          rw [itemTexts, anyBreaks, List.exists_mem_cons_iff, rest, newline_mem_text,
            Bool.or_eq_true]
          all_goals exact nofun

end

end Value

/-! ## Listings -/

/-- No part between two separators has one in it. -/
theorem notMem_of_mem_splitOn {c : Char} {text part : List Char} (member : part ∈ text.splitOn c) :
    c ∉ part := by
  induction text generalizing part with
  | nil =>
      rw [List.splitOn_nil, List.mem_singleton] at member
      exact member ▸ List.not_mem_nil
  | cons d text ih =>
      rw [List.splitOn_cons_eq_if_modifyHead] at member
      split at member
      · rcases List.mem_cons.mp member with rfl | later
        · exact List.not_mem_nil
        · exact ih later
      · next other =>
          obtain ⟨first, parts, split⟩ := List.exists_cons_of_ne_nil (List.splitOn_ne_nil c text)
          rw [split] at member ih
          rcases List.mem_cons.mp member with rfl | later
          · refine List.not_mem_cons_of_ne_of_not_mem ?_ (ih List.mem_cons_self)
            rintro rfl
            exact other (beq_self_eq_true _)
          · exact ih (List.mem_cons_of_mem _ later)

namespace CompiledProgram

open Code (fourDigits)

/-- The lines of the constants in a listing: those behind the heading, up to the first blank
line. -/
def constantLines (program : CompiledProgram) : List (List Char) :=
  ((program.listing.toList.splitOn '\n').drop 1).takeWhile fun line => !line.isEmpty

/-- A line shows a constant: its number is in front, in at least four digits and so that it can be
read, and the text of the constant behind a colon, and nothing else. -/
structure Shows (line : List Char) (index : Nat) (constant : Value) : Prop where
  number : Number.readDigits? (line.takeWhile Char.isDigit) = some index
  whole : line = (fourDigits index).toList ++ ':' :: ' ' :: constant.text.toList

/-- The line of a constant, without the line feed. -/
def entry (constant : Value × Nat) : String := s!"{fourDigits constant.2}: {constant.1.text}"

theorem toList_entry (constant : Value × Nat) :
    (entry constant).toList =
      (fourDigits constant.2).toList ++ ':' :: ' ' :: constant.1.text.toList := by
  simp [entry, toString]

theorem shows_entry (constant : Value) (index : Nat) :
    Shows (entry (constant, index)).toList index constant := by
  have digits : ∀ c ∈ (fourDigits index).toList, c.isDigit = true := by
    intro c member
    by_contra other
    exact Code.notMem_fourDigits (Bool.not_eq_true _ ▸ other) index member
  refine ⟨?_, toList_entry _⟩
  rw [toList_entry, List.takeWhile_append_of_pos digits,
    List.takeWhile_cons_of_neg (by decide), List.append_nil, Code.readDigits?_fourDigits]

/-- The section of a function starts with a blank line; other constants have none. -/
theorem functionSection_starts (index : Nat) (constant : Value) :
    (functionSection index constant).toList = [] ∨
      ∃ rest, (functionSection index constant).toList = '\n' :: rest := by
  cases constant with
  | function body =>
      have heading : "\n=== Function ".toList = '\n' :: "=== Function ".toList := by decide
      have front : ∃ rest, functionSection index (.function body) = "\n=== Function " ++ rest := by
        unfold functionSection
        simp only [String.append_assoc]
        exact ⟨_, rfl⟩
      obtain ⟨rest, front⟩ := front
      rw [front, String.toList_append, heading]
      exact .inr ⟨_, rfl⟩
  | _ => exact .inl rfl

/-- Behind the constants stands a blank line. -/
theorem exists_behind (constants : List (Value × Nat)) (behind : List Char) :
    ∃ rest, (String.join (constants.map fun (constant, index) =>
      functionSection index constant)).toList ++ '\n' :: behind = '\n' :: rest := by
  induction constants with
  | nil => exact ⟨_, rfl⟩
  | cons constant constants ih =>
      obtain ⟨rest, later⟩ := ih
      obtain ⟨value, index⟩ := constant
      rw [List.map_cons, String.toList_join, List.flatMap_cons, ← String.toList_join,
        List.append_assoc, later]
      rcases functionSection_starts index value with none | ⟨first, starts⟩
      · exact ⟨rest, by rw [none, List.nil_append]⟩
      · exact ⟨first ++ '\n' :: rest, by rw [starts, List.cons_append]⟩

/-- A listing has the constants between its heading and a blank line. -/
theorem exists_listing (program : CompiledProgram) : ∃ rest, program.listing.toList =
    "=== Constants ===".toList ++ '\n' ::
      (((program.constants.toList.zipIdx.map entry).map (· ++ "\n")).flatMap String.toList ++
        '\n' :: rest) := by
  obtain ⟨rest, behind⟩ := exists_behind program.constants.toList.zipIdx
    ("=== Instructions ===\n".toList ++ program.code.listing.toList)
  have first : "=== Constants ===\n".toList = "=== Constants ===".toList ++ ['\n'] := by decide
  have last : "\n=== Instructions ===\n".toList = '\n' :: "=== Instructions ===\n".toList := by
    decide
  have lines : (program.constants.toList.zipIdx.map fun (constant, index) =>
      constantLine index constant) =
        (program.constants.toList.zipIdx.map entry).map (· ++ "\n") := by
    rw [List.map_map]
    rfl
  refine ⟨rest, ?_⟩
  rw [← behind]
  unfold listing
  dsimp only
  rw [lines, String.toList_append, String.toList_append, String.toList_append,
    String.toList_append, first, last, String.toList_join, List.append_assoc, List.append_assoc,
    List.append_assoc, List.append_assoc]
  rfl

theorem mem_zipIdx_iff {program : CompiledProgram} {constant : Value} {index : Nat} :
    (constant, index) ∈ program.constants.toList.zipIdx ↔
      program.constants[index]? = some constant := by
  rw [List.mem_zipIdx_iff_getElem?, Array.getElem?_toList]

/-- The lines of the constants are the lines of their entries up to a blank one. -/
theorem constantLines_of_entries {program : CompiledProgram} {lines : List String}
    (whole : ∀ line ∈ lines, '\n' ∉ line.toList) (filled : ∀ line ∈ lines, line.toList ≠ [])
    (entries : ((program.constants.toList.zipIdx.map entry).map (· ++ "\n")).flatMap String.toList =
      (lines.map (· ++ "\n")).flatMap String.toList) :
    program.constantLines = lines.map String.toList := by
  have some : ∀ line ∈ lines.map String.toList, (!line.isEmpty) = true := by
    intro line member
    obtain ⟨text, among, rfl⟩ := List.mem_map.mp member
    simpa using filled text among
  obtain ⟨rest, shape⟩ := exists_listing program
  have blank : ('\n' :: rest).splitOn '\n' = [] :: rest.splitOn '\n' :=
    List.splitOn_append_cons_self_of_not_mem List.not_mem_nil rest
  rw [constantLines, shape, entries, List.splitOn_append_cons_self_of_not_mem (by decide),
    List.drop_one, List.tail_cons, Code.splitOn_lines_append whole, blank,
    List.takeWhile_append_of_pos some, List.takeWhile_cons_of_neg (by decide), List.append_nil]

/-- If no text of a constant has a line feed, the lines of the constants are their entries. -/
theorem constantLines_eq {program : CompiledProgram}
    (single : ∀ constant ∈ program.constants, constant.breaks = false) :
    program.constantLines = (program.constants.toList.zipIdx.map entry).map String.toList := by
  refine constantLines_of_entries (fun line member => ?_) (fun line member => ?_) rfl
  · obtain ⟨⟨constant, index⟩, among, rfl⟩ := List.mem_map.mp member
    have inside := Array.mem_of_getElem? (mem_zipIdx_iff.mp among)
    have plain : '\n' ∉ constant.text.toList := by
      rw [Value.newline_mem_text, single constant inside]
      exact Bool.false_ne_true
    simp [toList_entry, Code.notMem_fourDigits, plain]
  · obtain ⟨constant, -, rfl⟩ := List.mem_map.mp member
    simp [toList_entry]

/-- **The constants have one line each**, line by line in the order of their numbers, if and only
if no text of a constant has a line feed. -/
theorem constantLines_iff (program : CompiledProgram) :
    (∀ constant ∈ program.constants, constant.breaks = false) ↔
      program.constantLines.length = program.constants.size ∧
        ∀ index constant, program.constants[index]? = some constant →
          ∃ line, program.constantLines[index]? = some line ∧ Shows line index constant := by
  constructor
  · intro single
    rw [constantLines_eq single]
    refine ⟨by simp, fun index constant found => ⟨_, ?_, shows_entry constant index⟩⟩
    rw [List.getElem?_map, List.getElem?_map, List.getElem?_zipIdx, Array.getElem?_toList, found]
    simp
  · rintro ⟨-, shown⟩ constant member
    obtain ⟨index, found⟩ := Array.getElem?_of_mem member
    obtain ⟨line, there, shows⟩ := shown index constant found
    have among := List.takeWhile_subset _ (List.mem_of_getElem? there)
    have single : '\n' ∉ line := notMem_of_mem_splitOn (List.mem_of_mem_drop among)
    rw [shows.whole, List.mem_append, not_or, List.mem_cons, not_or, List.mem_cons, not_or,
      Value.newline_mem_text] at single
    exact Bool.eq_false_iff.mpr single.2.2.2

/-- The string `a`, a line feed and `0001: 7` is one constant, but it is shown on two lines, with
the numbers of two constants. -/
theorem not_constantLines_numbered : ¬ ∀ program : CompiledProgram,
    program.constantLines.length = program.constants.size ∧
      ∀ index line, program.constantLines[index]? = some line →
        (fourDigits index).toList <+: line := by
  intro numbered
  have lines : constantLines ⟨#[0x01, 0, 0, 0x80], #[.string "a\n0001: 7"]⟩ =
      ["0000: a", "0001: 7"].map String.toList :=
    constantLines_of_entries (by decide) (by decide) (by decide)
  have count := (numbered ⟨#[0x01, 0, 0, 0x80], #[.string "a\n0001: 7"]⟩).1
  rw [lines] at count
  cases count

end CompiledProgram

end MonkeyLang
