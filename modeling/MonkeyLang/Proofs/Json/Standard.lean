import MonkeyLang.Program.Exchange
import MonkeyLang.Proofs.Json.Nulls
import MonkeyLang.Proofs.Json.Rereading
import MonkeyLang.Proofs.Number.Characters

/-!
# The library that runs is lawful

The text of a value does not tell it from the value in which the doubles that are not finite are
null: both have the same indented form (`Json.indentedCharacters_asWritten`). That form is read
back (`Json.value_indented`), so the library that runs is lawful (`Json.Library.standard_lawful`).
-/

set_option autoImplicit false

namespace MonkeyLang.Json

/-! ## What is left behind a number -/

section

variable {text left : List Char} {negative : Bool} {digits : Nat} {shift : Int} {value : Json}

theorem eq_of_map_pair {result : Except Fault Float}
    (read : (result.map fun number => (Json.real number, text)) = .ok (value, left)) :
    left = text := by
  cases result with
  | error fault => cases read
  | ok number =>
    cases read
    rfl

theorem splitSign_suffix (text : List Char) : (Number.splitSign text).2 <:+ text := by
  rw [Number.splitSign.eq_def]
  split
  · exact List.suffix_cons _ _
  · exact List.suffix_cons _ _
  · exact List.suffix_rfl

theorem exponentRest_suffix (read : exponentRest negative digits shift text = .ok (value, left)) :
    left <:+ text := by
  rw [exponentRest] at read
  dsimp only at read
  refine List.IsSuffix.trans ?_ (splitSign_suffix text)
  cases unsigned : (Number.splitSign text).2 with
  | nil =>
    rw [unsigned] at read
    cases read
  | cons first more =>
    rw [unsigned] at read
    dsimp only at read
    have behind := List.dropWhile_suffix Char.isDigit (l := first :: more)
    split at read
    · cases read
    · split at read
      · split at read
        · cases read
        · cases read
          exact behind
      · rw [eq_of_map_pair read]
        exact behind

theorem realRest_suffix (read : realRest negative digits shift text = .ok (value, left)) :
    left <:+ text := by
  rw [realRest.eq_def] at read
  split at read
  · exact (exponentRest_suffix read).trans (List.suffix_cons _ _)
  · exact (exponentRest_suffix read).trans (List.suffix_cons _ _)
  · rewrite [eq_of_map_pair read]
    exact List.suffix_rfl

theorem fractionRest_suffix (read : fractionRest negative digits shift text = .ok (value, left)) :
    left <:+ text := by
  rw [fractionRest] at read
  dsimp only at read
  split at read
  · cases read
  · exact (realRest_suffix read).trans (List.dropWhile_suffix _)

theorem unsignedNumber_suffix (read : unsignedNumber negative text = .ok (value, left)) :
    left <:+ text := by
  have behind := List.dropWhile_suffix Char.isDigit (l := text)
  rw [unsignedNumber] at read
  dsimp only at read
  split at read
  · cases read
  · cases read
  · split at read
    · next point =>
      rw [point] at behind
      exact (fractionRest_suffix read).trans ((List.suffix_cons _ _).trans behind)
    · split at read
      · exact (realRest_suffix read).trans behind
      · cases read
        exact behind

theorem items_ne_real {number : Float} : ∀ {fuel depth : Nat} {done : List Json} {text : List Char},
    items fuel depth done text ≠ .ok (.real number, left)
  | 0, _, _, _ => by simp [items]
  | fuel + 1, _, _, _ => by
    rw [items]
    split
    · simp
    · simp
    · split
      · simp
      · exact items_ne_real

theorem members_ne_real {number : Float} : ∀ {fuel depth : Nat} {done : List (String × Json)}
    {text : List Char}, members fuel depth done text ≠ .ok (.real number, left)
  | 0, _, _, _ => by simp [members]
  | fuel + 1, _, _, _ => by
    rw [members]
    split
    · simp
    · simp
    · split
      · simp
      · exact members_ne_real

/-- A double is read at any depth, and behind it stands the end of the text. -/
theorem value_real_shallow {fuel depth : Nat} {number : Float}
    (read : Json.value (fuel + 1) depth text = .ok (.real number, left)) :
    Json.value (fuel + 1) 1 text = .ok (.real number, left) ∧ left <:+ text := by
  have skipped_suffix := List.dropWhile_suffix isGap (l := text)
  rw [value.eq_def] at read ⊢
  dsimp only at read ⊢
  split at read
  case h_1 => cases read
  case h_2 => cases word_eq read
  case h_3 => cases word_eq read
  case h_4 => cases word_eq read
  case h_5 more _ =>
    cases string : stringRest [] more with
    | error fault => rw [string] at read; cases read
    | ok result => rw [string] at read; cases read
  case h_6 more skipped =>
    rw [← skipGaps, skipped] at skipped_suffix
    exact ⟨read, (unsignedNumber_suffix read).trans
      ((List.suffix_cons _ _).trans skipped_suffix)⟩
  case h_7 =>
    split at read
    · cases read
    · exact absurd read items_ne_real
  case h_8 =>
    split at read
    · cases read
    · exact absurd read members_ne_real
  case h_9 c more _ _ _ _ _ _ _ skipped =>
    rw [← skipGaps, skipped] at skipped_suffix
    split at read
    case isTrue digit =>
      rw [if_pos digit]
      exact ⟨read, (unsignedNumber_suffix read).trans skipped_suffix⟩
    case isFalse => cases read

end

/-! ## Doubles that become null have no text -/

theorem writeReal_of_not_finite {value : Float} (not_finite : ¬Binary64.IsFinite value) :
    writeReal value = writeScalar .null := by
  have no_text : Number.dataText? value = none := by
    rw [Number.dataText?]
    split
    · next negative exponent parts => exact absurd ⟨negative, 0, exponent, parts⟩ not_finite
    · next negative mantissa exponent _ parts =>
        exact absurd ⟨negative, mantissa, exponent, parts⟩ not_finite
    · rfl
  rw [writeReal, no_text]
  rfl

mutual

theorem indentedCharacters_asWritten : ∀ (json : Json) (level : Nat),
    indentedCharacters level json.asWritten = indentedCharacters level json
  | .null, _ => rfl
  | .bool _, _ => rfl
  | .integer _, _ => rfl
  | .real value, level => by
    rw [asWritten]
    split
    · rfl
    · next not_finite => exact (writeReal_of_not_finite not_finite).symm
  | .string _, _ => rfl
  | .array [], _ => rfl
  | .array (item :: items), level => by
    rw [asWritten, itemsAsWritten, indentedCharacters, indentedCharacters,
      indentedCharacters_asWritten item, indentedItems_asWritten items]
  | .object [], _ => rfl
  | .object ((name, member) :: members), level => by
    rw [asWritten, membersAsWritten, indentedCharacters, indentedCharacters,
      indentedCharacters_asWritten member, indentedMembers_asWritten members]

theorem indentedItems_asWritten : ∀ (items : List Json) (level : Nat),
    indentedItems level (itemsAsWritten items) = indentedItems level items
  | [], _ => rfl
  | item :: items, level => by
    rw [itemsAsWritten, indentedItems, indentedItems, indentedCharacters_asWritten item,
      indentedItems_asWritten items]

theorem indentedMembers_asWritten : ∀ (members : List (String × Json)) (level : Nat),
    indentedMembers level (membersAsWritten members) = indentedMembers level members
  | [], _ => rfl
  | (name, member) :: members, level => by
    rw [membersAsWritten, indentedMembers, indentedMembers, indentedCharacters_asWritten member,
      indentedMembers_asWritten members]

end


/-! ## The library -/

/-- The text of a double has no gaps. -/
theorem notMem_writeReal {c : Char} (gap : isGap c = true) (value : Float) :
    c ∉ writeReal value := by
  have is : ((c = ' ' ∨ c = '\n') ∨ c = '\t') ∨ c = '\r' := by simpa [isGap] using gap
  have other : c.isDigit = false ∧ c ≠ '.' ∧ c ≠ 'e' ∧ c ≠ '-' ∧ c ≠ '+' ∧
      c ∉ ['n', 'u', 'l', 'l'] ∧ c ∉ ['0', '.', '0'] := by
    rcases is with ((rfl | rfl) | rfl) | rfl <;> decide
  obtain ⟨digit, point, letter, minus, plus, null, zero⟩ := other
  rw [writeReal]
  split
  · next text written =>
    rw [Number.dataText?] at written
    split at written
    · cases written
      rw [String.toList_ofList]
      exact Number.notMem_signed minus _ zero
    · cases written
      rw [String.toList_ofList]
      exact Number.notMem_signed minus _ (Number.notMem_dataForm digit point
        (Number.notMem_significant digit _) letter minus plus _)
    · cases written
  · exact null

theorem whole?_eq_some {text : List Char} {json : Json} (read : whole? text = some json) :
    ∃ rest, readValue depthLimit text = .ok (json, rest) ∧ skipGaps rest = [] := by
  rw [whole?] at read
  split at read
  · next value rest is =>
    split at read
    · next gaps =>
      cases read
      exact ⟨rest, is, List.isEmpty_iff.1 gaps⟩
    · cases read
  · cases read

theorem Library.standard_readsBack {value : Float} :
    standard.ReadsBack value ↔ whole? (writeReal value) = some (.real value) := by
  have text : (standard.write (.real value)).toList = writeReal value := String.toList_ofList
  rw [ReadsBack, text]
  exact Iff.rfl

theorem readsBack_of_standard {value : Float} (reads : Library.standard.ReadsBack value) :
    ReadsBack value := by
  obtain ⟨rest, read, gaps⟩ := whole?_eq_some (Library.standard_readsBack.1 reads)
  obtain ⟨shallow, behind⟩ := value_real_shallow read
  -- only gaps are left, and the text has none
  have nothing : rest = [] := by
    cases rest with
    | nil => rfl
    | cons c rest =>
      have gap : isGap c = true := by
        by_cases gap : isGap c = true
        · exact gap
        · rw [skipGaps, List.dropWhile_cons_of_neg gap] at gaps
          cases gaps
      exact absurd (behind.subset List.mem_cons_self) (notMem_writeReal gap value)
  rwa [nothing] at shallow

/-- **The library that runs is lawful.** -/
theorem Library.standard_lawful : standard.Lawful := by
  intro json numbers shallow
  have readable : json.asWritten.NumbersIn Json.ReadsBack :=
    NumbersIn.asWritten json (NumbersIn.mono (fun _ reads finite =>
      readsBack_of_standard (reads finite)) json numbers)
  have read := value_indented json.asWritten 0 (fuelFor (indentedCharacters 0 json)) Json.depthLimit
    readable (depth_asWritten json ▸ shallow)
    (by rw [indentedCharacters_asWritten, fuelFor]; omega) ends_nil
  rw [List.append_nil, indentedCharacters_asWritten] at read
  show whole? (indented json).toList = _
  rw [indented, String.toList_ofList, whole?, readValue, read]
  rfl

end MonkeyLang.Json
