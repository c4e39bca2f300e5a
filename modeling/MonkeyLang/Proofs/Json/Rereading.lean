import MonkeyLang.Proofs.Json.Nulls
import MonkeyLang.Proofs.Json.Numbers

/-!
# Indented JSON is read back

Every character is read back from the way it stands in a string: the quote, the backslash and
the control characters from their escapes, and the others from themselves. So is every string.

A value can be read back if its whole numbers have sixty-four bits and its doubles are read back
(`Json.NumbersIn`). The indented form of such a value is read back, on any level and in front of
any text that ends a number, as long as the reader allows for its depth
(`Json.value_indented`, by induction on the value).
-/

set_option autoImplicit false

namespace MonkeyLang.Json

/-! ## Strings -/

/-- A control character is written with four digits, the first two of them zeros, that stand for
it. -/
theorem numberedEscape_eq : ∀ number < 32,
    numberedEscape (Char.ofNat number) =
      ['\\', 'u', '0', '0', Nat.digitChar (number / 16), Nat.digitChar (number % 16)] ∧
    hexNumber? '0' '0' (Nat.digitChar (number / 16)) (Nat.digitChar (number % 16)) =
      some number := by
  decide

/-- A character is read back from the way it stands in a string. -/
theorem stringRest_escape (c : Char) (done rest : List Char) :
    stringRest done (escape c ++ rest) = stringRest (c :: done) rest := by
  rw [escape.eq_def]
  split
  case h_8 no_quote no_backslash _ _ _ _ _ =>
    split
    case isTrue control =>
      obtain ⟨written, read⟩ := numberedEscape_eq c.toNat control
      have no_half : isTrailing c.toNat = false ∧ isLeading c.toNat = false := by
        simp only [isTrailing, isLeading, Bool.and_eq_false_iff, decide_eq_false_iff_not]
        omega
      rw [Char.ofNat_toNat] at written
      simp [written, stringRest, read, no_half]
    case isFalse plain =>
      rw [List.singleton_append, stringRest]
      · rw [if_neg plain]
      · exact no_quote
      · exact fun is _ => no_backslash is
      · exact fun _ _ _ _ _ is _ => no_backslash is
      · exact fun _ is _ => no_backslash is
      · exact fun _ _ is _ => no_backslash is
  all_goals simp [stringRest, simpleEscape?]

theorem stringRest_flatMap_escape (text done rest : List Char) :
    stringRest done (text.flatMap escape ++ '"' :: rest) =
      .ok (String.ofList (done.reverse ++ text), rest) := by
  induction text generalizing done with
  | nil =>
    rw [List.flatMap_nil, List.nil_append, stringRest, List.append_nil]
  | cons c text ih =>
    rw [List.flatMap_cons, List.append_assoc, stringRest_escape, ih, List.reverse_cons,
      List.append_assoc, List.singleton_append]

/-- A string is read back from between its quotes. -/
theorem stringRest_writeString (text : String) (rest : List Char) :
    ∃ written, writeString text ++ rest = '"' :: written ∧
      stringRest [] written = .ok (text, rest) := by
  refine ⟨text.toList.flatMap escape ++ '"' :: rest, ?_, ?_⟩
  · simp [writeString]
  · rw [stringRest_flatMap_escape, List.reverse_nil, List.nil_append, String.ofList_toList]

/-! ## Where items and members start -/

section

variable {fuel depth : Nat} {text rest : List Char} {result : Json × List Char}

theorem skipGaps_lineBreak (level : Nat) (text : List Char) :
    skipGaps (lineBreak level ++ text) = skipGaps text := by
  have blank : ∀ c ∈ lineBreak level, isGap c = true := by
    intro c member
    rcases List.mem_cons.1 member with rfl | member
    · rfl
    · rw [List.eq_of_mem_replicate member]
      rfl
  exact List.dropWhile_append_of_pos blank

theorem value_lineBreak (level : Nat) (text : List Char) :
    value (fuel + 1) depth (lineBreak level ++ text) = value (fuel + 1) depth text := by
  rw [← value_skipGaps, skipGaps_lineBreak, value_skipGaps]

theorem value_space (text : List Char) :
    value (fuel + 1) depth (' ' :: text) = value (fuel + 1) depth text := by
  rw [← value_skipGaps, show skipGaps (' ' :: text) = skipGaps text from rfl, value_skipGaps]

/-- What holds a value starts with something, and with neither a comma nor a bracket that
closes. -/
theorem skipGaps_of_value (read : value (fuel + 1) depth text = .ok result) :
    ∃ c more, skipGaps text = c :: more ∧ c ≠ ',' ∧ c ≠ ']' := by
  rw [value.eq_def] at read
  dsimp only at read
  cases skipped : skipGaps text with
  | nil => rw [skipped] at read; cases read
  | cons c more =>
    refine ⟨c, more, rfl, ?_, ?_⟩
    · rintro rfl
      rw [skipped] at read
      cases read
    · rintro rfl
      rw [skipped] at read
      cases read

theorem nextItem_first (read : value (fuel + 1) depth text = .ok result) :
    nextItem true text = .ok (true, skipGaps text) := by
  obtain ⟨c, more, skipped, no_comma, no_close⟩ := skipGaps_of_value read
  rw [nextItem, skipped]
  split <;> simp_all

theorem nextItem_comma (read : value (fuel + 1) depth text = .ok result) :
    nextItem false (',' :: text) = .ok (true, skipGaps text) := by
  obtain ⟨c, more, skipped, no_comma, no_close⟩ := skipGaps_of_value read
  have comma : skipGaps (',' :: text) = ',' :: text := rfl
  rw [nextItem, comma]
  simp only [Bool.false_eq_true, if_false, skipped]
  split <;> simp_all

theorem nextItem_close (first : Bool) (level : Nat) :
    nextItem first (lineBreak level ++ ']' :: rest) = .ok (false, rest) := by
  rw [nextItem, skipGaps_lineBreak]
  rfl

theorem nextName_first (level : Nat) (name : String) (text : List Char) :
    nextName true (lineBreak level ++ (writeString name ++ ':' :: text)) = .ok (some name, text) := by
  obtain ⟨written, is, read⟩ := stringRest_writeString name (':' :: text)
  rw [nextName, skipGaps_lineBreak, is]
  simp [skipGaps, isGap, read]

theorem nextName_comma (level : Nat) (name : String) (text : List Char) :
    nextName false (',' :: (lineBreak level ++ (writeString name ++ ':' :: text))) =
      .ok (some name, text) := by
  obtain ⟨written, is, read⟩ := stringRest_writeString name (':' :: text)
  have skipped : skipGaps (lineBreak level ++ '"' :: written) = '"' :: written := by
    rw [skipGaps_lineBreak]
    rfl
  have comma : skipGaps (',' :: (lineBreak level ++ '"' :: written)) =
      ',' :: (lineBreak level ++ '"' :: written) := rfl
  rw [nextName, is, comma]
  simp only [Bool.false_eq_true, if_false, skipped, read]
  rfl

theorem nextName_close (first : Bool) (level : Nat) :
    nextName first (lineBreak level ++ '\x7d' :: rest) = .ok (none, rest) := by
  rw [nextName, skipGaps_lineBreak]
  rfl

/-! ## One item or member after another -/

theorem items_first {item : Json} (read : value (fuel + 1) depth text = .ok (item, rest)) :
    items (fuel + 2) depth [] text = items (fuel + 1) depth [item] rest := by
  rw [items, List.isEmpty_nil, nextItem_first read]
  dsimp only
  rw [value_skipGaps, read]

theorem items_comma {item : Json} {done : List Json} (nonempty : done ≠ [])
    (read : value (fuel + 1) depth text = .ok (item, rest)) :
    items (fuel + 2) depth done (',' :: text) = items (fuel + 1) depth (item :: done) rest := by
  rw [items, List.isEmpty_eq_false_iff.2 nonempty, nextItem_comma read]
  dsimp only
  rw [value_skipGaps, read]

theorem items_close (done : List Json) (level : Nat) :
    items (fuel + 1) depth done (lineBreak level ++ ']' :: rest) = .ok (.array done.reverse, rest) := by
  rw [items, nextItem_close]

theorem members_first {name : String} {member : Json} (level : Nat)
    (read : value (fuel + 1) depth text = .ok (member, rest)) :
    members (fuel + 2) depth [] (lineBreak level ++ (writeString name ++ ':' :: ' ' :: text)) =
      members (fuel + 1) depth [(name, member)] rest := by
  rw [members, List.isEmpty_nil, nextName_first]
  dsimp only
  rw [value_space, read]

theorem members_comma {name : String} {member : Json} {done : List (String × Json)} (level : Nat)
    (nonempty : done ≠ []) (read : value (fuel + 1) depth text = .ok (member, rest)) :
    members (fuel + 2) depth done
        (',' :: (lineBreak level ++ (writeString name ++ ':' :: ' ' :: text))) =
      members (fuel + 1) depth ((name, member) :: done) rest := by
  rw [members, List.isEmpty_eq_false_iff.2 nonempty, nextName_comma]
  dsimp only
  rw [value_space, read]

theorem members_close (done : List (String × Json)) (level : Nat) :
    members (fuel + 1) depth done (lineBreak level ++ '\x7d' :: rest) =
      .ok (.object done.reverse, rest) := by
  rw [members, nextName_close]

end

/-! ## Values -/

theorem ends_lineBreak (level : Nat) (rest : List Char) : Ends (lineBreak level ++ rest) :=
  ends_cons rfl

theorem ends_indentedItems (list : List Json) (level below : Nat) (rest : List Char) :
    Ends (indentedItems level list ++ (lineBreak below ++ rest)) := by
  cases list with
  | nil => exact ends_lineBreak below rest
  | cons item list => exact ends_cons rfl

theorem ends_indentedMembers (list : List (String × Json)) (level below : Nat)
    (rest : List Char) : Ends (indentedMembers level list ++ (lineBreak below ++ rest)) := by
  cases list with
  | nil => exact ends_lineBreak below rest
  | cons member list => exact ends_cons rfl

mutual

/-- The indented form of a readable value is read back. -/
theorem value_indented : ∀ (json : Json) (level fuel depth : Nat) {rest : List Char},
    json.NumbersIn ReadsBack → json.depth < depth → 2 * (indentedCharacters level json).length < fuel →
    Ends rest → value fuel depth (indentedCharacters level json ++ rest) = .ok (json, rest)
  | .null, level, fuel, depth, rest, _, _, enough, _ => by
    obtain ⟨less, rfl⟩ : ∃ less, fuel = less + 1 := Nat.exists_eq_add_of_le' (by omega)
    rfl
  | .bool true, level, fuel, depth, rest, _, _, enough, _ => by
    obtain ⟨less, rfl⟩ : ∃ less, fuel = less + 1 := Nat.exists_eq_add_of_le' (by omega)
    rfl
  | .bool false, level, fuel, depth, rest, _, _, enough, _ => by
    obtain ⟨less, rfl⟩ : ∃ less, fuel = less + 1 := Nat.exists_eq_add_of_le' (by omega)
    rfl
  | .integer number, level, fuel, depth, rest, readable, _, enough, ends => by
    obtain ⟨less, rfl⟩ : ∃ less, fuel = less + 1 := Nat.exists_eq_add_of_le' (by omega)
    exact value_integer readable.1 readable.2 ends
  | .real number, level, fuel, depth, rest, readable, _, enough, ends => by
    obtain ⟨less, rfl⟩ : ∃ less, fuel = less + 1 := Nat.exists_eq_add_of_le' (by omega)
    exact value_real readable ends
  | .string text, level, fuel, depth, rest, _, _, enough, _ => by
    obtain ⟨less, rfl⟩ : ∃ less, fuel = less + 1 := Nat.exists_eq_add_of_le' (by omega)
    obtain ⟨written, is, read⟩ := stringRest_writeString text rest
    show value (less + 1) depth (writeString text ++ rest) = _
    rw [is]
    show (stringRest [] written).map _ = _
    rw [read]
    rfl
  | .array [], level, fuel, depth, rest, _, deep, enough, _ => by
    simp only [indentedCharacters, List.length_cons] at enough
    simp only [Json.depth] at deep
    obtain ⟨less, rfl⟩ : ∃ less, fuel = less + 2 := Nat.exists_eq_add_of_le' (by omega)
    show (if depth ≤ 1 then _ else items (less + 1) (depth - 1) [] (']' :: rest)) = _
    rw [if_neg (by omega)]
    rfl
  | .array (item :: list), level, fuel, depth, rest, readable, deep, enough, _ => by
    simp only [indentedCharacters, List.length_append, List.length_cons] at enough
    simp only [Json.depth, depthOfItems] at deep
    obtain ⟨less, rfl⟩ : ∃ less, fuel = less + 3 := Nat.exists_eq_add_of_le' (by omega)
    have read := value_indented item (level + 1) (less + 1) (depth - 1) readable.1
      (by omega) (by omega) (ends_indentedItems list (level + 1) level (']' :: rest))
    rw [← value_lineBreak (level + 1)] at read
    have shape : indentedCharacters level (.array (item :: list)) ++ rest =
        '[' :: (lineBreak (level + 1) ++ (indentedCharacters (level + 1) item ++
          (indentedItems (level + 1) list ++ (lineBreak level ++ ']' :: rest)))) := by
      simp [indentedCharacters]
    rw [shape]
    show (if depth ≤ 1 then _ else items (less + 2) (depth - 1) [] _) = _
    rw [if_neg (by omega), items_first read]
    exact items_indented list (level + 1) level readable.2 (List.cons_ne_nil _ _) (by omega)
      (by omega)
  | .object [], level, fuel, depth, rest, _, deep, enough, _ => by
    simp only [indentedCharacters, List.length_cons] at enough
    simp only [Json.depth] at deep
    obtain ⟨less, rfl⟩ : ∃ less, fuel = less + 2 := Nat.exists_eq_add_of_le' (by omega)
    show (if depth ≤ 1 then _ else members (less + 1) (depth - 1) [] ('\x7d' :: rest)) = _
    rw [if_neg (by omega)]
    rfl
  | .object ((name, member) :: list), level, fuel, depth, rest, readable, deep, enough, _ => by
    simp only [indentedCharacters, List.length_append, List.length_cons] at enough
    simp only [Json.depth, depthOfMembers] at deep
    obtain ⟨less, rfl⟩ : ∃ less, fuel = less + 3 := Nat.exists_eq_add_of_le' (by omega)
    have read := value_indented member (level + 1) (less + 1) (depth - 1)
      readable.1 (by omega) (by omega) (ends_indentedMembers list (level + 1) level ('\x7d' :: rest))
    have shape : indentedCharacters level (.object ((name, member) :: list)) ++ rest =
        '\x7b' :: (lineBreak (level + 1) ++ (writeString name ++ ':' :: ' ' ::
          (indentedCharacters (level + 1) member ++
            (indentedMembers (level + 1) list ++ (lineBreak level ++ '\x7d' :: rest))))) := by
      simp [indentedCharacters]
    rw [shape]
    show (if depth ≤ 1 then _ else members (less + 2) (depth - 1) [] _) = _
    rw [if_neg (by omega), members_first (level + 1) read]
    exact members_indented list (level + 1) level readable.2 (List.cons_ne_nil _ _) (by omega)
      (by omega)

/-- The items behind the first are read back up to the bracket. -/
theorem items_indented : ∀ (list : List Json) (level below : Nat) {fuel depth : Nat}
    {done : List Json} {rest : List Char}, ItemsIn ReadsBack list → done ≠ [] →
    depthOfItems list < depth → 2 * (indentedItems level list).length < fuel →
    items fuel depth done (indentedItems level list ++ (lineBreak below ++ ']' :: rest)) =
      .ok (.array (done.reverse ++ list), rest)
  | [], level, below, fuel, depth, done, rest, _, _, _, enough => by
    obtain ⟨less, rfl⟩ : ∃ less, fuel = less + 1 := Nat.exists_eq_add_of_le' (by omega)
    rw [List.append_nil]
    exact items_close done below
  | item :: list, level, below, fuel, depth, done, rest, readable, nonempty, deep, enough => by
    simp only [indentedItems, List.length_append, List.length_cons] at enough
    simp only [depthOfItems] at deep
    obtain ⟨less, rfl⟩ : ∃ less, fuel = less + 2 := Nat.exists_eq_add_of_le' (by omega)
    have read := value_indented item level (less + 1) depth readable.1
      (by omega) (by omega) (ends_indentedItems list level below (']' :: rest))
    rw [← value_lineBreak level] at read
    have shape : indentedItems level (item :: list) ++ (lineBreak below ++ ']' :: rest) =
        ',' :: (lineBreak level ++ (indentedCharacters level item ++
          (indentedItems level list ++ (lineBreak below ++ ']' :: rest)))) := by
      simp [indentedItems]
    rw [shape, items_comma nonempty read, items_indented list level below readable.2
      (List.cons_ne_nil _ _) (by omega) (by omega), List.reverse_cons, List.append_assoc,
      List.singleton_append]

/-- The members behind the first are read back up to the brace. -/
theorem members_indented : ∀ (list : List (String × Json)) (level below : Nat) {fuel depth : Nat}
    {done : List (String × Json)} {rest : List Char}, MembersIn ReadsBack list → done ≠ [] →
    depthOfMembers list < depth → 2 * (indentedMembers level list).length < fuel →
    members fuel depth done (indentedMembers level list ++ (lineBreak below ++ '\x7d' :: rest)) =
      .ok (.object (done.reverse ++ list), rest)
  | [], level, below, fuel, depth, done, rest, _, _, _, enough => by
    obtain ⟨less, rfl⟩ : ∃ less, fuel = less + 1 := Nat.exists_eq_add_of_le' (by omega)
    rw [List.append_nil]
    exact members_close done below
  | (name, member) :: list, level, below, fuel, depth, done, rest, readable, nonempty, deep,
      enough => by
    simp only [indentedMembers, List.length_append, List.length_cons] at enough
    simp only [depthOfMembers] at deep
    obtain ⟨less, rfl⟩ : ∃ less, fuel = less + 2 := Nat.exists_eq_add_of_le' (by omega)
    have read := value_indented member level (less + 1) depth readable.1
      (by omega) (by omega) (ends_indentedMembers list level below ('\x7d' :: rest))
    have shape : indentedMembers level ((name, member) :: list) ++
          (lineBreak below ++ '\x7d' :: rest) =
        ',' :: (lineBreak level ++ (writeString name ++ ':' :: ' ' ::
          (indentedCharacters level member ++
            (indentedMembers level list ++ (lineBreak below ++ '\x7d' :: rest))))) := by
      simp [indentedMembers]
    rw [shape, members_comma level nonempty read, members_indented list level below readable.2
      (List.cons_ne_nil _ _) (by omega) (by omega), List.reverse_cons, List.append_assoc,
      List.singleton_append]

end

end MonkeyLang.Json
