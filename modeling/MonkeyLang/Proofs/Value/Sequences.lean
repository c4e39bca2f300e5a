import MonkeyLang.Builtin.Call
import MonkeyLang.Value.Operator

/-!
# Arrays and strings as sequences

An array is a sequence of its items and a string one of its characters (`Value.Consists`). Programs
count and index both in the same way, so that what programs see of two sequences of which one goes
on with other items is shown once: `push` puts one item behind an array, and an addition puts a
string behind a string.

Programs count with integers of sixty-four bits. The number of items is such an integer, since there
is no memory for more (`Value.Counted`); only where an index is computed from the end of a sequence
this is of importance, and all other laws hold of lists of any length.
-/

set_option autoImplicit false

namespace MonkeyLang

namespace Value

/-! ## Places and indices -/

/-- A number of items is an integer of programs. There is no memory for more of them. -/
def Counted (count : Nat) : Prop := (count : Int) ≤ Number.greatestInteger

theorem Counted.of_le {count more : Nat} (counted : Counted more) (less : count ≤ more) :
    Counted count := Int.le_trans (Int.ofNat_le.mpr less) counted

theorem Counted.toInt_ofNat {count : Nat} (counted : Counted count) :
    (Int64.ofNat count).toInt = count := by
  unfold Counted Number.greatestInteger at counted
  exact Int64.toInt_ofNat_of_lt (by omega)

/-- An index that is not negative is the number of a place. -/
theorem exists_place {index : Int64} (natural : 0 ≤ index) :
    ∃ place, Counted place ∧ index = Int64.ofNat place := by
  rw [Int64.le_iff_toInt_le, Int64.toInt_zero] at natural
  have most : index.toInt ≤ Number.greatestInteger := Int64.toInt_le index
  refine ⟨index.toInt.toNat, ?_, ?_⟩
  · rw [Counted, Int.toNat_of_nonneg natural]
    exact most
  · rw [← Int64.ofInt_eq_ofNat, Int.toNat_of_nonneg natural, Int64.ofInt_toInt]

theorem place_lt_of_lt {place count : Nat} (small : Counted place)
    (less : Int64.ofNat place < Int64.ofNat count) : place < count := by
  refine Nat.lt_of_not_le fun more => ?_
  rw [Int64.lt_iff_toInt_lt, small.toInt_ofNat, (small.of_le more).toInt_ofNat] at less
  omega

theorem itemAt_of_neg (items : List Value) {index : Int64} (negative : index < 0) :
    itemAt items index = .null := if_pos negative

theorem itemAt_ofNat (items : List Value) {place : Nat} (small : Counted place) :
    itemAt items (Int64.ofNat place) = (items[place]?).getD .null := by
  have exact := small.toInt_ofNat
  have natural : ¬ Int64.ofNat place < 0 := by
    rw [Int64.lt_iff_toInt_lt, exact, Int64.toInt_zero]
    omega
  rw [itemAt, if_neg natural, exact, Int.toNat_natCast]

/-! ## Sequences -/

/-- The characters of a text, each as a string. -/
def characters (text : String) : List Value :=
  text.toList.map fun c => .string (String.singleton c)

theorem length_characters (text : String) : (characters text).length = text.length := by
  rw [characters, List.length_map, String.length_toList]

/-- An array consists of its items, and a string of its characters. -/
inductive Consists : Value → List Value → Prop where
  | array (items : List Value) : Consists (.array items) items
  | string (text : String) : Consists (.string text) (characters text)

namespace Consists

variable {first second both : Value} {items more : List Value}

theorem length (consists : Consists first items) :
    Builtin.len.result [first] = .integer (Int64.ofNat items.length) := by
  cases consists with
  | array => rfl
  | string text =>
      rw [length_characters]
      rfl

theorem indexed (consists : Consists first items) (index : Int64) :
    Value.indexed first (.integer index) = .ok (itemAt items index) := by
  cases consists with
  | array => rfl
  | string text =>
      rw [Value.indexed, characterAt, itemAt, characters, List.getElem?_map]
      cases text.toList[index.toInt.toNat]? <;> rfl

/-- Under an index that is not negative stands the item of its place. -/
theorem indexed_ofNat (consists : Consists first items) {place : Nat} (small : Counted place) :
    Value.indexed first (.integer (Int64.ofNat place)) = .ok ((items[place]?).getD .null) := by
  rw [consists.indexed, itemAt_ofNat items small]

/-- Sequences behind one another have their lengths together. -/
theorem length_append (front : Consists first items) (back : Consists second more)
    (joined : Consists both (items ++ more)) :
    arithmetic .add (Builtin.len.result [first]) (Builtin.len.result [second]) =
      .ok (Builtin.len.result [both]) := by
  rw [front.length, back.length, joined.length, List.length_append, Int64.ofNat_add]
  rfl

/-- What stands in front is not changed by what is put behind it. -/
theorem indexed_left (front : Consists first items) (joined : Consists both (items ++ more))
    {size index : Int64} (counts : Builtin.len.result [first] = .integer size)
    (inside : index < size) :
    Value.indexed both (.integer index) = Value.indexed first (.integer index) := by
  rw [front.indexed, joined.indexed]
  by_cases negative : index < 0
  · rw [itemAt_of_neg _ negative, itemAt_of_neg _ negative]
  · obtain ⟨place, small, rfl⟩ := exists_place (Int64.not_lt.mp negative)
    rw [front.length] at counts
    obtain rfl := Value.integer.inj counts
    rw [itemAt_ofNat _ small, itemAt_ofNat _ small,
      List.getElem?_append_left (place_lt_of_lt small inside)]

/-- What is put behind goes on where the length of what stands in front ends. -/
theorem indexed_right (front : Consists first items) (back : Consists second more)
    (joined : Consists both (items ++ more)) (counted : Counted items.length)
    {size index : Int64} (counts : Builtin.len.result [first] = .integer size)
    (behind : size ≤ index) :
    Value.indexed both (.integer index) = Value.indexed second (.integer (index - size)) := by
  rw [front.length] at counts
  obtain rfl := Value.integer.inj counts
  rw [Int64.le_iff_toInt_le, counted.toInt_ofNat] at behind
  have natural : 0 ≤ index := by
    rw [Int64.le_iff_toInt_le, Int64.toInt_zero]
    omega
  obtain ⟨place, small, rfl⟩ := exists_place natural
  rw [small.toInt_ofNat] at behind
  have later : items.length ≤ place := by omega
  rw [← Int64.ofNat_sub _ _ later, joined.indexed_ofNat small,
    back.indexed_ofNat (small.of_le (Nat.sub_le _ _)), List.getElem?_append_right later]

end Consists

theorem consists_append (left right : String) :
    Consists (.string (left ++ right)) (characters left ++ characters right) := by
  have parts : characters (left ++ right) = characters left ++ characters right := by
    rw [characters, String.toList_append, List.map_append]
    rfl
  exact parts ▸ .string (left ++ right)

/-! ## The laws -/

section

open Builtin

/-- The laws of an array and an item that is put behind it. -/
structure ArrayLaws (items : List Value) (item : Value) : Prop where
  length_push : arithmetic .add (len.result [.array items]) (.integer 1) =
    .ok (len.result [push.result [.array items, item]])
  last_push : last.result [push.result [.array items, item]] = item
  indexed_push : ∀ size index, len.result [.array items] = .integer size →
    0 ≤ index → index < size →
      indexed (push.result [.array items, item]) (.integer index) =
        indexed (.array items) (.integer index)
  first_eq : items ≠ [] →
    indexed (.array items) (.integer 0) = .ok (first.result [.array items])
  last_eq : items ≠ [] → Counted items.length →
    (arithmetic .sub (len.result [.array items]) (.integer 1) >>= indexed (.array items)) =
      .ok (last.result [.array items])
  length_rest : items ≠ [] →
    arithmetic .sub (len.result [.array items]) (.integer 1) =
      .ok (len.result [rest.result [.array items]])
  indexed_rest : items ≠ [] → ∀ index, 0 ≤ index → index < Int64.maxValue →
    indexed (rest.result [.array items]) (.integer index) =
      indexed (.array items) (.integer (index + 1))
  rest_push : items ≠ [] → rest.result [push.result [.array items, item]] =
    push.result [rest.result [.array items], item]

/-- The laws of two strings and the string that they are joined to. -/
structure JoinLaws (left right joined : String) : Prop where
  length : arithmetic .add (len.result [.string left]) (len.result [.string right]) =
    .ok (len.result [.string joined])
  indexed_left : ∀ size index, len.result [.string left] = .integer size → index < size →
    indexed (.string joined) (.integer index) = indexed (.string left) (.integer index)
  indexed_right : Counted left.length → ∀ size index, len.result [.string left] = .integer size →
    size ≤ index →
      indexed (.string joined) (.integer index) = indexed (.string right) (.integer (index - size))

/-- A string is counted and indexed character by character. -/
structure CharacterLaws (text : String) : Prop where
  length : Counted text.length → ∃ size : Int64, len.result [.string text] = .integer size ∧
    size.toInt = text.toList.length
  indexed_character : ∀ (index : Int64) (c : Char), 0 ≤ index →
    text.toList[index.toInt.toNat]? = some c →
      indexed (.string text) (.integer index) = .ok (.string (String.singleton c))
  indexed_eq_null : Counted text.length → ∀ size, len.result [.string text] = .integer size →
    ∀ index, indexed (.string text) (.integer index) = .ok .null ↔ index < 0 ∨ size ≤ index

end

theorem arrayLaws (items : List Value) (item : Value) : ArrayLaws items item where
  length_push := (Consists.array items).length_append (.array [item]) (.array (items ++ [item]))
  last_push := by
    show (items ++ [item]).getLast?.getD .null = item
    rw [List.getLast?_concat, Option.getD_some]
  indexed_push size index counts _ inside :=
    (Consists.array items).indexed_left (.array (items ++ [item])) counts inside
  first_eq := by
    intro some
    have zero : (0 : Int64) = Int64.ofNat 0 := rfl
    have small : Counted 0 := (by decide : ((0 : Nat) : Int) ≤ Number.greatestInteger)
    rw [zero, (Consists.array items).indexed_ofNat small, ← List.head?_eq_getElem?]
    rfl
  last_eq := by
    intro some counted
    have pos : 1 ≤ items.length := List.length_pos_iff.mpr some
    have one : (1 : Int64) = Int64.ofNat 1 := rfl
    have place : arithmetic .sub (Builtin.len.result [.array items]) (.integer 1) =
        .ok (.integer (Int64.ofNat (items.length - 1))) := by
      rw [(Consists.array items).length, Int64.ofNat_sub _ _ pos, ← one]
      rfl
    rw [place]
    show indexed (.array items) (.integer (Int64.ofNat (items.length - 1))) = _
    rw [(Consists.array items).indexed_ofNat (counted.of_le (Nat.sub_le _ _)),
      ← List.getLast?_eq_getElem?]
    rfl
  length_rest := by
    intro some
    cases items with
    | nil => exact absurd rfl some
    | cons head items =>
        have rest : Builtin.rest.result [.array (head :: items)] = .array items := rfl
        rw [rest, (Consists.array _).length, (Consists.array _).length, List.length_cons,
          Int64.ofNat_add]
        exact congrArg (fun size => Except.ok (Value.integer size)) (Int64.add_sub_cancel _ _)
  indexed_rest := by
    intro some index natural less
    cases items with
    | nil => exact absurd rfl some
    | cons head items =>
        have rest : Builtin.rest.result [.array (head :: items)] = .array items := rfl
        obtain ⟨place, small, rfl⟩ := exists_place natural
        rw [Int64.lt_iff_toInt_lt, small.toInt_ofNat, Int64.toInt_maxValue] at less
        have next : Counted (place + 1) := by
          unfold Counted Number.greatestInteger
          omega
        have one : (1 : Int64) = Int64.ofNat 1 := rfl
        rw [rest, one, ← Int64.ofNat_add, (Consists.array _).indexed_ofNat small,
          (Consists.array _).indexed_ofNat next, List.getElem?_cons_succ]
  rest_push := by
    intro some
    cases items with
    | nil => exact absurd rfl some
    | cons head items => rfl

theorem joinLaws (left right : String) : JoinLaws left right (left ++ right) where
  length := (Consists.string left).length_append (.string right) (consists_append left right)
  indexed_left _ _ counts inside :=
    (Consists.string left).indexed_left (consists_append left right) counts inside
  indexed_right counted _ _ counts behind :=
    (Consists.string left).indexed_right (.string right) (consists_append left right)
      (by rwa [length_characters]) counts behind

theorem characterLaws (text : String) : CharacterLaws text where
  length counted :=
    ⟨Int64.ofNat text.length, rfl, by
      rw [counted.toInt_ofNat, String.length_toList]⟩
  indexed_character index c natural there := by
    rw [Value.indexed, characterAt, if_neg (Int64.not_lt.mpr natural), there]
  indexed_eq_null := by
    intro counted size counts index
    obtain rfl : Int64.ofNat text.length = size := Value.integer.inj counts
    rw [Value.indexed, characterAt, Int64.le_iff_toInt_le, counted.toInt_ofNat]
    by_cases negative : index < 0
    · simp [negative]
    · have natural := Int64.not_lt.mp negative
      rw [Int64.le_iff_toInt_le, Int64.toInt_zero] at natural
      rw [if_neg negative, or_iff_right negative]
      cases there : text.toList[index.toInt.toNat]? with
      | none =>
          rw [List.getElem?_eq_none_iff, String.length_toList] at there
          simp only [true_iff]
          omega
      | some c =>
          obtain ⟨inside, -⟩ := List.getElem?_eq_some_iff.mp there
          rw [String.length_toList] at inside
          simp only [Except.ok.injEq, reduceCtorEq, false_iff]
          omega

/-- **Arrays and strings obey the laws of sequences**, for all items and characters and all indices
of sixty-four bits. -/
theorem sequence_laws (items : List Value) (item : Value) (left right : String) :
    ArrayLaws items item ∧ CharacterLaws left ∧ ∃ joined,
      arithmetic .add (.string left) (.string right) = .ok (.string joined) ∧
        JoinLaws left right joined :=
  ⟨arrayLaws items item, characterLaws left, left ++ right, rfl, joinLaws left right⟩

/-- An array of two items, and a string of two characters, one of which has two bytes, in front of
another string: what is computed from the end is what stands there. -/
theorem sequence_laws_short :
    (arithmetic .sub (Builtin.len.result [.array [.null, .boolean true]]) (.integer 1) >>=
        indexed (.array [.null, .boolean true])) = .ok (.boolean true) ∧
      (∃ size : Int64, Builtin.len.result [.string "né"] = .integer size ∧ size.toInt = 2) ∧
      indexed (.string "né") (.integer 2) = .ok .null ∧
      indexed (.string "née") (.integer 2) = indexed (.string "e") (.integer 0) := by
  have few : Counted 2 := (by decide : ((2 : Nat) : Int) ≤ Number.greatestInteger)
  obtain ⟨array, characters, joined, together, join⟩ :=
    sequence_laws [.null, .boolean true] .null "né" "e"
  obtain rfl := Value.string.inj (Except.ok.inj together)
  exact ⟨array.last_eq (List.cons_ne_nil _ _) few, characters.length few,
    (characters.indexed_eq_null few 2 rfl 2).mpr (.inr (by decide)),
    join.indexed_right few 2 2 rfl (by decide)⟩

end Value

end MonkeyLang
