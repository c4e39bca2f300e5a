import Mathlib.Data.List.Basic
import Mathlib.Data.List.TakeWhile
import MonkeyLang.Proofs.Toml.Tables
import MonkeyLang.Proofs.Toml.WrittenStrings
import MonkeyLang.Toml.Reader

/-!
# Tables are read back

A file is laid out in sections, each with keys for sizes, truth values and strings
(`Toml.Layout`). If no name and no key stands twice, and each could stand without quotes, the file
is read back as the table with these sections (`Toml.Layout.read?_text`).

Every line is read in front of whatever follows it. Such readings are put together one behind the
other (`Toml.Leads`), until the text is all read.
-/

set_option autoImplicit false

namespace MonkeyLang.Toml

/-! ## Values -/

/-- A value without parts. -/
inductive Leaf where
  | size (number : Nat)
  | boolean (value : Bool)
  | string (value : String)

namespace Leaf

/-- How a value is written. -/
def text : Leaf → String
  | size number => toString number
  | boolean value => if value then "true" else "false"
  | string value => stringText value

def value : Leaf → Value
  | size number => .integer number
  | boolean value => .boolean value
  | string value => .string value

/-- A size must be a whole number of sixty-four bits. -/
def Fits : Leaf → Prop
  | size number => (number : Int) ≤ Number.greatestInteger
  | _ => True

end Leaf

section

open Number (natOfDigits isDigit_of_mem_digitsOf)
open Decimal (digitsOf)

theorem hexDigit?_of_isDigit {c : Char} (digit : c.isDigit = true) :
    hexDigit? c = some (c.toNat - 48) := if_pos digit

theorem isDigitOf_ten {c : Char} (digit : c.isDigit = true) : isDigitOf 10 c = true := by
  have high := (Number.toNat_of_isDigit digit).2
  rw [isDigitOf, hexDigit?_of_isDigit digit]
  exact decide_eq_true (by omega)

theorem numberOf_ten {digits : List Char} (all : ∀ c ∈ digits, c.isDigit = true) :
    numberOf 10 digits = natOfDigits digits := by
  refine List.foldl_ext _ _ 0 fun value c member => ?_
  rw [hexDigit?_of_isDigit (all c member)]
  rfl

/-- Digits are cut off in front of what is neither a digit nor an underscore. -/
theorem digits?_append {isDigit : Char → Bool} (separates : isDigit '_' = false)
    {digits : List Char} (all : ∀ c ∈ digits, isDigit c = true) (nonempty : digits ≠ [])
    {rest : List Char} (ends : ∀ c ∈ rest.head?, isDigit c = false ∧ c ≠ '_') :
    digits? isDigit (digits ++ rest) = some (digits, rest) := by
  induction digits with
  | nil => exact absurd rfl nonempty
  | cons c digits ih =>
      obtain ⟨digit, others⟩ := List.forall_mem_cons.mp all
      cases digits with
      | nil =>
          cases rest with
          | nil => simp [digits?, digit]
          | cons next rest =>
              obtain ⟨stop, other⟩ := ends next rfl
              simp [digits?, digit, stop]
      | cons next digits =>
          have more := ih others (List.cons_ne_nil _ _)
          have digit' := others next List.mem_cons_self
          have other : next ≠ '_' := by
            rintro rfl
            exact absurd digit' (Bool.eq_false_iff.mp separates)
          rw [List.cons_append] at more
          simp [digits?, digit, digit', more]

theorem basedNumber?_digitsOf (number : Nat) (rest : List Char) :
    basedNumber? 10 (digitsOf number ++ '\n' :: rest) = some ((number : Int), '\n' :: rest) := by
  have all : ∀ c ∈ digitsOf number, c.isDigit = true := fun _ => isDigit_of_mem_digitsOf
  have read := digits?_append (rfl : isDigitOf 10 '_' = false)
    (fun c member => isDigitOf_ten (all c member)) (Number.digitsOf_ne_nil number)
    (fun c first => by cases first; exact ⟨rfl, by decide⟩ : ∀ c ∈ ('\n' :: rest).head?, _)
  rw [basedNumber?, read]
  dsimp only [Option.bind_eq_bind, Option.bind_some]
  rw [numberOf_ten all, Number.natOfDigits_digitsOf]
  rfl

/-- Only zero starts with a zero, and nothing stands behind it. -/
theorem integer?_digitsOf {number : Nat} (small : (number : Int) ≤ Number.greatestInteger)
    (rest : List Char) :
    integer? (digitsOf number ++ '\n' :: rest) = some (.integer number, '\n' :: rest) := by
  by_cases zero : number = 0
  · subst zero
    rfl
  · have based := basedNumber?_digitsOf number rest
    have first := mt (Number.eq_zero_of_head?_digitsOf number) zero
    obtain ⟨c, more, digits, digit⟩ := Number.exists_digitsOf number
    rw [digits, List.cons_append] at based
    rw [digits, List.head?_cons, Option.some.injEq] at first
    have inside : (Number.leastInteger ≤ (number : Int) &&
        (number : Int) ≤ Number.greatestInteger) = true := by
      rw [Bool.and_eq_true, decide_eq_true_eq, decide_eq_true_eq]
      exact ⟨Int.le_trans (by decide) (Int.natCast_nonneg number), small⟩
    rw [digits, List.cons_append, integer?, decimal?, based]
    · exact if_pos inside
    · exact fun _ same => first (List.cons.inj same).1
    · exact fun _ same => first (List.cons.inj same).1
    · exact fun _ same => first (List.cons.inj same).1
    · exact fun _ same => first (List.cons.inj same).1
    · exact fun _ same => Number.ne_of_isDigit digit _ rfl (List.cons.inj same).1
    · exact fun _ same => Number.ne_of_isDigit digit _ rfl (List.cons.inj same).1

theorem value?_of_isDigit {c : Char} (digit : c.isDigit = true) (fuel : Nat) (more : List Char) :
    value? (fuel + 1) (c :: more) = integer? (c :: more) := by
  rw [value?]
  all_goals exact fun _ same => Number.ne_of_isDigit digit _ rfl (List.cons.inj same).1

end

/-- A value is read back in front of the end of a line. -/
theorem value?_leaf {leaf : Leaf} (fits : leaf.Fits) (fuel : Nat) (rest : List Char) :
    value? (fuel + 1) (leaf.text.toList ++ '\n' :: rest) = some (leaf.value, '\n' :: rest) := by
  cases leaf with
  | size number =>
      obtain ⟨c, more, digits, digit⟩ := Number.exists_digitsOf number
      have read := integer?_digitsOf fits rest
      have text : (Leaf.size number).text.toList = Decimal.digitsOf number :=
        Number.toList_toString_natural number
      rw [digits] at read text
      rw [text]
      exact (value?_of_isDigit digit fuel _).trans read
  | boolean value => cases value <;> rfl
  | string value =>
      have read := @string?_stringText value ('\n' :: rest) (head?_cons_ne.mpr (by decide))
        (head?_cons_ne.mpr (by decide))
      have put := congrArg (Option.map fun found => (Value.string found.1, found.2)) read
      obtain ⟨more, double | single⟩ := exists_stringText value
      · rw [double] at put
        rw [Leaf.text, double, List.cons_append, value?]
        exact put
      · rw [single] at put
        rw [Leaf.text, single, List.cons_append, value?]
        exact put

/-- No blank stands in front of a value. -/
theorem Leaf.exists_text (leaf : Leaf) :
    ∃ c more, leaf.text.toList = c :: more ∧ isBlank c = false := by
  cases leaf with
  | size number =>
      obtain ⟨c, more, digits, digit⟩ := Number.exists_digitsOf number
      refine ⟨c, more, (Number.toList_toString_natural number).trans digits, ?_⟩
      rw [isBlank, Bool.or_eq_false_iff, beq_eq_false_iff_ne, beq_eq_false_iff_ne]
      exact ⟨Number.ne_of_isDigit digit _ rfl, Number.ne_of_isDigit digit _ rfl⟩
  | boolean value => cases value <;> exact ⟨_, _, rfl, rfl⟩
  | string value =>
      obtain ⟨more, double | single⟩ := exists_stringText value
      · exact ⟨_, more, double, rfl⟩
      · exact ⟨_, more, single, rfl⟩

/-! ## Lines -/

theorem skipBlanks_cons {c : Char} (other : isBlank c = false) (text : List Char) :
    skipBlanks (c :: text) = c :: text :=
  List.dropWhile_cons_of_neg (Bool.eq_false_iff.mp other)

/-- What can stand in a key without quotes is none of the characters with a meaning of their own. -/
theorem ne_of_isBare {c : Char} (bare : isBare c = true) (other : Char)
    (none : isBare other = false) : c ≠ other := by
  rintro rfl
  exact absurd bare (Bool.eq_false_iff.mp none)

theorem isBlank_of_isBare {c : Char} (bare : isBare c = true) : isBlank c = false := by
  rw [isBlank, Bool.or_eq_false_iff, beq_eq_false_iff_ne, beq_eq_false_iff_ne]
  exact ⟨ne_of_isBare bare _ rfl, ne_of_isBare bare _ rfl⟩

theorem endLine?_of_isBare {c : Char} (bare : isBare c = true) (more : List Char) :
    endLine? (c :: more) = none := by
  have kept : skipComment (skipBlanks (c :: more)) = c :: more := by
    rw [skipBlanks_cons (isBlank_of_isBare bare), skipComment]
    exact fun _ same => ne_of_isBare bare _ rfl (List.cons.inj same).1
  rw [endLine?, kept]
  show behindLineEnd? (c :: more) = none
  rw [behindLineEnd?.eq_def]
  split
  · next same => exact absurd (List.cons.inj same).1 (ne_of_isBare bare _ rfl)
  · next same => exact absurd (List.cons.inj same).1 (ne_of_isBare bare _ rfl)
  · rfl

/-- A line that starts with a key gives it a value. -/
theorem line?_of_isBare {c : Char} (bare : isBare c = true) (progress : Progress)
    (more : List Char) : line? progress (c :: more) = valueLine? progress (c :: more) := by
  rw [line?, skipBlanks_cons (isBlank_of_isBare bare)]
  split
  · next same => exact absurd (List.cons.inj same).1 (ne_of_isBare bare _ rfl)
  · rw [endLine?_of_isBare bare]

/-- A name that can stand without quotes. -/
structure IsBare (name : String) : Prop where
  nonempty : name.toList ≠ []
  bare : ∀ c ∈ name.toList, isBare c = true

instance (name : String) : Decidable (IsBare name) :=
  decidable_of_iff (name.toList ≠ [] ∧ name.toList.all isBare = true)
    ⟨fun both => ⟨both.1, List.all_eq_true.mp both.2⟩,
      fun is => ⟨is.nonempty, List.all_eq_true.mpr is.bare⟩⟩

theorem IsBare.exists_cons {name : String} (isBare : IsBare name) :
    ∃ c more, name.toList = c :: more ∧ Toml.isBare c = true := by
  obtain ⟨c, more, first⟩ := List.exists_cons_of_ne_nil isBare.nonempty
  exact ⟨c, more, first, isBare.bare c (first ▸ List.mem_cons_self)⟩

theorem IsBare.skipBlanks {name : String} (isBare : IsBare name) (rest : List Char) :
    Toml.skipBlanks (name.toList ++ rest) = name.toList ++ rest := by
  obtain ⟨c, more, first, bare⟩ := isBare.exists_cons
  rw [first]
  exact skipBlanks_cons (isBlank_of_isBare bare) _

theorem IsBare.line? {key : String} (isBare : IsBare key) (progress : Progress)
    (rest : List Char) :
    Toml.line? progress (key.toList ++ rest) = valueLine? progress (key.toList ++ rest) := by
  obtain ⟨c, more, first, bare⟩ := isBare.exists_cons
  rw [first]
  exact line?_of_isBare bare progress _

theorem IsBare.key? {name : String} (isBare : IsBare name) {rest : List Char}
    (ends : ∀ c ∈ rest.head?, Toml.isBare c = false) :
    Toml.key? (name.toList ++ rest) = some (name, rest) := by
  have all := List.takeWhile_eq_self_iff.mpr isBare.bare
  have none := List.dropWhile_eq_nil_iff.mpr isBare.bare
  rw [Toml.key?, Text.takeWhile_append ends, Text.dropWhile_append ends, all, none]
  split
  · next empty => exact absurd empty isBare.nonempty
  · rw [String.ofList_toList, List.nil_append]

theorem IsBare.path? {key : String} (isBare : IsBare key) (rest : List Char) :
    Toml.path? (key.toList ++ ' ' :: '=' :: rest) = some ((key, none), '=' :: rest) := by
  have read := @IsBare.key? key isBare (' ' :: '=' :: rest) (by rintro c ⟨⟩; rfl)
  rw [Toml.path?, read]
  rfl

theorem toList_entryLine (key value : String) :
    (entryLine key value).toList = key.toList ++ ' ' :: '=' :: ' ' :: (value.toList ++ ['\n']) := by
  simp [entryLine, toString]

/-- A line with a value gives it to its key. -/
theorem line?_entryLine {key : String} (isBare : IsBare key) {leaf : Leaf} (fits : leaf.Fits)
    (progress : Progress) (rest : List Char) :
    line? progress ((entryLine key leaf.text).toList ++ rest) =
      (progress.assign? (key, none) leaf.value).map fun after => (after, rest) := by
  have path := isBare.path? (' ' :: (leaf.text.toList ++ '\n' :: rest))
  have line : (entryLine key leaf.text).toList ++ rest =
      key.toList ++ ' ' :: '=' :: ' ' :: (leaf.text.toList ++ '\n' :: rest) := by
    rw [toList_entryLine]
    simp
  have behind : skipBlanks (' ' :: (leaf.text.toList ++ '\n' :: rest)) =
      leaf.text.toList ++ '\n' :: rest := by
    obtain ⟨c, text, start, other⟩ := leaf.exists_text
    rw [start]
    exact skipBlanks_cons other _
  have read := value?_leaf fits (leaf.text.toList ++ '\n' :: rest).length rest
  rw [line, isBare.line?, valueLine?, path]
  show (value? ((skipBlanks (' ' :: (leaf.text.toList ++ '\n' :: rest))).length + 1)
    (skipBlanks (' ' :: (leaf.text.toList ++ '\n' :: rest)))).bind (fun found =>
      (progress.assign? (key, none) found.1).bind fun after =>
        (endLine? found.2).bind fun rest => some (after, rest)) = _
  rw [behind, read, Option.bind_some]
  cases progress.assign? (key, none) leaf.value with
  | none => rfl
  | some after => rfl

theorem line?_section {name : String} (isBare : IsBare name) (progress : Progress)
    (rest : List Char) :
    line? progress ('[' :: (name.toList ++ ']' :: '\n' :: rest)) =
      (progress.openSection? name).map fun after => (after, rest) := by
  have read := @IsBare.key? name isBare (']' :: '\n' :: rest) (by rintro c ⟨⟩; rfl)
  show sectionLine? progress _ = _
  rw [sectionLine?, isBare.skipBlanks, read]
  show (progress.openSection? name).bind (fun after => (endLine? ('\n' :: rest)).bind
    fun rest => some (after, rest)) = _
  cases progress.openSection? name with
  | none => rfl
  | some after => rfl

/-! ## Texts -/

/-- A text leads from one state of reading to another, whatever follows it. The fuel that is enough
for a text is enough for what is left of it. -/
def Leads (text : List Char) (before after : Progress) : Prop :=
  ∀ rest fuel, (text ++ rest).length ≤ fuel → ∃ left, rest.length ≤ left ∧
    lines? fuel before (text ++ rest) = lines? left after rest

theorem Leads.nil (progress : Progress) : Leads [] progress progress :=
  fun _ fuel enough => ⟨fuel, enough, rfl⟩

theorem Leads.append {first second : List Char} {before between after : Progress}
    (leads : Leads first before between) (further : Leads second between after) :
    Leads (first ++ second) before after := by
  intro rest fuel enough
  rw [List.append_assoc] at enough ⊢
  obtain ⟨left, enough, read⟩ := leads (second ++ rest) fuel enough
  obtain ⟨left, enough, more⟩ := further rest left enough
  exact ⟨left, enough, read.trans more⟩

theorem Leads.of_line? {text : List Char} {before after : Progress} (nonempty : text ≠ [])
    (read : ∀ rest, line? before (text ++ rest) = some (after, rest)) :
    Leads text before after := by
  intro rest fuel enough
  obtain ⟨c, more, rfl⟩ := List.exists_cons_of_ne_nil nonempty
  cases fuel with
  | zero => cases enough
  | succ fuel =>
      refine ⟨fuel, ?_, ?_⟩
      · rw [List.cons_append, List.length_cons, List.length_append] at enough
        omega
      · show (line? before (c :: more ++ rest)).bind (fun read => lines? fuel read.1 read.2) = _
        rw [read, Option.bind_some]

theorem Leads.blank (progress : Progress) : Leads ['\n'] progress progress :=
  .of_line? (List.cons_ne_nil _ _) fun _ => rfl

/-- A text that leads somewhere is the text of the table that is there. -/
theorem Leads.read? {text : List Char} {after : Progress} (leads : Leads text .start after)
    (unmarked : text.head? ≠ some '\ufeff') : Table.read? text = some after.table := by
  have same : withoutMark text = text := by
    rw [withoutMark]
    rintro _ rfl
    exact unmarked rfl
  obtain ⟨left, -, read⟩ := leads [] text.length (by rw [List.append_nil])
  rw [List.append_nil] at read
  rw [Table.read?, same, read]
  cases left <;> rfl

/-! ## Sections -/

namespace Table

theorem Distinct.has_of_append {table more : Table} {key : String} {value : Value}
    (distinct : Distinct (table ++ (key, value) :: more)) : table.has key = false := by
  rw [has_eq, Option.isSome_eq_false_iff, Option.isNone_iff_eq_none, find?_eq_none]
  rw [Distinct, List.map_append, List.map_cons, List.nodup_append] at distinct
  exact fun member => distinct.2.2 key member key List.mem_cons_self rfl

theorem insert?_of_fresh {table : Table} {key : String} (fresh : table.has key = false)
    (value : Value) : table.insert? key value = some (table ++ [(key, value)]) := by
  rw [insert?, fresh]
  rfl

/-- A key is put in the last section. -/
theorem insertInto?_concat {table entries : Table} {name key : String}
    (other : table.has name = false) (fresh : entries.has key = false) (value : Value) :
    insertInto? (table ++ [(name, .table entries)]) name key value =
      some (table ++ [(name, .table (entries ++ [(key, value)]))]) := by
  induction table with
  | nil => simp [insertInto?, insert?_of_fresh fresh]
  | cons entry table ih =>
      rw [has, List.any_cons, Bool.or_eq_false_iff] at other
      rw [insertInto?, List.cons_append, List.mapM_cons]
      dsimp only
      rw [other.1]
      show (insertInto? (table ++ [(name, .table entries)]) name key value).bind _ = _
      rw [ih other.2]
      rfl

end Table

namespace Progress

theorem openSection?_of_fresh {table : Table} {name : String} (fresh : table.has name = false)
    (extensible : List String) (current : Option String) :
    openSection? ⟨table, extensible, current⟩ name =
      some ⟨table ++ [(name, .table [])], extensible, some name⟩ := by
  rw [openSection?, Table.insert?_of_fresh fresh]
  rfl

theorem assign?_concat {table entries : Table} {name key : String}
    (other : table.has name = false) (fresh : entries.has key = false) (value : Value)
    (extensible : List String) :
    assign? ⟨table ++ [(name, .table entries)], extensible, some name⟩ (key, none) value =
      some ⟨table ++ [(name, .table (entries ++ [(key, value)]))], extensible, some name⟩ := by
  show (Table.insertInto? (table ++ [(name, .table entries)]) name key value).bind
    (fun table => some (⟨table, extensible, some name⟩ : Progress)) = _
  rw [Table.insertInto?_concat other fresh]
  rfl

end Progress

/-- A file in sections, each with values under some keys. -/
abbrev Layout := List (String × List (String × Leaf))

namespace Layout

/-- The table that a section holds. -/
def entries (leaves : List (String × Leaf)) : Table :=
  leaves.map fun leaf => (leaf.1, leaf.2.value)

def sectionText (part : String × List (String × Leaf)) : String :=
  Toml.sectionText part.1 (part.2.map fun leaf => entryLine leaf.1 leaf.2.text)

def table (layout : Layout) : Table := layout.map fun part => (part.1, .table (entries part.2))

def text (layout : Layout) : String := fileText (layout.map sectionText)

/-- The name and the keys of a section can stand without quotes, no key stands twice, and the sizes
are not too large. -/
structure ProperSection (part : String × List (String × Leaf)) : Prop where
  name : IsBare part.1
  keys : ∀ leaf ∈ part.2, IsBare leaf.1
  distinct : (entries part.2).Distinct
  fits : ∀ leaf ∈ part.2, leaf.2.Fits

structure Proper (layout : Layout) : Prop where
  distinct : layout.table.Distinct
  sections : ∀ part ∈ layout, ProperSection part

theorem Proper.tail {part : String × List (String × Leaf)} {layout : Layout}
    (proper : Proper (part :: layout)) : Proper layout where
  distinct := (List.nodup_cons.mp proper.distinct).2
  sections := (List.forall_mem_cons.mp proper.sections).2

theorem leads_entries {sections done : Table} {name : String} (other : sections.has name = false)
    {leaves : List (String × Leaf)} (distinct : (done ++ entries leaves).Distinct)
    (keys : ∀ leaf ∈ leaves, IsBare leaf.1) (fits : ∀ leaf ∈ leaves, leaf.2.Fits)
    (extensible : List String) :
    Leads (leaves.flatMap fun leaf => (entryLine leaf.1 leaf.2.text).toList)
      ⟨sections ++ [(name, .table done)], extensible, some name⟩
      ⟨sections ++ [(name, .table (done ++ entries leaves))], extensible, some name⟩ := by
  induction leaves generalizing done with
  | nil =>
      rw [entries, List.map_nil, List.append_nil]
      exact .nil _
  | cons leaf leaves ih =>
      obtain ⟨key, leaf⟩ := leaf
      obtain ⟨bare, keys⟩ := List.forall_mem_cons.mp keys
      obtain ⟨small, fits⟩ := List.forall_mem_cons.mp fits
      have moved : done ++ entries ((key, leaf) :: leaves) =
          done ++ [(key, leaf.value)] ++ entries leaves := List.append_cons _ _ _
      have fresh := distinct.has_of_append
      rw [moved] at distinct ⊢
      rw [List.flatMap_cons]
      refine .append (.of_line? ?_ fun rest => ?_) (ih distinct keys fits)
      · rw [toList_entryLine]
        exact List.append_ne_nil_of_right_ne_nil _ (List.cons_ne_nil _ _)
      · rw [line?_entryLine bare small, Progress.assign?_concat other fresh]
        rfl

theorem toList_sectionText (part : String × List (String × Leaf)) :
    (sectionText part).toList = ('[' :: (part.1.toList ++ [']', '\n'])) ++
      part.2.flatMap fun leaf => (entryLine leaf.1 leaf.2.text).toList := by
  simp [sectionText, Toml.sectionText, toString, List.flatMap_map]

theorem leads_section {sections : Table} {part : String × List (String × Leaf)}
    (other : sections.has part.1 = false) (proper : ProperSection part)
    (extensible : List String) (current : Option String) :
    Leads (sectionText part).toList ⟨sections, extensible, current⟩
      ⟨sections ++ [(part.1, .table (entries part.2))], extensible, some part.1⟩ := by
  have content := @leads_entries sections [] part.1 other part.2 proper.distinct proper.keys
    proper.fits extensible
  rw [toList_sectionText]
  refine .append (.of_line? (List.cons_ne_nil _ _) fun rest => ?_) content
  rw [List.cons_append, List.append_assoc]
  refine (line?_section proper.name _ rest).trans ?_
  rw [Progress.openSection?_of_fresh other]
  rfl

theorem text_singleton (part : String × List (String × Leaf)) : text [part] = sectionText part := by
  rw [text, fileText, List.map_singleton, String.intercalate_singleton]

theorem toList_text_cons (part next : String × List (String × Leaf)) (layout : Layout) :
    (text (part :: next :: layout)).toList =
      (sectionText part).toList ++ ('\n' :: (text (next :: layout)).toList) := by
  rw [text, List.map_cons, List.map_cons, fileText, String.intercalate_cons_cons]
  simp [text, fileText]

theorem leads_text {layout : Layout} (proper : layout.Proper) {sections : Table}
    (distinct : (sections ++ layout.table).Distinct) (extensible : List String)
    (current : Option String) : ∃ last, Leads layout.text.toList ⟨sections, extensible, current⟩
      ⟨sections ++ layout.table, extensible, last⟩ := by
  induction layout generalizing sections current with
  | nil =>
      refine ⟨current, ?_⟩
      rw [table, List.map_nil, List.append_nil]
      exact .nil _
  | cons part layout ih =>
      -- the blank line belongs to the section behind it, so a last section is a case of its own
      have first := leads_section distinct.has_of_append
        (proper.sections part List.mem_cons_self) extensible current
      have moved : sections ++ table (part :: layout) =
          sections ++ [(part.1, .table (entries part.2))] ++ table layout := List.append_cons _ _ _
      rw [moved] at distinct ⊢
      cases layout with
      | nil =>
          rw [text_singleton, table, List.map_nil, List.append_nil]
          exact ⟨some part.1, first⟩
      | cons next layout =>
          obtain ⟨last, rest⟩ := ih proper.tail distinct (some part.1)
          rw [toList_text_cons]
          exact ⟨last, first.append (.append (.blank _) rest)⟩

/-- A file that is laid out in sections is read back as the table with these sections. -/
theorem read?_text {layout : Layout} (proper : layout.Proper) :
    Table.read? layout.text.toList = some layout.table := by
  obtain ⟨last, leads⟩ := @leads_text layout proper [] proper.distinct [] none
  refine leads.read? ?_
  match layout with
  | [] => nofun
  | [part] =>
      rw [text_singleton, toList_sectionText]
      exact head?_cons_ne.mpr (by decide)
  | part :: next :: layout =>
      rw [toList_text_cons, toList_sectionText]
      exact head?_cons_ne.mpr (by decide)

end Layout

end MonkeyLang.Toml
