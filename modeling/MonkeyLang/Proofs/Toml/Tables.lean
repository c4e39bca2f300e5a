import MonkeyLang.Settings.Layers
import MonkeyLang.Toml.Basic

/-!
# Tables laid over one another

No key stands in a table twice, and so a table is known by what it has under each key. Under each
key, a table laid over another has what either of them has there, and one laid over the other if
both have something (`Toml.Table.find?_over`). Since only tables are joined, any other value hides
what is below it (`Toml.Table.beneath`).

What a library reads is a table (`Toml.Library.ReadsTables`), and it reads the sections back that it
writes, with the strings, the truth values and the whole numbers in them, in whatever order
(`Toml.Library.Rereads`). Nothing else is asked of it.
-/

set_option autoImplicit false

namespace MonkeyLang.Toml

namespace Table

/-- No key stands in the table twice. -/
def Distinct (table : Table) : Prop := (table.map Prod.fst).Nodup

theorem distinct_nil : Distinct [] := List.nodup_nil

theorem find?_cons (name key : String) (value : Value) (table : Table) :
    find? ((name, value) :: table) key = if key = name then some value else find? table key := by
  rw [find?, List.lookup_cons]
  by_cases same : key = name
  · simp [same]
  · rw [beq_false_of_ne same, if_neg same]
    rfl

theorem find?_append (table more : Table) (key : String) :
    find? (table ++ more) key = (table.find? key).or (more.find? key) := List.lookup_append

theorem has_eq (table : Table) (key : String) : table.has key = (table.find? key).isSome := by
  induction table with
  | nil => rfl
  | cons entry table ih =>
      obtain ⟨name, value⟩ := entry
      rw [find?_cons, has, List.any_cons, ← has, ih]
      by_cases same : name = key
      · simp [same]
      · simp [same, Ne.symm same]

theorem mem_of_find? {table : Table} {key : String} {value : Value}
    (found : table.find? key = some value) : (key, value) ∈ table := by
  obtain ⟨front, back, rfl, -⟩ := List.lookup_eq_some_iff.mp found
  exact List.mem_append_right _ List.mem_cons_self

theorem find?_eq_none {table : Table} {key : String} :
    table.find? key = none ↔ key ∉ table.map Prod.fst := by
  induction table with
  | nil => simp [find?]
  | cons entry table ih =>
      obtain ⟨name, value⟩ := entry
      rw [find?_cons, List.map_cons, List.mem_cons, not_or, ← ih]
      by_cases same : key = name <;> simp [same]

theorem Distinct.find?_of_mem {table : Table} (distinct : table.Distinct) {key : String}
    {value : Value} (member : (key, value) ∈ table) : table.find? key = some value := by
  induction table with
  | nil => cases member
  | cons entry table ih =>
      obtain ⟨name, first⟩ := entry
      obtain ⟨fresh, rest⟩ := List.nodup_cons.mp distinct
      rw [find?_cons]
      rcases List.mem_cons.mp member with same | later
      · obtain ⟨rfl, rfl⟩ := Prod.mk.inj same
        exact if_pos rfl
      · have other : key ≠ name := by
          rintro rfl
          exact fresh (List.mem_map.mpr ⟨_, later, rfl⟩)
        rw [if_neg other, ih rest later]

/-! ## What changes -/

theorem Distinct.concat {table : Table} (distinct : table.Distinct) {key : String}
    (fresh : table.has key = false) (value : Value) : Distinct (table ++ [(key, value)]) := by
  rw [has_eq, Option.isSome_eq_false_iff, Option.isNone_iff_eq_none, find?_eq_none] at fresh
  rw [Distinct, List.map_append, List.nodup_append]
  refine ⟨distinct, List.pairwise_singleton _ key, fun name member other single => ?_⟩
  obtain rfl := List.mem_singleton.mp single
  exact ne_of_mem_of_not_mem member fresh

theorem Distinct.insert? {table changed : Table} (distinct : table.Distinct) {key : String}
    {value : Value} (inserted : table.insert? key value = some changed) :
    changed.Distinct ∧ ∀ entry ∈ changed, entry ∈ table ∨ entry = (key, value) := by
  rw [Table.insert?] at inserted
  split at inserted
  · cases inserted
  · next fresh =>
      obtain rfl := Option.some.inj inserted
      exact ⟨distinct.concat (Bool.not_eq_true _ ▸ fresh) value, fun entry member => by
        simpa using member⟩

section

variable {change : String × Value → String × Value} (kept : ∀ entry, (change entry).1 = entry.1)

include kept

theorem Distinct.map {table : Table} (distinct : table.Distinct) :
    Distinct (table.map change) := by
  have keys : (table.map change).map Prod.fst = table.map Prod.fst := by
    rw [List.map_map]
    exact List.map_congr_left fun entry _ => kept entry
  rw [Distinct, keys]
  exact distinct

theorem find?_map (table : Table) (key : String) :
    find? (table.map change) key = (table.find? key).map fun old => (change (key, old)).2 := by
  induction table with
  | nil => rfl
  | cons entry table ih =>
      obtain ⟨name, old⟩ := entry
      have changed : change (name, old) = (name, (change (name, old)).2) :=
        Prod.ext (kept (name, old)) rfl
      rw [List.map_cons, changed, find?_cons, find?_cons, ih]
      by_cases same : key = name
      · rw [if_pos same, if_pos same, same]
        rfl
      · rw [if_neg same, if_neg same]

end

/-- The change of the entries that puts in the value of a key. -/
theorem replace_kept (key : String) (value : Value) (entry : String × Value) :
    (if entry.1 == key then (entry.1, value) else entry).1 = entry.1 := by
  split <;> rfl

theorem replace_eq (table : Table) (key : String) (value : Value) :
    table.replace key value =
      if table.has key then
        table.map fun entry => if entry.1 == key then (entry.1, value) else entry
      else table ++ [(key, value)] := rfl

theorem Distinct.replace {table : Table} (distinct : table.Distinct) (key : String)
    (value : Value) : (table.replace key value).Distinct := by
  rw [replace_eq]
  split
  · exact distinct.map (replace_kept key value)
  · next fresh => exact distinct.concat (Bool.not_eq_true _ ▸ fresh) value

theorem find?_replace (table : Table) (key other : String) (value : Value) :
    (table.replace key value).find? other =
      if other = key then some value else table.find? other := by
  rw [replace_eq, has_eq]
  cases present : table.find? key with
  | some old =>
      rw [Option.isSome_some, if_pos rfl, find?_map (replace_kept key value)]
      by_cases same : other = key
      · rw [if_pos same, same, present]
        simp
      · rw [if_neg same]
        simp [same]
  | none =>
      rw [Option.isSome_none, if_neg Bool.false_ne_true, find?_append, find?_cons]
      by_cases same : other = key
      · rw [if_pos same, if_pos same, same, present, Option.none_or]
      · rw [if_neg same, if_neg same]
        exact Option.or_none

/-! ## Tables over tables -/

theorem over_cons (key : String) (value : Value) (rest : List (String × Value)) (below : Table) :
    Table.over ((key, value) :: rest) below = Table.over rest (below.replace key
      ((below.find? key).elim value (Value.over value))) := by
  rw [Table.over]
  cases below.find? key <;> rfl

theorem Distinct.over {below : Table} (distinct : below.Distinct)
    (above : List (String × Value)) : (Table.over above below).Distinct := by
  induction above generalizing below with
  | nil =>
      rw [Table.over]
      exact distinct
  | cons entry above ih =>
      obtain ⟨key, value⟩ := entry
      rw [over_cons]
      exact ih (distinct.replace key _)

/-- Under each key, a table laid over another has what either of them has, one over the other. -/
theorem find?_over {above : Table} (distinct : above.Distinct) (below : Table) (key : String) :
    (Table.over above below).find? key =
      Option.merge Value.over (above.find? key) (below.find? key) := by
  induction above generalizing below with
  | nil =>
      rw [Table.over]
      exact Option.merge_none_left.symm
  | cons entry above ih =>
      obtain ⟨name, value⟩ := entry
      obtain ⟨fresh, rest⟩ := List.nodup_cons.mp distinct
      rw [over_cons, ih rest, find?_replace, find?_cons]
      by_cases same : key = name
      · subst same
        rw [if_pos rfl, if_pos rfl, find?_eq_none.mpr fresh]
        cases below.find? key <;> rfl
      · rw [if_neg same, if_neg same]

/-- A key of a table laid over another is a key of one of them. -/
theorem mem_of_mem_over {above below : Table} (distinct : above.Distinct) {entry : String × Value}
    (member : entry ∈ Table.over above below) :
    (∃ value, (entry.1, value) ∈ above) ∨ ∃ value, (entry.1, value) ∈ below := by
  have found : (Table.over above below).find? entry.1 ≠ none := fun none =>
    find?_eq_none.mp none (List.mem_map_of_mem member)
  rw [find?_over distinct] at found
  cases upper : above.find? entry.1 with
  | some value => exact .inl ⟨value, mem_of_find? upper⟩
  | none =>
      cases lower : below.find? entry.1 with
      | some value => exact .inr ⟨value, mem_of_find? lower⟩
      | none =>
          rw [upper, lower] at found
          exact absurd rfl found

/-- A table over a table that has none of its keys is a longer table. -/
theorem over_eq_append {above : Table} (distinct : above.Distinct) {below : Table}
    (apart : ∀ key ∈ above.map Prod.fst, below.find? key = none) :
    Table.over above below = below ++ above := by
  induction above generalizing below with
  | nil =>
      rw [Table.over, List.append_nil]
  | cons entry above ih =>
      obtain ⟨name, value⟩ := entry
      obtain ⟨fresh, rest⟩ := List.nodup_cons.mp distinct
      have absent := apart name List.mem_cons_self
      have place : below.replace name value = below ++ [(name, value)] := by
        rw [replace, has_eq, absent]
        rfl
      rw [over_cons, absent, Option.elim_none, place, ih rest, List.append_assoc]
      · rfl
      · intro key member
        have other : key ≠ name := ne_of_mem_of_not_mem member fresh
        rw [find?_append, apart key (List.mem_cons_of_mem _ member), Option.none_or, find?_cons,
          if_neg other]
        rfl

theorem over_nil {above : Table} (distinct : above.Distinct) : Table.over above [] = above :=
  over_eq_append distinct fun _ _ => rfl

/-! ## What is still seen -/

theorem find?_filter {table : Table} (distinct : table.Distinct)
    (keep : String × Value → Bool) (key : String) :
    find? (table.filter keep) key = (table.find? key).filter fun old => keep (key, old) := by
  induction table with
  | nil => rfl
  | cons entry table ih =>
      obtain ⟨name, old⟩ := entry
      obtain ⟨fresh, rest⟩ := List.nodup_cons.mp distinct
      rw [find?_cons]
      by_cases same : key = name
      · subst same
        rw [if_pos rfl, List.filter_cons]
        split
        · next kept => rw [find?_cons, if_pos rfl, Option.filter_some, if_pos kept]
        · next dropped =>
            rw [ih rest, find?_eq_none.mpr fresh, Option.filter_some, if_neg dropped]
            rfl
      · rw [if_neg same, ← ih rest, List.filter_cons]
        split
        · rw [find?_cons, if_neg same]
        · rfl

end Table

/-- Whether the value is a table. -/
def Value.isTable : Value → Bool
  | .table _ => true
  | _ => false

namespace Table

/-- What is still seen of a table under another one: the values with no value over them, and the
tables with a table over them. -/
def beneath (above below : Table) : Table :=
  below.filter fun entry => (above.find? entry.1).all fun cover => cover.isTable && entry.2.isTable

theorem find?_beneath {below : Table} (distinct : below.Distinct) (above : Table) (key : String) :
    (beneath above below).find? key = (below.find? key).filter fun old =>
      (above.find? key).all fun cover => cover.isTable && old.isTable :=
  find?_filter distinct _ key

theorem Distinct.beneath {below : Table} (distinct : below.Distinct) (above : Table) :
    (Table.beneath above below).Distinct :=
  distinct.sublist (List.filter_sublist.map Prod.fst)

/-- Tables of tables are seen under one another as they are. -/
theorem beneath_of_tables {above below : Table} (covers : ∀ entry ∈ above, entry.2.isTable = true)
    (covered : ∀ entry ∈ below, entry.2.isTable = true) : beneath above below = below := by
  refine List.filter_eq_self.mpr fun entry member => ?_
  rw [Option.all_eq_true]
  intro cover found
  rw [covers _ (mem_of_find? found), covered entry member]
  rfl

end Table

/-- If the value is a table, no key stands in it twice. -/
def Value.Proper : Value → Prop
  | .table entries => Table.Distinct entries
  | _ => True

/-- No key stands twice in the table or in one of its sections. -/
structure Table.Proper (table : Table) : Prop where
  distinct : table.Distinct
  contents : ∀ entry ∈ table, entry.2.Proper

/-! ## What is asked of a library -/

/-- The value is a whole number, a truth value or a string. -/
def Value.IsLeaf : Value → Prop
  | .integer _ => True
  | .boolean _ => True
  | .string _ => True
  | _ => False

namespace Table

/-- The table has sections, and these have whole numbers, truth values and strings. -/
structure Plain (table : Table) : Prop where
  distinct : table.Distinct
  sections : ∀ entry ∈ table, ∃ entries, entry.2 = .table entries ∧ Distinct entries ∧
    ∀ leaf ∈ entries, leaf.2.IsLeaf

/-- Two tables have the same sections, with the same values under the same keys. -/
def Agrees (first second : Table) : Prop :=
  ∀ name, (first.find? name = none ∧ second.find? name = none) ∨
    ∃ entries others : Table, first.find? name = some (.table entries) ∧
      second.find? name = some (.table others) ∧ ∀ key, entries.find? key = others.find? key

theorem Plain.agrees {table : Table} (plain : table.Plain) : table.Agrees table := by
  intro name
  cases found : table.find? name with
  | none => exact .inl ⟨rfl, rfl⟩
  | some content =>
    obtain ⟨entries, is, -⟩ := plain.sections _ (mem_of_find? found)
    rw [show content = .table entries from is]
    exact .inr ⟨entries, entries, rfl, rfl, fun _ => rfl⟩

end Table

namespace Library

variable (library : Library)

/-- What is read is a table: no key stands twice in it or in one of its sections. -/
def ReadsTables : Prop :=
  ∀ text table, library.read? text = some table → table.Proper

/-- The strings, truth values and whole numbers that are written in sections are read back. -/
def Rereads : Prop :=
  ∀ table text, table.Plain → library.write? table = some text →
    ∃ again, library.read? text.toList = some again ∧ again.Agrees table

end Library

end MonkeyLang.Toml
