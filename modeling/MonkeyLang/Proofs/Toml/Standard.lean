import MonkeyLang.Proofs.Toml.Tables
import MonkeyLang.Proofs.Toml.Reading
import MonkeyLang.Proofs.Toml.WrittenTables

/-!
# The library for TOML that runs

What the library that runs reads is a table (`Toml.Library.standard_readsTables`). A table that it
writes is laid out in sections (`Toml.Table.exists_layout`), so that it is read back as it is
(`Toml.Library.standard_rereads`).
-/

set_option autoImplicit false

namespace MonkeyLang.Toml

/-- If all items are changed, and whatever is changed is some part, then the items are parts. -/
theorem exists_parts_of_mapM {α β γ : Type} {change : α → Option β} {item : γ → α} {result : γ → β}
    {good : γ → Prop} {items : List α} {results : List β}
    (parts : ∀ one other, change one = some other →
      ∃ part, good part ∧ item part = one ∧ result part = other)
    (changed : items.mapM change = some results) :
    ∃ parts : List γ, (∀ part ∈ parts, good part) ∧ parts.map item = items ∧
      parts.map result = results := by
  induction items generalizing results with
  | nil =>
    cases changed
    exact ⟨[], List.forall_mem_nil _, rfl, rfl⟩
  | cons one items ih =>
    rw [List.mapM_cons] at changed
    obtain ⟨other, first, changed⟩ := Option.bind_eq_some_iff.mp changed
    obtain ⟨others, rest, made⟩ := Option.bind_eq_some_iff.mp changed
    cases made
    obtain ⟨part, holds, rfl, rfl⟩ := parts one other first
    obtain ⟨more, all, rfl, rfl⟩ := ih rest
    exact ⟨part :: more, List.forall_mem_cons.mpr ⟨holds, all⟩, rfl, rfl⟩

theorem isBare_of_isBareName {name : String} (bare : isBareName name = true) : IsBare name := by
  rw [isBareName, Bool.and_eq_true, Bool.not_eq_true', List.isEmpty_eq_false_iff] at bare
  exact ⟨bare.1, List.all_eq_true.mp bare.2⟩

theorem exists_leaf {value : Value} {text : String} (written : leafText? value = some text) :
    ∃ leaf : Leaf, leaf.Fits ∧ leaf.value = value ∧ leaf.text = text := by
  cases value with
  | integer number =>
    obtain ⟨inside, made⟩ := Option.ite_none_right_eq_some.mp written
    cases made
    rw [Bool.and_eq_true, decide_eq_true_eq, decide_eq_true_eq] at inside
    obtain ⟨size, rfl⟩ := Int.eq_ofNat_of_zero_le inside.1
    exact ⟨.size size, inside.2, rfl, rfl⟩
  | boolean value =>
    cases written
    exact ⟨.boolean value, trivial, rfl, rfl⟩
  | string value =>
    cases written
    exact ⟨.string value, trivial, rfl, rfl⟩
  | _ => cases written

/-- The lines of a section are those of leaves under bare keys. -/
theorem exists_leaves {entries : Table} {lines : List String}
    (written : sectionLines? entries = some lines) :
    ∃ leaves : List (String × Leaf), (∀ leaf ∈ leaves, IsBare leaf.1 ∧ leaf.2.Fits) ∧
      Layout.entries leaves = entries ∧
      (leaves.map fun leaf => entryLine leaf.1 leaf.2.text) = lines := by
  refine exists_parts_of_mapM ?_ written
  rintro ⟨key, value⟩ line made
  obtain ⟨bare, made⟩ := Option.ite_none_right_eq_some.mp made
  obtain ⟨text, written, rfl⟩ := Option.map_eq_some_iff.mp made
  obtain ⟨leaf, fits, rfl, rfl⟩ := exists_leaf written
  exact ⟨(key, leaf), ⟨isBare_of_isBareName bare, fits⟩, rfl, rfl⟩

/-- A table that is written is laid out in sections. -/
theorem Table.exists_layout {table : Table} {text : String} (plain : table.Plain)
    (written : table.write? = some text) :
    ∃ layout : Layout, layout.Proper ∧ layout.table = table ∧ layout.text = text := by
  obtain ⟨sections, changed, made⟩ := Option.bind_eq_some_iff.mp written
  cases made
  obtain ⟨layout, all, rfl, rfl⟩ : ∃ layout : Layout,
      (∀ part ∈ layout, IsBare part.1 ∧ ∀ leaf ∈ part.2, IsBare leaf.1 ∧ leaf.2.Fits) ∧
        layout.table = table ∧ layout.map Layout.sectionText = sections := by
    refine exists_parts_of_mapM ?_ changed
    rintro ⟨name, content⟩ lines made
    cases content with
    | table entries =>
      obtain ⟨bare, made⟩ := Option.ite_none_right_eq_some.mp made
      obtain ⟨texts, written, rfl⟩ := Option.map_eq_some_iff.mp made
      obtain ⟨leaves, all, rfl, rfl⟩ := exists_leaves written
      exact ⟨(name, leaves), ⟨isBare_of_isBareName bare, all⟩, rfl, rfl⟩
    | _ => cases made
  refine ⟨layout, ⟨plain.distinct, fun part member => ?_⟩, rfl, rfl⟩
  obtain ⟨entries, is, distinct, -⟩ := plain.sections _ (List.mem_map_of_mem member)
  cases is
  exact ⟨(all part member).1, fun leaf among => ((all part member).2 leaf among).1, distinct,
    fun leaf among => ((all part member).2 leaf among).2⟩

namespace Library

theorem standard_readsTables : standard.ReadsTables := fun _ _ read => Table.read?_proper read

theorem standard_rereads : standard.Rereads := by
  intro table text plain written
  obtain ⟨layout, proper, rfl, rfl⟩ := Table.exists_layout plain written
  exact ⟨_, Layout.read?_text proper, plain.agrees⟩

end Library

end MonkeyLang.Toml
