import MonkeyLang.Proofs.Toml.Tables
import MonkeyLang.Toml.Reader

/-!
# Tables that are read

A key that stands twice in a file, or twice in a table on one line, is not read. So no key stands
twice in a table that comes from a file, or in one of its sections (`Toml.Table.read?_proper`).
-/

set_option autoImplicit false

namespace MonkeyLang.Toml

theorem integer?_proper {text rest : List Char} {value : Value}
    (read : integer? text = some (value, rest)) : value.Proper := by
  unfold integer? at read
  split at read
  all_goals
    obtain ⟨_, -, built⟩ := Option.bind_eq_some_iff.mp read
    dsimp only at built
    split at built
    · cases built
      trivial
    · cases built

theorem items?_proper {fuel : Nat} {done : List Value} {text rest : List Char} {value : Value}
    (read : items? fuel done text = some (value, rest)) : value.Proper := by
  induction fuel generalizing done text with
  | zero => cases read
  | succ fuel ih =>
      rw [items?] at read
      split at read
      · cases read
        trivial
      · split at read
        · cases read
        · split at read
          · exact ih read
          · cases read
            trivial
          · cases read

theorem entries?_proper {fuel : Nat} {done : Table} (distinct : done.Distinct)
    {text rest : List Char} {value : Value} (read : entries? fuel done text = some (value, rest)) :
    value.Proper := by
  induction fuel generalizing done text with
  | zero => cases read
  | succ fuel ih =>
      rw [entries?] at read
      split at read
      · cases read
      · split at read
        · split at read
          · cases read
          · split at read
            · next inserted _ => exact ih (distinct.insert? inserted).1 read
            · next inserted _ =>
                cases read
                exact (distinct.insert? inserted).1
            · cases read
        · cases read

theorem value?_proper {fuel : Nat} {text rest : List Char} {value : Value}
    (read : value? fuel text = some (value, rest)) : value.Proper := by
  cases fuel with
  | zero => cases read
  | succ fuel =>
      unfold value? at read
      split at read
      · obtain ⟨_, -, same⟩ := Option.map_eq_some_iff.mp read
        cases same
        trivial
      · obtain ⟨_, -, same⟩ := Option.map_eq_some_iff.mp read
        cases same
        trivial
      · cases read
        trivial
      · cases read
        trivial
      · exact items?_proper read
      · split at read
        · cases read
          exact Table.distinct_nil
        · exact entries?_proper Table.distinct_nil read
      · exact integer?_proper read

/-! ## Lines of a file -/

/-- A change of some entries that keeps their keys keeps a table one. -/
theorem Table.Proper.mapM {table changed : Table} (proper : table.Proper)
    {change : String × Value → Option (String × Value)}
    (keeps : ∀ old new, change old = some new → new.1 = old.1 ∧ (old.2.Proper → new.2.Proper))
    (mapped : table.mapM change = some changed) : changed.Proper := by
  have same : ∀ table changed : Table, table.mapM change = some changed →
      changed.map Prod.fst = table.map Prod.fst ∧
        ((∀ entry ∈ table, entry.2.Proper) → ∀ entry ∈ changed, entry.2.Proper) := by
    intro table
    induction table with
    | nil =>
        rintro changed ⟨⟩
        exact ⟨rfl, id⟩
    | cons old table ih =>
        intro changed mapped
        rw [List.mapM_cons] at mapped
        obtain ⟨new, first, mapped⟩ := Option.bind_eq_some_iff.mp mapped
        obtain ⟨more, rest, mapped⟩ := Option.bind_eq_some_iff.mp mapped
        obtain rfl := Option.some.inj mapped
        obtain ⟨keys, contents⟩ := ih more rest
        obtain ⟨key, content⟩ := keeps old new first
        refine ⟨by rw [List.map_cons, List.map_cons, keys, key], fun all => ?_⟩
        rw [List.forall_mem_cons] at all ⊢
        exact ⟨content all.1, contents all.2⟩
  obtain ⟨keys, contents⟩ := same table changed mapped
  exact ⟨by rw [Distinct, keys]; exact proper.distinct, contents proper.contents⟩

namespace Table.Proper

variable {table changed : Table} (proper : table.Proper)

include proper

theorem insert? {key : String} {value : Value} (content : value.Proper)
    (inserted : table.insert? key value = some changed) : changed.Proper := by
  obtain ⟨distinct, entries⟩ := proper.distinct.insert? inserted
  refine ⟨distinct, fun entry member => ?_⟩
  rcases entries entry member with old | rfl
  · exact proper.contents entry old
  · exact content

theorem insertInto? {name key : String} {value : Value}
    (inserted : table.insertInto? name key value = some changed) : changed.Proper := by
  refine proper.mapM (fun old new change => ?_) inserted
  obtain ⟨name, content⟩ := old
  dsimp only at change
  split at change
  · split at change
    · obtain ⟨entries, put, rfl⟩ := Option.map_eq_some_iff.mp change
      exact ⟨rfl, fun distinct => (Distinct.insert? distinct put).1⟩
    · cases change
  · obtain rfl := Option.some.inj change
    exact ⟨rfl, id⟩

end Table.Proper

namespace Progress

variable {progress changed : Progress} (proper : progress.table.Proper)

include proper

theorem openSection?_proper {name : String} (opened : progress.openSection? name = some changed) :
    changed.table.Proper := by
  obtain ⟨table, inserted, same⟩ := Option.bind_eq_some_iff.mp opened
  obtain rfl := Option.some.inj same
  have content : (Value.table []).Proper := Table.distinct_nil
  exact proper.insert? content inserted

theorem assign?_proper {path : String × Option String} {value : Value} (content : value.Proper)
    (assigned : progress.assign? path value = some changed) : changed.table.Proper := by
  have single (key : String) : (Value.table [(key, value)]).Proper := List.pairwise_singleton _ _
  unfold assign? at assigned
  split at assigned
  · obtain ⟨table, inserted, same⟩ := Option.bind_eq_some_iff.mp assigned
    obtain rfl := Option.some.inj same
    exact proper.insert? content inserted
  · obtain ⟨table, inserted, same⟩ := Option.bind_eq_some_iff.mp assigned
    obtain rfl := Option.some.inj same
    exact proper.insertInto? inserted
  · split at assigned
    · obtain ⟨table, inserted, same⟩ := Option.bind_eq_some_iff.mp assigned
      obtain rfl := Option.some.inj same
      exact proper.insertInto? inserted
    · obtain ⟨table, inserted, same⟩ := Option.bind_eq_some_iff.mp assigned
      obtain rfl := Option.some.inj same
      exact proper.insert? (single _) inserted
  · cases assigned

/-- A line adds to the table that it is a proper one. -/
theorem line?_proper {text rest : List Char} (read : line? progress text = some (changed, rest)) :
    changed.table.Proper := by
  unfold line? at read
  split at read
  · obtain ⟨⟨name, behind⟩, -, read⟩ := Option.bind_eq_some_iff.mp read
    dsimp only at read
    split at read
    · obtain ⟨opened, opens, read⟩ := Option.bind_eq_some_iff.mp read
      obtain ⟨_, -, same⟩ := Option.bind_eq_some_iff.mp read
      cases same
      exact openSection?_proper proper opens
    · cases read
  · split at read
    · cases read
      exact proper
    · obtain ⟨⟨path, behind⟩, -, read⟩ := Option.bind_eq_some_iff.mp read
      dsimp only at read
      split at read
      · obtain ⟨⟨value, behind⟩, content, read⟩ := Option.bind_eq_some_iff.mp read
        obtain ⟨assigned, assigns, read⟩ := Option.bind_eq_some_iff.mp read
        obtain ⟨_, -, same⟩ := Option.bind_eq_some_iff.mp read
        cases same
        exact assign?_proper proper (value?_proper content) assigns
      · cases read

theorem lines?_proper {fuel : Nat} {text : List Char}
    (read : lines? fuel progress text = some changed) : changed.table.Proper := by
  induction fuel generalizing progress text with
  | zero =>
      cases text with
      | nil =>
          obtain rfl := Option.some.inj read
          exact proper
      | cons => cases read
  | succ fuel ih =>
      cases text with
      | nil =>
          obtain rfl := Option.some.inj read
          exact proper
      | cons c text =>
          obtain ⟨⟨after, rest⟩, line, read⟩ := Option.bind_eq_some_iff.mp read
          exact ih (line?_proper proper line) read

end Progress

/-- No key stands twice in a table that is read from a file, or in one of its sections. -/
theorem Table.read?_proper {text : List Char} {table : Table}
    (read : Table.read? text = some table) : table.Proper := by
  obtain ⟨progress, lines, rfl⟩ := Option.map_eq_some_iff.mp read
  exact Progress.lines?_proper ⟨Table.distinct_nil, List.forall_mem_nil _⟩ lines

end MonkeyLang.Toml
