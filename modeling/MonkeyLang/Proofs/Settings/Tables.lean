import MonkeyLang.Proofs.Toml.Tables

/-!
# What tables say of the settings

A table of settings has known sections with known keys, and what stands there can be read
(`Settings.Fits`). Each field of the settings is what the table says of it, or else what is usual
(`Settings.ofTable?_eq_some`). A table laid over another one says what the upper one says, and else
what is seen of the lower one (`Settings.Fits.over`): sections that are tables are joined key by
key, but a section that is an array hides the one below, and is hidden by the one above.
-/

set_option autoImplicit false

namespace MonkeyLang

/-! ## Values that can be read -/

namespace Toml.Value

/-- The size that a value stands for. -/
def size? : Value → Option Nat
  | .integer value => if 0 ≤ value then some value.toNat else none
  | _ => none

/-- The string that a value stands for. -/
def string? : Value → Option String
  | .string value => some value
  | _ => none

/-- The truth value that a value stands for. -/
def boolean? : Value → Option Bool
  | .boolean value => some value
  | _ => none

/-- Unless both are tables, a value takes the place of the one below. -/
theorem over_of_not_both {above below : Value} (single : (above.isTable && below.isTable) = false) :
    above.over below = above := by
  cases above with
  | table => cases below <;> first | rfl | cases single
  | _ => cases below <;> rfl

theorem tables_of_both {above below : Value} (joint : (above.isTable && below.isTable) = true) :
    ∃ upper, above = .table upper ∧ ∃ lower, below = .table lower := by
  cases above <;> cases below <;> first | exact ⟨_, rfl, _, rfl⟩ | cases joint

theorem over_of_not_isTable {above : Value} (single : above.isTable = false) (below : Value) :
    above.over below = above :=
  over_of_not_both (by rw [single, Bool.false_and])

end Toml.Value

namespace Settings

open Toml (Table)

section

variable {α : Type}

/-- What entries say under a key. -/
def said (read : Toml.Value → Option α) (entries : Table) (key : String) : Option α :=
  (entries.find? key).bind read

/-- What entries have under a key can be read. -/
def Reads (read : Toml.Value → Option α) (entries : Table) (key : String) : Prop :=
  ∀ value, entries.find? key = some value → ∃ content, read value = some content

theorem elim_eq_some (read : Toml.Value → Option α) (entries : Table) (key : String)
    (usual result : α) : (entries.find? key).elim (some usual) read = some result ↔
      Reads read entries key ∧ (said read entries key).getD usual = result := by
  rw [Reads, said]
  cases entries.find? key with
  | none => simp
  | some value => cases content : read value <;> simp [content]

end

theorem size?_eq_some {entries : Table} {key : String} {usual result : Nat} :
    size? entries key usual = some result ↔
      Reads Toml.Value.size? entries key ∧
        (said Toml.Value.size? entries key).getD usual = result := by
  rw [← elim_eq_some, size?]
  cases entries.find? key with
  | none => rfl
  | some value => cases value <;> rfl

theorem string?_eq_some {entries : Table} {key usual result : String} :
    string? entries key usual = some result ↔
      Reads Toml.Value.string? entries key ∧
        (said Toml.Value.string? entries key).getD usual = result := by
  rw [← elim_eq_some, string?]
  cases entries.find? key with
  | none => rfl
  | some value => cases value <;> rfl

theorem boolean?_eq_some {entries : Table} {key : String} {usual result : Bool} :
    boolean? entries key usual = some result ↔
      Reads Toml.Value.boolean? entries key ∧
        (said Toml.Value.boolean? entries key).getD usual = result := by
  rw [← elim_eq_some, boolean?]
  cases entries.find? key with
  | none => rfl
  | some value => cases value <;> rfl

theorem optionalString?_eq_some {entries : Table} {key : String} {result : Option String} :
    optionalString? entries key = some result ↔
      Reads Toml.Value.string? entries key ∧ said Toml.Value.string? entries key = result := by
  rw [optionalString?, Reads, said]
  cases entries.find? key with
  | none => simp
  | some value => cases value <;> simp [Toml.Value.string?]

/-! ## What a table says -/

theorem entries?_table {keys : List String} {table entries : Table} :
    entries? keys (.table table) = some entries ↔
      (∀ entry ∈ table, entry.1 ∈ keys) ∧ table = entries := by
  have known : (table.all fun entry => keys.contains entry.1) = true ↔
      ∀ entry ∈ table, entry.1 ∈ keys := by simp
  rw [← known]
  exact Option.ite_none_right_eq_some.trans (and_congr_right fun _ => Option.some_inj)

/-- The entries of a section; there are none if there is no such section. -/
def section? (table : Table) (name : String) (keys : List String) : Option Table :=
  (table.find? name).elim (some []) (entries? keys)

/-- A table is one of settings: it has known sections with known keys, and the values can be
read. -/
structure Fits (table : Table) : Prop where
  names : ∀ entry ∈ table, entry.1 = "vm" ∨ entry.1 = "repl"
  machine : ∃ entries, section? table "vm" machineKeys = some entries ∧
    ∀ key ∈ machineKeys, Reads Toml.Value.size? entries key
  session : ∃ entries, section? table "repl" sessionKeys = some entries ∧
    Reads Toml.Value.string? entries "prompt" ∧ Reads Toml.Value.boolean? entries "history" ∧
      Reads Toml.Value.string? entries "history_file"

/-- What is said of the settings in one place. -/
structure Layer where
  stackSize : Option Nat
  maxFrames : Option Nat
  globalsSize : Option Nat
  prompt : Option String
  history : Option Bool
  historyFile : Option String

/-- What a table says. -/
def Layer.ofTable (table : Table) : Layer :=
  let machine := (section? table "vm" machineKeys).getD []
  let session := (section? table "repl" sessionKeys).getD []
  { stackSize := said Toml.Value.size? machine "stack_size"
    maxFrames := said Toml.Value.size? machine "max_frames"
    globalsSize := said Toml.Value.size? machine "globals_size"
    prompt := said Toml.Value.string? session "prompt"
    history := said Toml.Value.boolean? session "history"
    historyFile := said Toml.Value.string? session "history_file" }

/-- What is said above, and otherwise what is said below. -/
def Layer.over (above below : Layer) : Layer where
  stackSize := above.stackSize.or below.stackSize
  maxFrames := above.maxFrames.or below.maxFrames
  globalsSize := above.globalsSize.or below.globalsSize
  prompt := above.prompt.or below.prompt
  history := above.history.or below.history
  historyFile := above.historyFile.or below.historyFile

/-- The settings with what is said, and otherwise with what is usual. -/
def Layer.settings (layer : Layer) : Settings where
  limits :=
    ⟨layer.stackSize.getD Limits.default.stackSize, layer.maxFrames.getD Limits.default.maxFrames,
      layer.globalsSize.getD Limits.default.globalsSize⟩
  prompt := layer.prompt.getD Settings.default.prompt
  history := layer.history.getD Settings.default.history
  historyFile := layer.historyFile

/-- The limits that entries say, and otherwise the usual ones. -/
def limitsSaid (entries : Table) : Limits where
  stackSize := (said Toml.Value.size? entries "stack_size").getD Limits.default.stackSize
  maxFrames := (said Toml.Value.size? entries "max_frames").getD Limits.default.maxFrames
  globalsSize := (said Toml.Value.size? entries "globals_size").getD Limits.default.globalsSize

theorem limitsOf?_eq_some {content : Toml.Value} {limits : Limits} :
    limitsOf? content = some limits ↔ ∃ entries, entries? machineKeys content = some entries ∧
      (∀ key ∈ machineKeys, Reads Toml.Value.size? entries key) ∧ limitsSaid entries = limits := by
  rw [limitsOf?]
  simp only [Option.bind_eq_bind, Option.bind_eq_some_iff, size?_eq_some, machineKeys,
    List.forall_mem_cons, List.not_mem_nil, false_implies, implies_true, and_true, Option.pure_def,
    Option.some.injEq]
  constructor
  · rintro ⟨entries, known, _, ⟨stack, rfl⟩, _, ⟨frames, rfl⟩, _, ⟨globals, rfl⟩, rfl⟩
    exact ⟨entries, known, ⟨stack, frames, globals⟩, rfl⟩
  · rintro ⟨entries, known, ⟨stack, frames, globals⟩, rfl⟩
    exact ⟨entries, known, _, ⟨stack, rfl⟩, _, ⟨frames, rfl⟩, _, ⟨globals, rfl⟩, rfl⟩

theorem machine_eq_some {table : Table} {limits : Limits} :
    (table.find? "vm").elim (some Limits.default) limitsOf? = some limits ↔
      ∃ entries, section? table "vm" machineKeys = some entries ∧
        (∀ key ∈ machineKeys, Reads Toml.Value.size? entries key) ∧
          limitsSaid entries = limits := by
  rw [section?]
  cases table.find? "vm" with
  | none =>
      have none : ∀ key ∈ machineKeys, Reads Toml.Value.size? [] key := by
        rintro _ _ _ ⟨⟩
      simp only [Option.elim_none, Option.some.injEq, exists_eq_left']
      exact ⟨fun usual => ⟨none, usual⟩, fun both => both.2⟩
  | some content => exact limitsOf?_eq_some

theorem ofTable?_eq (table : Table) : ofTable? table =
    if table.all fun entry => ["vm", "repl"].contains entry.1 then
      ((table.find? "vm").elim (some Limits.default) limitsOf?).bind fun limits =>
        (section? table "repl" sessionKeys).bind fun entries =>
          (string? entries "prompt" Settings.default.prompt).bind fun prompt =>
            (boolean? entries "history" Settings.default.history).bind fun history =>
              (optionalString? entries "history_file").bind fun historyFile =>
                some ⟨limits, prompt, history, historyFile⟩
    else none := by
  unfold ofTable? section?
  cases table.all fun entry => ["vm", "repl"].contains entry.1 with
  | false => rfl
  | true => cases table.find? "vm" <;> cases table.find? "repl" <;> rfl

/-- What a table of settings says, and otherwise what is usual, are the settings. -/
theorem ofTable?_eq_some {table : Table} {settings : Settings} :
    ofTable? table = some settings ↔ Fits table ∧ (Layer.ofTable table).settings = settings := by
  have names : (table.all fun entry => ["vm", "repl"].contains entry.1) = true ↔
      ∀ entry ∈ table, entry.1 = "vm" ∨ entry.1 = "repl" := by simp
  rw [ofTable?_eq, Option.ite_none_right_eq_some, names]
  simp only [Option.bind_eq_some_iff, machine_eq_some, string?_eq_some, boolean?_eq_some,
    optionalString?_eq_some, Option.some.injEq]
  constructor
  · rintro ⟨names, _, ⟨machine, vm, sizes, rfl⟩, session, repl, _, ⟨prompt, rfl⟩, _,
      ⟨history, rfl⟩, _, ⟨file, rfl⟩, rfl⟩
    refine ⟨⟨names, ⟨machine, vm, sizes⟩, session, repl, prompt, history, file⟩, ?_⟩
    rw [Layer.ofTable, vm, repl]
    rfl
  · rintro ⟨⟨names, ⟨machine, vm, sizes⟩, session, repl, prompt, history, file⟩, rfl⟩
    refine ⟨names, _, ⟨machine, vm, sizes, rfl⟩, session, repl, _, ⟨prompt, rfl⟩, _,
      ⟨history, rfl⟩, _, ⟨file, rfl⟩, ?_⟩
    rw [Layer.ofTable, vm, repl]
    rfl

/-! ## Tables over tables -/

/-- Under each key, entries have what those above have, or else what those below have, or the one
over the other. -/
def Joins (above below both : Table) : Prop :=
  ∀ key, both.find? key = Option.merge Toml.Value.over (above.find? key) (below.find? key)

section

variable {α : Type} {read : Toml.Value → Option α} {above below both : Table} {key : String}

/-- A value that can be read and is no table stands above as it is. -/
theorem Joins.find? (joins : Joins above below both) (tables : ∀ table, read (.table table) = none)
    (reads : Reads read above key) :
    both.find? key = (above.find? key).or (below.find? key) := by
  rw [joins key]
  cases found : above.find? key with
  | none => cases below.find? key <;> rfl
  | some value =>
      obtain ⟨content, shown⟩ := reads value found
      have single : value.isTable = false := by
        cases value with
        | table entries =>
            rw [tables] at shown
            cases shown
        | _ => rfl
      cases below.find? key with
      | none => rfl
      | some old => exact congrArg some (Toml.Value.over_of_not_isTable single old)

/-- Joined entries say what those above say, and otherwise what those below say. -/
theorem Joins.said (joins : Joins above below both) (tables : ∀ table, read (.table table) = none)
    (reads : Reads read above key) :
    said read both key = (said read above key).or (said read below key) := by
  rw [Settings.said, Settings.said, Settings.said, joins.find? tables reads]
  cases found : above.find? key with
  | none => rfl
  | some value =>
      obtain ⟨content, shown⟩ := reads value found
      rw [Option.some_or, Option.bind_some, shown, Option.some_or]

theorem Joins.reads (joins : Joins above below both) (tables : ∀ table, read (.table table) = none)
    (reads : Reads read above key) (also : Reads read below key) : Reads read both key := by
  intro value found
  rw [joins.find? tables reads, Option.or_eq_some_iff] at found
  rcases found with found | ⟨-, found⟩
  · exact reads value found
  · exact also value found

end

theorem size?_table (table : Table) : Toml.Value.size? (.table table) = none := rfl

theorem string?_table (table : Table) : Toml.Value.string? (.table table) = none := rfl

theorem boolean?_table (table : Table) : Toml.Value.boolean? (.table table) = none := rfl

section

variable {above below : Table}

/-- A section of tables over one another joins the section above with what is seen of the one
below. -/
theorem section?_over (proper : above.Proper) (distinct : below.Distinct) {name : String}
    {keys : List String} {upper lower : Table} (covers : section? above name keys = some upper)
    (covered : section? below name keys = some lower) :
    ∃ seen, section? (Toml.Table.beneath above below) name keys = some seen ∧
      (seen = [] ∨ seen = lower) ∧
        ∃ both, section? (Toml.Table.over above below) name keys = some both ∧
          Joins upper seen both := by
  rw [section?] at covers covered
  simp only [section?, Toml.Table.find?_beneath distinct, Toml.Table.find?_over proper.distinct]
  cases found : above.find? name with
  | none =>
      rw [found] at covers
      obtain rfl := Option.some.inj covers
      refine ⟨lower, ?_, .inr rfl, lower, ?_, fun key => Option.merge_none_left.symm⟩
      · rw [← covered]
        cases below.find? name <;> rfl
      · rw [← covered, Option.merge_none_left]
  | some content =>
      rw [found] at covers
      cases under : below.find? name with
      | none => exact ⟨[], rfl, .inl rfl, upper, covers, fun key => Option.merge_none_right.symm⟩
      | some old =>
          rw [under] at covered
          cases joint : content.isTable && old.isTable with
          | false =>
              refine ⟨[], ?_, .inl rfl, upper, ?_, fun key => Option.merge_none_right.symm⟩
              · rw [Option.filter_some, Option.all_some, joint]
                rfl
              · rw [Option.merge_some_some, Toml.Value.over_of_not_both joint]
                exact covers
          | true =>
              obtain ⟨uppers, rfl, lowers, rfl⟩ := Toml.Value.tables_of_both joint
              obtain ⟨known, rfl⟩ := entries?_table.mp covers
              obtain ⟨familiar, rfl⟩ := entries?_table.mp covered
              have inner : Toml.Table.Distinct uppers :=
                proper.contents _ (Toml.Table.mem_of_find? found)
              refine ⟨lowers, ?_, .inr rfl, Toml.Table.over uppers lowers, ?_,
                Toml.Table.find?_over inner lowers⟩
              · rw [Option.filter_some, Option.all_some, joint]
                exact covered
              · rw [Option.merge_some_some, Toml.Value.over]
                refine entries?_table.mpr ⟨fun entry member => ?_, rfl⟩
                rcases Toml.Table.mem_of_mem_over inner member with ⟨value, first⟩ | ⟨value, second⟩
                · exact known (entry.1, value) first
                · exact familiar (entry.1, value) second

/-- A table of settings laid over another one is a table of settings, which says what the one above
says, and otherwise what is seen of the one below. -/
theorem Fits.over (fits : Fits above) (proper : above.Proper) (also : Fits below)
    (distinct : below.Distinct) : Fits (Toml.Table.over above below) ∧
      Layer.ofTable (Toml.Table.over above below) =
        (Layer.ofTable above).over (Layer.ofTable (Toml.Table.beneath above below)) := by
  obtain ⟨machine, vm, sizes⟩ := fits.machine
  obtain ⟨lower, vm', sizes'⟩ := also.machine
  obtain ⟨seen, sees, kept, both, joined, joins⟩ := section?_over proper distinct vm vm'
  obtain ⟨session, repl, prompt, history, file⟩ := fits.session
  obtain ⟨lower', repl', prompt', history', file'⟩ := also.session
  obtain ⟨seen', sees', kept', both', joined', joins'⟩ := section?_over proper distinct repl repl'
  have still {α : Type} {read : Toml.Value → Option α} {seen lower : Table} {key : String}
      (kept : seen = [] ∨ seen = lower) (reads : Reads read lower key) : Reads read seen key := by
    rcases kept with rfl | rfl
    · rintro _ ⟨⟩
    · exact reads
  refine ⟨⟨fun entry member => ?_, ⟨both, joined, fun key member => ?_⟩, both', joined', ?_, ?_,
    ?_⟩, ?_⟩
  · rcases Toml.Table.mem_of_mem_over proper.distinct member with ⟨value, first⟩ | ⟨value, second⟩
    · exact fits.names (entry.1, value) first
    · exact also.names (entry.1, value) second
  · exact joins.reads size?_table (sizes key member) (still kept (sizes' key member))
  · exact joins'.reads string?_table prompt (still kept' prompt')
  · exact joins'.reads boolean?_table history (still kept' history')
  · exact joins'.reads string?_table file (still kept' file')
  · rw [Layer.ofTable, Layer.ofTable, Layer.ofTable, vm, sees, joined, repl, sees', joined']
    have size (key : String) (member : key ∈ machineKeys) :=
      joins.said size?_table (sizes key member)
    simp only [Option.getD_some, size "stack_size" (by decide), size "max_frames" (by decide),
      size "globals_size" (by decide), joins'.said string?_table prompt,
      joins'.said boolean?_table history, joins'.said string?_table file]
    rfl

end

/-! ## Sections with too many values -/

theorem hasSurplus_iff {table : Table} (distinct : table.Distinct) : hasSurplus table = true ↔
    ∃ name items, table.find? name = some (.array items) ∧ machineKeys.length < items.length := by
  rw [hasSurplus, List.any_eq_true]
  constructor
  · rintro ⟨⟨name, content⟩, member, surplus⟩
    cases content with
    | array items =>
        exact ⟨name, items, distinct.find?_of_mem member, of_decide_eq_true surplus⟩
    | _ => cases surplus
  · rintro ⟨name, items, found, surplus⟩
    exact ⟨(name, .array items), Toml.Table.mem_of_find? found, decide_eq_true surplus⟩

theorem merge_eq_array {above below : Option Toml.Value} {items : List Toml.Value} :
    Option.merge Toml.Value.over above below = some (.array items) ↔ above = some (.array items) ∨
      (below.filter fun old => above.all fun cover => cover.isTable && old.isTable) =
        some (.array items) := by
  rw [Option.filter_eq_some_iff]
  cases above with
  | none => simp
  | some value =>
      cases below with
      | none => simp
      | some old =>
          cases value <;> cases old <;> simp [Toml.Value.over, Toml.Value.isTable]

/-- A section with too many values is one above, or it is still seen. -/
theorem hasSurplus_over {above below : Table} (proper : above.Distinct)
    (distinct : below.Distinct) : hasSurplus (Toml.Table.over above below) =
      (hasSurplus above || hasSurplus (Toml.Table.beneath above below)) := by
  rw [Bool.eq_iff_iff, Bool.or_eq_true, hasSurplus_iff (distinct.over above),
    hasSurplus_iff proper, hasSurplus_iff (distinct.beneath above)]
  simp only [Toml.Table.find?_over proper, Toml.Table.find?_beneath distinct, merge_eq_array,
    or_and_right, exists_or]

theorem hasSurplus_of_tables {table : Table} (plain : ∀ entry ∈ table, entry.2.isTable = true) :
    hasSurplus table = false := by
  rw [hasSurplus, List.any_eq_false]
  rintro ⟨name, content⟩ member
  have single := plain _ member
  cases content with
  | table => exact Bool.false_ne_true
  | _ => cases single

end Settings

end MonkeyLang
