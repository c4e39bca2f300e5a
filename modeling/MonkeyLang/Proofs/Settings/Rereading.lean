import MonkeyLang.Proofs.Settings.Layering

/-!
# Written settings are loaded again

Settings are a table with two sections of strings, truth values and whole numbers
(`Settings.toTable_plain`), and that table says the settings (`Settings.ofTable?_toTable`), a
missing file for the inputs being no entry at all. Any table that agrees with it says the same
(`Settings.ofTable?_of_agrees`). So what is loaded from a file that was written from valid settings
are these settings, if the library reads back what it writes (`Settings.loadFile_of_write?`).
-/

set_option autoImplicit false

namespace MonkeyLang.Settings

open Toml (Table)

/-! ## Tables that agree -/

section

variable {α : Type} {read : Toml.Value → Option α} {first second : Table} {key : String}

theorem said_congr (same : ∀ key, first.find? key = second.find? key) :
    said read first key = said read second key := by
  rw [said, said, same]

theorem Reads.congr (same : ∀ key, first.find? key = second.find? key)
    (reads : Reads read second key) : Reads read first key := by
  intro value found
  exact reads value ((same key).symm.trans found)

/-- A key of one table is a key of the other, if they have the same keys. -/
theorem exists_mem_of_find? {entry : String × Toml.Value} (member : entry ∈ first)
    (same : first.find? entry.1 ≠ none → second.find? entry.1 ≠ none) :
    ∃ value, (entry.1, value) ∈ second := by
  have present : first.find? entry.1 ≠ none := fun none =>
    Toml.Table.find?_eq_none.mp none (List.mem_map_of_mem member)
  obtain ⟨value, found⟩ := Option.ne_none_iff_exists'.mp (same present)
  exact ⟨value, Toml.Table.mem_of_find? found⟩

/-- Sections of tables that agree have the same values under the same keys. -/
theorem section?_of_agrees (agrees : first.Agrees second) {name : String} {keys : List String}
    {entries : Table} (known : section? second name keys = some entries) :
    ∃ others, section? first name keys = some others ∧
      ∀ key, others.find? key = entries.find? key := by
  rw [section?] at known ⊢
  rcases agrees name with ⟨absent, absent'⟩ | ⟨upper, lower, found, found', same⟩
  · rw [absent'] at known
    cases known
    exact ⟨[], by rw [absent]; rfl, fun _ => rfl⟩
  · rw [found'] at known
    obtain ⟨names, rfl⟩ := entries?_table.mp known
    refine ⟨upper, ?_, same⟩
    rw [found]
    refine entries?_table.mpr ⟨fun entry member => ?_, rfl⟩
    obtain ⟨value, among⟩ : ∃ value, (entry.1, value) ∈ lower :=
      exists_mem_of_find? member (same entry.1 ▸ id)
    exact names (entry.1, value) among

/-- A table that agrees with a table of settings says the same settings. -/
theorem ofTable?_of_agrees (agrees : first.Agrees second) {settings : Settings}
    (known : ofTable? second = some settings) : ofTable? first = some settings := by
  obtain ⟨⟨names, ⟨machine, vm, sizes⟩, session, repl, prompt, history, file⟩, tells⟩ :=
    ofTable?_eq_some.mp known
  obtain ⟨machine', vm', same⟩ := section?_of_agrees agrees vm
  obtain ⟨session', repl', same'⟩ := section?_of_agrees agrees repl
  have layer : Layer.ofTable first = Layer.ofTable second := by
    simp only [Layer.ofTable, vm, vm', repl, repl', Option.getD_some, said_congr same,
      said_congr same']
  refine ofTable?_eq_some.mpr ⟨⟨fun entry member => ?_, ⟨machine', vm', fun key member =>
    (sizes key member).congr same⟩, session', repl', prompt.congr same', history.congr same',
    file.congr same'⟩, layer ▸ tells⟩
  obtain ⟨value, among⟩ : ∃ value, (entry.1, value) ∈ second :=
    exists_mem_of_find? member fun present => by
      rcases agrees entry.1 with ⟨absent, -⟩ | ⟨_, _, _, found, _⟩
      · exact absurd absent present
      · simp [found]
  exact names (entry.1, value) among

end

/-! ## Settings as tables -/

/-- The settings are sections of strings, truth values and whole numbers. -/
theorem toTable_plain (settings : Settings) : settings.toTable.Plain where
  distinct := (by decide : ["vm", "repl"].Nodup)
  sections := by
    obtain ⟨limits, prompt, history, historyFile⟩ := settings
    refine List.forall_mem_cons.mpr ⟨?machine, List.forall_mem_singleton.mpr ?session⟩
    case machine =>
      refine ⟨_, rfl, (by decide : machineKeys.Nodup), ?_⟩
      simp [machineKeys, Toml.Value.IsLeaf]
    case session =>
      refine ⟨_, rfl, ?_, ?_⟩
      -- there are three keys or two
      · cases historyFile
        · exact (by decide : ["prompt", "history"].Nodup)
        · exact (by decide : sessionKeys.Nodup)
      · cases historyFile <;> simp [Toml.Value.IsLeaf]

/-- The settings are what their table says. -/
theorem ofTable?_toTable (settings : Settings) : ofTable? settings.toTable = some settings := by
  obtain ⟨limits, prompt, history, _ | path⟩ := settings
  · rfl
  · rfl

/-- Valid settings that are written to a file are loaded from it. -/
theorem loadFile_of_write? {library : Toml.Library} (rereads : library.Rereads)
    {settings : Settings} {text : String} (valid : settings.validate = .ok ())
    (written : settings.write? library = some text) {σ : Type} {files : Files (StateM σ)}
    {state : σ} {path : String} (read : files.read path state = (.ok text, state)) :
    loadFile library files path state = (.ok settings, state) := by
  obtain ⟨again, reread, agrees⟩ := rereads settings.toTable text settings.toTable_plain written
  have table := readTable_of_file read reread (ofTable?_of_agrees agrees settings.ofTable?_toTable)
  rw [loadFile, bind_of_ok table]
  dsimp only
  rw [valid]
  rfl

/-- The prompt has both kinds of quotes and ends with its line, and there is a backslash in the name
of the file for the inputs. -/
def quoted : Settings := ⟨⟨64, 32, 8⟩, "it's \"so\"\n", false, some "C:\\h"⟩

/-- The prompt goes over several lines, and the name of the file stands between single quotes. -/
def quotedText : String :=
  "[vm]\nstack_size = 64\nmax_frames = 32\nglobals_size = 8\n\n" ++
  "[repl]\nprompt = \"\"\"\nit's \"so\"\n\"\"\"\nhistory = false\nhistory_file = 'C:\\h'\n"

theorem loadFile_quoted : quoted.validate = .ok () ∧ quoted.write? .standard = some quotedText ∧
    loadFile .standard (textFiles [("monkey.toml", quotedText)]) "monkey.toml" () =
      (.ok quoted, ()) := by
  have valid : quoted.validate = .ok () := rfl
  have written : quoted.write? .standard = some quotedText := by decide +kernel
  exact ⟨valid, written, loadFile_of_write? Toml.Library.standard_rereads valid written rfl⟩

end MonkeyLang.Settings
