import MonkeyLang.Proofs.Settings.Tables
import MonkeyLang.Proofs.Stateful
import MonkeyLang.Proofs.Toml.Tables
import MonkeyLang.Proofs.Toml.Standard
import MonkeyLang.Settings.Loader

/-!
# Layers of settings, field by field

The environment is a layer over the files, as the file of a project is one over the file of the
user. The settings are loaded just if the variables for sizes can be read and what comes out makes
sense; a value that is overridden does not have to (`Settings.loadLayers_of_tables`). Each field
comes from the topmost layer that says something of it. Only a section that is an array is a layer
as a whole (`Settings.loadLayers_effective`), so that its values are lost under a section that is a
table (`Settings.not_loadLayers_fieldwise`).
-/

set_option autoImplicit false

namespace MonkeyLang

/-! ## The environment -/

/-- The size in a variable. -/
def Environment.size? (environment : Environment) (name : String) : Option Nat :=
  (environment name).bind fun raw => Number.readSize? (Text.trimBlanks raw.toList)

/-- The variables for sizes. -/
def Environment.sizeNames : List String :=
  ["MONKEY_STACK_SIZE", "MONKEY_MAX_FRAMES", "MONKEY_GLOBALS_SIZE"]

/-- The variables for sizes that are set can be read. -/
def Environment.Reads (environment : Environment) : Prop :=
  ∀ name ∈ sizeNames, ∀ raw, environment name = some raw →
    ∃ size, Number.readSize? (Text.trimBlanks raw.toList) = some size

/-- What the environment says of the settings. -/
def Environment.layer (environment : Environment) : Settings.Layer where
  stackSize := environment.size? "MONKEY_STACK_SIZE"
  maxFrames := environment.size? "MONKEY_MAX_FRAMES"
  globalsSize := environment.size? "MONKEY_GLOBALS_SIZE"
  prompt := none
  history := if (environment "MONKEY_NO_HISTORY").any Settings.isYes then some false else none
  historyFile := environment "MONKEY_HISTORY_FILE"

namespace Settings

theorem sizeVariable_eq_ok {environment : Environment} {name : String} {size : Option Nat} :
    sizeVariable environment name = .ok size ↔
      (∀ raw, environment name = some raw →
        ∃ size, Number.readSize? (Text.trimBlanks raw.toList) = some size) ∧
          environment.size? name = size := by
  rw [sizeVariable, Environment.size?]
  cases environment name with
  | none => simp
  | some raw =>
      cases read : Number.readSize? (Text.trimBlanks raw.toList) <;> simp [read]

/-- The environment is one more layer. -/
theorem layer_over_settings (environment : Environment) (layer : Layer) :
    (environment.layer.over layer).settings =
      { layer.settings with
        limits :=
          ⟨(environment.size? "MONKEY_STACK_SIZE").getD layer.settings.limits.stackSize,
            (environment.size? "MONKEY_MAX_FRAMES").getD layer.settings.limits.maxFrames,
            (environment.size? "MONKEY_GLOBALS_SIZE").getD layer.settings.limits.globalsSize⟩
        history := layer.settings.history &&
          !((environment "MONKEY_NO_HISTORY").map isYes).getD false
        historyFile := (environment "MONKEY_HISTORY_FILE").orElse fun _ =>
          layer.settings.historyFile } := by
  have history : ((if (environment "MONKEY_NO_HISTORY").any isYes then some false else none).or
      layer.history).getD Settings.default.history = (layer.history.getD Settings.default.history &&
        !((environment "MONKEY_NO_HISTORY").map isYes).getD false) := by
    cases environment "MONKEY_NO_HISTORY" with
    | none => simp
    | some text => cases yes : isYes text <;> simp [yes]
  simp only [Layer.settings, Layer.over, Environment.layer, Option.getD_or, Option.none_or, history,
    Option.orElse_eq_or]

theorem withEnvironment_eq_ok {environment : Environment} {layer : Layer} {settings : Settings} :
    layer.settings.withEnvironment environment = .ok settings ↔
      environment.Reads ∧ (environment.layer.over layer).settings = settings := by
  simp only [withEnvironment, Failing.bind_eq_ok, sizeVariable_eq_ok, layer_over_settings,
    Environment.Reads, Environment.sizeNames, List.forall_mem_cons]
  constructor
  · rintro ⟨_, ⟨stack, rfl⟩, _, ⟨frames, rfl⟩, _, ⟨globals, rfl⟩, ⟨⟩⟩
    exact ⟨⟨stack, frames, globals, List.forall_mem_nil _⟩, rfl⟩
  · rintro ⟨⟨stack, frames, globals, -⟩, rfl⟩
    exact ⟨_, ⟨stack, rfl⟩, _, ⟨frames, rfl⟩, _, ⟨globals, rfl⟩, rfl⟩

end Settings

/-! ## Valid settings -/

/-- The limits make sense. -/
structure Limits.Valid (limits : Limits) : Prop where
  stackSize : 0 < limits.stackSize
  maxFrames : 0 < limits.maxFrames
  globalsSize : 0 < limits.globalsSize
  globals_le : limits.globalsSize ≤ Limits.default.globalsSize

theorem Limits.requirePositive_eq_ok {field : String} {value : Nat} {result : Unit} :
    requirePositive field value = .ok result ↔ 0 < value := by
  rw [requirePositive]
  split <;> simp <;> omega

theorem Limits.validate_eq_ok {limits : Limits} {result : Unit} :
    limits.validate = .ok result ↔ limits.Valid := by
  simp only [validate, Failing.bind_eq_ok, requirePositive_eq_ok, exists_and_left]
  constructor
  · rintro ⟨stack, frames, globals, _, _, _, most⟩
    split at most
    · cases most
    · exact ⟨stack, frames, globals, by omega⟩
  · rintro ⟨stack, frames, globals, most⟩
    exact ⟨stack, frames, globals, (), (), (), if_neg (by omega)⟩

namespace Settings

open Toml (Table)

/-- Layers give settings if the tables together fit, the environment can be read, and what comes out
makes sense. -/
theorem layered_eq_ok {layers : List (String × Table)} {merged : Table}
    (joined : layers.foldl (fun below layer => Toml.Table.over layer.2 below) [] = merged)
    {environment : Environment} {settings : Settings} :
    layered layers environment = .ok settings ↔ hasSurplus merged = false ∧ Fits merged ∧
      environment.Reads ∧ (environment.layer.over (Layer.ofTable merged)).settings = settings ∧
        settings.limits.Valid := by
  unfold layered
  generalize folded : List.foldl _ [] layers = table
  obtain rfl : table = merged := folded.symm.trans joined
  dsimp only
  cases surplus : hasSurplus table with
  | true => simp
  | false =>
      cases read : ofTable? table with
      | none =>
          have misfit : ¬ Fits table := fun fits => by
            rw [ofTable?_eq_some.mpr ⟨fits, rfl⟩] at read
            cases read
          simp [misfit]
      | some first =>
          obtain ⟨fits, rfl⟩ := ofTable?_eq_some.mp read
          simp only [Bool.false_eq_true, if_false, Failing.bind_eq_ok, withEnvironment_eq_ok,
            Settings.validate, Limits.validate_eq_ok]
          constructor
          · rintro ⟨_, ⟨reads, rfl⟩, _, valid, ⟨⟩⟩
            exact ⟨trivial, fits, reads, rfl, valid⟩
          · rintro ⟨-, -, reads, rfl, valid⟩
            exact ⟨_, ⟨reads, rfl⟩, (), valid, rfl⟩

/-! ## Files -/

section

variable {σ : Type} (library : Toml.Library) (files : Files (StateM σ)) (state : σ)

/-- If there is a file, it has a table of settings; if not, there is an empty table. -/
inductive Holds : Option String → Table → Prop where
  | nothing : Holds none []
  | file {path text : String} {table : Table} {settings : Settings}
      (read : files.read path state = (.ok text, state))
      (written : library.read? text.toList = some table)
      (fits : ofTable? table = some settings) : Holds (some path) table

variable {library files state}

theorem Holds.proper (tables : library.ReadsTables) {path : Option String} {table : Table}
    (holds : Holds library files state path table) : table.Proper := by
  cases holds with
  | nothing => exact ⟨Toml.Table.distinct_nil, List.forall_mem_nil _⟩
  | file _ written => exact tables _ _ written

theorem Holds.fits {path : Option String} {table : Table}
    (holds : Holds library files state path table) : Fits table := by
  cases holds with
  | nothing =>
      refine ⟨List.forall_mem_nil _, ⟨[], rfl, ?_⟩, [], rfl, ?_, ?_, ?_⟩
      · rintro _ _ _ ⟨⟩
      all_goals rintro _ ⟨⟩
  | file _ _ fits => exact (ofTable?_eq_some.mp fits).1

theorem bind_of_ok {ε α β : Type} {work : ExceptT ε (StateM σ) α}
    {rest : α → ExceptT ε (StateM σ) β} {value : α}
    (ran : work state = (.ok value, state)) : (work >>= rest) state = rest value state := by
  have steps : (work >>= rest) state = ExceptT.bindCont rest (work state).1 (work state).2 := rfl
  rw [steps, ran]
  rfl

theorem bind_of_error {ε α β : Type} {work : ExceptT ε (StateM σ) α}
    {rest : α → ExceptT ε (StateM σ) β} {fault : ε}
    (ran : work state = (.error fault, state)) :
    (work >>= rest) state = (.error fault, state) := by
  have steps : (work >>= rest) state = ExceptT.bindCont rest (work state).1 (work state).2 := rfl
  rw [steps, ran]
  rfl

/-- Work that cannot fail, as a part of work that can. -/
theorem lift_of_run {ε α : Type} {work : StateM σ α} {value : α}
    (ran : work state = (value, state)) :
    (work : ExceptT ε (StateM σ) α) state = (.ok value, state) := by
  have steps : (work : ExceptT ε (StateM σ) α) state = (.ok (work state).1, (work state).2) := rfl
  rw [steps, ran]

/-- A file with a table of settings is read. -/
theorem readTable_of_file {path text : String} {table : Table} {settings : Settings}
    (read : files.read path state = (.ok text, state))
    (written : library.read? text.toList = some table)
    (fits : ofTable? table = some settings) :
    readTable library files path state = (.ok (table, settings), state) := by
  have ran : readFile files path state = (.ok text, state) := by
    rw [readFile, bind_of_ok (lift_of_run read)]
    rfl
  rw [readTable, bind_of_ok ran, written]
  dsimp only
  rw [fits]
  rfl

/-- The file at a path, if there is one, with its table. -/
def fileWith (path : Option String) (table : Table) : List (String × Table) :=
  path.toList.map fun path => (path, table)

theorem Holds.readTable {path : Option String} {table : Table}
    (holds : Holds library files state path table) : ∀ entry ∈ fileWith path table,
      ∃ settings, Settings.readTable library files entry.1 state = (.ok (entry.2, settings), state) := by
  cases holds with
  | nothing => exact List.forall_mem_nil _
  | file read written fits =>
      intro entry member
      obtain rfl := List.mem_singleton.mp member
      exact ⟨_, readTable_of_file read written fits⟩

theorem mapM_readTable {layers : List (String × Table)} (reads : ∀ entry ∈ layers, ∃ settings,
      readTable library files entry.1 state = (.ok (entry.2, settings), state)) :
    ((layers.map Prod.fst).mapM fun path => do
      let read ← readTable library files path
      return (path, read.1)) state = (.ok layers, state) := by
  induction layers with
  | nil => rfl
  | cons entry layers ih =>
      obtain ⟨⟨settings, read⟩, rest⟩ := List.forall_mem_cons.mp reads
      rw [List.map_cons, List.mapM_cons]
      have first : (do
          let read ← readTable library files entry.1
          return (entry.1, read.1) : ExceptT SettingsFault (StateM σ) (String × Table)) state =
            (.ok entry, state) := bind_of_ok read
      rw [bind_of_ok first, bind_of_ok (ih rest)]
      rfl

/-- Files with tables of settings are read, and all depends on what the tables say. -/
theorem loadLayers_of_holds {userFile projectFile : Option String} {user project : Table}
    (above : Holds library files state projectFile project) (below : Holds library files state userFile user)
    (environment : Environment) :
    ∃ outcome, loadLayers library files environment userFile projectFile state = (outcome, state) ∧
      ∀ loaded, outcome = .ok loaded ↔ ∃ settings,
        layered (fileWith userFile user ++ fileWith projectFile project) environment =
            .ok settings ∧
          loaded = ⟨settings, projectFile.bind Path.parent?,
            userFile.toList ++ projectFile.toList⟩ := by
  have sources : userFile.toList ++ projectFile.toList =
      (fileWith userFile user ++ fileWith projectFile project).map Prod.fst := by
    cases userFile <;> cases projectFile <;> rfl
  have reads := mapM_readTable (List.forall_mem_append.mpr ⟨below.readTable, above.readTable⟩)
  rw [loadLayers, sources, bind_of_ok reads]
  cases layered (fileWith userFile user ++ fileWith projectFile project) environment with
  | error fault => exact ⟨.error fault, rfl, by simp⟩
  | ok settings => exact ⟨.ok _, rfl, by simp [eq_comm]⟩

/-- The table of the project is laid over the one of the user. -/
theorem foldl_fileWith (tables : library.ReadsTables) {userFile projectFile : Option String} {user project : Table}
    (above : Holds library files state projectFile project) (below : Holds library files state userFile user) :
    (fileWith userFile user ++ fileWith projectFile project).foldl
      (fun below layer => Toml.Table.over layer.2 below) [] = Toml.Table.over project user := by
  have first : (fileWith userFile user).foldl
      (fun below layer => Toml.Table.over layer.2 below) [] = user := by
    cases below with
    | nothing => rfl
    | file _ written => exact Toml.Table.over_nil (tables _ _ written).distinct
  rw [List.foldl_append, first]
  cases above with
  | nothing => exact (Toml.Table.over.eq_1 user).symm
  | file => rfl

/-- What files with tables of settings say is laid over one another, and over it what the
environment says: there are settings if the environment can be read, the outcome makes sense and
no section that is seen has too many values. -/
theorem layered_holds (tables : library.ReadsTables) {userFile projectFile : Option String} {user project : Table}
    (above : Holds library files state projectFile project) (below : Holds library files state userFile user)
    {environment : Environment} {settings : Settings} :
    layered (fileWith userFile user ++ fileWith projectFile project) environment = .ok settings ↔
      hasSurplus project = false ∧ hasSurplus (Toml.Table.beneath project user) = false ∧
        environment.Reads ∧ (environment.layer.over ((Layer.ofTable project).over
          (Layer.ofTable (Toml.Table.beneath project user)))).settings = settings ∧
            settings.limits.Valid := by
  have proper := above.proper tables
  have distinct := (below.proper tables).distinct
  obtain ⟨fits, tells⟩ := above.fits.over proper below.fits distinct
  rw [layered_eq_ok (foldl_fileWith tables above below), tells,
    hasSurplus_over proper.distinct distinct, Bool.or_eq_false_iff, and_assoc, and_iff_right fits]

/-- The settings are loaded just if the variables for sizes that are set can be read and the
effective settings make sense, unless a section that is seen has too many values; and then they are
the effective ones. Each field is what the environment says, or else the file of the project, or
else the file of the user where the file of the project does not hide it, or else what is usual. -/
theorem loadLayers_effective (tables : library.ReadsTables)
    {userFile projectFile : Option String} {user project : Table}
    (above : Holds library files state projectFile project) (below : Holds library files state userFile user)
    (environment : Environment) :
    let seen := Toml.Table.beneath project user
    let effective :=
      (environment.layer.over ((Layer.ofTable project).over (Layer.ofTable seen))).settings
    ∃ outcome, loadLayers library files environment userFile projectFile state = (outcome, state) ∧
      ∀ loaded, outcome = .ok loaded ↔
        (hasSurplus project = false ∧ hasSurplus seen = false) ∧
          environment.Reads ∧ effective.limits.Valid ∧ loaded = ⟨effective,
            projectFile.bind Path.parent?, userFile.toList ++ projectFile.toList⟩ := by
  intro seen effective
  obtain ⟨outcome, loads, gives⟩ := loadLayers_of_holds above below environment
  refine ⟨outcome, loads, fun loaded => (gives loaded).trans ?_⟩
  simp only [layered_holds tables above below]
  constructor
  · rintro ⟨_, ⟨surplus, surplus', reads, rfl, valid⟩, rfl⟩
    exact ⟨⟨surplus, surplus'⟩, reads, valid, rfl⟩
  · rintro ⟨⟨surplus, surplus'⟩, reads, valid, rfl⟩
    exact ⟨_, ⟨surplus, surplus', reads, rfl, valid⟩, rfl⟩

/-- Where all sections are tables, none hides another one or has too many values. So each field is
what the environment says, or else the file of the project, or else the file of the user, or else
what is usual. -/
theorem loadLayers_of_tables (tables : library.ReadsTables)
    {userFile projectFile : Option String} {user project : Table}
    (above : Holds library files state projectFile project) (below : Holds library files state userFile user)
    (covers : ∀ entry ∈ project, entry.2.isTable = true)
    (covered : ∀ entry ∈ user, entry.2.isTable = true) (environment : Environment) :
    let effective :=
      (environment.layer.over ((Layer.ofTable project).over (Layer.ofTable user))).settings
    ∃ outcome, loadLayers library files environment userFile projectFile state = (outcome, state) ∧
      ∀ loaded, outcome = .ok loaded ↔ environment.Reads ∧ effective.limits.Valid ∧
        loaded = ⟨effective, projectFile.bind Path.parent?,
          userFile.toList ++ projectFile.toList⟩ := by
  intro effective
  have plain := Toml.Table.beneath_of_tables covers covered
  obtain ⟨outcome, loads, gives⟩ := loadLayers_of_holds above below environment
  refine ⟨outcome, loads, fun loaded => (gives loaded).trans ?_⟩
  simp only [layered_holds tables above below, plain, hasSurplus_of_tables covers,
    hasSurplus_of_tables covered, true_and]
  constructor
  · rintro ⟨_, ⟨reads, rfl, valid⟩, rfl⟩
    exact ⟨reads, valid, rfl⟩
  · rintro ⟨reads, valid, rfl⟩
    exact ⟨_, ⟨reads, rfl, valid⟩, rfl⟩

end

/-! ## Sections written as arrays -/

/-- Files with the given texts, and nothing else. -/
def textFiles (texts : List (String × String)) : Files (StateM Unit) where
  read path := return (texts.lookup path).elim (.error .missing) .ok
  doesExist path := return (texts.lookup path).isSome
  isFile path := return (texts.lookup path).isSome
  isDirectory _ := return false
  makeDirectory _ := return .error .notDirectory

/-- The user has a section as a table, with a size that no machine can have. -/
def withTable : List (String × String) :=
  [("config.toml", "[vm]\nstack_size = 0\nglobals_size = 8\n"),
    ("monkey.toml", "[vm]\nstack_size = 64\n")]

/-- The user has a section as an array, with a size of the stack and nothing else. -/
def withArray : List (String × String) :=
  [("config.toml", "vm = [512]\n"), ("monkey.toml", "[vm]\nmax_frames = 64\n")]

/-- The table in a file. -/
def tableIn (texts : List (String × String)) (path : String) : Table :=
  ((texts.lookup path).bind fun text => Toml.Table.read? text.toList).getD []

theorem holds_tableIn {texts : List (String × String)} {path : String}
    (known : ((texts.lookup path).bind fun text => Toml.Table.read? text.toList).isSome = true)
    (fits : (ofTable? (tableIn texts path)).isSome = true) :
    Holds .standard (textFiles texts) () (some path) (tableIn texts path) := by
  obtain ⟨table, found⟩ := Option.isSome_iff_exists.mp known
  obtain ⟨text, there, written⟩ := Option.bind_eq_some_iff.mp found
  have same : tableIn texts path = table := by rw [tableIn, found, Option.getD_some]
  rw [same] at fits ⊢
  obtain ⟨settings, fits⟩ := Option.isSome_iff_exists.mp fits
  refine .file ?_ written fits
  have reads : (textFiles texts).read path () =
      ((texts.lookup path).elim (Except.error FileFault.missing) Except.ok, ()) := rfl
  rw [reads, there]
  rfl

/-- Only one variable is set, and it says that no inputs are kept. -/
def silenced : Environment := fun name => if name = "MONKEY_NO_HISTORY" then some "yes" else none

/-- The file of the project overrides an invalid size of the user, and the environment the
history. -/
theorem loadLayers_effective_withTable : ∃ outcome,
    loadLayers .standard (textFiles withTable) silenced (some "config.toml") (some "monkey.toml") () =
        (outcome, ()) ∧
      outcome = .ok ⟨⟨⟨64, 1024, 8⟩, ">> ", false, none⟩, some "",
        ["config.toml", "monkey.toml"]⟩ := by
  have above : Holds .standard (textFiles withTable) () (some "monkey.toml")
      (tableIn withTable "monkey.toml") := holds_tableIn (by decide +kernel) (by decide +kernel)
  have below : Holds .standard (textFiles withTable) () (some "config.toml")
      (tableIn withTable "config.toml") := holds_tableIn (by decide +kernel) (by decide +kernel)
  have effective : (silenced.layer.over ((Layer.ofTable (tableIn withTable "monkey.toml")).over
      (Layer.ofTable (Toml.Table.beneath (tableIn withTable "monkey.toml")
        (tableIn withTable "config.toml"))))).settings =
      ⟨⟨64, 1024, 8⟩, ">> ", false, none⟩ := by decide +kernel
  obtain ⟨outcome, loads, gives⟩ := loadLayers_effective Toml.Library.standard_readsTables above below silenced
  rw [effective] at gives
  have reads : silenced.Reads := by simp [Environment.Reads, Environment.sizeNames, silenced]
  have root : Path.parent? "monkey.toml" = some "" := by decide +kernel
  exact ⟨outcome, loads, (gives _).mpr ⟨by decide +kernel, reads,
    ⟨by decide, by decide, by decide, by decide⟩, by rw [Option.bind_some, root]; rfl⟩⟩

/-- The size of the stack that a user sets in an array is lost where a project sets the number of
frames in a table, so that files are not laid over one another field by field. -/
theorem not_loadLayers_fieldwise : ¬ ∀ (library : Toml.Library), library.ReadsTables →
    ∀ (σ : Type) (files : Files (StateM σ)) (state : σ) (userFile projectFile : Option String)
    (user project : Table) (environment : Environment),
    Holds library files state userFile user → Holds library files state projectFile project →
      let effective :=
        (environment.layer.over ((Layer.ofTable project).over (Layer.ofTable user))).settings
      ∃ outcome, loadLayers library files environment userFile projectFile state = (outcome, state) ∧
        ∀ loaded, outcome = .ok loaded ↔ environment.Reads ∧ effective.limits.Valid ∧
          loaded = ⟨effective, projectFile.bind Path.parent?,
            userFile.toList ++ projectFile.toList⟩ := by
  intro fieldwise
  have above : Holds .standard (textFiles withArray) () (some "monkey.toml")
      (tableIn withArray "monkey.toml") := holds_tableIn (by decide +kernel) (by decide +kernel)
  have below : Holds .standard (textFiles withArray) () (some "config.toml")
      (tableIn withArray "config.toml") := holds_tableIn (by decide +kernel) (by decide +kernel)
  obtain ⟨outcome, loads, gives⟩ := fieldwise .standard
    Toml.Library.standard_readsTables _ _ _ _ _ _ _ (fun _ => none) below above
  have effective : ((Environment.layer fun _ => none).over
      ((Layer.ofTable (tableIn withArray "monkey.toml")).over
        (Layer.ofTable (tableIn withArray "config.toml")))).settings =
      ⟨⟨512, 64, 65536⟩, ">> ", true, none⟩ := by decide +kernel
  rw [effective] at gives
  have loaded := (gives _).mpr ⟨by rintro _ _ _ ⟨⟩,
    ⟨by decide, by decide, by decide, by decide⟩, rfl⟩
  have actual : (loadLayers .standard (textFiles withArray) (fun _ => none) (some "config.toml")
      (some "monkey.toml") ()).1.toOption.map (fun loaded => loaded.settings.limits.stackSize) =
        some 2048 := by decide +kernel
  rw [loads, loaded] at actual
  cases actual

end Settings

end MonkeyLang
