import MonkeyLang.CommandLine.Commands
import MonkeyLang.Program.Exchange
import MonkeyLang.Proofs.Settings.Layering

/-!
# Limits among the arguments

The limits among the arguments are a layer over those in files and in the environment
(`CommandLine.Options.applyTo_settings`). But the settings below them are loaded first, and have to
make sense by themselves, so that there are settings for a command just if those below the arguments
make sense and the effective ones do too (`CommandLine.loadSettings_effective`). A limit that is
overridden is not passed over: if it makes no sense there are no settings, whatever the arguments
say (`CommandLine.not_loadSettings_overriding`). It is otherwise with the environment, which is laid
over the files before anything is checked.
-/

set_option autoImplicit false

namespace MonkeyLang.CommandLine

open Settings (Layer Loaded Holds hasSurplus bind_of_ok bind_of_error lift_of_run textFiles tableIn
  holds_tableIn)

/-! ## Options as a layer -/

/-- What the options say of the settings. -/
def Options.layer (options : Options) : Layer where
  stackSize := options.stackSize
  maxFrames := options.maxFrames
  globalsSize := none
  prompt := none
  history := none
  historyFile := none

/-- The options are one more layer. -/
theorem Options.applyTo_settings (options : Options) (layer : Layer) :
    options.applyTo layer.settings = (options.layer.over layer).settings := by
  simp only [Options.applyTo, Layer.settings, Layer.over, Options.layer, Option.getD_or,
    Option.none_or]

/-- What is said if the settings below the options cannot be loaded. -/
def Options.complaint (options : Options) : String :=
  match options.settingsFile with
  | some path => s!"Failed to load configuration from {path}"
  | none => "Failed to load configuration"

/-- The options laid over what was loaded. -/
def Options.override (options : Options) (loaded : Except SettingsFault Loaded) :
    Except Failure Settings := do
  let below ← loaded.mapError (withCause options.complaint)
  let settings := options.applyTo below.settings
  settings.validate.mapError (withCause "Invalid command-line limits")
  return settings

theorem mapError_eq_ok {ε ε' α : Type} {outcome : Except ε α} {change : ε → ε'} {value : α} :
    outcome.mapError change = .ok value ↔ outcome = .ok value := by
  cases outcome with
  | error fault => exact iff_of_false nofun nofun
  | ok known =>
      show Except.ok known = Except.ok value ↔ _
      rw [Except.ok.injEq, Except.ok.injEq]

/-- What was loaded makes sense, and it has to make sense with the options too. -/
theorem Options.override_eq_ok {options : Options} {loaded : Except SettingsFault Loaded}
    {settings : Settings} : options.override loaded = .ok settings ↔
      ∃ below, loaded = .ok below ∧ settings.limits.Valid ∧
        options.applyTo below.settings = settings := by
  simp only [override, Failing.bind_eq_ok, mapError_eq_ok, Settings.validate,
    Limits.validate_eq_ok]
  constructor
  · rintro ⟨below, rfl, _, valid, ⟨⟩⟩
    exact ⟨below, rfl, valid, rfl⟩
  · rintro ⟨below, rfl, valid, rfl⟩
    exact ⟨below, rfl, (), valid, rfl⟩

/-! ## The files of a command -/

section

variable {σ : Type} {world : World (StateM σ)} {state : σ}

/-- The files of settings for a command: that of the user, if there is one, and that of the project.
The arguments name the latter, or else it is searched around the working directory. -/
inductive Finds (world : World (StateM σ)) (state : σ) :
    Option String → Option String → Option String → Prop where
  | named {path : String} {userFile : Option String}
      (there : world.files.doesExist path state = (true, state))
      (user : Settings.existing? world.files (Settings.userFile? world.home) state =
        (userFile, state)) : Finds world state (some path) userFile (some path)
  | around {userFile projectFile : Option String}
      (project : Settings.findProject? world.files world.workingDirectory state =
        (projectFile, state))
      (user : Settings.existing? world.files (Settings.userFile? world.home) state =
        (userFile, state)) : Finds world state none userFile projectFile

theorem loadWith_of_exists {library : Toml.Library} {environment : Environment}
    {files : Files (StateM σ)}
    {given userFile : Option String} {path : String}
    (there : files.doesExist path state = (true, state))
    (user : Settings.existing? files given state = (userFile, state)) :
    Settings.loadWith library files environment given path state =
      Settings.loadLayers library files environment userFile (some path) state := by
  rw [Settings.loadWith, bind_of_ok (lift_of_run there)]
  exact bind_of_ok (lift_of_run user)

theorem loadFor_of_found {library : Toml.Library} {environment : Environment}
    {files : Files (StateM σ)}
    {given userFile projectFile : Option String} {directory : String}
    (project : Settings.findProject? files directory state = (projectFile, state))
    (user : Settings.existing? files given state = (userFile, state)) :
    Settings.loadFor library files environment given directory state =
      Settings.loadLayers library files environment userFile projectFile state := by
  rw [Settings.loadFor, bind_of_ok (lift_of_run project),
    bind_of_ok (lift_of_run user)]

/-- Whatever the settings are loaded with, the options are laid over them. -/
theorem override_of_run {work : ExceptT SettingsFault (StateM σ) Loaded}
    {loaded : Except SettingsFault Loaded} (ran : work state = (loaded, state))
    (options : Options) :
    (work.adapt (withCause options.complaint) >>= fun loaded =>
      match (options.applyTo loaded.settings).validate with
      | .ok _ => pure (options.applyTo loaded.settings)
      | .error fault => throw (withCause "Invalid command-line limits" fault) :
      Action (StateM σ) Settings) state = (options.override loaded, state) := by
  have adapted : work.adapt (withCause options.complaint) state =
      (loaded.mapError (withCause options.complaint), state) := by
    have steps : work.adapt (withCause options.complaint) state =
        ((work state).1.mapError (withCause options.complaint), (work state).2) := rfl
    rw [steps, ran]
  cases loaded with
  | error fault => exact bind_of_error adapted
  | ok below =>
      have steps : options.override (.ok below) =
          ((options.applyTo below.settings).validate.mapError
            (withCause "Invalid command-line limits")).map
              fun _ => options.applyTo below.settings := by
        rw [Options.override]
        rfl
      rw [bind_of_ok adapted, steps]
      cases (options.applyTo below.settings).validate <;> rfl

/-- The settings for a command are the options over what the files hold. -/
theorem loadSettings_of_loadLayers {options : Options} {userFile projectFile : Option String}
    (finds : Finds world state options.settingsFile userFile projectFile)
    {loaded : Except SettingsFault Loaded}
    (loads : Settings.loadLayers world.toml world.files world.environment userFile projectFile
      state = (loaded, state)) :
    loadSettings world options state = (options.override loaded, state) := by
  obtain ⟨stackSize, maxFrames, settingsFile⟩ := options
  cases finds with
  | named there user =>
      exact override_of_run ((loadWith_of_exists there user).trans loads) _
  | around project user =>
      exact override_of_run ((loadFor_of_found project user).trans loads) _

/-- There are settings for a command just if the variables for sizes that are set can be read, the
settings below the options make sense and the effective ones do too, unless a section that is seen
has too many values; and then they are the effective ones. Each field is what the options say, or
else the environment, or else the file of the project, or else the file of the user where the file
of the project does not hide it, or else what is usual. -/
theorem loadSettings_effective (tables : world.toml.ReadsTables) {options : Options}
    {userFile projectFile : Option String} {user project : Toml.Table}
    (finds : Finds world state options.settingsFile userFile projectFile)
    (above : Holds world.toml world.files state projectFile project)
    (below : Holds world.toml world.files state userFile user) :
    let seen := Toml.Table.beneath project user
    let overridden :=
      world.environment.layer.over ((Layer.ofTable project).over (Layer.ofTable seen))
    let effective := (options.layer.over overridden).settings
    ∃ outcome, loadSettings world options state = (outcome, state) ∧
      ∀ settings, outcome = .ok settings ↔
        (hasSurplus project = false ∧ hasSurplus seen = false) ∧ world.environment.Reads ∧
          overridden.settings.limits.Valid ∧ effective.limits.Valid ∧ settings = effective := by
  intro seen overridden effective
  obtain ⟨loaded, loads, gives⟩ := Settings.loadLayers_of_holds above below world.environment
  refine ⟨_, loadSettings_of_loadLayers finds loads, fun settings => ?_⟩
  simp only [Options.override_eq_ok, gives, Settings.layered_holds tables above below]
  constructor
  · rintro ⟨_, ⟨_, ⟨surplus, surplus', reads, rfl, valid⟩, rfl⟩, valid', rfl⟩
    rw [Options.applyTo_settings] at valid' ⊢
    exact ⟨⟨surplus, surplus'⟩, reads, valid, valid', rfl⟩
  · rintro ⟨⟨surplus, surplus'⟩, reads, valid, valid', rfl⟩
    exact ⟨_, ⟨_, ⟨surplus, surplus', reads, rfl, valid⟩, rfl⟩, valid',
      Options.applyTo_settings options overridden⟩

end

/-! ## Limits that make no sense -/

/-- A world in which a project has a file of settings with the given text, and the user has no home
directory. -/
def projectWorld (text : String) (environment : Environment) : World (StateM Unit) where
  files := textFiles [("work/monkey.toml", text)]
  environment
  home := none
  workingDirectory := "work"
  toml := .standard
  json := .standard
  write _ := return
  complain _ := return
  readLine _ := return none

@[simp] theorem projectWorld_environment (text : String) (environment : Environment) :
    (projectWorld text environment).environment = environment := rfl

theorem projectWorld_tables (text : String) (environment : Environment) :
    (projectWorld text environment).toml.ReadsTables := Toml.Library.standard_readsTables

theorem projectWorld_finds (text : String) (environment : Environment) :
    Finds (projectWorld text environment) () none none (some "work/monkey.toml") := by
  have places : (Path.ancestors "work").map (Path.join · Settings.projectFile) =
      ["work/monkey.toml", "monkey.toml"] := by decide +kernel
  apply Finds.around
  · show List.findM? (projectWorld text environment).files.isFile
      ((Path.ancestors "work").map (Path.join · Settings.projectFile)) () = _
    rw [places]
    rfl
  · rfl

/-- The settings of the project in such a world, as a table. -/
def projectTable (text : String) : Toml.Table :=
  tableIn [("work/monkey.toml", text)] "work/monkey.toml"

/-- The file of the project in such a world has this table. -/
def ProjectHolds (text : String) (environment : Environment) : Prop :=
  Holds (projectWorld text environment).toml (projectWorld text environment).files ()
    (some "work/monkey.toml") (projectTable text)

theorem projectWorld_holds {text : String} (environment : Environment)
    (written : (Toml.Table.read? text.toList).isSome = true)
    (fits : (Settings.ofTable? (projectTable text)).isSome = true) :
    ProjectHolds text environment :=
  holds_tableIn written fits

/-- The size of the stack is set, and nothing else. -/
def smallStack : Options := ⟨some 64, none, none⟩

/-- A project sets the size of the stack, and a number of frames that no machine can have. -/
def withoutFrames : String := "[vm]\nstack_size = 512\nmax_frames = 0\n"

/-- Only the number of frames is set. -/
def sevenFrames : Environment := fun name => if name = "MONKEY_MAX_FRAMES" then some "7" else none

theorem sevenFrames_reads : sevenFrames.Reads := by
  intro name _ raw set
  rw [sevenFrames] at set
  split at set
  · cases set
    exact ⟨7, by decide⟩
  · cases set

/-- The environment overrides an invalid number of frames of the project, and an option the size of
the stack. -/
theorem loadSettings_effective_withoutFrames : ∃ outcome,
    loadSettings (projectWorld withoutFrames sevenFrames) smallStack () = (outcome, ()) ∧
      outcome = .ok ⟨⟨64, 7, 65536⟩, ">> ", true, none⟩ := by
  have finds : Finds (projectWorld withoutFrames sevenFrames) () smallStack.settingsFile none
      (some "work/monkey.toml") := projectWorld_finds withoutFrames sevenFrames
  have above : ProjectHolds withoutFrames sevenFrames :=
    projectWorld_holds _ (by decide +kernel) (by decide +kernel)
  obtain ⟨outcome, loads, gives⟩ := loadSettings_effective (projectWorld_tables _ _) finds above
    .nothing
  have overridden : (sevenFrames.layer.over ((Layer.ofTable (projectTable withoutFrames)).over
      (Layer.ofTable (Toml.Table.beneath (projectTable withoutFrames) [])))).settings =
        ⟨⟨512, 7, 65536⟩, ">> ", true, none⟩ := by decide +kernel
  have effective : (smallStack.layer.over (sevenFrames.layer.over
      ((Layer.ofTable (projectTable withoutFrames)).over
        (Layer.ofTable (Toml.Table.beneath (projectTable withoutFrames) []))))).settings =
          ⟨⟨64, 7, 65536⟩, ">> ", true, none⟩ := by decide +kernel
  simp only [projectWorld_environment, overridden, effective] at gives
  exact ⟨outcome, loads, (gives _).mpr ⟨by decide +kernel, sevenFrames_reads,
    ⟨by decide, by decide, by decide, by decide⟩, ⟨by decide, by decide, by decide, by decide⟩,
    rfl⟩⟩

/-- A project sets a size of the stack that no machine can have. -/
def withoutStack : String := "[vm]\nstack_size = 0\n"

/-- A size of the stack among the arguments does not help where a project sets an invalid one, so
that the arguments are not laid over the files as the environment is. -/
theorem not_loadSettings_overriding : ¬ ∀ (σ : Type) (world : World (StateM σ)) (state : σ)
    (options : Options) (userFile projectFile : Option String) (user project : Toml.Table),
    world.toml.ReadsTables → Finds world state options.settingsFile userFile projectFile →
      Holds world.toml world.files state userFile user →
        Holds world.toml world.files state projectFile project → world.environment.Reads →
          let effective := (options.layer.over (world.environment.layer.over
            ((Layer.ofTable project).over (Layer.ofTable user)))).settings
          ∃ outcome, loadSettings world options state = (outcome, state) ∧
            ∀ settings, outcome = .ok settings ↔
              effective.limits.Valid ∧ settings = effective := by
  intro overriding
  have above : ProjectHolds withoutStack fun _ => none :=
    projectWorld_holds _ (by decide +kernel) (by decide +kernel)
  obtain ⟨outcome, loads, gives⟩ := overriding _ _ _ smallStack _ _ _ _
    (projectWorld_tables _ _) (projectWorld_finds withoutStack fun _ => none) .nothing above
    (by rintro _ _ _ ⟨⟩)
  have effective : (smallStack.layer.over ((Environment.layer fun _ => none).over
      ((Layer.ofTable (projectTable withoutStack)).over (Layer.ofTable [])))).settings =
        ⟨⟨64, 1024, 65536⟩, ">> ", true, none⟩ := by decide +kernel
  simp only [projectWorld_environment, effective] at gives
  have loaded := (gives _).mpr ⟨⟨by decide, by decide, by decide, by decide⟩, rfl⟩
  have actual : (loadSettings (projectWorld withoutStack fun _ => none) smallStack ()).1.isOk =
      false := by decide +kernel
  rw [loads, loaded] at actual
  cases actual

end MonkeyLang.CommandLine
