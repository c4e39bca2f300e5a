import MonkeyLang.Files.Access
import MonkeyLang.Settings.Layers

/-!
# Loading settings

There may be a file of settings for the user, in the home directory, and one for a project: the
nearest one in a directory or the directories around it, or one that is named.  Each file must be
a table of settings on its own.  What the text of a file holds is up to a library, and where the
home directory is up to the operating system.
-/

set_option autoImplicit false

namespace MonkeyLang.Settings

/-- The name of the file of a project. -/
def projectFile : String := "monkey.toml"

/-- Where the files of the user are, inside of the home directory if there is one. -/
def userDirectory? (home : Option String) : Option String :=
  home.map fun home => Path.join home ".monkey"

/-- Where the settings of the user are. -/
def userFile? (home : Option String) : Option String :=
  (userDirectory? home).map fun directory => Path.join directory "config.toml"

/-- Settings with the place they come from. -/
structure Loaded where
  settings : Settings
  /-- The directory of the file of the project, if there is one. -/
  projectRoot : Option String
  /-- The files that were read, the least important first. -/
  sources : List String

variable {m : Type → Type} [Monad m]

/-- The text of a file of settings. -/
def readFile (files : Files m) (path : String) : ExceptT SettingsFault m String := do
  match ← files.read path with
  | .ok text => return text
  | .error .missing => throw (.missing path)
  | .error fault => throw (.unusable fault.message)

/-- The table in a file of settings. -/
def readTable (library : Toml.Library) (files : Files m) (path : String) :
    ExceptT SettingsFault m (Toml.Table × Settings) := do
  let text ← readFile files path
  match library.read? text.toList with
  | none => throw (.unfit path)
  | some table =>
    match ofTable? table with
    | none => throw (.unfit path)
    | some settings => return (table, settings)

/-- The settings in one file, and nothing else. -/
def loadFile (library : Toml.Library) (files : Files m) (path : String) :
    ExceptT SettingsFault m Settings := do
  let (_, settings) ← readTable library files path
  settings.validate
  return settings

/-- The file of the project that a directory belongs to. -/
def findProject? (files : Files m) (directory : String) : m (Option String) :=
  ((Path.ancestors directory).map (Path.join · projectFile)).findM? files.isFile

/-- The file of the user and the file of the project, one over the other. -/
def loadLayers (library : Toml.Library) (files : Files m) (environment : Environment)
    (userFile projectFile : Option String) : ExceptT SettingsFault m Loaded := do
  let sources := userFile.toList ++ projectFile.toList
  let layers ← sources.mapM fun path => do
    let (table, _) ← readTable library files path
    return (path, table)
  let settings ← layered layers environment
  return ⟨settings, projectFile.bind Path.parent?, sources⟩

/-- The given file of the user if there is such a file. -/
def existing? (files : Files m) (path : Option String) : m (Option String) := do
  match path with
  | none => return none
  | some path => if ← files.doesExist path then return some path else return none

/-- The settings for work in a directory. -/
def loadFor (library : Toml.Library) (files : Files m) (environment : Environment)
    (userFile : Option String) (directory : String) : ExceptT SettingsFault m Loaded := do
  let project ← (findProject? files directory : m (Option String))
  let user ← (existing? files userFile : m (Option String))
  loadLayers library files environment user project

/-- The settings with a given file for the project. -/
def loadWith (library : Toml.Library) (files : Files m) (environment : Environment)
    (userFile : Option String) (projectFile : String) : ExceptT SettingsFault m Loaded := do
  if !(← files.doesExist projectFile) then throw (.missing projectFile)
  let user ← (existing? files userFile : m (Option String))
  loadLayers library files environment user (some projectFile)

/-! ## The history of inputs -/

/-- Where inputs are kept, if they are. -/
def historyPath? (settings : Settings) (home : Option String) : Option String :=
  if settings.history then
    settings.historyFile.orElse fun _ =>
      (userDirectory? home).map fun directory => Path.join directory "history"
  else none

/-- Makes a directory and those around it. -/
def makeDirectories (files : Files m) (path : String) : ExceptT SettingsFault m Unit := do
  match ← files.makeDirectories path with
  | .ok _ => return ()
  | .error fault => throw (.unusable fault.message)

/-- Makes the directory of the file in which inputs are kept. -/
def prepareHistory (settings : Settings) (files : Files m) (home : Option String) :
    ExceptT SettingsFault m (Option String) := do
  if !settings.history then return none
  match settings.historyFile with
  | some path =>
    match Path.parent? path with
    | none => pure ()
    | some directory => if !directory.isEmpty then makeDirectories files directory
    return some path
  | none =>
    match userDirectory? home with
    | none => throw .homeless
    | some directory =>
      if !(← files.doesExist directory) then makeDirectories files directory
      return some (Path.join directory "history")

end MonkeyLang.Settings
