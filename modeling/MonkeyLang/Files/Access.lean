import MonkeyLang.Files.Path

/-!
# Access to files

What the rest of the library needs of a file system is a handful of operations.  They are given
as a record over any monad, so that the same code works on the files of the machine and on files
held in memory.
-/

set_option autoImplicit false

namespace MonkeyLang

/-- Why an operation on a file fails. -/
inductive FileFault where
  | missing
  | alreadyExists
  | notDirectory
  | isDirectory
  /-- The bytes of the file are no text. -/
  | notText
  | other (message : String)
  deriving DecidableEq, Repr

/-- How the operating system words a fault. -/
def FileFault.message : FileFault → String
  | missing => "No such file or directory (os error 2)"
  | alreadyExists => "File exists (os error 17)"
  | notDirectory => "Not a directory (os error 20)"
  | isDirectory => "Is a directory (os error 21)"
  | notText => "stream did not contain valid UTF-8"
  | other message => message

/-- The operations on files. -/
structure Files (m : Type → Type) where
  /-- The text of a file. -/
  read : String → m (Except FileFault String)
  /-- Whether there is a file or a directory at a path. -/
  doesExist : String → m Bool
  /-- Whether there is a file at a path. -/
  isFile : String → m Bool
  /-- Whether there is a directory at a path. -/
  isDirectory : String → m Bool
  /-- Makes a directory inside of one that exists. -/
  makeDirectory : String → m (Except FileFault Unit)

namespace Files

variable {m : Type → Type} [Monad m]

/-- Makes a directory unless there is one. -/
def ensureDirectory (files : Files m) (path : String) : m (Except FileFault Unit) := do
  match ← files.makeDirectory path with
  | .ok _ => return .ok ()
  | .error fault => if ← files.isDirectory path then return .ok () else return .error fault

/-- Makes a directory with a number of directories around it. -/
def makeDirectoriesUpTo (files : Files m) : Nat → String → m (Except FileFault Unit)
  | 0, _ => return .ok ()
  | count + 1, path => do
    if path.isEmpty then return .ok ()
    match ← files.makeDirectory path with
    | .ok _ => return .ok ()
    | .error .missing =>
      match Path.parent? path with
      | none => return .error .missing
      | some parent =>
        match ← makeDirectoriesUpTo files count parent with
        | .error fault => return .error fault
        | .ok _ => files.ensureDirectory path
    | .error fault => if ← files.isDirectory path then return .ok () else return .error fault

/-- Makes a directory with the directories around it, as far as they are missing. -/
def makeDirectories (files : Files m) (path : String) : m (Except FileFault Unit) :=
  files.makeDirectoriesUpTo (path.length + 1) path

end Files

end MonkeyLang
