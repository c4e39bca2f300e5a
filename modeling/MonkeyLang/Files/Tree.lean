import MonkeyLang.Files.Access

/-!
# Files held in memory

A file tree holds the files and directories below one directory, which is the one that paths
start from.  Nothing exists outside of it.
-/

set_option autoImplicit false

namespace MonkeyLang

/-- A file or a directory. -/
inductive FileTree.Node where
  | file (bytes : ByteArray)
  | directory

/-- Files and directories, each with the names on the way to it. -/
structure FileTree where
  entries : List (List String × FileTree.Node)

namespace FileTree

/-- The tree without entries. -/
def empty : FileTree := ⟨[]⟩

/-- What stands at the end of a way. -/
def nodeAt? (tree : FileTree) (way : List String) : Option Node :=
  if way.isEmpty then some .directory else tree.entries.lookup way

/-- The tree with another entry. -/
def insert (tree : FileTree) (way : List String) (node : Node) : FileTree :=
  ⟨(way, node) :: tree.entries⟩

/-- The names in a path.  What is empty between slashes means the directory itself. -/
def names (path : String) : List String :=
  (path.splitOn "/").map fun name => if name.isEmpty then "." else name

/-- The way that names lead from a place in the tree.  On the way there must be directories. -/
def follow (tree : FileTree) (way : List String) : List String → Except FileFault (List String)
  | [] => .ok way
  | name :: names =>
    match tree.nodeAt? way with
    | none => .error .missing
    | some (.file _) => .error .notDirectory
    | some .directory =>
      if name == "." then follow tree way names
      else if name == ".." then follow tree way.dropLast names
      else follow tree (way ++ [name]) names

/-- The way that a path means. -/
def resolve (tree : FileTree) (path : String) : Except FileFault (List String) :=
  if path.isEmpty || path.startsWith "/" then .error .missing else tree.follow [] (names path)

/-- What stands at a path. -/
def find (tree : FileTree) (path : String) : Except FileFault Node := do
  match tree.nodeAt? (← tree.resolve path) with
  | some node => return node
  | none => throw .missing

/-- The text of a file. -/
def readText (tree : FileTree) (path : String) : Except FileFault String := do
  match ← tree.find path with
  | .directory => throw .isDirectory
  | .file bytes =>
    match String.fromUTF8? bytes with
    | some text => return text
    | none => throw .notText

/-- The tree with a new directory. -/
def makeDirectory (tree : FileTree) (path : String) : Except FileFault FileTree := do
  let way ← tree.resolve path
  match tree.nodeAt? way, tree.nodeAt? way.dropLast with
  | some _, _ => throw .alreadyExists
  | none, some .directory => return tree.insert way .directory
  | none, some (.file _) => throw .notDirectory
  | none, none => throw .missing

/-- The tree with directories on all ways that start a way. -/
def insertDirectories (tree : FileTree) (way : List String) : FileTree :=
  (List.range (way.length + 1)).foldl (fun tree count =>
    match tree.nodeAt? (way.take count) with
    | some _ => tree
    | none => tree.insert (way.take count) .directory) tree

/-- The tree with an entry and the directories around it. -/
def place (tree : FileTree) (path : String) (node : Node) : FileTree :=
  let way := (names path).filter (· != ".")
  (tree.insertDirectories way.dropLast).insert way node

/-- The operations on the files of a tree. -/
def files : Files (StateM FileTree) where
  read path := return (← get).readText path
  doesExist path := return ((← get).find path).isOk
  isFile path := do
    match (← get).find path with
    | .ok (.file _) => return true
    | _ => return false
  isDirectory path := do
    match (← get).find path with
    | .ok .directory => return true
    | _ => return false
  makeDirectory path := do
    match (← get).makeDirectory path with
    | .ok tree =>
      set tree
      return .ok ()
    | .error fault => return .error fault

end FileTree

end MonkeyLang
