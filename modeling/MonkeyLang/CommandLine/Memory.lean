import MonkeyLang.CommandLine.World
import MonkeyLang.Files.Tree
import MonkeyLang.Program.Exchange
import MonkeyLang.Toml.Reader

/-!
# A world held in memory

The input is a text, output and complaints are collected, and the files are those of a tree.
-/

set_option autoImplicit false

namespace MonkeyLang.CommandLine

/-- The state of a world held in memory. -/
structure Memory where
  tree : FileTree
  /-- What has not been read of the input. -/
  input : List Char
  output : String
  complaints : String

namespace Memory

/-- The first line of a text without its end, and the rest; none at the end of the text. -/
def splitLine? (text : List Char) : Option (String × List Char) :=
  if text.isEmpty then none
  else
    let line := text.takeWhile (· != '\n')
    let ended := line.length < text.length
    let line := if ended && line.getLast? == some '\r' then line.dropLast else line
    some (String.ofList line, (text.dropWhile (· != '\n')).drop 1)

/-- Work on the files of a world. -/
def onTree {α : Type} (work : StateM FileTree α) : StateM Memory α := fun memory =>
  let (result, tree) := work memory.tree
  (result, { memory with tree })

/-- The operations on the files of a world. -/
def files : Files (StateM Memory) where
  read path := onTree (FileTree.files.read path)
  doesExist path := onTree (FileTree.files.doesExist path)
  isFile path := onTree (FileTree.files.isFile path)
  isDirectory path := onTree (FileTree.files.isDirectory path)
  makeDirectory path := onTree (FileTree.files.makeDirectory path)

/-- A world held in memory, with its environment and the home directory of the user.  The working
directory is the one that paths start from. -/
def world (environment : Environment) (home : Option String) : World (StateM Memory) where
  files
  environment
  home
  workingDirectory := ""
  toml := .standard
  json := .standard
  write text := modify fun memory => { memory with output := memory.output ++ text }
  complain text := modify fun memory => { memory with complaints := memory.complaints ++ text }
  readLine _ := do
    match splitLine? (← get).input with
    | none => return none
    | some (line, rest) =>
      modify fun memory => { memory with input := rest }
      return some line

end Memory

end MonkeyLang.CommandLine
