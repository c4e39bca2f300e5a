/-!
# Tables

Settings are kept in TOML files.  A file is a table, whose sections are tables again.  Settings
are whole numbers, truth values and strings; doubles and moments have no use in them.  Files are
read and written by a library.
-/

set_option autoImplicit false

namespace MonkeyLang.Toml

/-- A value of a table. -/
inductive Value where
  | integer (value : Int)
  | boolean (value : Bool)
  | string (value : String)
  | real (value : Float)
  /-- A date or a time of day, or both. -/
  | moment (text : String)
  | array (items : List Value)
  | table (entries : List (String × Value))
  deriving Inhabited

/-- A table.  No key stands in it twice. -/
abbrev Table := List (String × Value)

namespace Table

/-- The value of a key. -/
def find? (table : Table) (key : String) : Option Value := table.lookup key

/-- Whether a key has a value. -/
def has (table : Table) (key : String) : Bool := table.any (·.1 == key)

/-- The table with a new key at its end; none if the key has a value already. -/
def insert? (table : Table) (key : String) (value : Value) : Option Table :=
  if table.has key then none else some (table ++ [(key, value)])

/-- The table with a new key in one of its sections. -/
def insertInto? (table : Table) (sectionName key : String) (value : Value) : Option Table :=
  table.mapM fun (name, content) =>
    if name == sectionName then
      match content with
      | .table entries => (insert? entries key value).map fun entries => (name, .table entries)
      | _ => none
    else some (name, content)

/-- The table with the value of a key put in, in place of the old one if there is one. -/
def replace (table : Table) (key : String) (value : Value) : Table :=
  if table.has key then
    table.map fun (name, old) => if name == key then (name, value) else (name, old)
  else table ++ [(key, value)]

end Table

/-- A library that reads and writes tables. -/
structure Library where
  /-- The table that the text of a file holds. -/
  read? : List Char → Option Table
  /-- The text of a file with a table, if the table can be written. -/
  write? : Table → Option String

end MonkeyLang.Toml
