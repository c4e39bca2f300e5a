/-!
# Builtin functions

The builtin functions have fixed indices, by which instructions refer to them.
-/

set_option autoImplicit false

namespace MonkeyLang

/-- A builtin function. -/
inductive Builtin where
  | len
  | print
  | push
  | first
  | last
  | rest
  | typeof
  | str
  | int
  | float
  deriving DecidableEq, Repr, Inhabited

namespace Builtin

/-- All builtin functions, in the order of their indices. -/
def all : List Builtin := [len, print, push, first, last, rest, typeof, str, int, float]

/-- The name of a builtin function in programs. -/
def name : Builtin → String
  | len => "len"
  | print => "print"
  | push => "push"
  | first => "first"
  | last => "last"
  | rest => "rest"
  | typeof => "typeof"
  | str => "str"
  | int => "int"
  | float => "float"

/-- The builtin function with an index. -/
def ofIndex? (index : Nat) : Option Builtin := all[index]?

/-- The builtin function with a name. -/
def ofName? (name : String) : Option Builtin := all.find? (·.name == name)

/-- The names of all builtin functions, in the order of their indices. -/
def names : List String := all.map name

end Builtin

end MonkeyLang
