import MonkeyLang.Builtin.Basic
import MonkeyLang.Bytecode.Code

/-!
# Values

Values are what a program computes with.  Values of different kinds are never equal.  Arrays
are equal item by item, functions if they come from the same literal, and doubles as the
standard of floating point says: the undefined number differs from itself, so that a value
that holds it anywhere differs from itself too.
-/

set_option autoImplicit false

namespace MonkeyLang

/-- A compiled function.  Two functions are the same if their identities are. -/
structure Function where
  identity : Nat
  name : Option String
  /-- How many arguments a call must have. -/
  parameters : Nat
  /-- How many slots a call takes, those of the arguments included. -/
  locals : Nat
  code : Code
  deriving Repr, Inhabited

/-- A value. -/
inductive Value where
  | integer (value : Int64)
  | float (value : Float)
  | string (value : String)
  | boolean (value : Bool)
  | null
  | array (items : List Value)
  | function (function : Function)
  | builtin (builtin : Builtin)
  /-- A mistake in the use of a builtin function, as a value. -/
  | error (message : String)
  /-- A value on its way out of a function. -/
  | returned (value : Value)
  deriving Inhabited

namespace Value

/-- The kinds of values. -/
inductive Kind where
  | integer
  | float
  | string
  | boolean
  | null
  | array
  | function
  | builtin
  | error
  | returned
  deriving DecidableEq, Repr, Inhabited

/-- The name of a kind, as programs see it. -/
def Kind.name : Kind → String
  | integer => "INTEGER"
  | float => "FLOAT"
  | string => "STRING"
  | boolean => "BOOLEAN"
  | null => "NULL"
  | array => "ARRAY"
  | function => "FUNCTION"
  | builtin => "BUILTIN"
  | error => "ERROR"
  | returned => "RETURN_VALUE"

/-- The kind of a value. -/
def kind : Value → Kind
  | integer _ => .integer
  | float _ => .float
  | string _ => .string
  | boolean _ => .boolean
  | null => .null
  | array _ => .array
  | function _ => .function
  | builtin _ => .builtin
  | error _ => .error
  | returned _ => .returned

/-- Whether a value counts as true in a condition: all do but null and false. -/
def isTruthy : Value → Bool
  | null => false
  | boolean value => value
  | _ => true

/-- Whether a value is a mistake. -/
def isError : Value → Bool
  | error _ => true
  | _ => false

/-- Whether a value is null. -/
def isNull : Value → Bool
  | null => true
  | _ => false

/-- The value inside all wrappers of a value on its way out. -/
def unwrapped : Value → Value
  | returned value => value.unwrapped
  | value => value

mutual

/-- Equality of values, as programs see it. -/
def equal : Value → Value → Bool
  | .integer left, .integer right => left == right
  | .float left, .float right => left == right
  | .string left, .string right => left == right
  | .boolean left, .boolean right => left == right
  | .null, .null => true
  | .array left, .array right => equalItems left right
  | .function left, .function right => left.identity == right.identity
  | .builtin left, .builtin right => left == right
  | .error left, .error right => left == right
  | .returned left, .returned right => equal left right
  | _, _ => false

/-- Equality item by item. -/
def equalItems : List Value → List Value → Bool
  | [], [] => true
  | left :: lefts, right :: rights => equal left right && equalItems lefts rights
  | _, _ => false

end

end Value

end MonkeyLang
