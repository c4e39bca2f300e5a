import MonkeyLang.Value.Text
import MonkeyLang.Text.Ranges
import MonkeyLang.Number.Read

/-!
# Calling builtin functions

A mistake in the arguments is no fault: the result is an error value, with which the program
goes on.  Only `print` has an effect, a line of output.
-/

set_option autoImplicit false

namespace MonkeyLang.Builtin

/-- The mistake of a call with too few or too many arguments. -/
def wrongCount (wanted got : Nat) : Value :=
  .error s!"wrong number of arguments: want={wanted}, got={got}"

/-- The mistake of an argument of a kind that the function does not take. -/
def unsupported (builtin : Builtin) (argument : Value) : Value :=
  .error ("argument to `" ++ builtin.name ++ "` not supported, got " ++ argument.kind.name)

/-- The mistake of an argument that had to be an array. -/
def mustBeArray (builtin : Builtin) (argument : Value) : Value :=
  .error ("argument to `" ++ builtin.name ++ "` must be ARRAY, got " ++ argument.kind.name)

/-- The mistake of a text that is no number. -/
def unreadable (text kind : String) : Value :=
  .error s!"could not parse {Text.quote text} as {kind}"

/-- The length of a string in characters, or of an array. -/
def length : Value → Value
  | .string text => .integer (Int64.ofNat text.length)
  | .array items => .integer (Int64.ofNat items.length)
  | other => unsupported len other

/-- An array with one more element at its end. -/
def pushed (target item : Value) : Value :=
  match target with
  | .array items => .array (items ++ [item])
  | other => mustBeArray push other

/-- The first element of an array, or null. -/
def firstOf : Value → Value
  | .array items => items.head?.getD .null
  | other => mustBeArray first other

/-- The last element of an array, or null. -/
def lastOf : Value → Value
  | .array items => items.getLast?.getD .null
  | other => mustBeArray last other

/-- An array without its first element, or null if it has none. -/
def restOf : Value → Value
  | .array [] => .null
  | .array (_ :: items) => .array items
  | other => mustBeArray rest other

/-- A double cut off toward zero; what is too large becomes the bound, and what is undefined
becomes zero. -/
def truncated (value : Float) : Int64 :=
  match Binary64.ofFloat value with
  | .nan => 0
  | .infinite true => Int64.ofInt Number.leastInteger
  | .infinite false => Int64.ofInt Number.greatestInteger
  | .finite negative mantissa exponent =>
    let magnitude := mantissa * Number.twoTo exponent.toNat / Number.twoTo (-exponent).toNat
    let whole : Int := if negative then -(magnitude : Int) else magnitude
    Int64.ofInt (max Number.leastInteger (min whole Number.greatestInteger))

/-- The integer that a value stands for.  A string is stripped of blanks first. -/
def integerOf : Value → Value
  | .integer value => .integer value
  | .float value => .integer (truncated value)
  | .boolean value => .integer (if value then 1 else 0)
  | .string text =>
    match Number.readInteger? (Text.trimBlanks text.toList) with
    | some value => .integer value
    | none => unreadable text "INTEGER"
  | other => unsupported int other

/-- The double that a value stands for.  A string is stripped of blanks first. -/
def floatOf : Value → Value
  | .integer value => .float (Binary64.ofInt value.toInt)
  | .float value => .float value
  | .string text =>
    match Number.readFloat? (Text.trimBlanks text.toList) with
    | some value => .float value
    | none => unreadable text "FLOAT"
  | other => unsupported float other

/-- The line that `print` writes: its arguments with blanks between them. -/
def printedLine (arguments : List Value) : String :=
  String.intercalate " " (arguments.map Value.text) ++ "\n"

/-- A function of one argument. -/
def withOne (function : Value → Value) : List Value → Value
  | [argument] => function argument
  | arguments => wrongCount 1 arguments.length

/-- A function of two arguments. -/
def withTwo (function : Value → Value → Value) : List Value → Value
  | [target, item] => function target item
  | arguments => wrongCount 2 arguments.length

/-- The result of a call. -/
def result : Builtin → List Value → Value
  | len => withOne length
  | print => fun _ => .null
  | push => withTwo pushed
  | first => withOne firstOf
  | last => withOne lastOf
  | rest => withOne restOf
  | typeof => withOne fun argument => .string argument.kind.name
  | str => withOne fun argument => .string argument.text
  | int => withOne integerOf
  | float => withOne floatOf

/-- What a call writes. -/
def output : Builtin → List Value → String
  | print, arguments => printedLine arguments
  | _, _ => ""

end MonkeyLang.Builtin
