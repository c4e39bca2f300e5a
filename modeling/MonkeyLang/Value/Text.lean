import MonkeyLang.Value.Basic
import MonkeyLang.Number.Written
import MonkeyLang.Text.Quoted

/-!
# Values as text

The shown text of a value is what programs print.  A string is shown as it is, but in quotes
inside of an array.  The detailed text names the kind of every value and shows the contents
of functions.
-/

set_option autoImplicit false

namespace MonkeyLang

/-- The texts of items with a comma and a blank between them. -/
def commaSeparated (texts : List String) : String := String.intercalate ", " texts

/-- The shown text of a function. -/
def Function.text (function : Function) : String :=
  match function.name with
  | some name => s!"<fn {name}>"
  | none => "<fn>"

/-- The detailed text of a function, all its parts in order. -/
def Function.detailedText (function : Function) : String :=
  let bytes := commaSeparated (function.code.toList.map fun byte => toString byte.toNat)
  let name := match function.name with
    | some name => s!"Some({Text.quote name})"
    | none => "None"
  s!"CompiledFunction \x7b instructions: Instructions([{bytes}]), "
    ++ s!"num_locals: {function.locals}, num_parameters: {function.parameters}, "
    ++ s!"name: {name} \x7d"

namespace Value

mutual

/-- The shown text of a value. -/
def text : Value → String
  | .integer value => toString value.toInt
  | .float value => Number.display value
  | .string value => value
  | .boolean value => if value then "true" else "false"
  | .null => "null"
  | .array items => "[" ++ commaSeparated (itemTexts items) ++ "]"
  | .function body => body.text
  | .builtin callee => s!"<builtin {callee.name}>"
  | .error message => s!"ERROR: {message}"
  | .returned value => value.text

/-- The shown texts of the items of an array. -/
def itemTexts : List Value → List String
  | [] => []
  | .string value :: items => Text.quote value :: itemTexts items
  | item :: items => item.text :: itemTexts items

end

mutual

/-- The detailed text of a value. -/
def detailedText : Value → String
  | .integer value => s!"Integer({value.toInt})"
  | .float value => s!"Float({Number.plain value})"
  | .string value => s!"String({Text.quote value})"
  | .boolean value => if value then "Boolean(true)" else "Boolean(false)"
  | .null => "Null"
  | .array items => "Array([" ++ commaSeparated (detailedTexts items) ++ "])"
  | .function body => s!"Function({body.detailedText})"
  | .builtin callee => s!"Builtin({Text.quote callee.name})"
  | .error message => s!"Error({Text.quote message})"
  | .returned value => "Return(" ++ value.detailedText ++ ")"

/-- The detailed texts of the items of an array. -/
def detailedTexts : List Value → List String
  | [] => []
  | item :: items => item.detailedText :: detailedTexts items

end

end Value

end MonkeyLang
