/-!
# JSON values

Numbers without fraction and exponent are kept apart from the others: they stand for whole
numbers, exactly.  Members keep the order in which they are written, repeated names included.

Texts of JSON are written and read by a library.  What is said of programs in that form is said of
any library; what they ask of one is what a library of this kind documents.
-/

set_option autoImplicit false

namespace MonkeyLang

/-- A JSON value. -/
inductive Json where
  | null
  | bool (value : Bool)
  | integer (value : Int)
  | real (value : Float)
  | string (value : String)
  | array (items : List Json)
  | object (members : List (String × Json))
  deriving Inhabited

namespace Json

/-- A whole number that is not negative. -/
def natural (value : Nat) : Json := .integer value

mutual

/-- How many arrays and objects stand inside one another. -/
def depth : Json → Nat
  | .array items => depthOfItems items + 1
  | .object members => depthOfMembers members + 1
  | _ => 0

/-- The depth of the deepest item. -/
def depthOfItems : List Json → Nat
  | [] => 0
  | item :: items => max item.depth (depthOfItems items)

/-- The depth of the deepest member. -/
def depthOfMembers : List (String × Json) → Nat
  | [] => 0
  | (_, value) :: members => max value.depth (depthOfMembers members)

end

/-! ## Libraries -/

/-- Why a text is refused where a value of a certain shape is asked for. -/
inductive Refusal where
  /-- The text ends too early. -/
  | unfinished
  /-- The text is no JSON. -/
  | malformed
  /-- The text is JSON of another shape. -/
  | misshapen
  deriving DecidableEq, Repr

/-- A library that writes and reads JSON. -/
structure Library where
  /-- How many arrays and objects may stand inside one another, plus one. -/
  depthLimit : Nat
  /-- The text of a value, on several lines. -/
  write : Json → String
  /-- The value that a text holds, if it is JSON as a whole. -/
  read? : List Char → Option Json
  /-- Why a text that is no JSON is refused where the document of a program is asked for. A reader
  that judges the shape of what it has read may object to that first. -/
  refusal : List Char → Refusal

end Json

end MonkeyLang
