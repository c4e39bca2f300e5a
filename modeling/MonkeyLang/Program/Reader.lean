import MonkeyLang.Program.Writer
import MonkeyLang.Number.Read

/-!
# Programs from data

The form in which programs are written is read back, and some freedom is left to other
writers.  The members of a node may stand in any order, among others that have no meaning, but
no part may be given twice; or the parts are the items of an array, all of them and in order.
What may be missing may be left out of an object.  An operator may be an object whose one member
is null.

A text that is no JSON is told apart from a text that is JSON of another shape.
-/

set_option autoImplicit false

namespace MonkeyLang

namespace Json

/-- The parts of a node in the order of their names.  An object may lack some; an array has them
all. -/
def parts? (names : List String) : Json → Option (List (Option Json))
  | .array items => if items.length = names.length then some (items.map some) else none
  | .object members => names.mapM fun name =>
    match members.filter (·.1 == name) with
    | [] => some none
    | [(_, value)] => some (some value)
    | _ => none
  | _ => none

/-- The name and the content of an object with one member. -/
def member? : Json → Option (String × Json)
  | .object [member] => some member
  | _ => none

/-- The name of a case that has no content. -/
def bareName? : Json → Option String
  | .string name => some name
  | .object [(name, .null)] => some name
  | .object [(name, .object [])] => some name
  | _ => none

/-- A whole number that is not negative and at most as large as a bound. -/
def naturalUpTo? (bound : Nat) : Json → Option Nat
  | .integer value => if 0 ≤ value && value ≤ bound then some value.toNat else none
  | _ => none

/-- A list of things. -/
def listOf? {α : Type} (item? : Json → Option α) : Json → Option (List α)
  | .array items => items.mapM item?
  | _ => none

end Json

/-- A span from data. -/
def Span.ofJson? (data : Json) : Option Span := do
  match ← data.parts? ["start", "end"] with
  | [some start, some stop] =>
    return ⟨← start.naturalUpTo? Number.greatestSize, ← stop.naturalUpTo? Number.greatestSize⟩
  | _ => none

/-- A name from data. -/
def Name.ofJson? (data : Json) : Option Name := do
  match ← data.parts? ["name", "span"] with
  | [some (.string text), some span] => return ⟨text, ← Span.ofJson? span⟩
  | _ => none

/-- The value of a literal from data. -/
def Literal.ofJson? (data : Json) : Option Literal := do
  match ← data.member? with
  | ("Integer", .integer value) =>
    if Number.leastInteger ≤ value && value ≤ Number.greatestInteger then
      return .integer (Int64.ofInt value)
    else none
  | ("Float", .integer value) => return .float (Binary64.ofInt value)
  | ("Float", .real value) => return .float value
  | ("String", .string value) => return .string value
  | ("Boolean", .bool value) => return .boolean value
  | _ => none

/-- An operator from data. -/
def UnaryOperator.ofJson? (data : Json) : Option UnaryOperator := do
  let name ← data.bareName?
  [not, negate].find? (·.dataName == name)

/-- An operator from data. -/
def BinaryOperator.ofJson? (data : Json) : Option BinaryOperator := do
  let name ← data.bareName?
  [add, sub, mul, div, equal, notEqual, less, lessEqual, greater, greaterEqual].find?
    (·.dataName == name)

mutual

/-- An expression from data.  Nodes inside of one another use up fuel; the depth of the data is
enough. -/
def Expression.ofJson? : Nat → Json → Option Expression
  | 0, _ => none
  | fuel + 1, data => do
    let (kind, content) ← data.member?
    match kind with
    | "Literal" =>
      match content with
      | .array [value, span] => return .literal (← Literal.ofJson? value) (← Span.ofJson? span)
      | _ => none
    | "Identifier" => return .name (← Name.ofJson? content)
    | "Prefix" =>
      match ← content.parts? ["op", "operand", "span"] with
      | [some operator, some operand, some span] =>
        return .unary (← UnaryOperator.ofJson? operator) (← Expression.ofJson? fuel operand)
          (← Span.ofJson? span)
      | _ => none
    | "Infix" =>
      match ← content.parts? ["op", "left", "right", "span"] with
      | [some operator, some left, some right, some span] =>
        return .binary (← BinaryOperator.ofJson? operator) (← Expression.ofJson? fuel left)
          (← Expression.ofJson? fuel right) (← Span.ofJson? span)
      | _ => none
    | "If" =>
      match ← content.parts? ["condition", "consequence", "alternative", "span"] with
      | [some condition, some consequence, alternative, some span] =>
        let alternative ← match alternative with
          | none | some .null => some none
          | some block => (Block.ofJson? fuel block).map some
        return .conditional (← Expression.ofJson? fuel condition)
          (← Block.ofJson? fuel consequence) alternative (← Span.ofJson? span)
      | _ => none
    | "While" =>
      match ← content.parts? ["condition", "body", "span"] with
      | [some condition, some body, some span] =>
        return .whileLoop (← Expression.ofJson? fuel condition) (← Block.ofJson? fuel body)
          (← Span.ofJson? span)
      | _ => none
    | "For" =>
      match ← content.parts? ["init", "condition", "post", "body", "span"] with
      | [some start, some condition, some post, some body, some span] =>
        return .forLoop (← Binding.ofJson? fuel start) (← Expression.ofJson? fuel condition)
          (← Expression.ofJson? fuel post) (← Block.ofJson? fuel body) (← Span.ofJson? span)
      | _ => none
    | "Function" =>
      match ← content.parts? ["params", "body", "span"] with
      | [some parameters, some body, some span] =>
        return .function (← parameters.listOf? Name.ofJson?) (← Block.ofJson? fuel body)
          (← Span.ofJson? span)
      | _ => none
    | "Call" =>
      match ← content.parts? ["callee", "args", "span"] with
      | [some callee, some arguments, some span] =>
        return .call (← Expression.ofJson? fuel callee)
          (← arguments.listOf? (Expression.ofJson? fuel)) (← Span.ofJson? span)
      | _ => none
    | "Array" =>
      match ← content.parts? ["elements", "span"] with
      | [some elements, some span] =>
        return .array (← elements.listOf? (Expression.ofJson? fuel)) (← Span.ofJson? span)
      | _ => none
    | "Index" =>
      match ← content.parts? ["target", "index", "span"] with
      | [some target, some index, some span] =>
        return .index (← Expression.ofJson? fuel target) (← Expression.ofJson? fuel index)
          (← Span.ofJson? span)
      | _ => none
    | "Assign" =>
      match ← content.parts? ["target", "value", "span"] with
      | [some target, some value, some span] =>
        return .assign (← Name.ofJson? target) (← Expression.ofJson? fuel value)
          (← Span.ofJson? span)
      | _ => none
    | _ => none

/-- A binding from data. -/
def Binding.ofJson? : Nat → Json → Option Binding
  | 0, _ => none
  | fuel + 1, data => do
    match ← data.parts? ["name", "value", "span"] with
    | [some name, some value, some span] =>
      return .mk (← Name.ofJson? name) (← Expression.ofJson? fuel value) (← Span.ofJson? span)
    | _ => none

/-- A block from data. -/
def Block.ofJson? : Nat → Json → Option Block
  | 0, _ => none
  | fuel + 1, data => do
    match ← data.parts? ["statements", "span"] with
    | [some statements, some span] =>
      return .mk (← statements.listOf? (Statement.ofJson? fuel)) (← Span.ofJson? span)
    | _ => none

/-- A statement from data. -/
def Statement.ofJson? : Nat → Json → Option Statement
  | 0, _ => none
  | fuel + 1, data => do
    let (kind, content) ← data.member?
    match kind with
    | "Let" => return .bind (← Binding.ofJson? fuel content)
    | "Return" =>
      match ← content.parts? ["value", "span"] with
      | [value, some span] =>
        let value ← match value with
          | none | some .null => some none
          | some value => (Expression.ofJson? fuel value).map some
        return .leave value (← Span.ofJson? span)
      | _ => none
    | "Expr" =>
      match ← content.parts? ["expr", "span"] with
      | [some value, some span] =>
        return .expression (← Expression.ofJson? fuel value) (← Span.ofJson? span)
      | _ => none
    | _ => none

end

namespace ProgramDocument

/-- The greatest version. -/
def greatestVersion : Nat := 4294967295

/-- A document from data: an object with a version and statements, among others that have no
meaning. -/
def ofJson? (data : Json) : Option ProgramDocument := do
  let .object _ := data | none
  match ← data.parts? ["ast_version", "statements"] with
  | [some version, some statements] =>
    return ⟨← version.naturalUpTo? greatestVersion,
      ⟨← statements.listOf? (Statement.ofJson? statements.depth)⟩⟩
  | _ => none

/-- The document that a text holds. -/
def read (library : Json.Library) (text : List Char) : Except Json.Refusal ProgramDocument :=
  match library.read? text with
  | some data =>
    match ofJson? data with
    | some document => .ok document
    | none => .error .misshapen
  | none => .error (library.refusal text)

end ProgramDocument

end MonkeyLang
