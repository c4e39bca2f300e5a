import MonkeyLang.Program.Basic
import MonkeyLang.Json.Basic

/-!
# Programs as data

A program is exchanged as JSON.  A node is an object with one member, named for its kind; the
member holds an object with the parts of the node.  An operator is a string.  A literal is a
list of its value and its span.  What is missing is null.  The outermost object starts with
the version of the form.
-/

set_option autoImplicit false

namespace MonkeyLang

/-- A program with the version of the form in which it is exchanged. -/
structure ProgramDocument where
  version : Nat
  program : Program

/-- The version of the form written here. -/
def ProgramDocument.currentVersion : Nat := 1

/-- A span as data. -/
def Span.toJson (span : Span) : Json :=
  .object [("start", .natural span.start), ("end", .natural span.stop)]

/-- A name as data. -/
def Name.toJson (name : Name) : Json :=
  .object [("name", .string name.text), ("span", name.span.toJson)]

/-- The value of a literal as data. -/
def Literal.toJson : Literal → Json
  | integer value => .object [("Integer", .integer value.toInt)]
  | float value => .object [("Float", .real value)]
  | string value => .object [("String", .string value)]
  | boolean value => .object [("Boolean", .bool value)]

/-- The name of an operator in data. -/
def UnaryOperator.dataName : UnaryOperator → String
  | not => "Not"
  | negate => "Negate"

/-- The name of an operator in data. -/
def BinaryOperator.dataName : BinaryOperator → String
  | add => "Add"
  | sub => "Sub"
  | mul => "Mul"
  | div => "Div"
  | equal => "Eq"
  | notEqual => "Ne"
  | less => "Lt"
  | lessEqual => "Le"
  | greater => "Gt"
  | greaterEqual => "Ge"

/-- A node: an object with one member. -/
def Json.node (kind : String) (parts : List (String × Json)) : Json :=
  .object [(kind, .object parts)]

mutual

/-- An expression as data. -/
def Expression.toJson : Expression → Json
  | .literal value span => .object [("Literal", .array [value.toJson, span.toJson])]
  | .name identifier => .object [("Identifier", identifier.toJson)]
  | .unary operator operand span => .node "Prefix"
      [("op", .string operator.dataName), ("operand", operand.toJson), ("span", span.toJson)]
  | .binary operator left right span => .node "Infix"
      [("op", .string operator.dataName), ("left", left.toJson), ("right", right.toJson),
       ("span", span.toJson)]
  | .conditional condition consequence alternative span => .node "If"
      [("condition", condition.toJson), ("consequence", consequence.toJson),
       ("alternative",
        match alternative with
        | some block => block.toJson
        | none => .null),
       ("span", span.toJson)]
  | .whileLoop condition body span => .node "While"
      [("condition", condition.toJson), ("body", body.toJson), ("span", span.toJson)]
  | .forLoop start condition post body span => .node "For"
      [("init", start.toJson), ("condition", condition.toJson), ("post", post.toJson),
       ("body", body.toJson), ("span", span.toJson)]
  | .function parameters body span => .node "Function"
      [("params", .array (parameters.map Name.toJson)), ("body", body.toJson),
       ("span", span.toJson)]
  | .call callee arguments span => .node "Call"
      [("callee", callee.toJson), ("args", .array (expressionsToJson arguments)),
       ("span", span.toJson)]
  | .array elements span => .node "Array"
      [("elements", .array (expressionsToJson elements)), ("span", span.toJson)]
  | .index target index span => .node "Index"
      [("target", target.toJson), ("index", index.toJson), ("span", span.toJson)]
  | .assign target value span => .node "Assign"
      [("target", target.toJson), ("value", value.toJson), ("span", span.toJson)]

/-- Expressions as data. -/
def expressionsToJson : List Expression → List Json
  | [] => []
  | item :: items => item.toJson :: expressionsToJson items

/-- A binding as data, without the name of its kind. -/
def Binding.toJson : Binding → Json
  | .mk name value span => .object
      [("name", name.toJson), ("value", value.toJson), ("span", span.toJson)]

/-- A block as data. -/
def Block.toJson : Block → Json
  | .mk statements span => .object
      [("statements", .array (statementsToJson statements)), ("span", span.toJson)]

/-- A statement as data. -/
def Statement.toJson : Statement → Json
  | .bind binding => .object [("Let", binding.toJson)]
  | .leave value span => .node "Return"
      [("value",
        match value with
        | some value => value.toJson
        | none => .null),
       ("span", span.toJson)]
  | .expression value span => .node "Expr" [("expr", value.toJson), ("span", span.toJson)]

/-- Statements as data. -/
def statementsToJson : List Statement → List Json
  | [] => []
  | statement :: statements => statement.toJson :: statementsToJson statements

end

namespace ProgramDocument

/-- A document as data. -/
def toJson (document : ProgramDocument) : Json :=
  .object
    [("ast_version", .natural document.version),
     ("statements", .array (statementsToJson document.program.statements))]

/-- The text of a document. -/
def write (library : Json.Library) (document : ProgramDocument) : String :=
  library.write document.toJson

end ProgramDocument

/-- A program in the current version of the form. -/
def Program.document (program : Program) : ProgramDocument :=
  ⟨ProgramDocument.currentVersion, program⟩

/-- The text of a program in the current version of the form. -/
def Program.write (library : Json.Library) (program : Program) : String :=
  program.document.write library

end MonkeyLang
