import MonkeyLang.Machine.Fault

/-!
# Operators

Integers wrap around at sixty-four bits and divide toward zero; doubles follow the standard
of floating point; strings can be put together.  Nothing is converted: operands of two kinds
have no result.  Equality is defined for all values, order for two integers and for two
doubles.
-/

set_option autoImplicit false

namespace MonkeyLang.Value

/-- The fault of an operator that its operands do not support. -/
def unsupported (operator : Opcode) (left right : Value) : Fault :=
  .unsupportedBinary operator left.kind right.kind

/-- The arithmetic of two values. -/
def arithmetic (operator : Opcode) (left right : Value) : Except Fault Value :=
  match left, right with
  | .integer a, .integer b =>
    match operator with
    | .add => .ok (.integer (a + b))
    | .sub => .ok (.integer (a - b))
    | .mul => .ok (.integer (a * b))
    | .div => if b = 0 then .error .divisionByZero else .ok (.integer (a / b))
    | _ => .error (unsupported operator left right)
  | .float a, .float b =>
    match operator with
    | .add => .ok (.float (a + b))
    | .sub => .ok (.float (a - b))
    | .mul => .ok (.float (a * b))
    | .div => .ok (.float (a / b))
    | _ => .error (unsupported operator left right)
  | .string a, .string b =>
    match operator with
    | .add => .ok (.string (a ++ b))
    | _ => .error (unsupported operator left right)
  | _, _ => .error (unsupported operator left right)

/-- The fault of two values without an order.  The names of the kinds are told in their own
order, since the program may have had the operands the other way round. -/
def unordered (left right : Value) : Fault :=
  if right.kind.name < left.kind.name then .unsupportedComparison right.kind left.kind
  else .unsupportedComparison left.kind right.kind

/-- The comparison of two values. -/
def compare (operator : Opcode) (left right : Value) : Except Fault Value :=
  match operator with
  | .equal => .ok (.boolean (left.equal right))
  | .notEqual => .ok (.boolean !(left.equal right))
  | .greater =>
    match left, right with
    | .integer a, .integer b => .ok (.boolean (b < a))
    | .float a, .float b => .ok (.boolean (b < a))
    | _, _ => .error (unordered left right)
  | _ => .error (unsupported operator left right)

/-- A number with the other sign. -/
def negated : Value → Except Fault Value
  | .integer value => .ok (.integer (-value))
  | .float value => .ok (.float (-value))
  | other => .error (.unsupportedUnary .negate other.kind)

/-- The element at an index, or null where there is none. -/
def itemAt (items : List Value) (index : Int64) : Value :=
  if index < 0 then .null else (items[index.toInt.toNat]?).getD .null

/-- The character at an index as a string, or null where there is none. -/
def characterAt (text : String) (index : Int64) : Value :=
  if index < 0 then .null
  else
    match text.toList[index.toInt.toNat]? with
    | some c => .string (String.singleton c)
    | none => .null

/-- The part of an array or of a string at an index. -/
def indexed (target index : Value) : Except Fault Value :=
  match target, index with
  | .array items, .integer index => .ok (itemAt items index)
  | .string text, .integer index => .ok (characterAt text index)
  | _, _ => .error (.unsupportedIndex target.kind index.kind)

end MonkeyLang.Value
