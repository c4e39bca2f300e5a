import MonkeyLang.Value.Basic
import MonkeyLang.Diagnostic.Basic

/-!
# Faults of a run

A fault halts the machine; what was done before stays done.  Instructions know no place in a
source text, so the diagnostic of a fault has no span.
-/

set_option autoImplicit false

namespace MonkeyLang

/-- Why a run halts before its end. -/
inductive Fault where
  | stackOverflow (capacity : Nat)
  | frameOverflow (limit : Nat)
  | stackUnderflow
  | unknownOpcode (byte : UInt8) (offset : Nat)
  | truncatedInstruction (opcode : Opcode) (offset : Nat)
  | unsupportedBinary (operator : Opcode) (left right : Value.Kind)
  /-- The kinds of two values that have no order; the program may have had them the other way
  round. -/
  | unsupportedComparison (first second : Value.Kind)
  | unsupportedUnary (operator : Opcode) (operand : Value.Kind)
  | unsupportedIndex (target index : Value.Kind)
  | notCallable (kind : Value.Kind)
  | wrongArity (expected got : Nat)
  | divisionByZero
  | constantOutOfRange (index : Nat)
  | globalOutOfRange (index capacity : Nat)
  | localOutOfRange (index : Nat)
  | builtinOutOfRange (index : Nat)
  | alreadyHalted
  deriving DecidableEq, Repr

namespace Fault

/-- The name of a kind of fault. -/
def name : Fault → String
  | stackOverflow _ => "StackOverflow"
  | frameOverflow _ => "FrameOverflow"
  | stackUnderflow => "StackUnderflow"
  | unknownOpcode _ _ => "UnknownOpcode"
  | truncatedInstruction _ _ => "TruncatedInstruction"
  | unsupportedBinary _ _ _ => "UnsupportedBinaryOperation"
  | unsupportedComparison _ _ => "UnsupportedComparison"
  | unsupportedUnary _ _ => "UnsupportedUnaryOperation"
  | unsupportedIndex _ _ => "UnsupportedIndex"
  | notCallable _ => "NotCallable"
  | wrongArity _ _ => "WrongArity"
  | divisionByZero => "DivisionByZero"
  | constantOutOfRange _ => "ConstantOutOfRange"
  | globalOutOfRange _ _ => "GlobalOutOfRange"
  | localOutOfRange _ => "LocalOutOfRange"
  | builtinOutOfRange _ => "BuiltinOutOfRange"
  | alreadyHalted => "AlreadyHalted"

/-- What the user reads about a fault. -/
def message : Fault → String
  | stackOverflow capacity => s!"stack overflow (capacity {capacity})"
  | frameOverflow limit => s!"frame overflow (max {limit} frames)"
  | stackUnderflow => "stack underflow"
  | unknownOpcode byte offset => s!"unknown opcode {Code.byteText byte} at offset {offset}"
  | truncatedInstruction opcode offset =>
    s!"truncated {opcode.name} instruction at offset {offset}"
  | unsupportedBinary operator left right =>
    s!"unsupported types for binary operation: {left.name} {operator.sign} {right.name}"
  | unsupportedComparison first second =>
    s!"unsupported types for comparison: {first.name} and {second.name}"
  | unsupportedUnary operator operand =>
    s!"unsupported type for {operator.sign}: {operand.name}"
  | unsupportedIndex target index =>
    s!"index operator not supported: {target.name}[{index.name}]"
  | notCallable kind => s!"calling non-function: {kind.name}"
  | wrongArity expected got => s!"wrong number of arguments: want={expected}, got={got}"
  | divisionByZero => "division by zero"
  | constantOutOfRange index => s!"constant index {index} out of range"
  | globalOutOfRange index capacity =>
    s!"global index {index} out of range (capacity {capacity})"
  | localOutOfRange index => s!"local slot {index} out of range"
  | builtinOutOfRange index => s!"builtin index {index} out of range"
  | alreadyHalted => "vm has already halted"

/-- The code of a fault. -/
def code : Fault → String
  | stackOverflow _ => Diagnostic.Code.stackOverflow
  | frameOverflow _ => Diagnostic.Code.frameOverflow
  | stackUnderflow => Diagnostic.Code.stackUnderflow
  | unknownOpcode _ _ => Diagnostic.Code.unknownOpcode
  | truncatedInstruction _ _ | constantOutOfRange _ | globalOutOfRange _ _
  | localOutOfRange _ | builtinOutOfRange _ => Diagnostic.Code.badOperand
  | unsupportedBinary _ _ _ | unsupportedComparison _ _ | unsupportedUnary _ _ =>
    Diagnostic.Code.typeMismatch
  | unsupportedIndex _ _ => Diagnostic.Code.notIndexable
  | notCallable _ => Diagnostic.Code.notCallable
  | wrongArity _ _ => Diagnostic.Code.arityMismatch
  | divisionByZero => Diagnostic.Code.divideByZero
  | alreadyHalted => Diagnostic.Code.machineState

/-- The diagnostic of a fault. -/
def diagnostic (fault : Fault) : Diagnostic :=
  (Diagnostic.error fault.code fault.message Span.dummy).labelled "runtime error"

end Fault

end MonkeyLang
