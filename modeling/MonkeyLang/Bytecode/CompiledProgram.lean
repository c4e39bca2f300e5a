import MonkeyLang.Value.Text

/-!
# Compiled programs

A compiled program is a stream of instructions with the constants that the instructions of the
stream and of the functions refer to.  Its listing shows the constants, then the functions
among them, then the stream itself.
-/

set_option autoImplicit false

namespace MonkeyLang

/-- A stream of instructions with its constants. -/
structure CompiledProgram where
  code : Code
  constants : Array Value
  deriving Inhabited

namespace CompiledProgram

/-- The line of a constant in a listing. -/
def constantLine (index : Nat) (constant : Value) : String :=
  s!"{Code.fourDigits index}: {constant.text}\n"

/-- The section of a constant in a listing; only functions have one. -/
def functionSection (index : Nat) : Value → String
  | .function body =>
    s!"\n=== Function {Code.fourDigits index} {body.text} "
      ++ s!"(params={body.parameters}, locals={body.locals}) ===\n" ++ body.code.listing
  | _ => ""

/-- The listing of a program. -/
def listing (program : CompiledProgram) : String :=
  let numbered := program.constants.toList.zipIdx
  let lines := numbered.map fun (constant, index) => constantLine index constant
  let sections := numbered.map fun (constant, index) => functionSection index constant
  "=== Constants ===\n" ++ String.join lines ++ String.join sections
    ++ "\n=== Instructions ===\n" ++ program.code.listing

end CompiledProgram

end MonkeyLang
