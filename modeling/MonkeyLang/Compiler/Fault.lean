import MonkeyLang.Program.Basic
import MonkeyLang.Diagnostic.Basic

/-!
# What cannot be compiled

Operands have fixed widths, so what they count is limited.  A function sees its own slots, the
global ones and the builtin functions, and nothing else.
-/

set_option autoImplicit false

namespace MonkeyLang

/-- What a program may have too many of. -/
inductive Limit where
  | constants
  | globals
  | locals
  | callArguments
  | arrayElements
  | instructionBytes
  deriving DecidableEq, Repr, Inhabited

namespace Limit

/-- How messages name what is limited. -/
def name : Limit → String
  | constants => "constants"
  | globals => "globals"
  | locals => "locals"
  | callArguments => "call arguments"
  | arrayElements => "array elements"
  | instructionBytes => "instruction bytes"

/-- The number in the message.  Of constants and of slots there may be that many; of the others
it is the greatest operand. -/
def bound : Limit → Nat
  | constants => 65536
  | globals => 65536
  | locals => 256
  | callArguments => 255
  | arrayElements => 65535
  | instructionBytes => 65535

end Limit

/-- Why a program cannot be compiled. -/
inductive CompileFault where
  | undefinedName (name : Name)
  | assignToBuiltin (name : Name)
  /-- A name whose slot belongs to a function further out. -/
  | capturedLocal (name : Name)
  | returnOutsideFunction (span : Span)
  | limitExceeded (limit : Limit) (span : Span)
  deriving DecidableEq, Repr

namespace CompileFault

/-- The place of a fault. -/
def span : CompileFault → Span
  | undefinedName name => name.span
  | assignToBuiltin name => name.span
  | capturedLocal name => name.span
  | returnOutsideFunction span => span
  | limitExceeded _ span => span

/-- What the user reads about a fault. -/
def message : CompileFault → String
  | undefinedName name => s!"undefined variable {name.text}"
  | assignToBuiltin name => s!"cannot assign to builtin {name.text}"
  | capturedLocal name => s!"cannot capture local variable {name.text}"
  | returnOutsideFunction _ => "return outside function"
  | limitExceeded limit _ => s!"too many {limit.name} (limit {limit.bound})"

/-- The code of a fault. -/
def code : CompileFault → String
  | undefinedName _ => Diagnostic.Code.undefinedName
  | assignToBuiltin _ => Diagnostic.Code.assignToBuiltin
  | capturedLocal _ => Diagnostic.Code.capturedLocal
  | returnOutsideFunction _ => Diagnostic.Code.returnOutsideFunction
  | limitExceeded _ _ => Diagnostic.Code.limitExceeded

/-- The diagnostic of a fault. -/
def diagnostic (fault : CompileFault) : Diagnostic :=
  let finding := (Diagnostic.error fault.code fault.message fault.span).labelled "compile error"
  match fault with
  | capturedLocal _ => finding.helped "functions only see their own locals, globals and builtins"
  | _ => finding

end CompileFault

/-- The warning about a name that hides a builtin function. -/
def shadowingWarning (name : Name) : Diagnostic :=
  (Diagnostic.warning Diagnostic.Code.shadowsBuiltin
    s!"`{name.text}` shadows a builtin function" name.span).labelled "shadows builtin"

end MonkeyLang
