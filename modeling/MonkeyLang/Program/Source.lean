import MonkeyLang.Program.Parsing
import MonkeyLang.Token.Lexer

/-!
# Programs from texts

A text is cut into tokens first, and the tokens are read as a program only if all of them are
sound.  Every diagnostic knows its place in the text.
-/

set_option autoImplicit false

namespace MonkeyLang.Program

/-- The program that a text holds, or what is wrong with it. -/
def ofSource (source : List Char) : Except (List Diagnostic) Program :=
  let lexing := Token.scan source
  match lexing.diagnostics source with
  | [] =>
    match parse lexing.tokens with
    | none => .error []
    | some (program, []) => .ok program
    | some (_, diagnostics) => .error (diagnostics.map (Diagnostic.locate source))
  | diagnostics => .error diagnostics

end MonkeyLang.Program
