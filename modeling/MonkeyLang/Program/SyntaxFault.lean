import MonkeyLang.Token.Basic
import MonkeyLang.Diagnostic.Basic

/-!
# Syntax faults

A syntax fault says what was wrong at a token.  A fault at an error token is not reported
again: the scan of the text has reported that token already.
-/

set_option autoImplicit false

namespace MonkeyLang

/-- What was wrong with the tokens. -/
inductive SyntaxFault where
  /-- Something had to stand here. -/
  | expected (what : String)
  /-- Something had to stand here, and the kind of the token found is worth telling. -/
  | expectedBut (what : String) (found : Token.Kind)
  | keywordAsName (keyword what : String)
  | badAssignmentTarget
  | badInteger (lexeme : String)
  | badFloat (lexeme : String)
  deriving DecidableEq, Repr

namespace SyntaxFault

/-- What the user reads about a fault. -/
def message : SyntaxFault → String
  | expected what => s!"Expected {what}"
  | expectedBut what found => s!"Expected {what} but found '{found.spelling}'"
  | keywordAsName keyword what => s!"Cannot use keyword '{keyword}' as {what}"
  | badAssignmentTarget => "Invalid assignment target, only variables can be assigned"
  | badInteger lexeme => s!"Invalid integer literal '{lexeme}'"
  | badFloat lexeme => s!"Invalid float literal '{lexeme}'"

end SyntaxFault

/-- A statement that could not be read, with the token at which reading stopped. -/
structure SyntaxFailure where
  fault : SyntaxFault
  found : Token
  deriving DecidableEq, Repr

/-- The diagnostic of a failure, unless the token has been reported already. -/
def SyntaxFailure.diagnostic? (failure : SyntaxFailure) : Option Diagnostic :=
  if failure.found.kind = .error then none
  else
    some ((Diagnostic.error Diagnostic.Code.syntaxError failure.fault.message
      failure.found.span).labelled "syntax error")

end MonkeyLang
