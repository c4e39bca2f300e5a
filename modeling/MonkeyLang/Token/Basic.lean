import MonkeyLang.Span

/-!
# Tokens

A token has a kind, the span it covers and its lexeme.  The lexeme is the text of the
span, with two exceptions: a string has its decoded contents, and an error token has the
message of the fault.
-/

set_option autoImplicit false

namespace MonkeyLang

namespace Token

/-- What a token is. -/
inductive Kind where
  | integer | float | string | identifier
  | varWord | funcWord | returnWord | ifWord | elseWord | whileWord | forWord
  | trueWord | falseWord
  | assign | plus | minus | star | slash | bang
  | plusEqual | minusEqual | starEqual | slashEqual
  | equalEqual | bangEqual | less | lessEqual | greater | greaterEqual
  | comma | semicolon
  | leftParen | rightParen | leftBrace | rightBrace | leftBracket | rightBracket
  | error
  | endOfInput
  deriving DecidableEq, Repr, Inhabited

namespace Kind

/-- The name of a kind in token listings. -/
def name : Kind → String
  | .integer => "Integer"
  | .float => "Float"
  | .string => "String"
  | .identifier => "Identifier"
  | .varWord => "Var"
  | .funcWord => "Func"
  | .returnWord => "Return"
  | .ifWord => "If"
  | .elseWord => "Else"
  | .whileWord => "While"
  | .forWord => "For"
  | .trueWord => "True"
  | .falseWord => "False"
  | .assign => "Assign"
  | .plus => "Plus"
  | .minus => "Minus"
  | .star => "Star"
  | .slash => "Slash"
  | .bang => "Bang"
  | .plusEqual => "PlusEqual"
  | .minusEqual => "MinusEqual"
  | .starEqual => "StarEqual"
  | .slashEqual => "SlashEqual"
  | .equalEqual => "EqualEqual"
  | .bangEqual => "BangEqual"
  | .less => "Less"
  | .lessEqual => "LessEqual"
  | .greater => "Greater"
  | .greaterEqual => "GreaterEqual"
  | .comma => "Comma"
  | .semicolon => "Semicolon"
  | .leftParen => "LeftParen"
  | .rightParen => "RightParen"
  | .leftBrace => "LeftBrace"
  | .rightBrace => "RightBrace"
  | .leftBracket => "LeftBracket"
  | .rightBracket => "RightBracket"
  | .error => "Error"
  | .endOfInput => "Eof"

/-- The way messages speak of a kind: the text of a fixed token, or a word for the others. -/
def spelling : Kind → String
  | .integer => "integer"
  | .float => "float"
  | .string => "string"
  | .identifier => "identifier"
  | .varWord => "var"
  | .funcWord => "func"
  | .returnWord => "return"
  | .ifWord => "if"
  | .elseWord => "else"
  | .whileWord => "while"
  | .forWord => "for"
  | .trueWord => "true"
  | .falseWord => "false"
  | .assign => "="
  | .plus => "+"
  | .minus => "-"
  | .star => "*"
  | .slash => "/"
  | .bang => "!"
  | .plusEqual => "+="
  | .minusEqual => "-="
  | .starEqual => "*="
  | .slashEqual => "/="
  | .equalEqual => "=="
  | .bangEqual => "!="
  | .less => "<"
  | .lessEqual => "<="
  | .greater => ">"
  | .greaterEqual => ">="
  | .comma => ","
  | .semicolon => ";"
  | .leftParen => "("
  | .rightParen => ")"
  | .leftBrace => "\x7b"
  | .rightBrace => "\x7d"
  | .leftBracket => "["
  | .rightBracket => "]"
  | .error => "error"
  | .endOfInput => "end of input"

/-- All kinds. -/
def all : List Kind :=
  [.integer, .float, .string, .identifier, .varWord, .funcWord, .returnWord, .ifWord, .elseWord,
   .whileWord, .forWord, .trueWord, .falseWord, .assign, .plus, .minus, .star, .slash, .bang,
   .plusEqual, .minusEqual, .starEqual, .slashEqual, .equalEqual, .bangEqual, .less, .lessEqual,
   .greater, .greaterEqual, .comma, .semicolon, .leftParen, .rightParen, .leftBrace, .rightBrace,
   .leftBracket, .rightBracket, .error, .endOfInput]

/-- The kind with a given name. -/
def ofName? (name : String) : Option Kind := all.find? (·.name == name)

/-- The keyword that a word is; no name may be one. -/
def keyword? : String → Option Kind
  | "var" => some .varWord
  | "func" => some .funcWord
  | "return" => some .returnWord
  | "if" => some .ifWord
  | "else" => some .elseWord
  | "while" => some .whileWord
  | "for" => some .forWord
  | "true" => some .trueWord
  | "false" => some .falseWord
  | _ => none

end Kind

end Token

/-- A token of a source text. -/
structure Token where
  kind : Token.Kind
  lexeme : String
  span : Span
  deriving DecidableEq, Repr, Inhabited

end MonkeyLang
