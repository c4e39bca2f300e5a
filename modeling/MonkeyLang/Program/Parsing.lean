import MonkeyLang.Program.Parser

/-!
# The parser that keeps its diagnostics

The readers of a grammar say what they make of tokens, and a failure carries what was wrong. The
parser that runs keeps that apart. It has a place in the tokens and the diagnostics so far; to
report a fault puts one more diagnostic behind these, at the token that the cursor looks at, and to
fail ends the statement and says nothing. Nothing but the order of the two at each place keeps
failures and diagnostics together. At an error token nothing is reported: the scan of the text has
reported that token already.
-/

set_option autoImplicit false

namespace MonkeyLang

/-- What the parser has at hand: its place in the tokens, and what it has reported. -/
structure Parser where
  cursor : Cursor
  diagnostics : List Diagnostic

namespace Parser

/-- The parser in front of all tokens. -/
def start (tokens : List Token) : Parser := ⟨Cursor.start tokens, []⟩

/-- Reports a fault at the token that the cursor looks at. -/
def report (parser : Parser) (fault : SyntaxFault) : Parser :=
  let token := parser.cursor.peek
  if token.kind == .error then parser
  else
    let diagnostic := (Diagnostic.error Diagnostic.Code.syntaxError fault.message
      token.span).labelled "syntax error"
    { parser with diagnostics := parser.diagnostics ++ [diagnostic] }

/-- Goes on behind a failure. -/
def synchronize (parser : Parser) : Parser := { parser with cursor := parser.cursor.recover }

/-- How a piece of the parser's work ends. -/
inductive Ending (α : Type) where
  | done (value : α) (parser : Parser)
  | failed (parser : Parser)
  | endless

end Parser

/-- A piece of the parser's work. -/
def Parsing (α : Type) : Type := Parser → Parser.Ending α

namespace Parsing

/-- Reads nothing. -/
@[always_inline, inline]
def done {α : Type} (value : α) : Parsing α := fun parser => .done value parser

/-- Reads one thing after another. -/
@[always_inline, inline]
def andThen {α β : Type} (first : Parsing α) (next : α → Parsing β) : Parsing β := fun parser =>
  match first parser with
  | .done value parser => next value parser
  | .failed parser => .failed parser
  | .endless => .endless

instance : Monad Parsing where
  pure := done
  bind := andThen

/-- The work that goes on for ever. -/
def endless {α : Type} : Parsing α := fun _ => .endless

/-- Gives up on the statement. -/
def fail {α : Type} : Parsing α := fun parser => .failed parser

/-- Reports a fault at the token that the cursor looks at. -/
def report (fault : SyntaxFault) : Parsing Unit := fun parser => .done () (parser.report fault)

/-- The token that the cursor looks at. -/
@[always_inline, inline]
def peek : Parsing Token := fun parser => .done parser.cursor.peek parser

/-- Whether the tokens are used up. -/
@[always_inline, inline]
def atEnd : Parsing Bool := fun parser => .done parser.cursor.atEnd parser

/-- Whether a token of a kind comes next. -/
@[always_inline, inline]
def looksAt (kind : Token.Kind) : Parsing Bool := fun parser =>
  .done (parser.cursor.looksAt kind) parser

/-- The token that was read last. -/
@[always_inline, inline]
def previous : Parsing Token := fun parser => .done parser.cursor.previous parser

/-- Moves over the next token, and gives the token that was read last. -/
@[always_inline, inline]
def advance : Parsing Token := fun parser =>
  let behind := parser.cursor.advance
  .done behind.previous { parser with cursor := behind }

/-- Moves over the next token if it is of a kind, and tells whether it was. -/
def accept (kind : Token.Kind) : Parsing Bool := do
  if ← looksAt kind then
    let _ ← advance
    return true
  else return false

/-- Moves over a token that has to be of a kind. -/
def require (kind : Token.Kind) (what : String) : Parsing Token := do
  if ← looksAt kind then advance
  else
    report (.expected what)
    fail

/-! ## Parts without expressions -/

/-- A name; `what` tells the user what it was to name. -/
def name (what : String) : Parsing Name := do
  let token ← peek
  if token.kind = .identifier then
    let token ← advance
    return ⟨token.lexeme, token.span⟩
  else if (Token.Kind.keyword? token.lexeme).isSome then
    report (.keywordAsName token.lexeme what)
    fail
  else
    report (.expectedBut what token.kind)
    fail

/-- The names of parameters up to the closing parenthesis; `done` holds those read, the last
one first. -/
def parameters : Nat → List Name → Parsing (List Name)
  | 0, _ => endless
  | fuel + 1, done => do
    let parameter ← name "a parameter name"
    if ← accept .comma then parameters fuel (parameter :: done)
    else return (parameter :: done).reverse

/-- A whole number that is written down. -/
def integer : Parsing Expression := do
  let token ← peek
  match Number.readInteger? token.lexeme.toList with
  | some value =>
    let _ ← advance
    return .literal (.integer value) token.span
  | none =>
    report (.badInteger token.lexeme)
    fail

/-- A double that is written down. -/
def float : Parsing Expression := do
  let token ← peek
  match Number.readFloat? token.lexeme.toList with
  | some value =>
    let _ ← advance
    return .literal (.float value) token.span
  | none =>
    report (.badFloat token.lexeme)
    fail

/-- Takes a semicolon if there is one, and widens a span by it. -/
def optionalSemicolon (span : Span) : Parsing Span := do
  if ← looksAt .semicolon then
    let token ← advance
    return span.merge token.span
  else return span

/-! ## Expressions and statements -/

mutual

/-- An expression whose operators all bind tighter than `floor`. -/
def expression : Nat → Precedence → Parsing Expression
  | 0, _ => endless
  | fuel + 1, floor => do
    let left ← operand fuel
    extensions fuel floor left

/-- As many extensions of an expression as bind tighter than `floor`. -/
def extensions : Nat → Precedence → Expression → Parsing Expression
  | 0, _, _ => endless
  | fuel + 1, floor, left => do
    let next ← peek
    if floor.rank < next.kind.precedence.rank then
      let larger ← extension fuel left
      extensions fuel floor larger
    else return left

/-- One extension of an expression: an operator with its right operand, arguments, or an
index. -/
def extension : Nat → Expression → Parsing Expression
  | 0, _ => endless
  | fuel + 1, left => do
    let next ← peek
    match BinaryOperator.ofKind? next.kind with
    | some operator =>
      let _ ← advance
      let right ← expression fuel next.kind.precedence
      return .binary operator left right (left.span.merge right.span)
    | none =>
      if next.kind = .leftParen then
        let _ ← require .leftParen "'('"
        let arguments ← expressions fuel .rightParen
        let close ← require .rightParen "')' after arguments"
        return .call left arguments (left.span.merge close.span)
      else if next.kind = .leftBracket then
        let _ ← require .leftBracket "'['"
        let index ← expression fuel .lowest
        let close ← require .rightBracket "']'"
        return .index left index (left.span.merge close.span)
      else return left

/-- Expressions with commas between them, none if the closing token comes first. -/
def expressions : Nat → Token.Kind → Parsing (List Expression)
  | 0, _ => endless
  | fuel + 1, close => do
    if ← looksAt close then return [] else moreExpressions fuel []

/-- One expression and those behind commas; `done` holds those read, the last one first. -/
def moreExpressions : Nat → List Expression → Parsing (List Expression)
  | 0, _ => endless
  | fuel + 1, done => do
    let item ← expression fuel .lowest
    if ← accept .comma then moreExpressions fuel (item :: done)
    else return (item :: done).reverse

/-- An operand: what an expression may start with. -/
def operand : Nat → Parsing Expression
  | 0 => endless
  | fuel + 1 => do
    let token ← peek
    match token.kind with
    | .integer => integer
    | .float => float
    | .string =>
      let token ← advance
      return .literal (.string token.lexeme) token.span
    | .trueWord | .falseWord =>
      let token ← advance
      return .literal (.boolean (token.kind = .trueWord)) token.span
    | .identifier => nameOrAssignment fuel
    | .leftParen =>
      let _ ← require .leftParen "'('"
      let inner ← expression fuel .lowest
      let _ ← require .rightParen "')'"
      return inner
    | .leftBracket =>
      let opening ← require .leftBracket "'['"
      let elements ← expressions fuel .rightBracket
      let close ← require .rightBracket "']'"
      return .array elements (opening.span.merge close.span)
    | .minus | .bang =>
      let sign ← advance
      let operator := if sign.kind = .minus then UnaryOperator.negate else .not
      let inner ← expression fuel .unary
      return .unary operator inner (sign.span.merge inner.span)
    | .ifWord => conditional fuel
    | .whileWord => whileLoop fuel
    | .forWord => forLoop fuel
    | .funcWord => functionLiteral fuel
    | kind =>
      report (.expectedBut "expression" kind)
      fail

/-- A name, or the assignment that starts with it. -/
def nameOrAssignment : Nat → Parsing Expression
  | 0 => endless
  | fuel + 1 => do
    let token ← advance
    let target : Name := ⟨token.lexeme, token.span⟩
    let next ← peek
    match assignment? next.kind with
    | none => return .name target
    | some operator =>
      let _ ← advance
      let value ← expression fuel .lowest
      return Parse.assigned target operator value

/-- A conditional.  Behind the word for the other case stands a block, or one more conditional
as its only statement. -/
def conditional : Nat → Parsing Expression
  | 0 => endless
  | fuel + 1 => do
    let word ← require .ifWord "'if'"
    let _ ← require .leftParen "'(' after 'if'"
    let condition ← expression fuel .lowest
    let _ ← require .rightParen "')' after condition"
    let consequence ← block fuel
    let span := word.span.merge consequence.span
    if ← accept .elseWord then
      if ← looksAt .ifWord then
        let nested ← conditional fuel
        let alternative := Block.mk [.expression nested nested.span] nested.span
        return .conditional condition consequence (some alternative) (span.merge nested.span)
      else
        let alternative ← block fuel
        return .conditional condition consequence (some alternative)
          (span.merge alternative.span)
    else return .conditional condition consequence none span

/-- A loop with a condition. -/
def whileLoop : Nat → Parsing Expression
  | 0 => endless
  | fuel + 1 => do
    let word ← require .whileWord "'while'"
    let _ ← require .leftParen "'(' after 'while'"
    let condition ← expression fuel .lowest
    let _ ← require .rightParen "')' after condition"
    let body ← block fuel
    return .whileLoop condition body (word.span.merge body.span)

/-- A loop with a header of three parts.  The semicolon behind the first part is read with
it. -/
def forLoop : Nat → Parsing Expression
  | 0 => endless
  | fuel + 1 => do
    let word ← require .forWord "'for'"
    let _ ← require .leftParen "'(' after 'for'"
    if !(← looksAt .varWord) then
      report (.expected "'var' to start the loop initializer")
      fail
    else
      let start ← binding fuel
      let last ← previous
      if last.kind ≠ .semicolon then
        report (.expected "';' after loop initializer")
        fail
      else
        let condition ← expression fuel .lowest
        let _ ← require .semicolon "';' after loop condition"
        let post ← expression fuel .lowest
        let _ ← require .rightParen "')' after loop header"
        let body ← block fuel
        return .forLoop start condition post body (word.span.merge body.span)

/-- A function literal. -/
def functionLiteral : Nat → Parsing Expression
  | 0 => endless
  | fuel + 1 => do
    let word ← require .funcWord "'func'"
    let _ ← require .leftParen "'(' after 'func'"
    let names ← if ← looksAt .rightParen then pure [] else parameters fuel []
    let _ ← require .rightParen "')' after parameters"
    let body ← block fuel
    return .function names body (word.span.merge body.span)

/-- Statements between braces. -/
def block : Nat → Parsing Block
  | 0 => endless
  | fuel + 1 => do
    let opening ← require .leftBrace "'\x7b'"
    let statements ← blockStatements fuel []
    let close ← require .rightBrace "'\x7d' to close block"
    return .mk statements (opening.span.merge close.span)

/-- Statements up to a closing brace or the end; `done` holds those read, the last one
first. -/
def blockStatements : Nat → List Statement → Parsing (List Statement)
  | 0, _ => endless
  | fuel + 1, done => do
    if (← looksAt .rightBrace) || (← atEnd) then return done.reverse
    else
      let next ← statement fuel
      blockStatements fuel (next :: done)

/-- A binding, with its semicolon if there is one. -/
def binding : Nat → Parsing Binding
  | 0 => endless
  | fuel + 1 => do
    let word ← require .varWord "'var'"
    let name ← name "a variable name"
    let _ ← require .assign "'=' after variable name"
    let value ← expression fuel .lowest
    let span ← optionalSemicolon (word.span.merge value.span)
    return .mk name value span

/-- A statement, with its semicolon if there is one. -/
def statement : Nat → Parsing Statement
  | 0 => endless
  | fuel + 1 => do
    let token ← peek
    match token.kind with
    | .varWord =>
      let binding ← binding fuel
      return .bind binding
    | .returnWord =>
      let word ← require .returnWord "'return'"
      if (← looksAt .semicolon) || (← looksAt .rightBrace) || (← atEnd) then
        let span ← optionalSemicolon word.span
        return .leave none span
      else
        let value ← expression fuel .lowest
        let span ← optionalSemicolon (word.span.merge value.span)
        return .leave (some value) span
    | _ =>
      let value ← expression fuel .lowest
      let next ← peek
      if (assignment? next.kind).isSome then
        report .badAssignmentTarget
        fail
      else
        let span ← optionalSemicolon value.span
        return .expression value span

end

end Parsing

/-! ## Whole programs -/

namespace Program

/-- Reads statements to the end of the tokens, each with the same fuel, and goes on behind those
that cannot be read; `none` if one of them goes on for ever. -/
def parseStatements (statementFuel : Nat) :
    Nat → Parser → List Statement → Option (Program × List Diagnostic)
  | 0, _, _ => none
  | fuel + 1, parser, done =>
    if parser.cursor.atEnd then some (⟨done.reverse⟩, parser.diagnostics)
    else
      match Parsing.statement statementFuel parser with
      | .done statement parser => parseStatements statementFuel fuel parser (statement :: done)
      | .failed parser => parseStatements statementFuel fuel parser.synchronize done
      | .endless => none

/-- The program that tokens stand for, with what was reported on the way. -/
def parse (tokens : List Token) : Option (Program × List Diagnostic) :=
  parseStatements (fuelFor tokens) (tokens.length + 1) (Parser.start tokens) []

end Program

end MonkeyLang
