import MonkeyLang.Program.Basic
import MonkeyLang.Program.Cursor
import MonkeyLang.Number.Read

/-!
# From tokens to programs

Operators bind in seven steps, from the loosest to the tightest: none, equality, order, sum,
product, operators in front, and calls with indexing.  An expression is an operand followed by
as many extensions as bind tighter than what stands in front of it; a binary operator reads
its right operand with its own strength, so that equal operators group to the left.  An
assignment starts with a name and takes the whole expression behind its sign.

A statement that cannot be read is reported once, at the token where reading stopped.  Reading
goes on behind that token, from the next semicolon or in front of the next word that starts a
statement.

The readers below call one another with less fuel each time; `fuelFor` gives more than any
list needs that ends with the token for the end of input.
-/

set_option autoImplicit false

namespace MonkeyLang

/-! ## How tightly tokens bind -/

/-- The strength of an operator. -/
inductive Precedence where
  | lowest
  | equality
  | ordering
  | sum
  | product
  | unary
  | call
  deriving DecidableEq, Repr

/-- The strengths as numbers, the tightest last. -/
def Precedence.rank : Precedence → Nat
  | lowest => 0
  | equality => 1
  | ordering => 2
  | sum => 3
  | product => 4
  | unary => 5
  | call => 6

/-- How tightly a token binds what stands before it. -/
def Token.Kind.precedence : Token.Kind → Precedence
  | .equalEqual | .bangEqual => .equality
  | .less | .lessEqual | .greater | .greaterEqual => .ordering
  | .plus | .minus => .sum
  | .star | .slash => .product
  | .leftParen | .leftBracket => .call
  | _ => .lowest

/-- The operator that a token is between two operands. -/
def BinaryOperator.ofKind? : Token.Kind → Option BinaryOperator
  | .plus => some .add
  | .minus => some .sub
  | .star => some .mul
  | .slash => some .div
  | .equalEqual => some .equal
  | .bangEqual => some .notEqual
  | .less => some .less
  | .lessEqual => some .lessEqual
  | .greater => some .greater
  | .greaterEqual => some .greaterEqual
  | _ => none

/-- Whether a token assigns, and with which operator if it computes first. -/
def assignment? : Token.Kind → Option (Option BinaryOperator)
  | .assign => some none
  | .plusEqual => some (some .add)
  | .minusEqual => some (some .sub)
  | .starEqual => some (some .mul)
  | .slashEqual => some (some .div)
  | _ => none

/-! ## Parts without expressions -/

namespace Parse

/-- A name; `what` tells the user what it was to name. -/
def name (what : String) : Parse Name := do
  let token ← peek
  if token.kind = .identifier then
    let token ← advance
    return ⟨token.lexeme, token.span⟩
  else if (Token.Kind.keyword? token.lexeme).isSome then fail (.keywordAsName token.lexeme what)
  else fail (.expectedBut what token.kind)

/-- The names of parameters up to the closing parenthesis; `done` holds those read, the last
one first. -/
def parameters : Nat → List Name → Parse (List Name)
  | 0, _ => endless
  | fuel + 1, done => do
    let parameter ← name "a parameter name"
    if ← accept .comma then parameters fuel (parameter :: done)
    else return (parameter :: done).reverse

/-- A whole number that is written down. -/
def integer : Parse Expression := do
  let token ← peek
  match Number.readInteger? token.lexeme.toList with
  | some value =>
    let _ ← advance
    return .literal (.integer value) token.span
  | none => fail (.badInteger token.lexeme)

/-- A double that is written down. -/
def float : Parse Expression := do
  let token ← peek
  match Number.readFloat? token.lexeme.toList with
  | some value =>
    let _ ← advance
    return .literal (.float value) token.span
  | none => fail (.badFloat token.lexeme)

/-- Takes a semicolon if there is one, and widens a span by it. -/
def optionalSemicolon (span : Span) : Parse Span := do
  if ← looksAt .semicolon then
    let token ← advance
    return span.merge token.span
  else return span

/-! ## Expressions and statements -/

/-- The assignment of a value to a name; with an operator, the value is combined with what the
name stands for. -/
def assigned (target : Name) (operator : Option BinaryOperator) (value : Expression) :
    Expression :=
  let span := target.span.merge value.span
  match operator with
  | some operator => .assign target (.binary operator (.name target) value span) span
  | none => .assign target value span

mutual

/-- An expression whose operators all bind tighter than `floor`. -/
def expression : Nat → Precedence → Parse Expression
  | 0, _ => endless
  | fuel + 1, floor => do
    let left ← operand fuel
    extensions fuel floor left

/-- As many extensions of an expression as bind tighter than `floor`. -/
def extensions : Nat → Precedence → Expression → Parse Expression
  | 0, _, _ => endless
  | fuel + 1, floor, left => do
    let next ← peek
    if floor.rank < next.kind.precedence.rank then
      let larger ← extension fuel left
      extensions fuel floor larger
    else return left

/-- One extension of an expression: an operator with its right operand, arguments, or an
index. -/
def extension : Nat → Expression → Parse Expression
  | 0, _ => endless
  | fuel + 1, left => do
    let next ← peek
    match BinaryOperator.ofKind? next.kind with
    | some operator =>
      let _ ← advance
      let right ← expression fuel next.kind.precedence
      return .binary operator left right (left.span.merge right.span)
    | none =>
      if next.kind = .leftParen then
        let _ ← require .leftParen "'('"
        let arguments ← expressions fuel .rightParen
        let close ← require .rightParen "')' after arguments"
        return .call left arguments (left.span.merge close.span)
      else if next.kind = .leftBracket then
        let _ ← require .leftBracket "'['"
        let index ← expression fuel .lowest
        let close ← require .rightBracket "']'"
        return .index left index (left.span.merge close.span)
      else return left

/-- Expressions with commas between them, none if the closing token comes first. -/
def expressions : Nat → Token.Kind → Parse (List Expression)
  | 0, _ => endless
  | fuel + 1, close => do
    if ← looksAt close then return [] else moreExpressions fuel []

/-- One expression and those behind commas; `done` holds those read, the last one first. -/
def moreExpressions : Nat → List Expression → Parse (List Expression)
  | 0, _ => endless
  | fuel + 1, done => do
    let item ← expression fuel .lowest
    if ← accept .comma then moreExpressions fuel (item :: done)
    else return (item :: done).reverse

/-- An operand: what an expression may start with. -/
def operand : Nat → Parse Expression
  | 0 => endless
  | fuel + 1 => do
    let token ← peek
    match token.kind with
    | .integer => integer
    | .float => float
    | .string =>
      let token ← advance
      return .literal (.string token.lexeme) token.span
    | .trueWord | .falseWord =>
      let token ← advance
      return .literal (.boolean (token.kind = .trueWord)) token.span
    | .identifier => nameOrAssignment fuel
    | .leftParen =>
      let _ ← require .leftParen "'('"
      let inner ← expression fuel .lowest
      let _ ← require .rightParen "')'"
      return inner
    | .leftBracket =>
      let opening ← require .leftBracket "'['"
      let elements ← expressions fuel .rightBracket
      let close ← require .rightBracket "']'"
      return .array elements (opening.span.merge close.span)
    | .minus | .bang =>
      let sign ← advance
      let operator := if sign.kind = .minus then UnaryOperator.negate else .not
      let inner ← expression fuel .unary
      return .unary operator inner (sign.span.merge inner.span)
    | .ifWord => conditional fuel
    | .whileWord => whileLoop fuel
    | .forWord => forLoop fuel
    | .funcWord => functionLiteral fuel
    | kind => fail (.expectedBut "expression" kind)

/-- A name, or the assignment that starts with it. -/
def nameOrAssignment : Nat → Parse Expression
  | 0 => endless
  | fuel + 1 => do
    let token ← advance
    let target : Name := ⟨token.lexeme, token.span⟩
    let next ← peek
    match assignment? next.kind with
    | none => return .name target
    | some operator =>
      let _ ← advance
      let value ← expression fuel .lowest
      return assigned target operator value

/-- A conditional.  Behind the word for the other case stands a block, or one more conditional
as its only statement. -/
def conditional : Nat → Parse Expression
  | 0 => endless
  | fuel + 1 => do
    let word ← require .ifWord "'if'"
    let _ ← require .leftParen "'(' after 'if'"
    let condition ← expression fuel .lowest
    let _ ← require .rightParen "')' after condition"
    let consequence ← block fuel
    let span := word.span.merge consequence.span
    if ← accept .elseWord then
      if ← looksAt .ifWord then
        let nested ← conditional fuel
        let alternative := Block.mk [.expression nested nested.span] nested.span
        return .conditional condition consequence (some alternative) (span.merge nested.span)
      else
        let alternative ← block fuel
        return .conditional condition consequence (some alternative)
          (span.merge alternative.span)
    else return .conditional condition consequence none span

/-- A loop with a condition. -/
def whileLoop : Nat → Parse Expression
  | 0 => endless
  | fuel + 1 => do
    let word ← require .whileWord "'while'"
    let _ ← require .leftParen "'(' after 'while'"
    let condition ← expression fuel .lowest
    let _ ← require .rightParen "')' after condition"
    let body ← block fuel
    return .whileLoop condition body (word.span.merge body.span)

/-- A loop with a header of three parts.  The semicolon behind the first part is read with
it. -/
def forLoop : Nat → Parse Expression
  | 0 => endless
  | fuel + 1 => do
    let word ← require .forWord "'for'"
    let _ ← require .leftParen "'(' after 'for'"
    if !(← looksAt .varWord) then fail (.expected "'var' to start the loop initializer")
    else
      let start ← binding fuel
      let last ← previous
      if last.kind ≠ .semicolon then fail (.expected "';' after loop initializer")
      else
        let condition ← expression fuel .lowest
        let _ ← require .semicolon "';' after loop condition"
        let post ← expression fuel .lowest
        let _ ← require .rightParen "')' after loop header"
        let body ← block fuel
        return .forLoop start condition post body (word.span.merge body.span)

/-- A function literal. -/
def functionLiteral : Nat → Parse Expression
  | 0 => endless
  | fuel + 1 => do
    let word ← require .funcWord "'func'"
    let _ ← require .leftParen "'(' after 'func'"
    let names ← if ← looksAt .rightParen then pure [] else parameters fuel []
    let _ ← require .rightParen "')' after parameters"
    let body ← block fuel
    return .function names body (word.span.merge body.span)

/-- Statements between braces. -/
def block : Nat → Parse Block
  | 0 => endless
  | fuel + 1 => do
    let opening ← require .leftBrace "'\x7b'"
    let statements ← blockStatements fuel []
    let close ← require .rightBrace "'\x7d' to close block"
    return .mk statements (opening.span.merge close.span)

/-- Statements up to a closing brace or the end; `done` holds those read, the last one
first. -/
def blockStatements : Nat → List Statement → Parse (List Statement)
  | 0, _ => endless
  | fuel + 1, done => do
    if (← looksAt .rightBrace) || (← atEnd) then return done.reverse
    else
      let next ← statement fuel
      blockStatements fuel (next :: done)

/-- A binding, with its semicolon if there is one. -/
def binding : Nat → Parse Binding
  | 0 => endless
  | fuel + 1 => do
    let word ← require .varWord "'var'"
    let name ← name "a variable name"
    let _ ← require .assign "'=' after variable name"
    let value ← expression fuel .lowest
    let span ← optionalSemicolon (word.span.merge value.span)
    return .mk name value span

/-- A statement, with its semicolon if there is one. -/
def statement : Nat → Parse Statement
  | 0 => endless
  | fuel + 1 => do
    let token ← peek
    match token.kind with
    | .varWord =>
      let binding ← binding fuel
      return .bind binding
    | .returnWord =>
      let word ← require .returnWord "'return'"
      if (← looksAt .semicolon) || (← looksAt .rightBrace) || (← atEnd) then
        let span ← optionalSemicolon word.span
        return .leave none span
      else
        let value ← expression fuel .lowest
        let span ← optionalSemicolon (word.span.merge value.span)
        return .leave (some value) span
    | _ =>
      let value ← expression fuel .lowest
      let next ← peek
      if (assignment? next.kind).isSome then fail .badAssignmentTarget
      else
        let span ← optionalSemicolon value.span
        return .expression value span

end

end Parse

/-! ## Going on behind a failure -/

/-- Whether a token starts a statement, whatever stands before it. -/
def Token.Kind.startsStatement : Token.Kind → Bool
  | .varWord | .returnWord | .ifWord | .whileWord | .forWord => true
  | _ => false

/-- Moves on until the token behind is a semicolon or the token ahead starts a statement. -/
def seekStatement (previous : Token) : List Token → Cursor
  | [] => ⟨previous, []⟩
  | token :: rest =>
    if token.kind == .endOfInput || previous.kind == .semicolon || token.kind.startsStatement then
      ⟨previous, token :: rest⟩
    else seekStatement token rest

/-- The place behind a failure: behind the token of the failure, at the start of a statement. -/
def Cursor.recover (cursor : Cursor) : Cursor :=
  let behind := cursor.advance
  seekStatement behind.previous behind.rest

/-! ## Whole programs -/

/-- What could be read of a list of tokens, and what could not. -/
structure ProgramReading where
  program : Program
  failures : List SyntaxFailure

/-- The diagnostics of a reading. -/
def ProgramReading.diagnostics (reading : ProgramReading) : List Diagnostic :=
  reading.failures.filterMap SyntaxFailure.diagnostic?

namespace Program

/-- Reads statements to the end of the tokens, each with the same fuel; `none` if one of them
goes on for ever. -/
def readStatements (statementFuel : Nat) :
    Nat → Cursor → List Statement → List SyntaxFailure → Option ProgramReading
  | 0, _, _, _ => none
  | fuel + 1, cursor, done, failures =>
    if cursor.atEnd then some ⟨⟨done.reverse⟩, failures.reverse⟩
    else
      match Parse.statement statementFuel cursor with
      | .done statement cursor =>
        readStatements statementFuel fuel cursor (statement :: done) failures
      | .failed failure cursor =>
        readStatements statementFuel fuel cursor.recover done (failure :: failures)
      | .endless => none

/-- Fuel enough for a list of tokens. -/
def fuelFor (tokens : List Token) : Nat := 4 * tokens.length + 8

/-- The program that tokens stand for, with the failures on the way.  There is none only for
lists that do not end with the token for the end of input, and not for all of those. -/
def ofTokens (tokens : List Token) : Option ProgramReading :=
  readStatements (fuelFor tokens) (tokens.length + 1) (Cursor.start tokens) [] []

end Program

end MonkeyLang
