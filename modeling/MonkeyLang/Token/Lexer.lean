import MonkeyLang.Token.Basic
import MonkeyLang.Diagnostic.Basic
import MonkeyLang.Text.Alphabetic
import MonkeyLang.Text.Numeric
import MonkeyLang.Number.Read

/-!
# From characters to tokens

A text is cut into tokens from its front.  Between tokens stand blanks and comments, which
run from two slashes to the end of their line.  A token is as long as it can be.  What is no
token becomes an error token, with a fault that tells why; cutting goes on behind it, so
that one pass finds every fault.  The list always ends with the token for the end of input.

The cut of one token never looks behind what it leaves over (`cut_rest_length_le`), which is
why the pass over a text ends.
-/

set_option autoImplicit false

namespace MonkeyLang

namespace Token

/-! ## Faults -/

/-- Why characters form no token. -/
inductive Fault where
  | unexpectedCharacter (c : Char)
  | unterminatedString
  | invalidEscape (c : Char)
  | integerTooLarge (lexeme : String)
  deriving DecidableEq, Repr

namespace Fault

/-- What the user reads about a fault. -/
def message : Fault → String
  | unexpectedCharacter c => s!"Unexpected character '{c}'"
  | unterminatedString => "Unterminated string literal"
  | invalidEscape c => s!"Invalid escape sequence '\\{c}'"
  | integerTooLarge lexeme => s!"Integer literal {lexeme} does not fit in 64 bits"

/-- The code of a fault. -/
def code : Fault → String
  | unexpectedCharacter _ => Diagnostic.Code.unexpectedCharacter
  | unterminatedString => Diagnostic.Code.unterminatedString
  | invalidEscape _ => Diagnostic.Code.invalidEscape
  | integerTooLarge _ => Diagnostic.Code.invalidNumber

/-- The diagnostic for a fault at a span of a source text. -/
def diagnostic (source : List Char) (fault : Fault) (span : Span) : Diagnostic :=
  ((Diagnostic.error fault.code fault.message span).locate source).labelled "lexer error"

end Fault

/-! ## One token -/

/-- A token cut off the front of a text. -/
structure Cut where
  kind : Kind
  lexeme : String
  /-- How many characters the span of the token covers. -/
  width : Nat
  /-- How many characters were read. -/
  consumed : Nat
  /-- The faults, each with the number of characters its span covers. -/
  faults : List (Fault × Nat)
  rest : List Char

namespace Cut

/-- A token without faults. -/
def sound (kind : Kind) (lexeme : String) (width : Nat) (rest : List Char) : Cut :=
  ⟨kind, lexeme, width, width, [], rest⟩

/-- A token of one spelling only. -/
def fixed (kind : Kind) (rest : List Char) : Cut :=
  sound kind kind.spelling kind.spelling.length rest

/-- An error token for a single fault. -/
def faulty (fault : Fault) (width : Nat) (rest : List Char) : Cut :=
  ⟨.error, fault.message, width, width, [(fault, width)], rest⟩

end Cut

/-- Whether a name may start with the character. -/
def startsName (c : Char) : Bool := Text.isAlphabetic c || c == '_'

/-- Whether a name may go on with the character. -/
def continuesName (c : Char) : Bool := Text.isAlphabetic c || Text.isNumeric c || c == '_'

/-- An operator, or its longer form with an equality sign. -/
def cutOperator (short long : Kind) : List Char → Cut
  | '=' :: rest => .fixed long rest
  | rest => .fixed short rest

/-- The character that an escape in a string stands for. -/
def unescape? : Char → Option Char
  | 'n' => some '\n'
  | 'r' => some '\r'
  | 't' => some '\t'
  | '\\' => some '\\'
  | '"' => some '"'
  | _ => none

/-- A string that lacks its closing quote. -/
def cutUnterminated (consumed : Nat) (bad : Option (Fault × Nat)) : Cut :=
  ⟨.error, Fault.unterminatedString.message, consumed, consumed,
    bad.toList ++ [(.unterminatedString, consumed)], []⟩

/-- The rest of a string.  `contents` holds the characters so far, the last one first, and
`bad` the first bad escape; with one, the closing quote yields an error token that covers
the string up to that escape. -/
def cutString (contents : List Char) (consumed : Nat) (bad : Option (Fault × Nat)) :
    List Char → Cut
  | [] => cutUnterminated consumed bad
  | '"' :: rest =>
    match bad with
    | none => .sound .string (String.ofList contents.reverse) (consumed + 1) rest
    | some (fault, width) =>
      ⟨.error, fault.message, width, consumed + 1, [(fault, width)], rest⟩
  | ['\\'] => cutUnterminated (consumed + 1) bad
  | '\\' :: c :: rest =>
    match unescape? c with
    | some plain => cutString (plain :: contents) (consumed + 2) bad rest
    | none =>
      cutString contents (consumed + 2) (bad.or (some (.invalidEscape c, consumed + 2))) rest
  | c :: rest => cutString (c :: contents) (consumed + 1) bad rest

/-- A whole number; it must fit into sixty-four bits with a sign. -/
def cutInteger (digits : List Char) (rest : List Char) : Cut :=
  let lexeme := String.ofList digits
  if (Number.readInteger? digits).isSome then .sound .integer lexeme digits.length rest
  else .faulty (.integerTooLarge lexeme) digits.length rest

/-- A number: digits, and a fraction if a point and a digit follow. -/
def cutNumber (text : List Char) : Cut :=
  let whole := text.takeWhile Char.isDigit
  match text.dropWhile Char.isDigit with
  | '.' :: c :: rest =>
    if c.isDigit then
      let fraction := (c :: rest).takeWhile Char.isDigit
      let lexeme := whole ++ '.' :: fraction
      .sound .float (String.ofList lexeme) lexeme.length ((c :: rest).dropWhile Char.isDigit)
    else cutInteger whole ('.' :: c :: rest)
  | rest => cutInteger whole rest

/-- A name, or the keyword that it spells. -/
def cutName (text : List Char) : Cut :=
  let word := text.takeWhile continuesName
  let lexeme := String.ofList word
  .sound ((Kind.keyword? lexeme).getD .identifier) lexeme word.length
    (text.dropWhile continuesName)

/-- The token that starts with a character which is neither a blank nor the start of a
comment. -/
def cut (c : Char) (rest : List Char) : Cut :=
  match c with
  | '(' => .fixed .leftParen rest
  | ')' => .fixed .rightParen rest
  | '\x7b' => .fixed .leftBrace rest
  | '\x7d' => .fixed .rightBrace rest
  | '[' => .fixed .leftBracket rest
  | ']' => .fixed .rightBracket rest
  | ';' => .fixed .semicolon rest
  | ',' => .fixed .comma rest
  | '+' => cutOperator .plus .plusEqual rest
  | '-' => cutOperator .minus .minusEqual rest
  | '*' => cutOperator .star .starEqual rest
  | '/' => cutOperator .slash .slashEqual rest
  | '=' => cutOperator .assign .equalEqual rest
  | '!' => cutOperator .bang .bangEqual rest
  | '<' => cutOperator .less .lessEqual rest
  | '>' => cutOperator .greater .greaterEqual rest
  | '"' => cutString [] 1 none rest
  | c =>
    if c.isDigit then cutNumber (c :: rest)
    else if startsName c then cutName (c :: rest)
    else .faulty (.unexpectedCharacter c) 1 rest

/-! ## Between tokens -/

/-- Skips blanks and comments: the position of the next token and the text from there. -/
def skip (inComment : Bool) (position : Nat) : List Char → Nat × List Char
  | [] => (position, [])
  | '/' :: '/' :: rest => skip true (position + 2) rest
  | c :: rest =>
    if c = '\n' then skip false (position + 1) rest
    else if inComment || c = ' ' || c = '\r' || c = '\t' then skip inComment (position + 1) rest
    else (position, c :: rest)

/-! ## What is left gets shorter -/

theorem length_dropWhile_le (p : Char → Bool) (text : List Char) :
    (text.dropWhile p).length ≤ text.length := by
  induction text with
  | nil => exact Nat.le_refl _
  | cons c rest ih =>
    rw [List.dropWhile_cons]
    split
    · exact Nat.le_succ_of_le ih
    · exact Nat.le_refl _

theorem length_dropWhile_cons_le {p : Char → Bool} {c : Char} (holds : p c = true)
    (rest : List Char) : ((c :: rest).dropWhile p).length ≤ rest.length := by
  rw [List.dropWhile_cons, if_pos holds]
  exact length_dropWhile_le p rest

theorem skip_length_le (inComment : Bool) (position : Nat) (text : List Char) :
    (skip inComment position text).2.length ≤ text.length := by
  fun_induction skip inComment position text with
  | case1 => exact Nat.le_refl _
  | case2 _ _ rest ih => exact Nat.le_trans ih (by simp only [List.length_cons]; omega)
  | case3 _ _ rest _ ih => exact Nat.le_succ_of_le ih
  | case4 _ _ _ rest _ _ _ ih => exact Nat.le_succ_of_le ih
  | case5 => exact Nat.le_refl _

theorem cutString_rest_length_le (contents : List Char) (consumed : Nat)
    (bad : Option (Fault × Nat)) (text : List Char) :
    (cutString contents consumed bad text).rest.length ≤ text.length := by
  fun_induction cutString contents consumed bad text with
  | case1 => exact Nat.zero_le _
  | case2 => simp [Cut.sound]
  | case3 => simp
  | case4 => exact Nat.zero_le _
  | case5 _ _ _ _ rest _ _ ih => exact Nat.le_trans ih (by simp only [List.length_cons]; omega)
  | case6 _ _ _ _ rest _ ih => exact Nat.le_trans ih (by simp only [List.length_cons]; omega)
  | case7 _ _ _ _ rest _ _ _ ih => exact Nat.le_succ_of_le ih

theorem cutInteger_rest (digits rest : List Char) : (cutInteger digits rest).rest = rest := by
  unfold cutInteger
  dsimp only
  split <;> rfl

theorem cutNumber_rest_length_le {c : Char} {rest : List Char} (digit : c.isDigit = true) :
    (cutNumber (c :: rest)).rest.length ≤ rest.length := by
  have shorter := length_dropWhile_cons_le digit rest
  unfold cutNumber
  dsimp only
  split
  · next following more equal =>
    rw [equal] at shorter
    split
    · have := length_dropWhile_le Char.isDigit (following :: more)
      simp only [List.length_cons] at shorter
      exact Nat.le_trans this (by simp only [List.length_cons]; omega)
    · rw [cutInteger_rest]
      exact shorter
  · rw [cutInteger_rest]
    exact shorter

theorem cutOperator_rest_length_le (short long : Kind) (text : List Char) :
    (cutOperator short long text).rest.length ≤ text.length := by
  unfold cutOperator
  split
  · exact Nat.le_succ _
  · exact Nat.le_refl _

theorem continuesName_of_startsName {c : Char} (start : startsName c = true) :
    continuesName c = true := by
  simp only [startsName, continuesName, Bool.or_eq_true] at start ⊢
  rcases start with alphabetic | underscore
  · exact .inl (.inl alphabetic)
  · exact .inr underscore

theorem cut_rest_length_le (c : Char) (rest : List Char) :
    (cut c rest).rest.length ≤ rest.length := by
  unfold cut
  split
  all_goals first
    | exact Nat.le_refl _
    | exact cutOperator_rest_length_le _ _ _
    | exact cutString_rest_length_le _ _ _ _
    | skip
  split
  · next digit => exact cutNumber_rest_length_le digit
  · split
    · next start => exact length_dropWhile_cons_le (continuesName_of_startsName start) rest
    · exact Nat.le_refl _

/-! ## The whole text -/

/-- The tokens of a text and the faults found on the way. -/
structure Lexing where
  tokens : List Token
  faults : List (Fault × Span)
  deriving Repr

/-- Cuts a text that starts at a position, behind the tokens and faults found so far. -/
def scanFrom (position : Nat) (text : List Char) (tokens : Array Token)
    (faults : Array (Fault × Span)) : Lexing :=
  match found : skip false position text with
  | (start, []) => ⟨(tokens.push ⟨.endOfInput, "", ⟨start, start⟩⟩).toList, faults.toList⟩
  | (start, c :: rest) =>
    let next := cut c rest
    let token : Token := ⟨next.kind, next.lexeme, ⟨start, start + next.width⟩⟩
    let more := next.faults.map fun (fault, width) => (fault, (⟨start, start + width⟩ : Span))
    scanFrom (start + next.consumed) next.rest (tokens.push token) (faults ++ more)
termination_by text.length
decreasing_by
  have shorter := skip_length_le false position text
  rw [found] at shorter
  simp only [List.length_cons] at shorter
  exact Nat.lt_of_le_of_lt (cut_rest_length_le c rest) (by omega)

/-- The tokens of a text, from its first character on. -/
def scan (text : List Char) : Lexing := scanFrom 0 text #[] #[]

/-- The diagnostics of a scan. -/
def Lexing.diagnostics (source : List Char) (lexing : Lexing) : List Diagnostic :=
  lexing.faults.map fun (fault, span) => fault.diagnostic source span

end Token

end MonkeyLang
