import MonkeyLang.Program.SyntaxFault

/-!
# Reading from a list of tokens

A cursor stands between the tokens that were read and those that are left.  It remembers the
last token that was read: behind the end of a list, that token is what the cursor looks at.
A list that ends with the token for the end of input never gets there.

A reader moves a cursor.  It ends with a value or with a failure, or it goes on for ever;
the last can only happen behind the end of a list.
-/

set_option autoImplicit false

namespace MonkeyLang

/-- A place in a list of tokens. -/
structure Cursor where
  previous : Token
  rest : List Token
  deriving Repr

namespace Cursor

/-- The place in front of all tokens. -/
def start (tokens : List Token) : Cursor := ⟨⟨.endOfInput, "", Span.dummy⟩, tokens⟩

/-- The token that the cursor looks at. -/
def peek (cursor : Cursor) : Token :=
  match cursor.rest with
  | token :: _ => token
  | [] => cursor.previous

/-- Whether there is no token left but the one for the end of input. -/
def atEnd (cursor : Cursor) : Bool :=
  match cursor.rest with
  | token :: _ => token.kind == .endOfInput
  | [] => true

/-- Whether a token of a kind is left at the cursor. -/
def looksAt (cursor : Cursor) (kind : Token.Kind) : Bool :=
  !cursor.atEnd && cursor.peek.kind == kind

/-- The cursor behind the next token; at the end it stays. -/
def advance (cursor : Cursor) : Cursor :=
  match cursor.rest with
  | token :: rest => if token.kind == .endOfInput then cursor else ⟨token, rest⟩
  | [] => cursor

end Cursor

/-- How a reader ends. -/
inductive Outcome (α : Type) where
  | done (value : α) (cursor : Cursor)
  | failed (failure : SyntaxFailure) (cursor : Cursor)
  | endless

/-- A reader of tokens. -/
def Parse (α : Type) : Type := Cursor → Outcome α

namespace Parse

/-- Reads nothing. -/
@[always_inline, inline]
def done {α : Type} (value : α) : Parse α := fun cursor => .done value cursor

/-- Reads one thing after another. -/
@[always_inline, inline]
def andThen {α β : Type} (first : Parse α) (next : α → Parse β) : Parse β := fun cursor =>
  match first cursor with
  | .done value cursor => next value cursor
  | .failed failure cursor => .failed failure cursor
  | .endless => .endless

instance : Monad Parse where
  pure := done
  bind := andThen

/-- The reader that goes on for ever. -/
def endless {α : Type} : Parse α := fun _ => .endless

/-- Fails at the token that the cursor looks at. -/
def fail {α : Type} (fault : SyntaxFault) : Parse α := fun cursor =>
  .failed ⟨fault, cursor.peek⟩ cursor

/-- The token that the cursor looks at. -/
@[always_inline, inline]
def peek : Parse Token := fun cursor => .done cursor.peek cursor

/-- Whether the tokens are used up. -/
@[always_inline, inline]
def atEnd : Parse Bool := fun cursor => .done cursor.atEnd cursor

/-- Whether a token of a kind comes next. -/
@[always_inline, inline]
def looksAt (kind : Token.Kind) : Parse Bool := fun cursor => .done (cursor.looksAt kind) cursor

/-- The token that was read last. -/
@[always_inline, inline]
def previous : Parse Token := fun cursor => .done cursor.previous cursor

/-- Moves over the next token, and gives the token that was read last. -/
@[always_inline, inline]
def advance : Parse Token := fun cursor => .done cursor.advance.previous cursor.advance

/-- Moves over the next token if it is of a kind, and tells whether it was. -/
@[always_inline, inline]
def accept (kind : Token.Kind) : Parse Bool := fun cursor =>
  if cursor.looksAt kind then .done true cursor.advance else .done false cursor

/-- Moves over a token that has to be of a kind. -/
def require (kind : Token.Kind) (what : String) : Parse Token := fun cursor =>
  if cursor.looksAt kind then .done cursor.advance.previous cursor.advance
  else .failed ⟨.expected what, cursor.peek⟩ cursor

end Parse

end MonkeyLang
