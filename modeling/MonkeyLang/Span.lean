/-!
# Spans

A span is a range of characters of a source text.  Offsets count characters, so
a span means the same thing for every encoding of the text.  Tokens, nodes of
the syntax tree and diagnostics all carry one.
-/

set_option autoImplicit false

namespace MonkeyLang

/-- The characters from `start` up to, and not including, `stop`. -/
structure Span where
  start : Nat
  stop : Nat
  deriving DecidableEq, Repr, Inhabited

namespace Span

/-- The span of a message that belongs to no place in the text. -/
def dummy : Span := ⟨0, 0⟩

/-- The smallest span that covers both. -/
def merge (left right : Span) : Span :=
  ⟨min left.start right.start, max left.stop right.stop⟩

/-- How many characters the span covers; a span that ends before it starts covers none. -/
def length (span : Span) : Nat := span.stop - span.start

/-- Whether the span covers no character. -/
def isEmpty (span : Span) : Bool := span.length == 0

@[simp] theorem isEmpty_dummy : dummy.isEmpty = true := rfl

end Span

end MonkeyLang
