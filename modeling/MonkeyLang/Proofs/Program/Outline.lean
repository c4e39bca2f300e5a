import MonkeyLang.Program.Basic
import MonkeyLang.Token.Basic

/-!
# The outline of a program

To say where the nodes of a program lie, it makes no difference what kind of node each of them is.
The outline of a node is a tree of names and spans: what the node has below itself are the outlines
of its names, expressions, blocks and statements, in the order in which they are written.

An outline nests in a list of tokens (`Outline.Nests`) if its names are identifiers of the list,
each of its spans starts where a token starts and stops where one stops, and no part reaches out of
the span of the node that it belongs to. Then a span holds all that is below it
(`Outline.Nests.node_of_mem`).
-/

set_option autoImplicit false

namespace MonkeyLang

/-- The names and the spans of a node and of all that is below it. -/
inductive Outline where
  | name (identifier : Name)
  | node (span : Span) (parts : List Outline)

namespace Outline

/-- The span of the topmost node. -/
def span : Outline → Span
  | name identifier => identifier.span
  | node span _ => span

mutual

/-- The outlines of a node and of all nodes below it. -/
def nodes : Outline → List Outline
  | name identifier => [.name identifier]
  | node span parts => .node span parts :: listNodes parts

/-- The outlines of nodes and of all nodes below them. -/
def listNodes : List Outline → List Outline
  | [] => []
  | part :: parts => part.nodes ++ listNodes parts

end

theorem mem_listNodes {part : Outline} {parts : List Outline} :
    part ∈ listNodes parts ↔ ∃ whole ∈ parts, part ∈ whole.nodes := by
  induction parts with
  | nil => simp [listNodes]
  | cons first parts ih => simp [listNodes, ih]

end Outline

/-! ## Outlines of the nodes of a program -/

mutual

/-- The outline of an expression. -/
def Expression.outline : Expression → Outline
  | .literal _ span => .node span []
  | .name identifier => .name identifier
  | .unary _ operand span => .node span [operand.outline]
  | .binary _ left right span => .node span [left.outline, right.outline]
  | .conditional condition consequence none span =>
    .node span [condition.outline, consequence.outline]
  | .conditional condition consequence (some alternative) span =>
    .node span [condition.outline, consequence.outline, alternative.outline]
  | .whileLoop condition body span => .node span [condition.outline, body.outline]
  | .forLoop start condition post body span =>
    .node span [start.outline, condition.outline, post.outline, body.outline]
  | .function parameters body span => .node span (parameters.map .name ++ [body.outline])
  | .call callee arguments span => .node span (callee.outline :: Expression.outlines arguments)
  | .array elements span => .node span (Expression.outlines elements)
  | .index target index span => .node span [target.outline, index.outline]
  | .assign target value span => .node span [.name target, value.outline]

/-- The outlines of expressions. -/
def Expression.outlines : List Expression → List Outline
  | [] => []
  | item :: items => item.outline :: Expression.outlines items

/-- The outline of a binding. -/
def Binding.outline : Binding → Outline
  | .mk name value span => .node span [.name name, value.outline]

/-- The outline of a block. -/
def Block.outline : Block → Outline
  | .mk statements span => .node span (Statement.outlines statements)

/-- The outline of a statement. -/
def Statement.outline : Statement → Outline
  | .bind binding => binding.outline
  | .leave none span => .node span []
  | .leave (some value) span => .node span [value.outline]
  | .expression value span => .node span [value.outline]

/-- The outlines of statements. -/
def Statement.outlines : List Statement → List Outline
  | [] => []
  | statement :: statements => statement.outline :: Statement.outlines statements

end

theorem Expression.outlines_eq_map (items : List Expression) :
    Expression.outlines items = items.map Expression.outline := by
  induction items with
  | nil => rfl
  | cons item items ih => rw [Expression.outlines, ih, List.map_cons]

theorem Statement.outlines_eq_map (statements : List Statement) :
    Statement.outlines statements = statements.map Statement.outline := by
  induction statements with
  | nil => rfl
  | cons statement statements ih => rw [Statement.outlines, ih, List.map_cons]

theorem Binding.outline_span (binding : Binding) : binding.outline.span = binding.span := by
  cases binding with
  | mk name value span => rfl

theorem Block.outline_span (block : Block) : block.outline.span = block.span := by
  cases block with
  | mk statements span => rfl

theorem Expression.outline_span (expression : Expression) :
    expression.outline.span = expression.span := by
  cases expression with
  | conditional condition consequence alternative span => cases alternative <;> rfl
  | _ => rfl

theorem Statement.outline_span (statement : Statement) :
    statement.outline.span = statement.span := by
  cases statement with
  | bind binding => exact binding.outline_span
  | leave value span => cases value <;> rfl
  | expression value span => rfl

/-! ## Names -/

namespace Outline

/-- All names of a node and of what is below it are of some sort. -/
def NamesIn (named : Name → Prop) (outline : Outline) : Prop :=
  ∀ name, .name name ∈ outline.nodes → named name

variable {named : Name → Prop}

theorem namesIn_name {name : Name} : (Outline.name name).NamesIn named ↔ named name := by
  simp [NamesIn, nodes]

theorem namesIn_node {span : Span} {parts : List Outline} :
    (node span parts).NamesIn named ↔ ∀ part ∈ parts, part.NamesIn named := by
  simp only [NamesIn, nodes, List.mem_cons, reduceCtorEq, false_or, mem_listNodes]
  exact ⟨fun all part member name below => all name ⟨part, member, below⟩,
    fun all name ⟨part, member, below⟩ => all part member name below⟩

end Outline

/-! ## Nesting -/

/-- The inner span does not reach out of the outer one. -/
structure Span.Contains (outer inner : Span) : Prop where
  start : outer.start ≤ inner.start
  stop : inner.stop ≤ outer.stop

namespace Span.Contains

theorem refl (span : Span) : span.Contains span := ⟨Nat.le_refl _, Nat.le_refl _⟩

theorem trans {outer middle inner : Span} (first : outer.Contains middle)
    (second : middle.Contains inner) : outer.Contains inner :=
  ⟨Nat.le_trans first.start second.start, Nat.le_trans second.stop first.stop⟩

end Span.Contains

/-- The span is not empty. It starts where a token starts and stops where one stops. -/
structure Span.Framed (tokens : List Token) (span : Span) : Prop where
  first : ∃ token ∈ tokens, token.span.start = span.start
  last : ∃ token ∈ tokens, token.span.stop = span.stop
  nonempty : span.start < span.stop

/-- The smallest span that covers two tokens, or two spans from tokens to tokens, is one itself. -/
theorem Span.Framed.merge {tokens : List Token} {left right : Span} (one : left.Framed tokens)
    (other : right.Framed tokens) : (left.merge right).Framed tokens where
  first := by
    show ∃ token ∈ tokens, token.span.start = min left.start right.start
    rcases Nat.le_total left.start right.start with le | ge
    · rw [Nat.min_eq_left le]
      exact one.first
    · rw [Nat.min_eq_right ge]
      exact other.first
  last := by
    show ∃ token ∈ tokens, token.span.stop = max left.stop right.stop
    rcases Nat.le_total left.stop right.stop with le | ge
    · rw [Nat.max_eq_right le]
      exact other.last
    · rw [Nat.max_eq_left ge]
      exact one.last
  nonempty := Nat.lt_of_le_of_lt (Nat.min_le_left _ _)
    (Nat.lt_of_lt_of_le one.nonempty (Nat.le_max_left _ _))

namespace Outline

/-- Names are identifiers of the list, spans go from tokens to tokens, and no part reaches out of
the node that it belongs to. -/
inductive Nests (tokens : List Token) : Outline → Prop where
  | name {token : Token} (member : token ∈ tokens) (identifier : token.kind = .identifier)
      (nonempty : token.span.start < token.span.stop) :
      Nests tokens (.name ⟨token.lexeme, token.span⟩)
  | node {span : Span} {parts : List Outline} (framed : span.Framed tokens)
      (nests : ∀ part ∈ parts, Nests tokens part)
      (contains : ∀ part ∈ parts, span.Contains part.span) : Nests tokens (.node span parts)

namespace Nests

variable {tokens : List Token} {outline part : Outline}

theorem framed (nests : outline.Nests tokens) : outline.span.Framed tokens := by
  cases nests with
  | name member identifier nonempty => exact ⟨⟨_, member, rfl⟩, ⟨_, member, rfl⟩, nonempty⟩
  | node framed nests contains => exact framed

/-- What is below a node nests as well, and the span of the node contains it. -/
theorem node_of_mem (nests : outline.Nests tokens) (below : part ∈ outline.nodes) :
    part.Nests tokens ∧ outline.span.Contains part.span := by
  induction nests with
  | name member identifier nonempty =>
      obtain rfl := List.mem_singleton.mp below
      exact ⟨.name member identifier nonempty, .refl _⟩
  | node framed nests contains ih =>
      rcases List.mem_cons.mp below with rfl | deeper
      · exact ⟨.node framed nests contains, .refl _⟩
      · obtain ⟨whole, member, inside⟩ := mem_listNodes.mp deeper
        obtain ⟨also, within⟩ := ih whole member inside
        exact ⟨also, (contains whole member).trans within⟩

/-- A name that nests is an identifier of the list. -/
theorem exists_token {name : Name} (nests : (Outline.name name).Nests tokens) :
    ∃ token ∈ tokens, token.kind = .identifier ∧ name = ⟨token.lexeme, token.span⟩ := by
  cases nests with
  | name member identifier nonempty => exact ⟨_, member, identifier, rfl⟩

end Nests

end Outline

end MonkeyLang
