import MonkeyLang.Proofs.Program.Words

/-!
# All ways to write a program

There is more than one way to write a program down. An expression may stand in parentheses, also
where none are asked for. A statement may end with a semicolon, and need not. An assignment that
computes its value from what the name stands for may name the operator only, and where a
conditional is the only statement behind `else`, its braces may be left out. Apart from this
nothing is left open (`Program.Writes`). The words of a program are one of the ways
(`Program.writes_words`).

What a token says does not depend on where it stands (`Token.word`): the names and the strings say
their texts, the numbers say their values, and all other tokens only say of which kind they are.
-/

set_option autoImplicit false

namespace MonkeyLang

/-! ## What tokens say -/

/-- What a token says. A number that cannot be read says only that it is one. -/
def Token.word (token : Token) : Word :=
  match token.kind with
  | .identifier => .name token.lexeme
  | .string => .string token.lexeme
  | .integer =>
    match Number.readInteger? token.lexeme.toList with
    | some value => .integer value
    | none => .fixed .integer
  | .float =>
    match Number.readFloat? token.lexeme.toList with
    | some value => .float value
    | none => .fixed .float
  | kind => .fixed kind

namespace Token

variable {token : Token}

theorem word_name (kind : token.kind = .identifier) : token.word = .name token.lexeme := by
  rw [word, kind]

theorem word_string (kind : token.kind = .string) : token.word = .string token.lexeme := by
  rw [word, kind]

theorem word_integer (kind : token.kind = .integer) {value : Int64}
    (reads : Number.readInteger? token.lexeme.toList = some value) :
    token.word = .integer value := by
  rw [word, kind]
  dsimp only
  rw [reads]

theorem word_float (kind : token.kind = .float) {value : Float}
    (reads : Number.readFloat? token.lexeme.toList = some value) : token.word = .float value := by
  rw [word, kind]
  dsimp only
  rw [reads]

/-- The kinds of which a token says nothing but the kind. -/
def Kind.isFixed : Kind → Bool
  | .identifier | .string | .integer | .float => false
  | _ => true

theorem word_fixed {kind : Kind} (is : token.kind = kind) (fixed : kind.isFixed = true) :
    token.word = .fixed kind := by
  subst is
  unfold word
  cases kind : token.kind <;> first
    | rfl
    | rw [kind] at fixed
      cases fixed

end Token

/-! ## Ways to write -/

mutual

/-- The words are a way to write the expression. -/
inductive Expression.Writes : Expression → List Word → Prop where
  | literal (value : Literal) (span : Span) :
      Expression.Writes (.literal value span) [value.word]
  | name (identifier : Name) : Expression.Writes (.name identifier) [.name identifier.text]
  | unary {operand : Expression} {words : List Word} (operator : UnaryOperator) (span : Span)
      (inner : Expression.Writes operand words) :
      Expression.Writes (.unary operator operand span) (.fixed operator.kind :: words)
  | binary {left right : Expression} {first second : List Word} (operator : BinaryOperator)
      (span : Span) (before : Expression.Writes left first)
      (behind : Expression.Writes right second) :
      Expression.Writes (.binary operator left right span)
        (first ++ .fixed operator.kind :: second)
  | conditional {condition : Expression} {consequence : Block} {first second : List Word}
      (span : Span) (chooses : Expression.Writes condition first)
      (yes : Block.Writes consequence second) :
      Expression.Writes (.conditional condition consequence none span)
        (.fixed .ifWord :: .fixed .leftParen :: (first ++ .fixed .rightParen :: second))
  | otherwise {condition : Expression} {consequence alternative : Block}
      {first second third : List Word} (span : Span)
      (chooses : Expression.Writes condition first) (yes : Block.Writes consequence second)
      (no : Block.Writes alternative third) :
      Expression.Writes (.conditional condition consequence (some alternative) span)
        (.fixed .ifWord :: .fixed .leftParen :: (first ++
          .fixed .rightParen :: (second ++ .fixed .elseWord :: third)))
  /-- The second block holds a conditional, which is written without braces around it. -/
  | elseIf {condition asked : Expression} {consequence block : Block} {other : Option Block}
      {first second third : List Word} (span inner statement braces : Span)
      (chooses : Expression.Writes condition first) (yes : Block.Writes consequence second)
      (no : Expression.Writes (.conditional asked block other inner)
        (.fixed .ifWord :: third)) :
      Expression.Writes
        (.conditional condition consequence
          (some (.mk [.expression (.conditional asked block other inner) statement] braces)) span)
        (.fixed .ifWord :: .fixed .leftParen :: (first ++
          .fixed .rightParen :: (second ++ .fixed .elseWord :: .fixed .ifWord :: third)))
  | whileLoop {condition : Expression} {body : Block} {first second : List Word} (span : Span)
      (chooses : Expression.Writes condition first) (loops : Block.Writes body second) :
      Expression.Writes (.whileLoop condition body span)
        (.fixed .whileWord :: .fixed .leftParen :: (first ++ .fixed .rightParen :: second))
  | forLoop {start : Binding} {condition post : Expression} {body : Block}
      {first second third fourth : List Word} (span : Span) (starts : Binding.Writes start first)
      (chooses : Expression.Writes condition second) (steps : Expression.Writes post third)
      (loops : Block.Writes body fourth) :
      Expression.Writes (.forLoop start condition post body span)
        (.fixed .forWord :: .fixed .leftParen :: (first ++ .fixed .semicolon :: (second ++
          .fixed .semicolon :: (third ++ .fixed .rightParen :: fourth))))
  | function {body : Block} {words : List Word} (parameters : List Name) (span : Span)
      (inner : Block.Writes body words) :
      Expression.Writes (.function parameters body span)
        (.fixed .funcWord :: .fixed .leftParen :: (parameterWords parameters ++
          .fixed .rightParen :: words))
  | call {callee : Expression} {arguments : List Expression} {first second : List Word}
      (span : Span) (before : Expression.Writes callee first)
      (inner : Expression.ListWrites arguments second) :
      Expression.Writes (.call callee arguments span)
        (first ++ .fixed .leftParen :: (second ++ [.fixed .rightParen]))
  | array {elements : List Expression} {words : List Word} (span : Span)
      (inner : Expression.ListWrites elements words) :
      Expression.Writes (.array elements span)
        (.fixed .leftBracket :: (words ++ [.fixed .rightBracket]))
  | index {target index : Expression} {first second : List Word} (span : Span)
      (before : Expression.Writes target first) (inner : Expression.Writes index second) :
      Expression.Writes (.index target index span)
        (first ++ .fixed .leftBracket :: (second ++ [.fixed .rightBracket]))
  | assign {value : Expression} {words : List Word} (target : Name) (span : Span)
      (behind : Expression.Writes value words) :
      Expression.Writes (.assign target value span)
        (.name target.text :: .fixed .assign :: words)
  /-- The value is computed from what the name stands for, and the name is written once. -/
  | compound {value : Expression} {words : List Word} (target : Name) {operator : BinaryOperator}
      {sign : Token.Kind} (inner span : Span) (names : assignment? sign = some (some operator))
      (behind : Expression.Writes value words) :
      Expression.Writes (.assign target (.binary operator (.name target) value inner) span)
        (.name target.text :: .fixed sign :: words)
  | grouped {expression : Expression} {words : List Word}
      (inner : Expression.Writes expression words) :
      Expression.Writes expression (.fixed .leftParen :: (words ++ [.fixed .rightParen]))

/-- The words are a way to write the expressions, with commas between them. -/
inductive Expression.ListWrites : List Expression → List Word → Prop where
  | nil : Expression.ListWrites [] []
  | single {item : Expression} {words : List Word} (only : Expression.Writes item words) :
      Expression.ListWrites [item] words
  | cons {item next : Expression} {items : List Expression} {first rest : List Word}
      (head : Expression.Writes item first) (tail : Expression.ListWrites (next :: items) rest) :
      Expression.ListWrites (item :: next :: items) (first ++ .fixed .comma :: rest)

/-- The words are a way to write the binding without its semicolon. -/
inductive Binding.Writes : Binding → List Word → Prop where
  | mk {value : Expression} {words : List Word} (name : Name) (span : Span)
      (behind : Expression.Writes value words) :
      Binding.Writes (.mk name value span)
        (.fixed .varWord :: .name name.text :: .fixed .assign :: words)

/-- The words are a way to write the block. -/
inductive Block.Writes : Block → List Word → Prop where
  | mk {statements : List Statement} {words : List Word} (span : Span)
      (inner : Statement.ListWrites statements words) :
      Block.Writes (.mk statements span)
        (.fixed .leftBrace :: (words ++ [.fixed .rightBrace]))

/-- The words are a way to write the statement without its semicolon. -/
inductive Statement.Writes : Statement → List Word → Prop where
  | bind {binding : Binding} {words : List Word} (inner : Binding.Writes binding words) :
      Statement.Writes (.bind binding) words
  | leave (span : Span) : Statement.Writes (.leave none span) [.fixed .returnWord]
  | leaveWith {value : Expression} {words : List Word} (span : Span)
      (inner : Expression.Writes value words) :
      Statement.Writes (.leave (some value) span) (.fixed .returnWord :: words)
  | expression {value : Expression} {words : List Word} (span : Span)
      (inner : Expression.Writes value words) : Statement.Writes (.expression value span) words

/-- The words are a way to write the statements one after another, each with or without a
semicolon behind it. -/
inductive Statement.ListWrites : List Statement → List Word → Prop where
  | nil : Statement.ListWrites [] []
  | cons {statement : Statement} {statements : List Statement} {first rest : List Word}
      (head : Statement.Writes statement first) (tail : Statement.ListWrites statements rest) :
      Statement.ListWrites (statement :: statements) (first ++ rest)
  | ended {statement : Statement} {statements : List Statement} {first rest : List Word}
      (head : Statement.Writes statement first) (tail : Statement.ListWrites statements rest) :
      Statement.ListWrites (statement :: statements) (first ++ .fixed .semicolon :: rest)

end

/-- The words are a way to write the program. -/
def Program.Writes (program : Program) (words : List Word) : Prop :=
  Statement.ListWrites program.statements words

/-! ## The words of a program are one of the ways -/

/-- Parentheses around an expression do not matter. -/
theorem Expression.Writes.ofGrouped {expression : Expression} {words : List Word}
    (writes : expression.Writes words) (asked strength : Nat) :
    expression.Writes (MonkeyLang.grouped asked strength words) := by
  unfold MonkeyLang.grouped
  split
  · exact .grouped writes
  · exact writes

mutual

theorem Expression.writes_words : ∀ expression : Expression, expression.Writes expression.words
  | .literal value span => .literal value span
  | .name identifier => .name identifier
  | .unary operator operand span => by
      rw [Expression.words]
      exact .unary operator span (operand.writes_words.ofGrouped _ _)
  | .binary operator left right span => by
      rw [Expression.words]
      exact .binary operator span (left.writes_words.ofGrouped _ _)
        (right.writes_words.ofGrouped _ _)
  | .conditional condition consequence none span => by
      rw [Expression.words]
      exact .conditional span condition.writes_words consequence.writes_words
  | .conditional condition consequence (some alternative) span => by
      rw [Expression.words]
      exact .otherwise span condition.writes_words consequence.writes_words
        alternative.writes_words
  | .whileLoop condition body span => by
      rw [Expression.words]
      exact .whileLoop span condition.writes_words body.writes_words
  | .forLoop (.mk name value binding) condition post body span => by
      rw [Expression.words, Binding.words]
      have starts := Binding.Writes.mk name binding value.writes_words
      simpa using
        Expression.Writes.forLoop span starts condition.writes_words post.writes_words
          body.writes_words
  | .function parameters body span => by
      rw [Expression.words]
      exact .function parameters span body.writes_words
  | .call callee arguments span => by
      rw [Expression.words]
      exact .call span (callee.writes_words.ofGrouped _ _) (Expression.listWrites_words arguments)
  | .array elements span => by
      rw [Expression.words]
      exact .array span (Expression.listWrites_words elements)
  | .index target index span => by
      rw [Expression.words]
      exact .index span (target.writes_words.ofGrouped _ _) index.writes_words
  | .assign target value span => by
      rw [Expression.words]
      exact .assign target span value.writes_words

theorem Expression.listWrites_words : ∀ items : List Expression,
    Expression.ListWrites items (Expression.listWords items)
  | [] => .nil
  | [item] => .single item.writes_words
  | item :: next :: items => by
      rw [Expression.listWords]
      exact .cons item.writes_words (Expression.listWrites_words (next :: items))

theorem Block.writes_words : ∀ block : Block, block.Writes block.words
  | .mk statements span => by
      rw [Block.words]
      exact .mk span (Statement.listWrites_words statements)

theorem Statement.listWrites_words : ∀ statements : List Statement,
    Statement.ListWrites statements (Statement.listWords statements)
  | [] => .nil
  | .bind (.mk name value span) :: statements => by
      have head := Binding.Writes.mk name span value.writes_words
      rw [Statement.listWords, Statement.words, Binding.words]
      simpa using Statement.ListWrites.ended (.bind head) (Statement.listWrites_words statements)
  | .leave none span :: statements => by
      rw [Statement.listWords, Statement.words]
      exact .ended (.leave span) (Statement.listWrites_words statements)
  | .leave (some value) span :: statements => by
      rw [Statement.listWords, Statement.words]
      simpa using Statement.ListWrites.ended (.leaveWith span value.writes_words)
        (Statement.listWrites_words statements)
  | .expression value span :: statements => by
      rw [Statement.listWords, Statement.words]
      simpa using Statement.ListWrites.ended (.expression span value.writes_words)
        (Statement.listWrites_words statements)

end

/-- What is written with parentheses only where they are needed, and with all semicolons, writes
the program. -/
theorem Program.writes_words (program : Program) : program.Writes program.words :=
  Statement.listWrites_words program.statements

/-! ## Where expressions end -/

/-- There is a last word, and it is no semicolon. -/
def Closing (words : List Word) : Prop :=
  ∃ front last, words = front ++ [last] ∧ last ≠ .fixed .semicolon

namespace Closing

variable {words : List Word}

theorem single {word : Word} (other : word ≠ .fixed .semicolon) : Closing [word] :=
  ⟨[], word, rfl, other⟩

theorem append (first : List Word) (closing : Closing words) : Closing (first ++ words) := by
  obtain ⟨front, last, rfl, other⟩ := closing
  exact ⟨first ++ front, last, (List.append_assoc first front [last]).symm, other⟩

theorem cons (word : Word) (closing : Closing words) : Closing (word :: words) :=
  append [word] closing

/-- Words between two others, of which the second one is no semicolon. -/
theorem between (first : Word) (words : List Word) {last : Word}
    (other : last ≠ .fixed .semicolon) : Closing (first :: (words ++ [last])) :=
  (single other).append (first :: words)

theorem pos (closing : Closing words) : 0 < words.length := by
  obtain ⟨front, last, rfl, -⟩ := closing
  simp

theorem getLastD_ne (closing : Closing words) (word : Word) :
    words.getLastD word ≠ .fixed .semicolon := by
  obtain ⟨front, last, rfl, other⟩ := closing
  simpa using other

end Closing

theorem Literal.word_ne (literal : Literal) : literal.word ≠ .fixed .semicolon := by
  cases literal with
  | boolean value => cases value <;> simp [word]
  | _ => simp [word]

theorem Block.Writes.closing {block : Block} {words : List Word} (writes : block.Writes words) :
    Closing words := by
  cases writes
  exact .between _ _ (by simp)

/-- No way to write an expression ends with a semicolon. -/
theorem Expression.Writes.closing {expression : Expression} {words : List Word} :
    expression.Writes words → Closing words
  | .literal value _ => .single value.word_ne
  | .name _ => .single (by simp)
  | .unary _ _ inner => inner.closing.cons _
  | .binary _ _ _ behind => (behind.closing.cons _).append _
  | .conditional _ _ yes => (((yes.closing.cons _).append _).cons _).cons _
  | .otherwise _ _ _ no => (((((no.closing.cons _).append _).cons _).append _).cons _).cons _
  | .elseIf _ _ _ _ _ _ no => (((((no.closing.cons _).append _).cons _).append _).cons _).cons _
  | .whileLoop _ _ loops => (((loops.closing.cons _).append _).cons _).cons _
  | .forLoop _ _ _ _ loops =>
    (((((((loops.closing.cons _).append _).cons _).append _).cons _).append _).cons _).cons _
  | .function _ _ inner => (((inner.closing.cons _).append _).cons _).cons _
  | .call _ _ _ => (Closing.between _ _ (by simp)).append _
  | .array _ _ => .between _ _ (by simp)
  | .index _ _ _ => (Closing.between _ _ (by simp)).append _
  | .assign _ _ behind => (behind.closing.cons _).cons _
  | .compound _ _ _ _ behind => (behind.closing.cons _).cons _
  | .grouped _ => .between _ _ (by simp)

theorem Binding.Writes.closing {binding : Binding} {words : List Word}
    (writes : binding.Writes words) : Closing words := by
  obtain ⟨name, span, behind⟩ := writes
  exact ((behind.closing.cons _).cons _).cons _

end MonkeyLang
