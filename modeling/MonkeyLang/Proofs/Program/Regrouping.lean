import MonkeyLang.Proofs.Program.Consumed

/-!
# Which assignments are told apart from operators

An operator may be followed by a name and a sign of assignment. The operator binds more tightly than
the assignment does, and yet the assignment is not rejected there: it is read as a whole, and it
becomes the operand. So `1 + x = 2` is read as `1 + (x = 2)` is.

There are no other operands of this kind. In what is read, assignments that are operands stand in
parentheses if and only if no operator is directly followed by a name and a sign of assignment
(`Program.ofTokens_encloses`). One direction goes through the ways to write a program: all of them
have the assignment in its parentheses, or the operator directly in front of it. For the other one,
words are put together that neither end with an operator nor begin with a sign (`Calm`).
-/

set_option autoImplicit false

namespace MonkeyLang

/-- Whether a token is an operator, in front of an operand or between two. -/
def Token.Kind.isOperator (kind : Token.Kind) : Bool :=
  kind == .bang || (BinaryOperator.ofKind? kind).isSome

/-- The words begin with a name and a sign of assignment. -/
def Assigns (words : List Word) : Prop :=
  ∃ name sign rest, words = .name name :: .fixed sign :: rest ∧ (assignment? sign).isSome = true

/-- No operator has a name and a sign of assignment directly behind it. -/
def Clear (words : List Word) : Prop :=
  ∀ front operator back, words = front ++ .fixed operator :: back →
    operator.isOperator = true → ¬Assigns back

section

variable {kind : Token.Kind} {word : Word} {words first second : List Word}

theorem not_assigns_fixed : ¬Assigns (.fixed kind :: words) := by
  rintro ⟨name, sign, rest, same, -⟩
  cases same

theorem not_assigns_nil : ¬Assigns [] := by
  rintro ⟨name, sign, rest, same, -⟩
  cases same

theorem not_assigns_single : ¬Assigns [word] := by
  rintro ⟨name, sign, rest, same, -⟩
  cases (List.cons.inj same).2

theorem Assigns.append (assigns : Assigns first) (second : List Word) :
    Assigns (first ++ second) := by
  obtain ⟨name, sign, rest, rfl, is⟩ := assigns
  exact ⟨name, sign, rest ++ second, rfl, is⟩

/-- Words that begin in this way do so in front of a token that is no sign. -/
theorem Assigns.of_append (assigns : Assigns (first ++ .fixed kind :: second)) (some : first ≠ [])
    (other : assignment? kind = none) : Assigns first := by
  obtain ⟨name, sign, rest, same, is⟩ := assigns
  match first with
  | [] => exact absurd rfl some
  | [word] =>
      obtain ⟨rfl, behind⟩ := List.cons.inj same
      obtain rfl : kind = sign := Word.fixed.inj (List.cons.inj behind).1
      rw [other] at is
      cases is
  | word :: next :: more =>
      obtain ⟨rfl, behind⟩ := List.cons.inj same
      obtain ⟨rfl, -⟩ := List.cons.inj behind
      exact ⟨name, sign, more, rfl, is⟩

namespace Clear

theorem nil : Clear [] := by
  intro front operator back same
  simp at same

theorem cons_iff : Clear (word :: words) ↔
    (∀ operator, word = .fixed operator → operator.isOperator = true → ¬Assigns words) ∧
      Clear words := by
  constructor
  · intro clear
    refine ⟨fun operator is => clear [] operator words (by rw [is]; rfl), ?_⟩
    rintro front operator back rfl
    exact clear (word :: front) operator back rfl
  · rintro ⟨head, tail⟩ front operator back same
    cases front with
    | nil =>
        obtain ⟨is, rfl⟩ := List.cons.inj same
        exact head operator is
    | cons first front =>
        obtain ⟨-, rest⟩ := List.cons.inj same
        exact tail front operator back rest

theorem tail (clear : Clear (word :: words)) : Clear words := (cons_iff.mp clear).2

theorem left (clear : Clear (first ++ second)) : Clear first := by
  rintro front operator back rfl is assigns
  exact clear front operator (back ++ second) (by simp) is (assigns.append second)

theorem right (clear : Clear (first ++ second)) : Clear second := by
  rintro front operator back rfl
  exact clear (first ++ front) operator back (by simp)

/-- Words are put together where neither an operator nor a sign of assignment is. -/
theorem append (front : Clear first)
    (ends : ∀ kind, first.getLast? = some (.fixed kind) → kind.isOperator = false)
    (starts : ∀ kind, second.head? = some (.fixed kind) → assignment? kind = none)
    (back : Clear second) : Clear (first ++ second) := by
  induction first with
  | nil => exact back
  | cons word words ih =>
      obtain ⟨head, tail⟩ := cons_iff.mp front
      refine cons_iff.mpr ⟨?_, ih tail fun kind is => ends kind ?_⟩
      · rintro operator rfl operates ⟨name, sign, rest, same, is⟩
        match words with
        | [] => exact absurd operates (by rw [ends operator rfl]; exact Bool.false_ne_true)
        | [word] =>
            have behind : second = .fixed sign :: rest := (List.cons.inj same).2
            rw [starts sign (by rw [behind]; rfl)] at is
            cases is
        | word :: next :: more =>
            obtain ⟨rfl, behind⟩ := List.cons.inj same
            obtain ⟨rfl, -⟩ := List.cons.inj behind
            exact head operator rfl operates ⟨name, sign, more, rfl, is⟩
      · cases words with
        | nil => cases is
        | cons next more => rwa [List.getLast?_cons_cons]

/-- Behind an operator no assignment begins. -/
theorem not_assigns (clear : Clear (.fixed kind :: words)) (is : kind.isOperator = true) :
    ¬Assigns words := (cons_iff.mp clear).1 kind rfl is

end Clear

theorem UnaryOperator.isOperator_kind (operator : UnaryOperator) :
    operator.kind.isOperator = true := by
  cases operator <;> rfl

theorem BinaryOperator.isOperator_kind (operator : BinaryOperator) :
    operator.kind.isOperator = true := by
  cases operator <;> rfl

theorem Token.Kind.assignment?_of_isOperator (is : kind.isOperator = true) :
    assignment? kind = none := by
  cases kind <;> first | rfl | cases is

/-! ## Where assignments begin -/

/-- An assignment behind an operator begins there, or it is in parentheses. -/
theorem Expression.Delimits.apart {strict : Bool} {expression : Expression}
    (delimits : expression.Delimits strict words) (free : ¬Assigns words) :
    expression.Apart words := by
  cases delimits with
  | assign target span behind => exact absurd ⟨_, _, _, rfl, rfl⟩ free
  | compound target inner span names behind =>
      exact absurd ⟨_, _, _, rfl, by rw [names]; rfl⟩ free
  | grouped inner => exact fun _ => ⟨_, rfl, inner.writes⟩
  | _ => exact apart_of_no_assignment rfl _

/-- No other expression begins like an assignment. -/
theorem Expression.Delimits.not_assigns {strict : Bool} {expression : Expression}
    {words : List Word} :
    expression.Delimits strict words → expression.Apart words → ¬Assigns words
  | .literal _ _, _ => not_assigns_single
  | .name _, _ => not_assigns_single
  | .unary _ _ _ _, _ => not_assigns_fixed
  | .binary operator _ before apart _ _, _ => fun assigns =>
    before.not_assigns apart (assigns.of_append
      (List.ne_nil_of_length_pos before.writes.closing.pos)
      (Token.Kind.assignment?_of_isOperator operator.isOperator_kind))
  | .conditional _ _ _, _ => not_assigns_fixed
  | .otherwise _ _ _ _, _ => not_assigns_fixed
  | .elseIf _ _ _ _ _ _ _, _ => not_assigns_fixed
  | .whileLoop _ _ _, _ => not_assigns_fixed
  | .forLoop _ _ _ _ _, _ => not_assigns_fixed
  | .function _ _ _, _ => not_assigns_fixed
  | .call _ before apart _, _ => fun assigns =>
    before.not_assigns apart (assigns.of_append
      (List.ne_nil_of_length_pos before.writes.closing.pos) rfl)
  | .array _ _, _ => not_assigns_fixed
  | .index _ before apart _, _ => fun assigns =>
    before.not_assigns apart (assigns.of_append
      (List.ne_nil_of_length_pos before.writes.closing.pos) rfl)
  | .assign _ _ _, apart => by
      obtain ⟨inner, same, -⟩ := apart rfl
      cases same
  | .compound _ _ _ _ _, apart => by
      obtain ⟨inner, same, -⟩ := apart rfl
      cases same
  | .grouped _, _ => not_assigns_fixed

end

/-! ## With parentheses there are no such places -/

/-- No operator has an assignment behind it. The words neither end with an operator nor begin with
a sign of assignment. -/
structure Calm (words : List Word) : Prop where
  clear : Clear words
  ends : ∀ kind, words.getLast? = some (.fixed kind) → kind.isOperator = false
  starts : ∀ kind, words.head? = some (.fixed kind) → assignment? kind = none

namespace Calm

variable {kind sign : Token.Kind} {word : Word} {words first second : List Word}

theorem nil : Calm [] := ⟨.nil, nofun, nofun⟩

theorem append (front : Calm first) (back : Calm second) : Calm (first ++ second) where
  clear := front.clear.append front.ends back.starts back.clear
  ends kind is := by
    rw [List.getLast?_append, Option.or_eq_some_iff] at is
    exact is.elim (back.ends kind) fun other => front.ends kind other.2
  starts kind is := by
    rw [List.head?_append, Option.or_eq_some_iff] at is
    exact is.elim (front.starts kind) fun other => back.starts kind other.2

theorem single (other : ∀ kind, word = .fixed kind → kind.isOperator = false)
    (no_sign : ∀ kind, word = .fixed kind → assignment? kind = none) : Calm [word] where
  clear := Clear.cons_iff.mpr ⟨fun _ _ _ => not_assigns_nil, .nil⟩
  ends kind is := other kind (Option.some.inj is)
  starts kind is := no_sign kind (Option.some.inj is)

theorem fixed (other : kind.isOperator = false) (no_sign : assignment? kind = none) :
    Calm [.fixed kind] :=
  single (fun _ is => Word.fixed.inj is ▸ other) fun _ is => Word.fixed.inj is ▸ no_sign

theorem cons (other : kind.isOperator = false) (no_sign : assignment? kind = none)
    (calm : Calm words) : Calm (.fixed kind :: words) := (fixed other no_sign).append calm

/-- A word of no fixed spelling. -/
theorem unfixed (varies : ∀ kind, word ≠ .fixed kind) : Calm [word] :=
  single (fun kind is => absurd is (varies kind)) fun kind is => absurd is (varies kind)

theorem name (text : String) : Calm [.name text] := unfixed nofun

/-- An operator in front of words that do not begin like an assignment. -/
theorem operated (is : kind.isOperator = true) (calm : Calm words) (some : words ≠ [])
    (free : ¬Assigns words) : Calm (.fixed kind :: words) where
  clear := Clear.cons_iff.mpr ⟨fun _ _ _ => free, calm.clear⟩
  ends other last := by
    obtain ⟨word, more, rfl⟩ := List.exists_cons_of_ne_nil some
    rw [List.getLast?_cons_cons] at last
    exact calm.ends other last
  starts other first := by
    obtain rfl := Word.fixed.inj (Option.some.inj first)
    exact Token.Kind.assignment?_of_isOperator is

/-- A name and a sign of assignment in front of other words. -/
theorem assigning (text : String) {operator : Option BinaryOperator}
    (is : assignment? sign = some operator) (calm : Calm words) :
    Calm (.name text :: .fixed sign :: words) := by
  have no_operator : sign.isOperator = false := by
    rw [← Bool.not_eq_true]
    intro operates
    rw [Token.Kind.assignment?_of_isOperator operates] at is
    cases is
  have target : Calm [.name text, .fixed sign] := {
    clear := Clear.cons_iff.mpr ⟨fun _ is _ => Word.noConfusion is,
      Clear.cons_iff.mpr ⟨fun _ _ _ => not_assigns_nil, .nil⟩⟩
    ends := fun _ last => Word.fixed.inj (Option.some.inj last) ▸ no_operator
    starts := fun _ first => Word.noConfusion (Option.some.inj first) }
  exact target.append calm

theorem parameterWords : ∀ parameters : List Name, Calm (MonkeyLang.parameterWords parameters)
  | [] => .nil
  | [parameter] => .name parameter.text
  | parameter :: next :: parameters =>
    (name parameter.text).append ((parameterWords (next :: parameters)).cons rfl rfl)

theorem literal (value : Literal) : Calm [value.word] := by
  match value with
  | .integer _ => exact unfixed nofun
  | .float _ => exact unfixed nofun
  | .string _ => exact unfixed nofun
  | .boolean true => exact fixed rfl rfl
  | .boolean false => exact fixed rfl rfl

end Calm

mutual

theorem Expression.Delimits.calm {expression : Expression} {words : List Word} :
    expression.Delimits true words → Calm words
  | .literal value _ => .literal value
  | .name identifier => .name identifier.text
  | .unary operator _ inner apart =>
    inner.calm.operated operator.isOperator_kind (List.ne_nil_of_length_pos inner.writes.closing.pos)
      (inner.not_assigns (apart rfl))
  | .binary operator _ before _ behind apart =>
    before.calm.append (behind.calm.operated operator.isOperator_kind
      (List.ne_nil_of_length_pos behind.writes.closing.pos) (behind.not_assigns (apart rfl)))
  | .conditional _ chooses yes =>
    .cons rfl rfl (.cons rfl rfl (chooses.calm.append (yes.calm.cons rfl rfl)))
  | .otherwise _ chooses yes no =>
    .cons rfl rfl (.cons rfl rfl (chooses.calm.append (.cons rfl rfl
      (yes.calm.append (no.calm.cons rfl rfl)))))
  | .elseIf _ _ _ _ chooses yes no =>
    .cons rfl rfl (.cons rfl rfl (chooses.calm.append (.cons rfl rfl
      (yes.calm.append (no.calm.cons rfl rfl)))))
  | .whileLoop _ chooses loops =>
    .cons rfl rfl (.cons rfl rfl (chooses.calm.append (loops.calm.cons rfl rfl)))
  | .forLoop _ starts chooses steps loops =>
    .cons rfl rfl (.cons rfl rfl (starts.calm.append (.cons rfl rfl (chooses.calm.append
      (.cons rfl rfl (steps.calm.append (loops.calm.cons rfl rfl)))))))
  | .function parameters _ inner =>
    .cons rfl rfl (.cons rfl rfl ((Calm.parameterWords parameters).append (inner.calm.cons rfl rfl)))
  | .call _ before _ inner =>
    before.calm.append (.cons rfl rfl (inner.calm.append (.fixed rfl rfl)))
  | .array _ inner => .cons rfl rfl (inner.calm.append (.fixed rfl rfl))
  | .index _ before _ inner =>
    before.calm.append (.cons rfl rfl (inner.calm.append (.fixed rfl rfl)))
  | .assign target _ behind => behind.calm.assigning target.text rfl
  | .compound target _ _ names behind => behind.calm.assigning target.text names
  | .grouped inner => .cons rfl rfl (inner.calm.append (.fixed rfl rfl))

theorem Expression.ListDelimits.calm {items : List Expression} {words : List Word} :
    Expression.ListDelimits true items words → Calm words
  | .nil => .nil
  | .single only => only.calm
  | .cons head tail => head.calm.append (tail.calm.cons rfl rfl)

theorem Binding.Delimits.calm {binding : Binding} {words : List Word} :
    binding.Delimits true words → Calm words
  | .mk name _ behind => .cons rfl rfl (behind.calm.assigning name.text rfl)

theorem Block.Delimits.calm {block : Block} {words : List Word} :
    block.Delimits true words → Calm words
  | .mk _ inner => .cons rfl rfl (inner.calm.append (.fixed rfl rfl))

theorem Statement.Delimits.calm {statement : Statement} {words : List Word} :
    statement.Delimits true words → Calm words
  | .bind inner => inner.calm
  | .leave _ => .fixed rfl rfl
  | .leaveWith _ inner => inner.calm.cons rfl rfl
  | .expression _ inner => inner.calm

theorem Statement.ListDelimits.calm {statements : List Statement} {words : List Word} :
    Statement.ListDelimits true statements words → Calm words
  | .nil => .nil
  | .cons head tail => head.calm.append tail.calm
  | .ended head tail => head.calm.append (tail.calm.cons rfl rfl)

end

/-! ## Without such places there are parentheses -/

mutual

theorem Expression.Delimits.strict {expression : Expression} {words : List Word} :
    expression.Delimits false words → Clear words → expression.Delimits true words
  | .literal value span, _ => .literal value span
  | .name identifier, _ => .name identifier
  | .unary operator span inner _, clear =>
    .unary operator span (inner.strict clear.tail) fun _ =>
      inner.apart (clear.not_assigns operator.isOperator_kind)
  | .binary operator span before apart behind _, clear =>
    .binary operator span (before.strict clear.left) apart (behind.strict clear.right.tail) fun _ =>
      behind.apart (clear.right.not_assigns operator.isOperator_kind)
  | .conditional span chooses yes, clear =>
    .conditional span (chooses.strict clear.tail.tail.left) (yes.strict clear.tail.tail.right.tail)
  | .otherwise span chooses yes no, clear =>
    .otherwise span (chooses.strict clear.tail.tail.left)
      (yes.strict clear.tail.tail.right.tail.left) (no.strict clear.tail.tail.right.tail.right.tail)
  | .elseIf span inner statement braces chooses yes no, clear =>
    .elseIf span inner statement braces (chooses.strict clear.tail.tail.left)
      (yes.strict clear.tail.tail.right.tail.left) (no.strict clear.tail.tail.right.tail.right.tail)
  | .whileLoop span chooses loops, clear =>
    .whileLoop span (chooses.strict clear.tail.tail.left)
      (loops.strict clear.tail.tail.right.tail)
  | .forLoop span starts chooses steps loops, clear =>
    have behind := clear.tail.tail.right.tail
    .forLoop span (starts.strict clear.tail.tail.left) (chooses.strict behind.left)
      (steps.strict behind.right.tail.left) (loops.strict behind.right.tail.right.tail)
  | .function parameters span inner, clear =>
    .function parameters span (inner.strict clear.tail.tail.right.tail)
  | .call span before apart inner, clear =>
    .call span (before.strict clear.left) apart (inner.strict clear.right.tail.left)
  | .array span inner, clear => .array span (inner.strict clear.tail.left)
  | .index span before apart inner, clear =>
    .index span (before.strict clear.left) apart (inner.strict clear.right.tail.left)
  | .assign target span behind, clear => .assign target span (behind.strict clear.tail.tail)
  | .compound target inner span names behind, clear =>
    .compound target inner span names (behind.strict clear.tail.tail)
  | .grouped inner, clear => .grouped (inner.strict clear.tail.left)

theorem Expression.ListDelimits.strict {items : List Expression} {words : List Word} :
    Expression.ListDelimits false items words → Clear words →
      Expression.ListDelimits true items words
  | .nil, _ => .nil
  | .single only, clear => .single (only.strict clear)
  | .cons head tail, clear => .cons (head.strict clear.left) (tail.strict clear.right.tail)

theorem Binding.Delimits.strict {binding : Binding} {words : List Word} :
    binding.Delimits false words → Clear words → binding.Delimits true words
  | .mk name span behind, clear => .mk name span (behind.strict clear.tail.tail.tail)

theorem Block.Delimits.strict {block : Block} {words : List Word} :
    block.Delimits false words → Clear words → block.Delimits true words
  | .mk span inner, clear => .mk span (inner.strict clear.tail.left)

theorem Statement.Delimits.strict {statement : Statement} {words : List Word} :
    statement.Delimits false words → Clear words → statement.Delimits true words
  | .bind inner, clear => .bind (inner.strict clear)
  | .leave span, _ => .leave span
  | .leaveWith span inner, clear => .leaveWith span (inner.strict clear.tail)
  | .expression span inner, clear => .expression span (inner.strict clear)

theorem Statement.ListDelimits.strict {statements : List Statement} {words : List Word} :
    Statement.ListDelimits false statements words → Clear words →
      Statement.ListDelimits true statements words
  | .nil, _ => .nil
  | .cons head tail, clear => .cons (head.strict clear.left) (tail.strict clear.right)
  | .ended head tail, clear => .ended (head.strict clear.left) (tail.strict clear.right.tail)

end

/-- With or without a semicolon, a statement is delimited strictly exactly if its words are clear. -/
theorem Ended.strict_iff {statement : Statement} {words : List Word}
    (ended : Ended (statement.Delimits false) words) :
    Ended (statement.Delimits true) words ↔ Clear words := by
  constructor
  · rintro ⟨front, ending, rfl, delimits, rfl | rfl⟩
    · exact (delimits.calm.append .nil).clear
    · exact (delimits.calm.append (.fixed rfl rfl)).clear
  · intro clear
    obtain ⟨front, ending, rfl, delimits, ends⟩ := ended
    exact ⟨front, ending, rfl, delimits.strict clear.left, ends⟩

namespace Program

/-- The words are a way to write the program in which assignments are in parentheses where they are
in front of something that belongs to them, and if this is strict, where they are behind an
operator. -/
def Delimits (strict : Bool) (program : Program) (words : List Word) : Prop :=
  Statement.ListDelimits strict program.statements words

/-- **Assignments are told apart from operators unless they follow one.** Tokens that end with the
only one for the end of input are always read to the end, and each statement that was read is what
some of the tokens say. In these tokens assignments that are operands stand in parentheses if and
only if no operator has a name and a sign of assignment directly behind it. If there is no error
token and nothing is reported, the same is true of the whole program and all tokens. -/
theorem ofTokens_encloses {close : Token} (closes : close.kind = .endOfInput) (tokens : List Token)
    (goes : ∀ token ∈ tokens, token.kind ≠ .endOfInput) :
    ∃ reading, ofTokens (tokens ++ [close]) = some reading ∧
      (∀ statement ∈ reading.program.statements, ∃ part, part <:+: tokens ∧
        Ended (statement.Delimits false) (part.map Token.word) ∧
        (Ended (statement.Delimits true) (part.map Token.word) ↔
          Clear (part.map Token.word))) ∧
      ((∀ token ∈ tokens, token.kind ≠ .error) → reading.diagnostics = [] →
        reading.program.Delimits false (tokens.map Token.word) ∧
          (reading.program.Delimits true (tokens.map Token.word) ↔
            Clear (tokens.map Token.word))) := by
  obtain ⟨reading, reads, parts, told⟩ := ofTokens_delimits closes tokens goes
  refine ⟨reading, reads, fun statement member => ?_, fun sound silent => ?_⟩
  · obtain ⟨part, inside, ended⟩ := parts statement member
    exact ⟨part, inside, ended, ended.strict_iff⟩
  · have delimits := told sound silent
    exact ⟨delimits, fun strict => strict.calm.clear, delimits.strict⟩

/-- The sum of one and an assignment. -/
def assigningSum : Program :=
  ⟨[.expression (.binary .add (.literal (.integer 1) .dummy)
    (.assign ⟨"x", .dummy⟩ (.literal (.integer 2) .dummy) .dummy) .dummy) .dummy]⟩

/-- The tokens of `1 + (x = 2)`. -/
def enclosedTokens : List Token :=
  let token (kind : Token.Kind) (lexeme : String) : Token := ⟨kind, lexeme, .dummy⟩
  [token .integer "1", token .plus "+", token .leftParen "(", token .identifier "x",
   token .assign "=", token .integer "2", token .rightParen ")"]

/-- In parentheses the assignment is an operand. -/
theorem ofTokens_encloses_sum :
    ofTokens (enclosedTokens ++ [⟨.endOfInput, "", .dummy⟩]) = some ⟨assigningSum, []⟩ ∧
      assigningSum.Delimits true (enclosedTokens.map Token.word) := by
  have reads : ofTokens (enclosedTokens ++ [⟨.endOfInput, "", .dummy⟩]) =
      some ⟨assigningSum, []⟩ := rfl
  have words : enclosedTokens.map Token.word =
      [.integer 1] ++ .fixed .plus :: .fixed .leftParen ::
        (.name "x" :: .fixed .assign :: [.integer 2] ++ [.fixed .rightParen]) := rfl
  have one : Calm [.integer 1] := .literal (.integer 1)
  have assignment : Calm (.name "x" :: .fixed .assign :: [.integer 2]) :=
    .assigning "x" rfl (.literal (.integer 2))
  have clear : Clear (enclosedTokens.map Token.word) := by
    rw [words]
    exact (one.append (.operated rfl (.cons rfl rfl (assignment.append (.fixed rfl rfl)))
      (List.cons_ne_nil _ _) not_assigns_fixed)).clear
  obtain ⟨reading, read, -, told⟩ :=
    @ofTokens_encloses ⟨.endOfInput, "", .dummy⟩ rfl enclosedTokens (by decide)
  obtain rfl := Option.some.inj (reads.symm.trans read)
  exact ⟨reads, (told (by decide) rfl).2.mpr clear⟩

/-- The tokens of `1 + x = 2`. -/
def regroupedTokens : List Token :=
  let token (kind : Token.Kind) (lexeme : String) : Token := ⟨kind, lexeme, .dummy⟩
  [token .integer "1", token .plus "+", token .identifier "x", token .assign "=",
   token .integer "2"]

/-- Without parentheses it is one too, and nothing is reported. -/
theorem not_encloses_regrouped :
    ofTokens (regroupedTokens ++ [⟨.endOfInput, "", .dummy⟩]) = some ⟨assigningSum, []⟩ ∧
      (∀ token ∈ regroupedTokens, token.kind ≠ .leftParen) ∧
      ¬assigningSum.Delimits true (regroupedTokens.map Token.word) := by
  refine ⟨rfl, by decide, fun strict => ?_⟩
  exact strict.calm.clear [.integer 1] .plus [.name "x", .fixed .assign, .integer 2] rfl rfl
    ⟨"x", .assign, [.integer 2], rfl, rfl⟩

end Program

end MonkeyLang
