import MonkeyLang.Proofs.Program.Parsing
import MonkeyLang.Proofs.Program.Parts
import MonkeyLang.Proofs.Token.Tiling

/-!
# The spans of a program lie in its text

The span of a node is merged from the spans of tokens, and so it lies where they lie. A reader keeps
inside a length if from tokens inside of it the reader comes to tokens inside of it, whatever becomes
of it, and yields parts inside of it (`Parse.Keeps`). Readers that run one after another keep inside a
length if each of them does, and so this is shown of every reader at once, by induction on the fuel
(`Parse.kept`).

The tokens of a text are inside its length, and so are the spans of every program that is read from
it (`Program.ofSource_inside`).
-/

set_option autoImplicit false

namespace MonkeyLang

/-! ## Spans inside a length -/

/-- The span does not end before it starts, and not behind the length. -/
structure Span.Inside (length : Nat) (span : Span) : Prop where
  ordered : span.start ≤ span.stop
  stop : span.stop ≤ length

theorem Span.Inside.merge {length : Nat} {left right : Span} (first : left.Inside length)
    (second : right.Inside length) : (left.merge right).Inside length where
  ordered := Nat.le_trans (Nat.min_le_left _ _) (Nat.le_trans first.ordered (Nat.le_max_left _ _))
  stop := Nat.max_le.2 ⟨first.stop, second.stop⟩

/-- All of the spans are inside the length. -/
def AllInside (length : Nat) (spans : List Span) : Prop := ∀ span ∈ spans, span.Inside length

namespace AllInside

variable {length : Nat} {span : Span} {left right : List Span}

theorem nil : AllInside length [] := List.forall_mem_nil _

theorem cons (first : span.Inside length) (rest : AllInside length right) :
    AllInside length (span :: right) := List.forall_mem_cons.2 ⟨first, rest⟩

theorem append (first : AllInside length left) (rest : AllInside length right) :
    AllInside length (left ++ right) := List.forall_mem_append.2 ⟨first, rest⟩

end AllInside

/-- The span of an expression is one of its spans. -/
theorem Expression.span_mem_spans (expression : Expression) :
    expression.span ∈ expression.spans := by
  cases expression with
  | conditional condition consequence alternative span =>
      cases alternative <;> exact List.mem_cons_self
  | _ => exact List.mem_cons_self

theorem Block.span_mem_spans (block : Block) : block.span ∈ block.spans := by
  cases block with
  | mk statements span => exact List.mem_cons_self

theorem Expression.listSpans_eq (items : List Expression) :
    Expression.listSpans items = items.flatMap Expression.spans := by
  induction items with
  | nil => rfl
  | cons item items ih => rw [Expression.listSpans, ih, List.flatMap_cons]

theorem Statement.listSpans_eq (statements : List Statement) :
    Statement.listSpans statements = statements.flatMap Statement.spans := by
  induction statements with
  | nil => rfl
  | cons statement statements ih => rw [Statement.listSpans, ih, List.flatMap_cons]

/-- Items that are kept with the last one first are inside in their own order. -/
theorem Expression.listSpans_reverse {length : Nat} {items : List Expression}
    (inside : AllInside length (Expression.listSpans items)) :
    AllInside length (Expression.listSpans items.reverse) := by
  rw [Expression.listSpans_eq] at inside ⊢
  exact fun span member => inside span (by simpa using member)

theorem Statement.listSpans_reverse {length : Nat} {statements : List Statement}
    (inside : AllInside length (Statement.listSpans statements)) :
    AllInside length (Statement.listSpans statements.reverse) := by
  rw [Statement.listSpans_eq] at inside ⊢
  exact fun span member => inside span (by simpa using member)

/-! ## Readers that keep inside -/

/-- The last token and those that are left are inside the length. -/
structure Cursor.Inside (length : Nat) (cursor : Cursor) : Prop where
  previous : cursor.previous.span.Inside length
  rest : ∀ token ∈ cursor.rest, token.span.Inside length

namespace Cursor.Inside

variable {length : Nat} {cursor : Cursor}

theorem peek (inside : cursor.Inside length) : cursor.peek.span.Inside length := by
  rw [Cursor.peek]
  split
  · next token rest ahead => exact inside.rest token (ahead ▸ List.mem_cons_self)
  · exact inside.previous

theorem advance (inside : cursor.Inside length) : cursor.advance.Inside length := by
  rw [Cursor.advance]
  split
  · next token rest ahead =>
      have all := List.forall_mem_cons.1 (ahead ▸ inside.rest)
      split
      · exact inside
      · exact ⟨all.1, all.2⟩
  · exact inside

theorem seekStatement {previous : Token} {rest : List Token}
    (last : previous.span.Inside length) (left : ∀ token ∈ rest, token.span.Inside length) :
    (seekStatement previous rest).Inside length := by
  induction rest generalizing previous with
  | nil => exact ⟨last, left⟩
  | cons token rest ih =>
      rw [MonkeyLang.seekStatement]
      split
      · exact ⟨last, left⟩
      · obtain ⟨first, others⟩ := List.forall_mem_cons.1 left
        exact ih first others

theorem recover (inside : cursor.Inside length) : cursor.recover.Inside length :=
  seekStatement inside.advance.previous inside.advance.rest

end Cursor.Inside

/-- A reader has ended inside the length. What it has yielded is good. -/
def Outcome.Inside {α : Type} (length : Nat) (good : α → Prop) : Outcome α → Prop
  | done value stop => stop.Inside length ∧ good value
  | failed _ stop => stop.Inside length
  | endless => True

namespace Parse

variable {α β : Type} {length : Nat}

/-- From tokens inside the length the reader comes to tokens inside of it. What it yields is
good. -/
def Keeps (length : Nat) (parse : Parse α) (good : α → Prop) : Prop :=
  ∀ cursor : Cursor, cursor.Inside length → (parse cursor).Inside length good

namespace Keeps

variable {parse : Parse α} {next : α → Parse β} {good : α → Prop} {fine : β → Prop}
  {kind : Token.Kind}

theorem pure {value : α} (holds : good value) : (Pure.pure value : Parse α).Keeps length good :=
  fun _ inside => ⟨inside, holds⟩

theorem fail (fault : SyntaxFault) : (Parse.fail fault : Parse α).Keeps length good :=
  fun _ inside => inside

theorem endless : (Parse.endless : Parse α).Keeps length good := fun _ _ => trivial

theorem bind (first : parse.Keeps length good)
    (second : ∀ value, good value → (next value).Keeps length fine) :
    (parse >>= next).Keeps length fine := by
  intro cursor inside
  have ran := first cursor inside
  show (andThen parse next cursor).Inside length fine
  rw [andThen]
  cases result : parse cursor with
  | done value stop =>
      rw [result] at ran
      exact second value ran.2 stop ran.1
  | failed failure stop =>
      rw [result] at ran
      exact ran
  | endless => trivial

theorem peek : Parse.peek.Keeps length fun token => token.span.Inside length :=
  fun _ inside => ⟨inside, inside.peek⟩

theorem previous : Parse.previous.Keeps length fun _ => True := fun _ inside => ⟨inside, trivial⟩

theorem looksAt : (Parse.looksAt kind).Keeps length fun _ => True :=
  fun _ inside => ⟨inside, trivial⟩

theorem atEnd : Parse.atEnd.Keeps length fun _ => True := fun _ inside => ⟨inside, trivial⟩

theorem advance : Parse.advance.Keeps length fun token => token.span.Inside length :=
  fun _ inside => ⟨inside.advance, inside.advance.previous⟩

theorem accept : (Parse.accept kind).Keeps length fun _ => True := by
  intro cursor inside
  rw [Parse.accept]
  split
  · exact ⟨inside.advance, trivial⟩
  · exact ⟨inside, trivial⟩

theorem require (what : String) :
    (Parse.require kind what).Keeps length fun token => token.span.Inside length := by
  intro cursor inside
  rw [Parse.require]
  split
  · exact ⟨inside.advance, inside.advance.previous⟩
  · exact inside

theorem name (what : String) :
    (Parse.name what).Keeps length fun name => name.span.Inside length := by
  refine peek.bind fun token _ => ?_
  split
  · exact advance.bind fun token last => pure last
  · split
    · exact fail _
    · exact fail _

theorem optionalSemicolon {span : Span} (inside : span.Inside length) :
    (Parse.optionalSemicolon span).Keeps length (Span.Inside length) := by
  refine looksAt.bind fun seen _ => ?_
  split
  · exact advance.bind fun token last => pure (inside.merge last)
  · exact pure inside

theorem parameters (fuel : Nat) {done : List Name}
    (inside : AllInside length (done.map Name.span)) :
    (Parse.parameters fuel done).Keeps length fun names =>
      AllInside length (names.map Name.span) := by
  induction fuel generalizing done with
  | zero => exact endless
  | succ fuel ih =>
      rw [Parse.parameters]
      refine (name _).bind fun parameter first => accept.bind fun more _ => ?_
      have all : AllInside length ((parameter :: done).map Name.span) := .cons first inside
      split
      · exact ih all
      · refine pure fun span member => all span ?_
        rwa [List.map_reverse, List.mem_reverse] at member

theorem integer : Parse.integer.Keeps length fun value => AllInside length value.spans := by
  refine peek.bind fun token ahead => ?_
  split
  · exact advance.bind fun _ _ => pure (.cons ahead .nil)
  · exact fail _

theorem float : Parse.float.Keeps length fun value => AllInside length value.spans := by
  refine peek.bind fun token ahead => ?_
  split
  · exact advance.bind fun _ _ => pure (.cons ahead .nil)
  · exact fail _

end Keeps

/-! ## All readers -/

/-- Each reader with an amount of fuel keeps inside the length. -/
structure Kept (length fuel : Nat) : Prop where
  expression : ∀ floor, (Parse.expression fuel floor).Keeps length fun value =>
    AllInside length value.spans
  extensions : ∀ floor left, AllInside length left.spans →
    (Parse.extensions fuel floor left).Keeps length fun value => AllInside length value.spans
  extension : ∀ left, AllInside length left.spans →
    (Parse.extension fuel left).Keeps length fun value => AllInside length value.spans
  expressions : ∀ kind, (Parse.expressions fuel kind).Keeps length fun items =>
    AllInside length (Expression.listSpans items)
  moreExpressions : ∀ done, AllInside length (Expression.listSpans done) →
    (Parse.moreExpressions fuel done).Keeps length fun items =>
      AllInside length (Expression.listSpans items)
  operand : (Parse.operand fuel).Keeps length fun value => AllInside length value.spans
  nameOrAssignment : (Parse.nameOrAssignment fuel).Keeps length fun value =>
    AllInside length value.spans
  conditional : (Parse.conditional fuel).Keeps length fun value => AllInside length value.spans
  whileLoop : (Parse.whileLoop fuel).Keeps length fun value => AllInside length value.spans
  forLoop : (Parse.forLoop fuel).Keeps length fun value => AllInside length value.spans
  functionLiteral : (Parse.functionLiteral fuel).Keeps length fun value =>
    AllInside length value.spans
  block : (Parse.block fuel).Keeps length fun value => AllInside length value.spans
  blockStatements : ∀ done, AllInside length (Statement.listSpans done) →
    (Parse.blockStatements fuel done).Keeps length fun statements =>
      AllInside length (Statement.listSpans statements)
  binding : (Parse.binding fuel).Keeps length fun value => AllInside length value.spans
  statement : (Parse.statement fuel).Keeps length fun value => AllInside length value.spans

theorem assigned_inside {target : Name} {operator : Option BinaryOperator} {value : Expression}
    (first : target.span.Inside length) (all : AllInside length value.spans) :
    AllInside length (assigned target operator value).spans := by
  have whole := first.merge (all _ value.span_mem_spans)
  cases operator with
  | none => exact .cons whole (.cons first all)
  | some operator => exact .cons whole (.cons first (.cons whole (.append (.cons first .nil) all)))

namespace Kept

variable {fuel : Nat} (less : Kept length fuel)

include less

theorem expression_succ (floor : Precedence) :
    (Parse.expression (fuel + 1) floor).Keeps length fun value => AllInside length value.spans := by
  rw [Parse.expression]
  exact less.operand.bind fun left first => less.extensions floor left first

theorem extensions_succ (floor : Precedence) {left : Expression}
    (first : AllInside length left.spans) :
    (Parse.extensions (fuel + 1) floor left).Keeps length fun value =>
      AllInside length value.spans := by
  rw [Parse.extensions]
  refine Keeps.peek.bind fun next _ => ?_
  split
  · exact (less.extension left first).bind fun larger all => less.extensions floor larger all
  · exact .pure first

theorem extension_succ {left : Expression} (first : AllInside length left.spans) :
    (Parse.extension (fuel + 1) left).Keeps length fun value => AllInside length value.spans := by
  have starts := first _ left.span_mem_spans
  rw [Parse.extension]
  refine Keeps.peek.bind fun next _ => ?_
  split
  · refine Keeps.advance.bind fun _ _ => (less.expression _).bind fun right second => .pure ?_
    exact .cons (starts.merge (second _ right.span_mem_spans)) (.append first second)
  · split
    · refine (Keeps.require _).bind fun _ _ => (less.expressions _).bind fun arguments all => ?_
      refine (Keeps.require _).bind fun close last => .pure ?_
      exact .cons (starts.merge last) (.append first all)
    · split
      · refine (Keeps.require _).bind fun _ _ => (less.expression _).bind fun index second => ?_
        refine (Keeps.require _).bind fun close last => .pure ?_
        exact .cons (starts.merge last) (.append first second)
      · exact .pure first

theorem expressions_succ (kind : Token.Kind) :
    (Parse.expressions (fuel + 1) kind).Keeps length fun items =>
      AllInside length (Expression.listSpans items) := by
  rw [Parse.expressions]
  refine Keeps.looksAt.bind fun seen _ => ?_
  split
  · exact .pure .nil
  · exact less.moreExpressions [] .nil

theorem moreExpressions_succ {done : List Expression}
    (before : AllInside length (Expression.listSpans done)) :
    (Parse.moreExpressions (fuel + 1) done).Keeps length fun items =>
      AllInside length (Expression.listSpans items) := by
  rw [Parse.moreExpressions]
  refine (less.expression _).bind fun item all => Keeps.accept.bind fun more _ => ?_
  have both : AllInside length (Expression.listSpans (item :: done)) := .append all before
  split
  · exact less.moreExpressions _ both
  · exact .pure (Expression.listSpans_reverse both)

theorem operand_succ :
    (Parse.operand (fuel + 1)).Keeps length fun value => AllInside length value.spans := by
  rw [Parse.operand]
  refine Keeps.peek.bind fun token _ => ?_
  split
  · exact .integer
  · exact .float
  · exact Keeps.advance.bind fun _ taken => .pure (.cons taken .nil)
  · exact Keeps.advance.bind fun _ taken => .pure (.cons taken .nil)
  · exact Keeps.advance.bind fun _ taken => .pure (.cons taken .nil)
  · exact less.nameOrAssignment
  · refine (Keeps.require _).bind fun _ _ => (less.expression _).bind fun inner all => ?_
    exact (Keeps.require _).bind fun _ _ => .pure all
  · refine (Keeps.require _).bind fun opening first => (less.expressions _).bind fun items all => ?_
    exact (Keeps.require _).bind fun close last => .pure (.cons (first.merge last) all)
  · refine Keeps.advance.bind fun sign first => (less.expression _).bind fun inner all => .pure ?_
    exact .cons (first.merge (all _ inner.span_mem_spans)) all
  · refine Keeps.advance.bind fun sign first => (less.expression _).bind fun inner all => .pure ?_
    exact .cons (first.merge (all _ inner.span_mem_spans)) all
  · exact less.conditional
  · exact less.whileLoop
  · exact less.forLoop
  · exact less.functionLiteral
  · exact .fail _

theorem nameOrAssignment_succ :
    (Parse.nameOrAssignment (fuel + 1)).Keeps length fun value =>
      AllInside length value.spans := by
  rw [Parse.nameOrAssignment]
  refine Keeps.advance.bind fun token first => Keeps.peek.bind fun next _ => ?_
  split
  · exact .pure (.cons first .nil)
  · refine Keeps.advance.bind fun _ _ => (less.expression _).bind fun value all => .pure ?_
    exact assigned_inside first all

theorem conditional_succ :
    (Parse.conditional (fuel + 1)).Keeps length fun value => AllInside length value.spans := by
  rw [Parse.conditional]
  refine (Keeps.require _).bind fun word first => (Keeps.require _).bind fun _ _ => ?_
  refine (less.expression _).bind fun condition chooses => (Keeps.require _).bind fun _ _ => ?_
  refine less.block.bind fun consequence yes => Keeps.accept.bind fun more _ => ?_
  have whole := first.merge (yes _ consequence.span_mem_spans)
  split
  · refine Keeps.looksAt.bind fun again _ => ?_
    split
    · refine less.conditional.bind fun nested no => .pure ?_
      have last := no _ nested.span_mem_spans
      have alone : AllInside length (nested.span :: (nested.span :: nested.spans ++ [])) :=
        .cons last (.append (.cons last no) .nil)
      exact .cons (whole.merge last) (.append chooses (.append yes alone))
    · refine less.block.bind fun alternative no => .pure ?_
      exact .cons (whole.merge (no _ alternative.span_mem_spans))
        (.append chooses (.append yes no))
  · exact .pure (.cons whole (.append chooses yes))

theorem whileLoop_succ :
    (Parse.whileLoop (fuel + 1)).Keeps length fun value => AllInside length value.spans := by
  rw [Parse.whileLoop]
  refine (Keeps.require _).bind fun word first => (Keeps.require _).bind fun _ _ => ?_
  refine (less.expression _).bind fun condition chooses => (Keeps.require _).bind fun _ _ => ?_
  refine less.block.bind fun body loops => .pure ?_
  exact .cons (first.merge (loops _ body.span_mem_spans)) (.append chooses loops)

theorem forLoop_succ :
    (Parse.forLoop (fuel + 1)).Keeps length fun value => AllInside length value.spans := by
  rw [Parse.forLoop]
  refine (Keeps.require _).bind fun word first => (Keeps.require _).bind fun _ _ => ?_
  refine Keeps.looksAt.bind fun seen _ => ?_
  split
  · exact .fail _
  · refine less.binding.bind fun start starts => Keeps.previous.bind fun last _ => ?_
    split
    · exact .fail _
    · refine (less.expression _).bind fun condition chooses => (Keeps.require _).bind fun _ _ => ?_
      refine (less.expression _).bind fun post steps => (Keeps.require _).bind fun _ _ => ?_
      refine less.block.bind fun body loops => .pure ?_
      exact .cons (first.merge (loops _ body.span_mem_spans))
        (.append starts (.append chooses (.append steps loops)))

theorem functionLiteral_succ :
    (Parse.functionLiteral (fuel + 1)).Keeps length fun value =>
      AllInside length value.spans := by
  rw [Parse.functionLiteral]
  refine (Keeps.require _).bind fun word first => (Keeps.require _).bind fun _ _ => ?_
  have behind : ∀ names : List Name, AllInside length (names.map Name.span) →
      (Parse.require .rightParen "')' after parameters" >>= fun _ =>
        Parse.block fuel >>= fun body =>
          Pure.pure (Expression.function names body (word.span.merge body.span))).Keeps length
        fun value => AllInside length value.spans := by
    intro names named
    refine (Keeps.require _).bind fun _ _ => less.block.bind fun body all => .pure ?_
    exact .cons (first.merge (all _ body.span_mem_spans)) (.append named all)
  refine Keeps.looksAt.bind fun seen _ => ?_
  dsimp only
  split
  · exact behind [] .nil
  · exact (Keeps.parameters fuel .nil).bind behind

theorem block_succ :
    (Parse.block (fuel + 1)).Keeps length fun value => AllInside length value.spans := by
  rw [Parse.block]
  refine (Keeps.require _).bind fun opening first => ?_
  refine (less.blockStatements [] .nil).bind fun statements all => ?_
  exact (Keeps.require _).bind fun close last => .pure (.cons (first.merge last) all)

theorem blockStatements_succ {done : List Statement}
    (before : AllInside length (Statement.listSpans done)) :
    (Parse.blockStatements (fuel + 1) done).Keeps length fun statements =>
      AllInside length (Statement.listSpans statements) := by
  rw [Parse.blockStatements]
  refine Keeps.looksAt.bind fun closed _ => Keeps.atEnd.bind fun ended _ => ?_
  split
  · exact .pure (Statement.listSpans_reverse before)
  · exact less.statement.bind fun next all => less.blockStatements _ (.append all before)

theorem binding_succ :
    (Parse.binding (fuel + 1)).Keeps length fun value => AllInside length value.spans := by
  rw [Parse.binding]
  refine (Keeps.require _).bind fun word first => (Keeps.name _).bind fun name named => ?_
  refine (Keeps.require _).bind fun _ _ => (less.expression _).bind fun value all => ?_
  have whole := first.merge (all _ value.span_mem_spans)
  exact (Keeps.optionalSemicolon whole).bind fun span wider => .pure (.cons wider (.cons named all))

theorem statement_succ :
    (Parse.statement (fuel + 1)).Keeps length fun value => AllInside length value.spans := by
  rw [Parse.statement]
  refine Keeps.peek.bind fun token _ => ?_
  split
  · exact less.binding.bind fun binding all => .pure all
  · refine (Keeps.require _).bind fun word first => ?_
    refine Keeps.looksAt.bind fun semicolon _ => Keeps.looksAt.bind fun brace _ => ?_
    refine Keeps.atEnd.bind fun stops _ => ?_
    split
    · exact (Keeps.optionalSemicolon first).bind fun span wider => .pure (.cons wider .nil)
    · refine (less.expression _).bind fun value all => ?_
      have whole := first.merge (all _ value.span_mem_spans)
      exact (Keeps.optionalSemicolon whole).bind fun span wider => .pure (.cons wider all)
  · refine (less.expression _).bind fun value all => Keeps.peek.bind fun next _ => ?_
    split
    · exact .fail _
    · have whole := all _ value.span_mem_spans
      exact (Keeps.optionalSemicolon whole).bind fun span wider => .pure (.cons wider all)

end Kept

/-- Every reader keeps inside any length, with any amount of fuel. -/
theorem kept (length fuel : Nat) : Kept length fuel := by
  induction fuel with
  | zero => constructor <;> intros <;> exact Keeps.endless
  | succ fuel less =>
      exact {
        expression := less.expression_succ
        extensions := fun floor _ first => less.extensions_succ floor first
        extension := fun _ first => less.extension_succ first
        expressions := less.expressions_succ
        moreExpressions := fun _ before => less.moreExpressions_succ before
        operand := less.operand_succ
        nameOrAssignment := less.nameOrAssignment_succ
        conditional := less.conditional_succ
        whileLoop := less.whileLoop_succ
        forLoop := less.forLoop_succ
        functionLiteral := less.functionLiteral_succ
        block := less.block_succ
        blockStatements := fun _ before => less.blockStatements_succ before
        binding := less.binding_succ
        statement := less.statement_succ }

end Parse

/-! ## Whole programs -/

namespace Program

variable {length : Nat}

/-- Statements that are read from tokens inside the length are inside of it, also those behind a
failure. -/
theorem readStatements_inside {statementFuel fuel : Nat} {cursor : Cursor}
    {done : List Statement} {failures : List SyntaxFailure} {reading : ProgramReading}
    (inside : cursor.Inside length) (before : AllInside length (Statement.listSpans done))
    (read : readStatements statementFuel fuel cursor done failures = some reading) :
    AllInside length reading.program.spans := by
  induction fuel generalizing cursor done failures with
  | zero => cases read
  | succ fuel ih =>
      rw [readStatements] at read
      split at read
      · obtain rfl := Option.some.inj read
        exact Statement.listSpans_reverse before
      · have ran := (Parse.kept length statementFuel).statement cursor inside
        split at read
        · next statement stop result =>
            rw [result] at ran
            have both : AllInside length (Statement.listSpans (statement :: done)) :=
              .append ran.2 before
            exact ih ran.1 both read
        · next failure stop result =>
            rw [result] at ran
            exact ih ran.recover before read
        · cases read

/-- The spans of a program lie in the text that it was read from. -/
theorem ofSource_inside {source : List Char} {program : Program}
    (accepted : ofSource source = .ok program) : AllInside source.length program.spans := by
  have tokens_inside : ∀ token ∈ (Token.scan source).tokens, token.span.Inside source.length := by
    obtain ⟨before, split, inside⟩ := (Token.scan_row source).spans
    rw [split, Nat.zero_add]
    refine List.forall_mem_append.2 ⟨fun token member => ?_, ?_⟩
    · obtain ⟨-, -, nonempty, stop⟩ := inside token member
      exact ⟨Nat.le_of_lt nonempty, Nat.zero_add source.length ▸ stop⟩
    · exact List.forall_mem_singleton.2 ⟨Nat.le_refl _, Nat.le_refl _⟩
  rw [ofSource_eq] at accepted
  split at accepted
  · split at accepted
    · cases accepted
    · next reading read =>
        split at accepted
        · obtain rfl := Except.ok.inj accepted
          have start : (Cursor.start (Token.scan source).tokens).Inside source.length :=
            ⟨⟨Nat.le_refl _, Nat.zero_le _⟩, tokens_inside⟩
          exact readStatements_inside start .nil read
        · cases accepted
  · cases accepted

end Program

end MonkeyLang
