import MonkeyLang.Proofs.Program.Accounting
import MonkeyLang.Proofs.Program.Delimiting

/-!
# All readers account for their tokens

Every reader takes tokens that it names, and hands the others to readers with less fuel, so that it
accounts for its tokens if they do. This is shown reader by reader, and then for all of them at once
by induction on the fuel (`Parse.accounted`). What an extension yields depends on the expression in
front of it, and what a list yields on the items that were read before, so these are left general.

What is read is delimited by the tokens taken (`Expression.Delimits`), but not strictly: an
assignment that is an operand need not be in parentheses behind the operator.

How much fuel a reader needs beside four for each token depends on how many readers may run one
inside of the other before the next token is taken.
-/

set_option autoImplicit false

namespace MonkeyLang

/-- Ways to write something, with or without a semicolon behind. -/
def Ended (writes : List Word → Prop) (words : List Word) : Prop :=
  ∃ front ending, words = front ++ ending ∧ writes front ∧
    (ending = [] ∨ ending = [.fixed .semicolon])

theorem Statement.ListDelimits.ofEnded {strict : Bool} {statement : Statement}
    {statements : List Statement} {words rest : List Word}
    (head : Ended (statement.Delimits strict) words)
    (tail : Statement.ListDelimits strict statements rest) :
    Statement.ListDelimits strict (statement :: statements) (words ++ rest) := by
  obtain ⟨front, ending, rfl, writes, rfl | rfl⟩ := head
  · rw [List.append_nil]
    exact .cons writes tail
  · rw [List.append_assoc]
    exact .ended writes tail

/-- Nothing is no way to write a statement. -/
theorem Statement.Writes.pos {statement : Statement} {words : List Word}
    (writes : statement.Writes words) : 0 < words.length := by
  cases writes with
  | bind inner =>
      cases inner
      exact Nat.succ_pos _
  | leave => exact Nat.succ_pos _
  | leaveWith => exact Nat.succ_pos _
  | expression span inner => exact inner.closing.pos

theorem Ended.pos {strict : Bool} {statement : Statement} {words : List Word}
    (ended : Ended (statement.Delimits strict) words) : 0 < words.length := by
  obtain ⟨front, ending, rfl, delimits, -⟩ := ended
  have some := delimits.writes.pos
  rw [List.length_append]
  omega

/-- Where an operator comes next, its token is that of the operator. -/
theorem BinaryOperator.kind_of_ofKind? {kind : Token.Kind} {operator : BinaryOperator}
    (found : ofKind? kind = some operator) : operator.kind = kind := by
  cases kind <;> cases found <;> rfl

namespace Token.Kind

variable {kind : Token.Kind}

/-- A token that binds what stands before it is an operator or opens arguments or an index. -/
theorem opens_of_precedence (binds : 0 < kind.precedence.rank)
    (other : BinaryOperator.ofKind? kind = none) : kind = .leftParen ∨ kind = .leftBracket := by
  cases kind <;> revert binds other <;> decide

theorem eq_assign (plain : assignment? kind = some none) : kind = .assign := by
  cases kind <;> cases plain
  rfl

theorem isFixed_of_assignment? {operator : Option BinaryOperator}
    (assigns : assignment? kind = some operator) : kind.isFixed = true ∧ kind ≠ .endOfInput := by
  cases kind <;> cases assigns <;> exact ⟨rfl, by decide⟩

theorem isFixed_of_ofKind? {operator : BinaryOperator}
    (found : BinaryOperator.ofKind? kind = some operator) :
    kind.isFixed = true ∧ kind ≠ .endOfInput := by
  cases kind <;> cases found <;> exact ⟨rfl, by decide⟩

end Token.Kind

namespace Parse

/-- The token behind the words binds what stands before it with this strength at most. -/
def Stops (close : Token) (ahead : List Token) (rank : Nat) (words : List Word) : Prop :=
  ((ahead.drop words.length).headD close).kind.precedence.rank ≤ rank

theorem Stops.append {close : Token} {ahead left : List Token} {rank : Nat}
    {first second : List Word} (rest : ahead.drop first.length = left)
    (stops : Stops close left rank second) : Stops close ahead rank (first ++ second) := by
  rw [Stops, List.length_append, ← List.drop_drop, rest]
  exact stops

/-- The words are a way to write an operand. If it is an assignment without parentheses, nothing
extends it. -/
def Operand (close : Token) (ahead : List Token) (words : List Word) (value : Expression) : Prop :=
  value.Delimits false words ∧ (value.Apart words ∨ Stops close ahead 0 words)

theorem Operand.of_no_assignment {close : Token} {ahead : List Token} {words : List Word}
    {value : Expression} (other : value.isAssignment = false)
    (delimits : value.Delimits false words) : Operand close ahead words value :=
  ⟨delimits, .inl (Expression.apart_of_no_assignment other words)⟩

/-- Each reader with an amount of fuel accounts for its tokens. What the reader of an expression
leaves does not extend the expression, so that an assignment is extended in parentheses only. -/
structure Accounted (close : Token) (fuel : Nat) : Prop where
  expression : ∀ floor previous ahead, (Parse.expression fuel floor).Accounts close previous ahead
    3 fuel fun words value => value.Delimits false words ∧ Stops close ahead floor.rank words
  extensions : ∀ floor left previous ahead, (Parse.extensions fuel floor left).Accounts close
    previous ahead 6 fuel fun words value => Stops close ahead floor.rank words ∧
      ∀ first, left.Delimits false first → left.Apart first ∨ Stops close ahead 0 [] →
        value.Delimits false (first ++ words)
  extension : ∀ left previous ahead, 0 < (ahead.headD close).kind.precedence.rank →
    (Parse.extension fuel left).Accounts close previous ahead 5 fuel fun words value =>
      0 < words.length ∧ value.isAssignment = false ∧
        ∀ first, left.Delimits false first → left.Apart first →
          value.Delimits false (first ++ words)
  expressions : ∀ kind previous ahead, (Parse.expressions fuel kind).Accounts close previous ahead
    5 fuel fun words items => Expression.ListDelimits false items words
  moreExpressions : ∀ done previous ahead, (Parse.moreExpressions fuel done).Accounts close
    previous ahead 4 fuel fun words items => ∃ item more,
      items = done.reverse ++ item :: more ∧ Expression.ListDelimits false (item :: more) words
  operand : ∀ previous ahead, (Parse.operand fuel).Accounts close previous ahead 2 fuel
    (Operand close ahead)
  nameOrAssignment : ∀ previous ahead, (ahead.headD close).kind = .identifier →
    (Parse.nameOrAssignment fuel).Accounts close previous ahead 1 fuel (Operand close ahead)
  conditional : ∀ previous ahead, (Parse.conditional fuel).Accounts close previous ahead 1 fuel
    fun words value => ∃ condition consequence alternative span rest,
      value = .conditional condition consequence alternative span ∧
        words = .fixed .ifWord :: rest ∧ value.Delimits false words
  whileLoop : ∀ previous ahead, (Parse.whileLoop fuel).Accounts close previous ahead 1 fuel
    fun words value => value.isAssignment = false ∧ value.Delimits false words
  forLoop : ∀ previous ahead, (Parse.forLoop fuel).Accounts close previous ahead 1 fuel
    fun words value => value.isAssignment = false ∧ value.Delimits false words
  functionLiteral : ∀ previous ahead, (Parse.functionLiteral fuel).Accounts close previous ahead
    1 fuel fun words value => value.isAssignment = false ∧ value.Delimits false words
  block : ∀ previous ahead, (Parse.block fuel).Accounts close previous ahead 2 fuel
    fun words value => value.Delimits false words
  blockStatements : ∀ done previous ahead, (Parse.blockStatements fuel done).Accounts close
    previous ahead 5 fuel fun words statements => ∃ more,
      statements = done.reverse ++ more ∧ Statement.ListDelimits false more words
  binding : ∀ previous ahead, (Parse.binding fuel).Accounts close previous ahead 3 fuel
    fun words value => Ended (value.Delimits false) words
  statement : ∀ previous ahead, (Parse.statement fuel).Accounts close previous ahead 4 fuel
    fun words value => Ended (value.Delimits false) words

section

variable {close previous : Token} {ahead : List Token} {fuel more : Nat}

/-! ## Readers without parts -/

section

variable (closes : close.kind = .endOfInput)

include closes

theorem integer_accounts (is : (ahead.headD close).kind = .integer) :
    Parse.integer.Accounts close previous ahead more fuel (Operand close ahead) := by
  refine .peek fun token sees => ?_
  rw [sees] at is
  split
  · next value reads =>
      refine .advance closes sees (by rw [is]; decide) fun last left => .pure ?_
      rw [Token.word_integer is reads]
      exact .of_no_assignment rfl (.literal (.integer value) _)
  · exact .fail _

theorem float_accounts (is : (ahead.headD close).kind = .float) :
    Parse.float.Accounts close previous ahead more fuel (Operand close ahead) := by
  refine .peek fun token sees => ?_
  rw [sees] at is
  split
  · next value reads =>
      refine .advance closes sees (by rw [is]; decide) fun last left => .pure ?_
      rw [Token.word_float is reads]
      exact .of_no_assignment rfl (.literal (.float value) _)
  · exact .fail _

theorem parameters_accounts (done : List Name) :
    (Parse.parameters fuel done).Accounts close previous ahead 1 fuel fun words names =>
      ∃ name more, names = done.reverse ++ name :: more ∧
        words = parameterWords (name :: more) := by
  induction fuel generalizing done previous ahead with
  | zero =>
      rw [Parse.parameters]
      exact .endless (by omega)
  | succ fuel ih =>
      rw [Parse.parameters]
      refine (Accounts.name closes _).bind_word fun parameter last left => ?_
      refine (Accounts.accept closes rfl).bind fun accepted words next rest taken => ?_
      subst taken
      cases accepted with
      | true =>
          refine ((ih (parameter :: done)).lower (by simp; omega)).weaken ?_
          rintro words names ⟨name, more, rfl, rfl⟩
          exact ⟨parameter, name :: more, by simp, rfl⟩
      | false => exact .pure ⟨parameter, [], by simp, rfl⟩

end

/-! ## Readers with parts

All of them are followed in the same way: what a reader yields is made of what its parts yield. -/

namespace Accounted

variable (closes : close.kind = .endOfInput) (less : Accounted close fuel)

include less

theorem whole (floor : Precedence) (previous : Token) (ahead : List Token) :
    (Parse.expression fuel floor).Accounts close previous ahead 3 fuel
      fun words value => value.Delimits false words :=
  (less.expression floor previous ahead).weaken fun _ _ => And.left

theorem expression_succ (floor : Precedence) :
    (Parse.expression (fuel + 1) floor).Accounts close previous ahead 3 (fuel + 1)
      fun words value => value.Delimits false words ∧ Stops close ahead floor.rank words := by
  rw [Parse.expression]
  refine ((less.operand _ _).lower (by omega)).bind_left fun left words last rest holds split => ?_
  obtain ⟨delimits, apart⟩ := holds
  have some := delimits.writes.closing.pos
  refine ((less.extensions floor left _ _).lower (by omega)).weaken fun others value extended => ?_
  obtain ⟨stops, extends_of⟩ := extended
  refine ⟨extends_of words delimits (apart.imp_right fun here => ?_), stops.append split⟩
  rw [Stops, split] at here
  exact here

theorem extensions_succ (floor : Precedence) (left : Expression) :
    (Parse.extensions (fuel + 1) floor left).Accounts close previous ahead 6 (fuel + 1)
      fun words value => Stops close ahead floor.rank words ∧
        ∀ first, left.Delimits false first → left.Apart first ∨ Stops close ahead 0 [] →
          value.Delimits false (first ++ words) := by
  rw [Parse.extensions]
  refine .peek fun token sees => ?_
  split
  · next tighter =>
      have some : 0 < (ahead.headD close).kind.precedence.rank := by
        rw [sees]
        exact Nat.zero_lt_of_lt tighter
      refine ((less.extension left _ _ some).lower (by omega)).bind_left
        fun larger words last rest extended split => ?_
      obtain ⟨pos, other, larger_of⟩ := extended
      refine ((less.extensions floor larger _ _).lower (by omega)).weaken
        fun others value again => ?_
      obtain ⟨stops, value_of⟩ := again
      refine ⟨stops.append split, fun first delimits apart => ?_⟩
      have free : left.Apart first := apart.resolve_right (Nat.not_le.mpr some)
      rw [← List.append_assoc]
      exact value_of _ (larger_of first delimits free) (.inl (Expression.apart_of_no_assignment other _))
  · next loose =>
      refine .pure ⟨?_, fun first delimits _ => ?_⟩
      · rw [Stops, List.length_nil, List.drop_zero, sees]
        exact Nat.le_of_not_lt loose
      · rw [List.append_nil]
        exact delimits

include closes

theorem extension_succ (left : Expression) (binds : 0 < (ahead.headD close).kind.precedence.rank) :
    (Parse.extension (fuel + 1) left).Accounts close previous ahead 5 (fuel + 1)
      fun words value => 0 < words.length ∧ value.isAssignment = false ∧
        ∀ first, left.Delimits false first → left.Apart first →
          value.Delimits false (first ++ words) := by
  rw [Parse.extension]
  refine .peek fun token sees => ?_
  rw [sees] at binds
  split
  · next operator found =>
      obtain ⟨fixed, goes⟩ := Token.Kind.isFixed_of_ofKind? found
      have sign : token.word = .fixed operator.kind :=
        Token.word_fixed (BinaryOperator.kind_of_ofKind? found).symm
          (BinaryOperator.kind_of_ofKind? found ▸ fixed)
      refine .advance closes sees goes fun last left => ?_
      refine ((less.whole _ _ _).lower (by omega)).bind fun right words last rest behind => ?_
      refine .pure ⟨Nat.succ_pos _, rfl, fun first before apart => ?_⟩
      rw [sign, List.append_nil]
      exact .binary operator _ before apart behind Bool.noConfusion
  · next other =>
      split
      · refine (Accounts.require closes _ rfl).bind_word fun opening last rest => ?_
        refine ((less.expressions _ _ _).lower (by omega)).bind
          fun arguments words last rest inner => ?_
        refine (Accounts.require closes _ rfl).bind_word fun closing last rest => ?_
        exact .pure ⟨Nat.succ_pos _, rfl, fun first before apart => .call _ before apart inner⟩
      · split
        · refine (Accounts.require closes _ rfl).bind_word fun opening last rest => ?_
          refine ((less.whole _ _ _).lower (by omega)).bind
            fun index words last rest inner => ?_
          refine (Accounts.require closes _ rfl).bind_word fun closing last rest => ?_
          exact .pure ⟨Nat.succ_pos _, rfl, fun first before apart => .index _ before apart inner⟩
        · next noParen noBracket =>
            -- Nothing else binds what stands before it.
            rcases Token.Kind.opens_of_precedence binds other with is | is
            · exact absurd is noParen
            · exact absurd is noBracket

omit closes in
theorem expressions_succ (kind : Token.Kind) :
    (Parse.expressions (fuel + 1) kind).Accounts close previous ahead 5 (fuel + 1)
      fun words items => Expression.ListDelimits false items words := by
  rw [Parse.expressions]
  refine .looksAt fun seen => ?_
  split
  · exact .pure .nil
  · refine ((less.moreExpressions [] _ _).lower (by omega)).weaken ?_
    rintro words items ⟨item, more, rfl, writes⟩
    exact writes

theorem moreExpressions_succ (done : List Expression) :
    (Parse.moreExpressions (fuel + 1) done).Accounts close previous ahead 4 (fuel + 1)
      fun words items => ∃ item more,
        items = done.reverse ++ item :: more ∧ Expression.ListDelimits false (item :: more) words := by
  rw [Parse.moreExpressions]
  refine ((less.whole _ _ _).lower (by omega)).bind fun item first last rest writes => ?_
  refine (Accounts.accept closes rfl).bind fun accepted words last rest taken => ?_
  subst taken
  cases accepted with
  | true =>
      refine ((less.moreExpressions (item :: done) _ _).lower (by simp; omega)).weaken ?_
      rintro words items ⟨next, more, rfl, behind⟩
      exact ⟨item, next :: more, by simp, .cons writes behind⟩
  | false =>
      refine .pure ⟨item, [], by simp, ?_⟩
      rw [if_neg Bool.false_ne_true, List.append_nil, List.append_nil]
      exact .single writes

theorem nameOrAssignment_succ (is : (ahead.headD close).kind = .identifier) :
    (Parse.nameOrAssignment (fuel + 1)).Accounts close previous ahead 1 (fuel + 1)
      (Operand close ahead) := by
  rw [Parse.nameOrAssignment]
  refine .advance_left closes rfl (by rw [is]; decide) fun last left split => ?_
  rw [Token.word_name is]
  refine .peek fun sign sees => ?_
  split
  · exact .pure (.of_no_assignment rfl (.name _))
  · next operator assigns =>
      obtain ⟨fixed, goes⟩ := Token.Kind.isFixed_of_assignment? assigns
      refine .advance_left closes sees goes fun last rest again => ?_
      refine ((less.expression .lowest _ _).lower (by omega)).bind
        fun value words last _ holds => ?_
      obtain ⟨delimits, stops⟩ := holds
      refine .pure ⟨?_, .inr ?_⟩
      · rw [Token.word_fixed rfl fixed, List.append_nil]
        cases operator with
        | none =>
            rw [Token.Kind.eq_assign assigns]
            exact .assign _ _ delimits
        | some operator => exact .compound _ _ _ assigns delimits
      · rw [List.append_nil, split, again]
        exact stops

theorem operand_succ :
    (Parse.operand (fuel + 1)).Accounts close previous ahead 2 (fuel + 1)
      (Operand close ahead) := by
  rw [Parse.operand]
  refine .peek fun token sees => ?_
  split
  · next is => exact integer_accounts closes (sees ▸ is)
  · next is => exact float_accounts closes (sees ▸ is)
  · next is =>
      refine .advance closes sees (by rw [is]; decide) fun last left => .pure ?_
      rw [Token.word_string is]
      exact .of_no_assignment rfl (.literal (.string _) _)
  · next is =>
      refine .advance closes sees (by rw [is]; decide) fun last left => .pure ?_
      rw [Token.word_fixed is rfl, is]
      exact .of_no_assignment rfl (.literal (.boolean true) _)
  · next is =>
      refine .advance closes sees (by rw [is]; decide) fun last left => .pure ?_
      rw [Token.word_fixed is rfl, is]
      exact .of_no_assignment rfl (.literal (.boolean false) _)
  · next is => exact (less.nameOrAssignment _ _ (sees ▸ is)).lower (by omega)
  · refine (Accounts.require closes _ rfl).bind_word fun opening last rest => ?_
    refine ((less.whole _ _ _).lower (by omega)).bind fun inner words last rest writes => ?_
    refine (Accounts.require closes _ rfl).bind_word fun closing last rest => ?_
    exact .pure ⟨.grouped writes, .inl fun _ => ⟨words, rfl, writes.writes⟩⟩
  · refine (Accounts.require closes _ rfl).bind_word fun opening last rest => ?_
    refine ((less.expressions _ _ _).lower (by omega)).bind fun items words last rest writes => ?_
    refine (Accounts.require closes _ rfl).bind_word fun closing last rest => ?_
    exact .pure (.of_no_assignment rfl (.array _ writes))
  · next is =>
      refine .advance closes sees (by rw [is]; decide) fun last left => ?_
      refine ((less.whole _ _ _).lower (by omega)).bind fun inner words last rest writes => ?_
      refine .pure ?_
      rw [Token.word_fixed is rfl, is, List.append_nil]
      exact .of_no_assignment rfl (.unary .negate _ writes Bool.noConfusion)
  · next is =>
      refine .advance closes sees (by rw [is]; decide) fun last left => ?_
      refine ((less.whole _ _ _).lower (by omega)).bind fun inner words last rest writes => ?_
      refine .pure ?_
      rw [Token.word_fixed is rfl, is, List.append_nil]
      exact .of_no_assignment rfl (.unary .not _ writes Bool.noConfusion)
  · refine ((less.conditional _ _).lower (by omega)).weaken ?_
    rintro words value ⟨_, _, _, _, _, rfl, -, writes⟩
    exact .of_no_assignment rfl writes
  · exact ((less.whileLoop _ _).lower (by omega)).weaken fun _ _ holds =>
      .of_no_assignment holds.1 holds.2
  · exact ((less.forLoop _ _).lower (by omega)).weaken fun _ _ holds =>
      .of_no_assignment holds.1 holds.2
  · exact ((less.functionLiteral _ _).lower (by omega)).weaken fun _ _ holds =>
      .of_no_assignment holds.1 holds.2
  · exact .fail _

theorem conditional_succ :
    (Parse.conditional (fuel + 1)).Accounts close previous ahead 1 (fuel + 1)
      fun words value => ∃ condition consequence alternative span rest,
        value = .conditional condition consequence alternative span ∧
          words = .fixed .ifWord :: rest ∧ value.Delimits false words := by
  rw [Parse.conditional]
  refine (Accounts.require closes _ rfl).bind_word fun word last rest => ?_
  refine (Accounts.require closes _ rfl).bind_word fun opening last rest => ?_
  refine ((less.whole _ _ _).lower (by omega)).bind fun condition first last rest chooses => ?_
  refine (Accounts.require closes _ rfl).bind_word fun closing last rest => ?_
  refine ((less.block _ _).lower (by omega)).bind fun consequence second last rest yes => ?_
  refine (Accounts.accept closes rfl).bind fun accepted words last rest taken => ?_
  subst taken
  cases accepted with
  | false =>
      refine .pure ⟨_, _, _, _, _, rfl, rfl, ?_⟩
      rw [if_neg Bool.false_ne_true, List.append_nil, List.append_nil]
      exact .conditional _ chooses yes
  | true =>
      refine .looksAt fun seen => ?_
      split
      · refine ((less.conditional _ _).lower (by simp; omega)).bind
          fun nested words last rest holds => ?_
        obtain ⟨_, _, _, _, third, rfl, rfl, no⟩ := holds
        refine .pure ⟨_, _, _, _, _, rfl, rfl, ?_⟩
        rw [if_pos rfl, List.append_nil]
        exact .elseIf _ _ _ _ chooses yes no
      · refine ((less.block _ _).lower (by simp; omega)).bind
          fun alternative third last rest no => ?_
        refine .pure ⟨_, _, _, _, _, rfl, rfl, ?_⟩
        rw [if_pos rfl, List.append_nil]
        exact .otherwise _ chooses yes no

theorem whileLoop_succ :
    (Parse.whileLoop (fuel + 1)).Accounts close previous ahead 1 (fuel + 1)
      fun words value => value.isAssignment = false ∧ value.Delimits false words := by
  rw [Parse.whileLoop]
  refine (Accounts.require closes _ rfl).bind_word fun word last rest => ?_
  refine (Accounts.require closes _ rfl).bind_word fun opening last rest => ?_
  refine ((less.whole _ _ _).lower (by omega)).bind fun condition first last rest chooses => ?_
  refine (Accounts.require closes _ rfl).bind_word fun closing last rest => ?_
  refine ((less.block _ _).lower (by omega)).bind fun body second last rest loops => ?_
  refine .pure ⟨rfl, ?_⟩
  rw [List.append_nil]
  exact .whileLoop _ chooses loops

theorem forLoop_succ :
    (Parse.forLoop (fuel + 1)).Accounts close previous ahead 1 (fuel + 1)
      fun words value => value.isAssignment = false ∧ value.Delimits false words := by
  rw [Parse.forLoop]
  refine (Accounts.require closes _ rfl).bind_word fun word last rest => ?_
  refine (Accounts.require closes _ rfl).bind_word fun opening last rest => ?_
  refine .looksAt fun seen => ?_
  split
  · exact .fail _
  · refine ((less.binding _ _).lower (by omega)).bind_last fun start words last rest ended is => ?_
    refine .last ?_
    split
    · exact .fail _
    · next semicolon =>
        -- The binding has its semicolon, since nothing else that it ends with is one.
        obtain ⟨front, rfl, starts⟩ : ∃ front, words = front ++ [.fixed .semicolon] ∧
            start.Delimits false front := by
          rw [Token.word_fixed (Decidable.not_not.mp semicolon) rfl] at is
          obtain ⟨front, ending, rfl, starts, rfl | rfl⟩ := ended
          · rw [List.append_nil] at is
            exact absurd is.symm (starts.writes.closing.getLastD_ne _)
          · exact ⟨front, rfl, starts⟩
        refine ((less.whole _ _ _).lower (by simp; omega)).bind
          fun condition second last rest chooses => ?_
        refine (Accounts.require closes _ rfl).bind_word fun between last rest => ?_
        refine ((less.whole _ _ _).lower (by simp; omega)).bind
          fun post third last rest steps => ?_
        refine (Accounts.require closes _ rfl).bind_word fun closing last rest => ?_
        refine ((less.block _ _).lower (by simp; omega)).bind
          fun body fourth last rest loops => ?_
        refine .pure ⟨rfl, ?_⟩
        simpa using Expression.Delimits.forLoop _ starts chooses steps loops

theorem functionLiteral_succ :
    (Parse.functionLiteral (fuel + 1)).Accounts close previous ahead 1 (fuel + 1)
      fun words value => value.isAssignment = false ∧ value.Delimits false words := by
  rw [Parse.functionLiteral]
  refine (Accounts.require closes _ rfl).bind_word fun word last rest => ?_
  refine (Accounts.require closes _ rfl).bind_word fun opening last rest => ?_
  -- What stands behind the parameters is read in the same way if there are none.
  have behind : ∀ (names : List Name) (last : Token) (rest : List Token) (more : Nat),
      Accounts close
        (Parse.require .rightParen "')' after parameters" >>= fun _ =>
          Parse.block fuel >>= fun body =>
            Pure.pure (Expression.function names body (word.span.merge body.span)))
        last rest more (fuel + 1) fun others value => value.isAssignment = false ∧
          value.Delimits false
            (.fixed .funcWord :: .fixed .leftParen :: (parameterWords names ++ others)) := by
    intro names last rest more
    refine (Accounts.require closes _ rfl).bind_word fun closing last rest => ?_
    refine ((less.block _ _).lower (by omega)).bind fun body words last rest inner => ?_
    refine .pure ⟨rfl, ?_⟩
    rw [List.append_nil]
    exact .function names _ inner
  refine .looksAt fun seen => ?_
  dsimp only
  split
  · exact behind [] _ _ _
  · refine ((parameters_accounts closes []).lower (by omega)).bind
      fun names words last rest holds => ?_
    obtain ⟨name, more, rfl, rfl⟩ := holds
    exact behind (name :: more) _ _ _

theorem block_succ :
    (Parse.block (fuel + 1)).Accounts close previous ahead 2 (fuel + 1)
      fun words value => value.Delimits false words := by
  rw [Parse.block]
  refine (Accounts.require closes _ rfl).bind_word fun opening last rest => ?_
  refine ((less.blockStatements [] _ _).lower (by omega)).bind
    fun statements words last rest holds => ?_
  obtain ⟨more, rfl, inner⟩ := holds
  refine (Accounts.require closes _ rfl).bind_word fun closing last rest => ?_
  exact .pure (.mk _ inner)

omit closes in
theorem blockStatements_succ (done : List Statement) :
    (Parse.blockStatements (fuel + 1) done).Accounts close previous ahead 5 (fuel + 1)
      fun words statements => ∃ more,
        statements = done.reverse ++ more ∧ Statement.ListDelimits false more words := by
  rw [Parse.blockStatements]
  refine .looksAt fun closed => .atEnd fun ended => ?_
  split
  · exact .pure ⟨[], (List.append_nil _).symm, .nil⟩
  · refine ((less.statement _ _).lower (by omega)).bind fun next words last rest writes => ?_
    have some := writes.pos
    refine ((less.blockStatements (next :: done) _ _).lower (by omega)).weaken ?_
    rintro others statements ⟨more, rfl, behind⟩
    exact ⟨next :: more, by simp, .ofEnded writes behind⟩

theorem binding_succ :
    (Parse.binding (fuel + 1)).Accounts close previous ahead 3 (fuel + 1)
      fun words value => Ended (value.Delimits false) words := by
  rw [Parse.binding]
  refine (Accounts.require closes _ rfl).bind_word fun word last rest => ?_
  refine (Accounts.name closes _).bind_word fun name last rest => ?_
  refine (Accounts.require closes _ rfl).bind_word fun sign last rest => ?_
  refine ((less.whole _ _ _).lower (by omega)).bind fun value words last rest behind => ?_
  refine (Accounts.optionalSemicolon closes _).bind fun span ending last rest ends => ?_
  refine .pure ⟨_, ending, ?_, .mk name _ behind, ends⟩
  simp

theorem statement_succ :
    (Parse.statement (fuel + 1)).Accounts close previous ahead 4 (fuel + 1)
      fun words value => Ended (value.Delimits false) words := by
  rw [Parse.statement]
  refine .peek fun token sees => ?_
  split
  · refine ((less.binding _ _).lower (by omega)).bind fun binding words last rest ended => ?_
    obtain ⟨front, ending, rfl, writes, ends⟩ := ended
    exact .pure ⟨front, ending, List.append_nil _, .bind writes, ends⟩
  · refine (Accounts.require closes _ rfl).bind_word fun word last rest => ?_
    refine .looksAt fun semicolon => .looksAt fun brace => .atEnd fun stops => ?_
    split
    · refine (Accounts.optionalSemicolon closes _).bind fun span ending last rest ends => ?_
      exact .pure ⟨[.fixed .returnWord], ending, by simp, .leave _, ends⟩
    · refine ((less.whole _ _ _).lower (by omega)).bind fun value words last rest inner => ?_
      refine (Accounts.optionalSemicolon closes _).bind fun span ending last rest ends => ?_
      exact .pure ⟨.fixed .returnWord :: words, ending, by simp, .leaveWith _ inner, ends⟩
  · refine ((less.whole _ _ _).lower (by omega)).bind fun value words last rest inner => ?_
    refine .peek fun next sees => ?_
    split
    · exact .fail _
    · refine (Accounts.optionalSemicolon closes _).bind fun span ending last rest ends => ?_
      exact .pure ⟨words, ending, by simp, .expression _ inner, ends⟩

end Accounted

/-- Every reader accounts for its tokens, with any amount of fuel. -/
theorem accounted (closes : close.kind = .endOfInput) (fuel : Nat) : Accounted close fuel := by
  induction fuel with
  | zero =>
      constructor <;> intros <;> exact Accounts.endless (by omega)
  | succ fuel less =>
      exact {
        expression := fun floor _ _ => less.expression_succ floor
        extensions := fun floor left _ _ => less.extensions_succ floor left
        extension := fun left _ _ => less.extension_succ closes left
        expressions := fun kind _ _ => less.expressions_succ kind
        moreExpressions := fun done _ _ => less.moreExpressions_succ closes done
        operand := fun _ _ => less.operand_succ closes
        nameOrAssignment := fun _ _ => less.nameOrAssignment_succ closes
        conditional := fun _ _ => less.conditional_succ closes
        whileLoop := fun _ _ => less.whileLoop_succ closes
        forLoop := fun _ _ => less.forLoop_succ closes
        functionLiteral := fun _ _ => less.functionLiteral_succ closes
        block := fun _ _ => less.block_succ closes
        blockStatements := fun done _ _ => less.blockStatements_succ done
        binding := fun _ _ => less.binding_succ closes
        statement := fun _ _ => less.statement_succ closes }

end

end Parse

end MonkeyLang
