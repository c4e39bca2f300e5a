import MonkeyLang.Proofs.Compiler.Runs
import MonkeyLang.Proofs.Bytecode.Placement

/-!
# Code at another place

Code is generated for the offset at which it will stand, but the offset only shows in the targets
of jumps. The same part of a program, compiled at two places from the same names and constants,
has code of the same size and leaves the same names and constants behind
(`Compiling.expression_moves` and its companions). Functions start at offset zero wherever they
are written, so their code is the same.
-/

set_option autoImplicit false

namespace MonkeyLang

/-- Two compilers that differ in their warnings only. -/
structure Compiler.Alike (first second : Compiler) : Prop where
  scope : second.scope = first.scope
  constants : second.constants = first.constants

/-- The same code for two places. -/
structure Fragment.Moved (start other : Nat) (code moved : Fragment) : Prop where
  size : moved.size = code.size
  same : start = other → moved = code

namespace Fragment

variable {start other : Nat} {code moved : Fragment}

theorem Moved.refl (code : Fragment) : Moved start other code code := ⟨rfl, fun _ => rfl⟩

theorem Moved.append {behind later : Nat} {rest remaining : Fragment}
    (first : Moved start other code moved) (second : Moved behind later rest remaining)
    (stands : behind = start + code.size) (standing : later = other + moved.size) :
    Moved start other (code ++ rest) (moved ++ remaining) where
  size := by rw [size_append, size_append, first.size, second.size]
  same := by
    intro place
    rw [first.same place, second.same (by rw [stands, standing, place, first.size])]

/-- An instruction behind the code, the same at the same place. -/
theorem Moved.push {instruction shifted : Instruction} (first : Moved start other code moved)
    (size : shifted.size = instruction.size) (same : start = other → shifted = instruction) :
    Moved start other (code.push instruction) (moved.push shifted) where
  size := by rw [size_push, size_push, first.size, size]
  same := by
    intro place
    rw [first.same place, same place]

theorem Moved.emit (first : Moved start other code moved) (opcode : Opcode)
    (operands : List Nat) :
    Moved start other (code.emit opcode operands) (moved.emit opcode operands) :=
  first.push rfl fun _ => rfl

theorem Moved.emitAll (first : Moved start other code moved) (opcodes : List Opcode) :
    Moved start other (code.emitAll opcodes) (moved.emitAll opcodes) := by
  induction opcodes generalizing code moved with
  | nil => exact first
  | cons opcode opcodes ih => exact ih (first.emit opcode [])

/-- A jump behind the code, whose target moves with the code. -/
theorem Moved.jump {opcode : Opcode} {target goal : Nat} (first : Moved start other code moved)
    (same : start = other → goal = target) :
    Moved start other (code.emit opcode [target]) (moved.emit opcode [goal]) :=
  first.push rfl fun place => by rw [same place]

/-- A test with a part behind it that is jumped over if the test fails. -/
theorem Moved.guarded {pass passed : Fragment} {target goal : Nat}
    (first : Moved start other code moved)
    (second : Moved (start + code.size + Compiling.jumpSize)
      (other + moved.size + Compiling.jumpSize) pass passed)
    (same : start = other → goal = target) :
    Moved start other (code.emit .jumpNotTruthy [target] ++ pass)
      (moved.emit .jumpNotTruthy [goal] ++ passed) :=
  (first.jump same).append second (Nat.add_assoc _ _ _) (Nat.add_assoc _ _ _)

/-- A test that decides between two parts. -/
theorem Moved.conditional {chosen picked rest remaining : Fragment}
    (first : Moved start other code moved)
    (second : Moved (start + code.size + Compiling.jumpSize)
      (other + moved.size + Compiling.jumpSize) chosen picked)
    (third : Moved (start + code.size + Compiling.jumpSize + chosen.size + Compiling.jumpSize)
      (other + moved.size + Compiling.jumpSize + picked.size + Compiling.jumpSize) rest remaining) :
    Moved start other
      ((code.emit .jumpNotTruthy
          [start + code.size + Compiling.jumpSize + chosen.size + Compiling.jumpSize] ++ chosen).emit
        .jump [start + code.size + Compiling.jumpSize + chosen.size + Compiling.jumpSize +
          rest.size] ++ rest)
      ((moved.emit .jumpNotTruthy
          [other + moved.size + Compiling.jumpSize + picked.size + Compiling.jumpSize] ++
          picked).emit
        .jump [other + moved.size + Compiling.jumpSize + picked.size + Compiling.jumpSize +
          remaining.size] ++ remaining) := by
  have branches := first.guarded second fun place => by
    show other + moved.size + Compiling.jumpSize + picked.size + Compiling.jumpSize =
      start + code.size + Compiling.jumpSize + chosen.size + Compiling.jumpSize
    rw [first.size, second.size, place]
  refine (branches.jump fun place => ?_).append third ?_ ?_
  · rw [first.size, second.size, third.size, place]
  · simp only [emit_eq_push, size_append, size_push, ← Nat.add_assoc]
    rfl
  · simp only [emit_eq_push, size_append, size_push, ← Nat.add_assoc]
    rfl

/-- What was put behind two fragments is the same code for two places. -/
def Extended (start other : Nat) (before earlier code moved : Fragment) : Prop :=
  ∃ rest remaining, code = before ++ rest ∧ moved = earlier ++ remaining ∧
    Moved (start + before.size) (other + earlier.size) rest remaining

theorem extended_refl (start other : Nat) (before earlier : Fragment) :
    Extended start other before earlier before earlier :=
  ⟨.empty, .empty, (append_empty before).symm, (append_empty earlier).symm, .refl _⟩

theorem Extended.emitAll {before earlier : Fragment}
    (extended : Extended start other before earlier code moved) (opcodes : List Opcode) :
    Extended start other before earlier (code.emitAll opcodes) (moved.emitAll opcodes) := by
  obtain ⟨rest, remaining, rfl, rfl, same⟩ := extended
  exact ⟨_, _, emitAll_append before rest opcodes, emitAll_append earlier remaining opcodes,
    same.emitAll opcodes⟩

/-- What is put behind code that was put behind others. -/
theorem Moved.extended {before earlier rest remaining : Fragment}
    (first : Moved (start + before.size) (other + earlier.size) code moved)
    (extended : Extended start other (before ++ code) (earlier ++ moved) rest remaining) :
    Extended start other before earlier rest remaining := by
  obtain ⟨rest, remaining, rfl, rfl, second⟩ := extended
  refine ⟨code ++ rest, moved ++ remaining, append_assoc _ _ _, append_assoc _ _ _, ?_⟩
  exact first.append second (by rw [size_append, Nat.add_assoc])
    (by rw [size_append, Nat.add_assoc])

end Fragment

/-- Two parts of the compiler that do the same up to the place of the code, if both succeed. -/
def Compiling.Moves {α : Type} (related : α → α → Prop) (left right : Compiling α) : Prop :=
  ∀ first second value other next last, Compiler.Alike first second →
    left first = .ok value next → right second = .ok other last →
    related value other ∧ Compiler.Alike next last

namespace Compiling

open Stateful

/-! ## Steps of the compiler -/

namespace Moves

variable {α β : Type} {related : α → α → Prop} {linked : β → β → Prop}

theorem pure {value other : α} (holds : related value other) :
    Moves related (pure value) (pure other) := by
  rintro first second _ _ _ _ alike ⟨⟩ ⟨⟩
  exact ⟨holds, alike⟩

theorem throw {fault : CompileFault} {right : Compiling α} :
    Moves related (MonadExcept.throw fault) right :=
  fun _ _ _ _ _ _ _ ran => absurd ran throw_ne_ok

theorem bind {left right : Compiling α} {rest later : α → Compiling β}
    (moves : Moves related left right)
    (rests : ∀ value other, related value other → Moves linked (rest value) (later other)) :
    Moves linked (left >>= rest) (right >>= later) := by
  intro first second value other next last alike ran moved
  obtain ⟨one, middle, worked, rested⟩ := bind_eq_ok.mp ran
  obtain ⟨two, between, working, resting⟩ := bind_eq_ok.mp moved
  obtain ⟨holds, still⟩ := moves first second one two middle between alike worked working
  exact rests one two holds middle between value other next last still rested resting

theorem weaken {left right : Compiling α} {relaxed : α → α → Prop}
    (moves : Moves related left right) (implies : ∀ value other, related value other → relaxed value other) :
    Moves relaxed left right := by
  intro first second value other next last alike ran moved
  obtain ⟨holds, still⟩ := moves first second value other next last alike ran moved
  exact ⟨implies value other holds, still⟩

theorem require {holds also : Bool} {limit : Limit} {span : Span} :
    Moves (fun _ _ => True) (require holds limit span) (require also limit span) := by
  intro first second _ _ next last alike ran moved
  obtain ⟨-, rfl⟩ := require_eq_ok.mp ran
  obtain ⟨-, rfl⟩ := require_eq_ok.mp moved
  exact ⟨trivial, alike⟩

theorem requireTarget {target other : Nat} {span : Span} :
    Moves (fun _ _ => True) (requireTarget target span) (requireTarget other span) :=
  require

theorem resolve (name : Name) : Moves (· = ·) (resolve name) (resolve name) := by
  intro first second symbol other next last alike ran moved
  obtain ⟨found, -, rfl⟩ := resolve_eq_ok.mp ran
  obtain ⟨also, -, rfl⟩ := resolve_eq_ok.mp moved
  rw [alike.scope, found] at also
  exact ⟨Option.some.inj also, alike⟩

theorem define (name : Name) : Moves (· = ·) (define name) (define name) := by
  intro first second symbol other next last alike ran moved
  obtain ⟨rfl, scope, constants, -⟩ := define_eq_ok ran
  obtain ⟨rfl, scope', constants', -⟩ := define_eq_ok moved
  rw [alike.scope] at scope' ⊢
  exact ⟨rfl, scope'.trans scope.symm, constants'.trans (alike.constants.trans constants.symm)⟩

theorem store (name : Name) (symbol : Symbol) :
    Moves (· = ·) (store name symbol) (store name symbol) := by
  unfold Compiling.store
  cases symbol.storage with
  | global => exact pure rfl
  | frame => exact pure rfl
  | builtin => exact throw

theorem constant (value : Value) (span : Span) :
    Moves (· = ·) (constant value span) (constant value span) := by
  intro first second code other next last alike ran moved
  obtain ⟨-, rfl, rfl⟩ := constant_eq_ok.mp ran
  obtain ⟨-, rfl, rfl⟩ := constant_eq_ok.mp moved
  rw [alike.constants]
  exact ⟨rfl, alike.scope, rfl⟩

theorem literal (value : Literal) (span : Span) :
    Moves (· = ·) (literal value span) (literal value span) := by
  cases value with
  | integer value => exact constant _ span
  | float value => exact constant _ span
  | string value => exact constant _ span
  | boolean value => cases value <;> exact pure rfl

theorem inFunction {work : Compiling α} (moves : Moves (· = ·) work work) :
    Moves (· = ·) (inFunction work) (inFunction work) := by
  rintro first second ⟨value, locals⟩ ⟨other, also⟩ next last alike ran moved
  obtain ⟨inner, worked, rfl, rfl⟩ := inFunction_eq_ok.mp ran
  obtain ⟨inside, working, rfl, rfl⟩ := inFunction_eq_ok.mp moved
  have entered : Compiler.Alike { first with scope := first.scope.enter }
      { second with scope := second.scope.enter } :=
    ⟨congrArg Scope.enter alike.scope, alike.constants⟩
  obtain ⟨rfl, still⟩ := moves _ _ _ _ _ _ entered worked working
  exact ⟨by rw [still.scope], alike.scope, still.constants⟩

theorem parameters (names : List Name) :
    Moves (fun _ _ => True) (names.forM fun name => discard (Compiling.define name))
      (names.forM fun name => discard (Compiling.define name)) := by
  induction names with
  | nil => exact pure trivial
  | cons name names ih =>
      have one : Moves (fun _ _ => True) (discard (Compiling.define name))
          (discard (Compiling.define name)) := bind (define name) fun _ _ _ => pure trivial
      exact one.bind fun _ _ _ => ih

theorem functionConstant (name : Option String) (parameters : List Name) (span : Span)
    (body : Fragment) (locals : Nat) :
    Moves (· = ·) (functionConstant name parameters span body locals)
      (functionConstant name parameters span body locals) := by
  intro first second code other next last alike ran moved
  have same : second.constants.size = first.constants.size := by rw [alike.constants]
  obtain ⟨_, _, got, added⟩ := bind_eq_ok.mp ran
  obtain ⟨_, _, got', added'⟩ := bind_eq_ok.mp moved
  obtain ⟨rfl, rfl⟩ := get_eq_ok.mp got
  obtain ⟨rfl, rfl⟩ := get_eq_ok.mp got'
  rw [same] at added'
  exact constant _ span first second code other next last alike added added'

end Moves

/-! ## The parts of a program -/

open Fragment

mutual

theorem expression_moves : ∀ (syntaxTree : Expression) (start other : Nat),
    Moves (Moved start other) (expression syntaxTree start) (expression syntaxTree other)
  | .literal value span, start, other => by
      simp only [expression]
      exact (Moves.literal value span).weaken fun _ _ same => same ▸ .refl _
  | .name identifier, start, other => by
      simp only [expression]
      exact (Moves.resolve identifier).bind fun _ _ same => Moves.pure (same ▸ .refl _)
  | .unary operator operand span, start, other => by
      simp only [expression]
      exact (expression_moves operand start other).bind fun _ _ moved => Moves.pure (moved.emit _ _)
  | .binary operator left right span, start, other => by
      simp only [expression]
      split
      · refine (expression_moves right start other).bind fun first _ moved => ?_
        refine (expression_moves left _ _).bind fun second _ rest => Moves.pure ?_
        exact (moved.append rest rfl rfl).emitAll _
      · refine (expression_moves left start other).bind fun first _ moved => ?_
        refine (expression_moves right _ _).bind fun second _ rest => Moves.pure ?_
        exact (moved.append rest rfl rfl).emitAll _
  | .conditional condition consequence none span, start, other => by
      simp only [expression]
      refine (expression_moves condition start other).bind fun test tested first => ?_
      refine (block_moves .keep consequence _ _).bind fun chosen picked second => ?_
      refine Moves.requireTarget.bind fun _ _ _ => ?_
      have null : Moves (· = ·) (Pure.pure (single .null [])) (Pure.pure (single .null [])) :=
        Moves.pure rfl
      refine null.bind fun rest _ same => ?_
      subst same
      refine Moves.requireTarget.bind fun _ _ _ => Moves.pure ?_
      exact first.conditional second (.refl _)
  | .conditional condition consequence (some alternative) span, start, other => by
      simp only [expression]
      refine (expression_moves condition start other).bind fun test tested first => ?_
      refine (block_moves .keep consequence _ _).bind fun chosen picked second => ?_
      refine Moves.requireTarget.bind fun _ _ _ => ?_
      refine (block_moves .keep alternative _ _).bind fun rest remaining third => ?_
      refine Moves.requireTarget.bind fun _ _ _ => Moves.pure ?_
      exact first.conditional second third
  | .whileLoop condition body span, start, other => by
      simp only [expression]
      refine (expression_moves condition start other).bind fun test tested first => ?_
      refine (block_moves .discard body _ _).bind fun pass passed second => ?_
      refine Moves.requireTarget.bind fun _ _ _ => Moves.pure ?_
      refine ((first.guarded second fun place => ?_).jump fun place => ?_).emit .null []
      · rw [first.size, second.size, place]
      · exact place.symm
  | .forLoop bound condition post body span, start, other => by
      simp only [expression]
      refine (binding_moves bound start other).bind fun preparation prepared first => ?_
      refine (expression_moves condition _ _).bind fun test tested second => ?_
      refine (block_moves .discard body _ _).bind fun pass passed third => ?_
      refine (expression_moves post _ _).bind fun step stepped fourth => ?_
      refine Moves.requireTarget.bind fun _ _ _ => Moves.pure ?_
      refine ((first.append ((second.guarded third fun place => ?_).append
        (fourth.emit .pop []) ?_ ?_) rfl rfl).jump fun place => ?_).emit .null []
      · rw [(fourth.emit .pop []).size, third.size, second.size, place]
      · simp only [emit_eq_push, size_append, size_push, ← Nat.add_assoc]
        rfl
      · simp only [emit_eq_push, size_append, size_push, ← Nat.add_assoc]
        rfl
      · rw [first.size, place]
  | .function parameters body span, start, other => by
      simp only [expression]
      exact (function_moves none parameters span body).weaken fun _ _ same => same ▸ .refl _
  | .call callee arguments span, start, other => by
      simp only [expression]
      refine Moves.require.bind fun _ _ _ => ?_
      refine (expression_moves callee start other).bind fun first moved same => ?_
      refine (expressions_moves arguments start other first moved).bind fun code _ extended => ?_
      obtain ⟨rest, remaining, rfl, rfl, later⟩ := extended
      exact Moves.pure ((same.append later rfl rfl).emit _ _)
  | .array elements span, start, other => by
      simp only [expression]
      refine Moves.require.bind fun _ _ _ => ?_
      refine (expressions_moves elements start other .empty .empty).bind fun code _ extended => ?_
      obtain ⟨rest, remaining, rfl, rfl, later⟩ := extended
      exact Moves.pure (((Moved.refl .empty).append later rfl rfl).emit _ _)
  | .index target index span, start, other => by
      simp only [expression]
      refine (expression_moves target start other).bind fun first _ moved => ?_
      refine (expression_moves index _ _).bind fun second _ rest => Moves.pure ?_
      exact (moved.append rest rfl rfl).emit _ _
  | .assign target value span, start, other => by
      simp only [expression]
      refine (Moves.resolve target).bind fun symbol _ same => ?_
      subst same
      refine (expression_moves value start other).bind fun code _ moved => ?_
      refine (Moves.store target symbol).bind fun instruction _ same => Moves.pure ?_
      subst same
      exact (moved.push rfl fun _ => rfl).push rfl fun _ => rfl

theorem expressions_moves : ∀ (items : List Expression) (start other : Nat)
    (before earlier : Fragment),
    Moves (Extended start other before earlier) (expressions items start before)
      (expressions items other earlier)
  | [], start, other, before, earlier => by
      simp only [expressions]
      exact Moves.pure (extended_refl start other before earlier)
  | item :: items, start, other, before, earlier => by
      simp only [expressions]
      refine (expression_moves item _ _).bind fun code _ moved => ?_
      exact (expressions_moves items start other _ _).weaken fun _ _ => moved.extended

theorem function_moves (name : Option String) (parameters : List Name) (span : Span) :
    ∀ body : Block, Moves (· = ·) (function name parameters span body)
      (function name parameters span body)
  | .mk body bodySpan => by
      simp only [function]
      have inside : Moves (· = ·)
          (do
            parameters.forM fun parameter => discard (define parameter)
            statements .leave body 0 .empty)
          (do
            parameters.forM fun parameter => discard (define parameter)
            statements .leave body 0 .empty) := by
        refine (Moves.parameters parameters).bind fun _ _ _ => ?_
        refine (statements_moves .leave body 0 0 .empty .empty).weaken fun _ _ extended => ?_
        obtain ⟨rest, remaining, rfl, rfl, moved⟩ := extended
        rw [moved.same rfl]
      refine (Moves.inFunction inside).bind fun _ _ same => ?_
      subst same
      exact Moves.functionConstant name parameters span _ _

theorem binding_moves : ∀ (bound : Binding) (start other : Nat),
    Moves (Moved start other) (binding bound start) (binding bound other)
  | .mk name value span, start, other => by
      cases value with
      | function parameters body literalSpan =>
          simp only [binding]
          refine (Moves.define name).bind fun symbol _ same => ?_
          subst same
          refine (function_moves _ parameters literalSpan body).bind fun code _ same => ?_
          subst same
          refine (Moves.store name symbol).bind fun instruction _ same => Moves.pure ?_
          subst same
          exact .refl _
      | _ =>
          simp only [binding]
          refine (expression_moves _ start other).bind fun code _ moved => ?_
          refine (Moves.define name).bind fun symbol _ same => ?_
          subst same
          refine (Moves.store name symbol).bind fun instruction _ same => Moves.pure ?_
          subst same
          exact moved.push rfl fun _ => rfl

theorem block_moves (ending : Ending) : ∀ (body : Block) (start other : Nat),
    Moves (Moved start other) (block ending body start) (block ending body other)
  | .mk body span, start, other => by
      simp only [block]
      refine (statements_moves ending body start other .empty .empty).weaken fun _ _ extended => ?_
      obtain ⟨rest, remaining, rfl, rfl, moved⟩ := extended
      exact (Moved.refl .empty).append moved rfl rfl

theorem statement_moves : ∀ (first : Statement) (start other : Nat),
    Moves (Moved start other) (statement first start) (statement first other)
  | .bind bound, start, other => by
      simp only [statement]
      exact binding_moves bound start other
  | .leave value span, start, other => by
      simp only [statement]
      exact departure_moves value span start other
  | .expression value span, start, other => by
      simp only [statement]
      exact (expression_moves value start other).bind fun _ _ moved => Moves.pure (moved.emit _ _)

theorem departure_moves : ∀ (value : Option Expression) (span : Span) (start other : Nat),
    Moves (Moved start other) (departure value span start) (departure value span other)
  | none, span, start, other => by
      intro first second code moved next last alike ran moving
      obtain ⟨-, rfl, rfl⟩ := departure_none_eq_ok.mp ran
      obtain ⟨-, rfl, rfl⟩ := departure_none_eq_ok.mp moving
      exact ⟨.refl _, alike⟩
  | some value, span, start, other => by
      intro first second code moved next last alike ran moving
      obtain ⟨-, inner, innerRan, rfl⟩ := departure_some_eq_ok.mp ran
      obtain ⟨-, inside, innerMoved, rfl⟩ := departure_some_eq_ok.mp moving
      obtain ⟨same, still⟩ := expression_moves value start other first second inner inside next last
        alike innerRan innerMoved
      exact ⟨same.emit _ _, still⟩

theorem statements_moves (ending : Ending) : ∀ (body : List Statement) (start other : Nat)
    (before earlier : Fragment),
    Moves (Extended start other before earlier) (statements ending body start before)
      (statements ending body other earlier)
  | [], start, other, before, earlier => by
      simp only [statements]
      exact Moves.pure ((extended_refl start other before earlier).emitAll _)
  | [.expression value span], start, other, before, earlier => by
      simp only [statements]
      refine (expression_moves value _ _).bind fun code _ moved => Moves.pure ?_
      exact (moved.extended (extended_refl start other _ _)).emitAll _
  | [.leave value span], start, other, before, earlier => by
      simp only [statements]
      refine (departure_moves value span _ _).bind fun code _ moved => Moves.pure ?_
      exact (moved.extended (extended_refl start other _ _)).emitAll _
  | [.bind bound], start, other, before, earlier => by
      simp only [statements]
      refine (statement_moves (.bind bound) _ _).bind fun code _ moved => Moves.pure ?_
      exact (moved.extended (extended_refl start other _ _)).emitAll _
  | first :: second :: rest, start, other, before, earlier => by
      simp only [statements]
      refine (statement_moves first _ _).bind fun code _ moved => ?_
      exact (statements_moves ending (second :: rest) start other _ _).weaken fun _ _ =>
        moved.extended

end

/-! ## Programs one behind the other -/

/-- The statements of a program stand one behind the other, the last one like all others. -/
theorem statements_discard_cons (first : Statement) (rest : List Statement) (start : Nat)
    (before : Fragment) :
    statements .discard (first :: rest) start before =
      statement first (start + before.size) >>= fun code =>
        statements .discard rest start (before ++ code) := by
  match first, rest with
  | .expression value span, [] =>
      simp only [statements, statement, bind_assoc, pure_bind, Ending.behindExpression,
        Ending.behindOther, emitAll_cons, emitAll_nil, emit_eq_push, append_push]
  | .leave value span, [] =>
      simp only [statements, statement, Ending.behindLeave, Ending.behindOther, emitAll_nil]
  | .bind bound, [] => simp only [statements]
  | first, second :: rest => simp only [statements]

theorem statements_discard_append (first second : List Statement) (start : Nat)
    (before : Fragment) :
    statements .discard (first ++ second) start before =
      statements .discard first start before >>= statements .discard second start := by
  induction first generalizing before with
  | nil => simp only [List.nil_append, statements, Ending.behindOther, emitAll_nil, pure_bind]
  | cons statement rest ih =>
      simp only [List.cons_append, statements_discard_cons, ih, bind_assoc]

/-- A program of one statement is compiled as that statement is. -/
theorem statements_discard_singleton (only : Statement) :
    statements .discard [only] 0 .empty = statement only 0 := by
  simp only [statements_discard_cons, statements, Ending.behindOther, emitAll_nil, empty_append,
    size_empty, bind_pure]

end Compiling

end MonkeyLang
