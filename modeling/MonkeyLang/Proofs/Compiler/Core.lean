import MonkeyLang.Proofs.Compiler.Relocation
import MonkeyLang.Proofs.Program.Core

/-!
# Programs with the same core are compiled to the same code

Where a program compiles, its core compiles too, to the same code, and leaves the same names and
constants behind (`Compiling.statements_core`, by induction on the syntax). The spans of a program
only matter for faults and warnings. A loop with a header of three parts, of which the value is not
wanted, has the code of the binding and the loop that it is unrolled to
(`Compiling.Follows.unrolled`): the code of the loop with a condition starts where that of the
binding ends, and the last part of the header is compiled behind the body either way.

So two programs with the same core that both compile have the same code, names and constants
(`Compiler.compile_of_core_eq`).
-/

set_option autoImplicit false

namespace MonkeyLang

theorem Compiler.Alike.refl (compiler : Compiler) : Compiler.Alike compiler compiler := ⟨rfl, rfl⟩

namespace Compiling

open Stateful

variable {α β : Type}

/-- Where the first part of the compiler succeeds, the second one succeeds with the same result, up
to warnings. -/
def Follows (first second : Compiling α) : Prop :=
  ∀ compiler other value next, Compiler.Alike compiler other → first compiler = .ok value next →
    ∃ last, second other = .ok value last ∧ Compiler.Alike next last

/-- Where the first part of the compiler succeeds, the second one comes to the same. -/
def Refines (first second : Compiling α) : Prop :=
  ∀ compiler value next, first compiler = .ok value next → second compiler = .ok value next

/-! ## Steps of the compiler -/

namespace Refines

variable {first second : Compiling α} {rest later : α → Compiling β}

theorem refl (work : Compiling α) : Refines work work := fun _ _ _ ran => ran

theorem bind (rests : ∀ value, Refines (rest value) (later value)) :
    Refines (first >>= rest) (first >>= later) := by
  intro compiler value next ran
  obtain ⟨one, middle, worked, rested⟩ := bind_eq_ok.mp ran
  exact bind_eq_ok.mpr ⟨one, middle, worked, rests one middle value next rested⟩

/-- What is done with a result that the second one computes at once. -/
theorem behind {change : α → α}
    (comes : Refines (first >>= fun value => pure (change value)) second)
    (rests : ∀ value, Refines (rest value) (later (change value))) :
    Refines (first >>= rest) (second >>= later) := by
  intro compiler value next ran
  obtain ⟨one, middle, worked, rested⟩ := bind_eq_ok.mp ran
  refine bind_eq_ok.mpr ⟨change one, middle, ?_, rests one middle value next rested⟩
  exact comes compiler _ middle (bind_eq_ok.mpr ⟨one, middle, worked, rfl⟩)

/-- Which place a fault would name does not matter. -/
theorem requireTarget {target goal : Nat} {span other : Span} {value result : α}
    (same : goal = target) (results : result = value) :
    Refines (requireTarget target span >>= fun _ => pure value)
      (Compiling.requireTarget goal other >>= fun _ => pure result) := by
  subst same results
  intro compiler value next ran
  obtain ⟨_, middle, fits, rested⟩ := bind_eq_ok.mp ran
  exact bind_eq_ok.mpr ⟨(), middle, requireTarget_eq_ok.mpr (requireTarget_eq_ok.mp fits), rested⟩

end Refines

namespace Follows

variable {first second third : Compiling α} {rest later : α → Compiling β}

theorem pure (value : α) : Follows (Pure.pure value) (Pure.pure value) := by
  rintro compiler other _ _ alike ⟨⟩
  exact ⟨other, rfl, alike⟩

theorem throw {fault : CompileFault} : Follows (MonadExcept.throw fault) second :=
  fun _ _ _ _ _ ran => absurd ran throw_ne_ok

theorem bind (follows : Follows first second)
    (rests : ∀ value, Follows (rest value) (later value)) :
    Follows (first >>= rest) (second >>= later) := by
  intro compiler other value next alike ran
  obtain ⟨one, middle, worked, rested⟩ := bind_eq_ok.mp ran
  obtain ⟨between, working, still⟩ := follows compiler other one middle alike worked
  obtain ⟨last, resting, ends⟩ := rests one middle between value next still rested
  exact ⟨last, bind_eq_ok.mpr ⟨one, between, working, resting⟩, ends⟩

theorem refines (follows : Follows first second) (comes : Refines second third) :
    Follows first third := by
  intro compiler other value next alike ran
  obtain ⟨last, working, still⟩ := follows compiler other value next alike ran
  exact ⟨last, comes other value last working, still⟩

theorem require {holds : Bool} {limit : Limit} {span other : Span} :
    Follows (require holds limit span) (Compiling.require holds limit other) := by
  cases holds with
  | true => exact pure ()
  | false => exact throw

theorem requireTarget {target : Nat} {span other : Span} :
    Follows (requireTarget target span) (Compiling.requireTarget target other) :=
  require

theorem resolve (name : Name) : Follows (resolve name) (Compiling.resolve name.withoutSpan) := by
  intro compiler other symbol next alike ran
  obtain ⟨found, own, rfl⟩ := resolve_eq_ok.mp ran
  rw [← alike.scope] at found own
  exact ⟨other, resolve_eq_ok.mpr ⟨found, own, rfl⟩, alike⟩

theorem define (name : Name) : Follows (define name) (Compiling.define name.withoutSpan) := by
  intro compiler other symbol next alike ran
  obtain ⟨rfl, scope, constants, few⟩ := define_eq_ok ran
  obtain ⟨warnings, also⟩ := define_cases name.withoutSpan other
  have same : other.scope.define name.withoutSpan.text = compiler.scope.define name.text := by
    rw [alike.scope]
    rfl
  rw [same, if_pos few] at also
  exact ⟨_, also, scope.symm, alike.constants.trans constants.symm⟩

theorem store (name : Name) (symbol : Symbol) :
    Follows (store name symbol) (Compiling.store name.withoutSpan symbol) := by
  unfold Compiling.store
  cases symbol.storage with
  | global => exact pure _
  | frame => exact pure _
  | builtin => exact throw

theorem constant (value : Value) {span other : Span} :
    Follows (constant value span) (Compiling.constant value other) := by
  intro compiler others code next alike ran
  obtain ⟨few, rfl, rfl⟩ := constant_eq_ok.mp ran
  rw [← alike.constants] at few ⊢
  exact ⟨_, constant_eq_ok.mpr ⟨few, rfl, rfl⟩, alike.scope, rfl⟩

theorem literal (value : Literal) {span other : Span} :
    Follows (literal value span) (Compiling.literal value other) := by
  cases value with
  | integer value => exact constant _
  | float value => exact constant _
  | string value => exact constant _
  | boolean value => cases value <;> exact pure _

theorem inFunction (follows : Follows first second) :
    Follows (inFunction first) (Compiling.inFunction second) := by
  rintro compiler other ⟨value, locals⟩ next alike ran
  obtain ⟨inner, worked, rfl, rfl⟩ := inFunction_eq_ok.mp ran
  have entered : Compiler.Alike { compiler with scope := compiler.scope.enter }
      { other with scope := other.scope.enter } :=
    ⟨congrArg Scope.enter alike.scope, alike.constants⟩
  obtain ⟨inside, working, still⟩ := follows _ _ _ _ entered worked
  exact ⟨_, inFunction_eq_ok.mpr ⟨inside, working, by rw [still.scope], rfl⟩, alike.scope,
    still.constants⟩

theorem parameters (names : List Name) :
    Follows (names.forM fun name => discard (Compiling.define name))
      ((names.map Name.withoutSpan).forM fun name => discard (Compiling.define name)) := by
  induction names with
  | nil => exact pure _
  | cons name names ih =>
      have one : Follows (discard (Compiling.define name))
          (discard (Compiling.define name.withoutSpan)) := (define name).bind fun _ => pure _
      exact one.bind fun _ => ih

theorem functionConstant (name : Option String) (parameters : List Name) {span other : Span}
    (body : Fragment) (locals : Nat) :
    Follows (functionConstant name parameters span body locals)
      (Compiling.functionConstant name (parameters.map Name.withoutSpan) other body locals) := by
  intro compiler others code next alike ran
  obtain ⟨_, _, got, added⟩ := bind_eq_ok.mp ran
  obtain ⟨rfl, rfl⟩ := get_eq_ok.mp got
  obtain ⟨last, adding, still⟩ := constant _ _ others code next alike added
  refine ⟨last, bind_eq_ok.mpr ⟨others, others, get_eq_ok.mpr ⟨rfl, rfl⟩, ?_⟩, still⟩
  rwa [alike.constants, List.length_map]

end Follows

/-! ## Statements one behind the other -/

open Fragment

/-- The statements in front of others stand one behind the other, each without a value. -/
theorem statements_append (ending : Ending) (first : List Statement) {second : List Statement}
    (some : second ≠ []) (start : Nat) (before : Fragment) :
    statements ending (first ++ second) start before =
      statements .discard first start before >>= statements ending second start := by
  induction first generalizing before with
  | nil => simp only [List.nil_append, statements, Ending.behindOther, emitAll_nil, pure_bind]
  | cons statement rest ih =>
      have more : rest ++ second ≠ [] := List.append_ne_nil_of_right_ne_nil rest some
      obtain ⟨next, others, is⟩ := List.exists_cons_of_ne_nil more
      rw [statements_discard_cons, bind_assoc, List.cons_append]
      simp only [← ih]
      rw [is]
      simp only [statements]

/-- A loop with a header of three parts, as a statement, has the code of what it is unrolled to. -/
theorem Refines.unrolled (ending : Ending) : ∀ (value : Expression) (start : Nat)
    (before : Fragment),
    Refines
      (expression value (start + before.size) >>= fun code =>
        Pure.pure ((before ++ code).emitAll ending.behindExpression))
      (statements ending value.unrolled start before)
  | .forLoop bound condition post (.mk body bodySpan) span, start, before => by
      simp only [Expression.unrolled, statements, statement, expression, block, bind_assoc,
        pure_bind, size_append, ← Nat.add_assoc]
      refine Refines.bind fun preparation => Refines.bind fun test => ?_
      simp only [statements_append .discard body post.unrolled_ne_nil, bind_assoc]
      refine Refines.bind fun pass => ?_
      refine (unrolled .discard post _ pass).behind fun step => ?_
      have popped : (pass ++ step).emitAll Ending.discard.behindExpression =
          pass ++ step.emit .pop [] := append_push pass step _
      rw [popped]
      refine .requireTarget ?_ ?_
      · simp only [size_append, ← Nat.add_assoc]
      · simp only [emit_eq_push, size_append, append_push, append_assoc, ← Nat.add_assoc]
  | .literal .., start, before => .refl _
  | .name .., start, before => .refl _
  | .unary .., start, before => .refl _
  | .binary .., start, before => .refl _
  | .conditional .., start, before => .refl _
  | .whileLoop .., start, before => .refl _
  | .function .., start, before => .refl _
  | .call .., start, before => .refl _
  | .array .., start, before => .refl _
  | .index .., start, before => .refl _
  | .assign .., start, before => .refl _

/-! ## The parts of a program -/

mutual

theorem expression_core : ∀ (syntaxTree : Expression) (start : Nat),
    Follows (expression syntaxTree start) (expression syntaxTree.core start)
  | .literal value span, start => by
      simp only [expression, Expression.core]
      exact .literal value
  | .name identifier, start => by
      simp only [expression, Expression.core]
      exact (Follows.resolve identifier).bind fun _ => .pure _
  | .unary operator operand span, start => by
      simp only [expression, Expression.core]
      exact (expression_core operand start).bind fun _ => .pure _
  | .binary operator left right span, start => by
      simp only [expression, Expression.core]
      split
      · exact (expression_core right start).bind fun _ =>
          (expression_core left _).bind fun _ => .pure _
      · exact (expression_core left start).bind fun _ =>
          (expression_core right _).bind fun _ => .pure _
  | .conditional condition consequence none span, start => by
      simp only [expression, Expression.core]
      refine (expression_core condition start).bind fun _ => ?_
      refine (block_core .keep consequence _).bind fun _ => ?_
      exact Follows.requireTarget.bind fun _ => (Follows.pure _).bind fun _ =>
        Follows.requireTarget.bind fun _ => .pure _
  | .conditional condition consequence (some alternative) span, start => by
      simp only [expression, Expression.core]
      refine (expression_core condition start).bind fun _ => ?_
      refine (block_core .keep consequence _).bind fun _ => ?_
      refine Follows.requireTarget.bind fun _ => ?_
      refine (block_core .keep alternative _).bind fun _ => ?_
      exact Follows.requireTarget.bind fun _ => .pure _
  | .whileLoop condition body span, start => by
      simp only [expression, Expression.core]
      refine (expression_core condition start).bind fun _ => ?_
      refine (block_core .discard body _).bind fun _ => ?_
      exact Follows.requireTarget.bind fun _ => .pure _
  | .forLoop bound condition post body span, start => by
      simp only [expression, Expression.core]
      refine (binding_core bound start).bind fun _ => ?_
      refine (expression_core condition _).bind fun _ => ?_
      refine (block_core .discard body _).bind fun _ => ?_
      refine (expression_core post _).bind fun _ => ?_
      exact Follows.requireTarget.bind fun _ => .pure _
  | .function parameters body span, start => by
      simp only [expression, Expression.core]
      exact function_core none parameters span .dummy body
  | .call callee arguments span, start => by
      simp only [expression, Expression.core, Expression.listCore_eq_map, List.length_map]
      refine Follows.require.bind fun _ => ?_
      refine (expression_core callee start).bind fun _ => ?_
      exact (expressions_core arguments start _).bind fun _ => .pure _
  | .array elements span, start => by
      simp only [expression, Expression.core, Expression.listCore_eq_map, List.length_map]
      refine Follows.require.bind fun _ => ?_
      exact (expressions_core elements start .empty).bind fun _ => .pure _
  | .index target index span, start => by
      simp only [expression, Expression.core]
      exact (expression_core target start).bind fun _ =>
        (expression_core index _).bind fun _ => .pure _
  | .assign target value span, start => by
      simp only [expression, Expression.core]
      refine (Follows.resolve target).bind fun symbol => ?_
      refine (expression_core value start).bind fun _ => ?_
      exact (Follows.store target symbol).bind fun _ => .pure _

theorem expressions_core : ∀ (items : List Expression) (start : Nat) (before : Fragment),
    Follows (expressions items start before) (expressions (items.map Expression.core) start before)
  | [], start, before => .pure before
  | item :: items, start, before => by
      simp only [expressions, List.map_cons]
      exact (expression_core item _).bind fun _ => expressions_core items start _

theorem function_core (name : Option String) (parameters : List Name) (span other : Span) :
    ∀ body : Block, Follows (function name parameters span body)
      (function name (parameters.map Name.withoutSpan) other body.core)
  | .mk body bodySpan => by
      simp only [function, Block.core]
      refine (Follows.inFunction ?_).bind fun inner => .functionConstant name parameters _ _
      exact (Follows.parameters parameters).bind fun _ => statements_core .leave body 0 .empty

theorem binding_core : ∀ (bound : Binding) (start : Nat),
    Follows (binding bound start) (binding bound.core start)
  | .mk name value span, start => by
      have plain : Follows
          (expression value start >>= fun code => define name >>= fun symbol =>
            store name symbol >>= fun instruction => Pure.pure (code.push instruction))
          (expression value.core start >>= fun code => define name.withoutSpan >>= fun symbol =>
            store name.withoutSpan symbol >>= fun instruction =>
              Pure.pure (code.push instruction)) :=
        (expression_core value start).bind fun _ => (Follows.define name).bind fun symbol =>
          (Follows.store name symbol).bind fun _ => .pure _
      cases value with
      | function parameters body literalSpan =>
          simp only [binding, Binding.core, Expression.core]
          refine (Follows.define name).bind fun symbol => ?_
          refine (function_core _ parameters literalSpan .dummy body).bind fun _ => ?_
          exact (Follows.store name symbol).bind fun _ => .pure _
      | conditional condition consequence alternative span =>
          cases alternative <;> exact plain
      | _ => exact plain

theorem block_core (ending : Ending) : ∀ (body : Block) (start : Nat),
    Follows (block ending body start) (block ending body.core start)
  | .mk body _, start => statements_core ending body start .empty

theorem departure_core : ∀ (value : Option Expression) (span : Span) (start : Nat),
    Follows (departure value span start) (departure (value.map Expression.core) .dummy start)
  | none, span, start => by
      intro compiler other code next alike ran
      obtain ⟨inside, rfl, rfl⟩ := departure_none_eq_ok.mp ran
      rw [← alike.scope] at inside
      exact ⟨other, departure_none_eq_ok.mpr ⟨inside, rfl, rfl⟩, alike⟩
  | some value, span, start => by
      intro compiler other code next alike ran
      obtain ⟨inside, inner, runs, rfl⟩ := departure_some_eq_ok.mp ran
      obtain ⟨last, running, still⟩ :=
        expression_core value start compiler other inner next alike runs
      rw [← alike.scope] at inside
      exact ⟨last, departure_some_eq_ok.mpr ⟨inside, inner, running, rfl⟩, still⟩

theorem statement_core : ∀ (first : Statement) (start : Nat) (before : Fragment),
    Follows (statement first (start + before.size) >>= fun code => Pure.pure (before ++ code))
      (statements .discard first.core start before)
  | .bind bound, start, before => by
      simp only [statement, statements, Statement.core, Ending.behindOther, emitAll_nil]
      exact (binding_core bound _).bind fun _ => .pure _
  | .leave none span, start, before => by
      simp only [statement, statements, Statement.core, Ending.behindLeave, emitAll_nil]
      exact (departure_core none span _).bind fun _ => .pure _
  | .leave (some value) span, start, before => by
      simp only [statement, statements, Statement.core, Ending.behindLeave, emitAll_nil]
      exact (departure_core (some value) span _).bind fun _ => .pure _
  | .expression value span, start, before => by
      simp only [statement, Statement.core, bind_assoc, pure_bind]
      refine Follows.refines ?_ (.unrolled .discard value.core start before)
      refine (expression_core value _).bind fun code => ?_
      have popped : (before ++ code).emitAll Ending.discard.behindExpression =
          before ++ code.emit .pop [] := append_push before code _
      rw [popped]
      exact .pure _

theorem statements_core (ending : Ending) : ∀ (body : List Statement) (start : Nat)
    (before : Fragment),
    Follows (statements ending body start before)
      (statements ending (Statement.listCore body) start before)
  | [], start, before => .pure _
  | [.expression value span], start, before => by
      simp only [statements, Statement.listCore, Statement.core, List.append_nil]
      refine Follows.refines ?_ (.unrolled ending value.core start before)
      exact (expression_core value _).bind fun _ => .pure _
  | [.leave none span], start, before => by
      simp only [statements, Statement.listCore, Statement.core, List.append_nil]
      exact (departure_core none span _).bind fun _ => .pure _
  | [.leave (some value) span], start, before => by
      simp only [statements, Statement.listCore, Statement.core, List.append_nil]
      exact (departure_core (some value) span _).bind fun _ => .pure _
  | [.bind bound], start, before => by
      simp only [statements, statement, Statement.listCore, Statement.core, List.append_nil]
      exact (binding_core bound _).bind fun _ => .pure _
  | first :: second :: rest, start, before => by
      have some : Statement.listCore (second :: rest) ≠ [] :=
        Statement.listCore_ne_nil (List.cons_ne_nil second rest)
      rw [Statement.listCore, statements_append ending _ some]
      have split : statements ending (first :: second :: rest) start before =
          (statement first (start + before.size) >>= fun code => Pure.pure (before ++ code)) >>=
            statements ending (second :: rest) start := by
        simp only [statements, bind_assoc, pure_bind]
      rw [split]
      exact (statement_core first start before).bind fun _ =>
        statements_core ending (second :: rest) start _

end

end Compiling

namespace Compiler

variable {compiler next last : Compiler} {first second : Program}
  {compiled other : CompiledProgram}

/-- Where a program compiles, its core compiles to the same code. -/
theorem compile_core (ran : compiler.compile first = (.ok compiled, next)) :
    ∃ last, compiler.compile first.core = (.ok compiled, last) ∧ Alike next last := by
  obtain ⟨code, worked, rfl⟩ := compile_eq_ok.mp ran
  obtain ⟨last, running, still⟩ := Compiling.statements_core .discard first.statements 0 .empty
    compiler compiler code next (.refl compiler) worked
  exact ⟨last, compile_eq_ok.mpr ⟨code, running, by rw [still.constants]⟩, still⟩

/-- Two programs with the same core have the same code, names and constants if both compile. -/
theorem compile_of_core_eq (same : first.core = second.core)
    (ran : compiler.compile first = (.ok compiled, next))
    (running : compiler.compile second = (.ok other, last)) :
    compiled = other ∧ next.scope = last.scope ∧ next.constants = last.constants := by
  obtain ⟨one, first_ran, alike⟩ := compile_core ran
  obtain ⟨two, second_ran, alike'⟩ := compile_core running
  rw [same, second_ran] at first_ran
  obtain ⟨rfl, rfl⟩ : other = compiled ∧ two = one := by simpa using first_ran
  exact ⟨rfl, alike.scope.symm.trans alike'.scope, alike.constants.symm.trans alike'.constants⟩

end Compiler

end MonkeyLang
