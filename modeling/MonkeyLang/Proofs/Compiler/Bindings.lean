import MonkeyLang.Proofs.Compiler.History

/-!
# The names that a program binds

Blocks and loops have no scope of their own, so a `var` binds its name wherever it stands, except
in the body of a function. Going through a program the way the compiler does one meets the names
that it binds (`Statement.bindsAll`). A program that compiles has bound all of them, one after
another.

A program that is refused has bound those in front of its error, and they stay bound. To find them,
the walk goes on behind a part of the program only if the compiler accepts that part
(`Compiling.andThen`); so it ends with the part that is refused, inside of which it goes on in the
same way (`Statement.boundAll`). A name whose own binding is refused, because there is no slot for
it, is bound nevertheless. These are exactly the names that a compilation adds, one after another,
whether it fails or not (`Compiler.scope_compile`).
-/

set_option autoImplicit false

namespace MonkeyLang

mutual

/-- The names that an expression binds, in the order of the compiler. -/
def Expression.binds : Expression → List String
  | .literal _ _ => []
  | .name _ => []
  | .unary _ operand _ => operand.binds
  | .binary operator left right _ =>
    if operator.isSwapped then right.binds ++ left.binds else left.binds ++ right.binds
  | .conditional condition consequence none _ => condition.binds ++ consequence.binds
  | .conditional condition consequence (some alternative) _ =>
    condition.binds ++ (consequence.binds ++ alternative.binds)
  | .whileLoop condition body _ => condition.binds ++ body.binds
  | .forLoop first condition post body _ =>
    first.binds ++ (condition.binds ++ (body.binds ++ post.binds))
  | .function _ _ _ => []
  | .call callee arguments _ => callee.binds ++ Expression.bindsAll arguments
  | .array elements _ => Expression.bindsAll elements
  | .index target index _ => target.binds ++ index.binds
  | .assign _ value _ => value.binds

/-- The names that expressions bind. -/
def Expression.bindsAll : List Expression → List String
  | [] => []
  | item :: items => item.binds ++ Expression.bindsAll items

/-- The names that a binding binds; its own name is the last of them. -/
def Binding.binds : Binding → List String
  | .mk name value _ => value.binds ++ [name.text]

/-- The names that a block binds. -/
def Block.binds : Block → List String
  | .mk body _ => Statement.bindsAll body

/-- The names that a statement binds. -/
def Statement.binds : Statement → List String
  | .bind bound => bound.binds
  | .leave none _ => []
  | .leave (some value) _ => value.binds
  | .expression value _ => value.binds

/-- The names that statements bind. -/
def Statement.bindsAll : List Statement → List String
  | [] => []
  | first :: rest => first.binds ++ Statement.bindsAll rest

end

theorem Scope.defineAll_append (scope : Scope) (first second : List String) :
    scope.defineAll (first ++ second) = (scope.defineAll first).defineAll second :=
  List.foldl_append

namespace Compiling

/-- What a part of a program has bound when it is compiled, or where it is refused. -/
abbrev Bound := Compiler → List String

/-- Nothing is bound. -/
def nothing : Bound := fun _ => []

/-- What two parts have bound, one behind the other: there is no second one if the first one is
refused. -/
def andThen {α : Type} (work : Compiling α) (first : Bound) (second : α → Bound) : Bound :=
  fun compiler => first compiler ++
    match work compiler with
    | .ok value next => second value next
    | .error _ _ => []

end Compiling

open Compiling (Bound nothing andThen jumpSize require requireTarget resolve)

mutual

/-- What an expression has bound up to its end or its error. -/
def Expression.bound : Expression → Nat → Bound
  | .literal _ _, _ => nothing
  | .name _, _ => nothing
  | .unary _ operand _, start => operand.bound start
  | .binary operator left right _, start =>
    if operator.isSwapped then
      andThen (Compiling.expression right start) (right.bound start) fun code =>
        left.bound (start + code.size)
    else
      andThen (Compiling.expression left start) (left.bound start) fun code =>
        right.bound (start + code.size)
  | .conditional condition consequence none _, start =>
    andThen (Compiling.expression condition start) (condition.bound start) fun test =>
      consequence.bound (start + test.size + jumpSize)
  | .conditional condition consequence (some alternative) span, start =>
    andThen (Compiling.expression condition start) (condition.bound start) fun test =>
      andThen (Compiling.block .keep consequence (start + test.size + jumpSize))
          (consequence.bound (start + test.size + jumpSize)) fun chosen =>
        andThen (requireTarget (start + test.size + jumpSize + chosen.size + jumpSize) span)
            nothing fun _ =>
          alternative.bound (start + test.size + jumpSize + chosen.size + jumpSize)
  | .whileLoop condition body _, start =>
    andThen (Compiling.expression condition start) (condition.bound start) fun test =>
      body.bound (start + test.size + jumpSize)
  | .forLoop first condition post body _, start =>
    andThen (Compiling.binding first start) (first.bound start) fun preparation =>
      andThen (Compiling.expression condition (start + preparation.size))
          (condition.bound (start + preparation.size)) fun test =>
        andThen (Compiling.block .discard body (start + preparation.size + test.size + jumpSize))
            (body.bound (start + preparation.size + test.size + jumpSize)) fun pass =>
          post.bound (start + preparation.size + test.size + jumpSize + pass.size)
  | .function _ _ _, _ => nothing
  | .call callee arguments span, start =>
    andThen (require (arguments.length ≤ Limit.callArguments.bound) .callArguments span)
        nothing fun _ =>
      andThen (Compiling.expression callee start) (callee.bound start) fun code =>
        Expression.boundAll arguments start code
  | .array elements span, start =>
    andThen (require (elements.length ≤ Limit.arrayElements.bound) .arrayElements span)
      nothing fun _ => Expression.boundAll elements start .empty
  | .index target index _, start =>
    andThen (Compiling.expression target start) (target.bound start) fun code =>
      index.bound (start + code.size)
  | .assign target value _, start => andThen (resolve target) nothing fun _ => value.bound start

/-- What expressions have bound, one after another, behind code that stands at an offset. -/
def Expression.boundAll : List Expression → Nat → Fragment → Bound
  | [], _, _ => nothing
  | item :: items, start, before =>
    andThen (Compiling.expression item (start + before.size)) (item.bound (start + before.size))
      fun code => Expression.boundAll items start (before ++ code)

/-- What a binding has bound. A function is bound in front of its body. -/
def Binding.bound : Binding → Nat → Bound
  | .mk name (.function _ _ _) _, _ => fun _ => [name.text]
  | .mk name value _, start =>
    andThen (Compiling.expression value start) (value.bound start) fun _ _ => [name.text]

/-- What a block has bound. -/
def Block.bound : Block → Nat → Bound
  | .mk body _, start => Statement.boundAll body start .empty

/-- What a statement has bound. Nothing of a value that leaves no function is looked at. -/
def Statement.bound : Statement → Nat → Bound
  | .bind bound, start => bound.bound start
  | .leave none _, _ => nothing
  | .leave (some value) _, start => fun compiler =>
    (if compiler.scope.isGlobal then nothing else value.bound start) compiler
  | .expression value _, start => value.bound start

/-- What statements have bound, one after another. -/
def Statement.boundAll : List Statement → Nat → Fragment → Bound
  | [], _, _ => nothing
  | first :: rest, start, before =>
    andThen (Compiling.statement first (start + before.size)) (first.bound (start + before.size))
      fun code => Statement.boundAll rest start (before ++ code)

end

namespace Compiling

variable {α β : Type} {names more : List String} {bound : Bound}

/-- A part of the compiler binds some names, one after another; if it fails, then the first ones of
them, and which ones is known. -/
def Binds (names : List String) (bound : Bound) (work : Compiling α) : Prop :=
  ∀ compiler : Compiler,
    match work compiler with
    | .ok _ next => bound compiler = names ∧ next.scope = compiler.scope.defineAll names
    | .error _ next =>
      bound compiler <+: names ∧ next.scope = compiler.scope.defineAll (bound compiler)

namespace Binds

theorem pure (value : α) : Binds [] nothing (Pure.pure value) := fun _ => ⟨rfl, rfl⟩

theorem throw (fault : CompileFault) :
    Binds names nothing (MonadExcept.throw fault : Compiling α) :=
  fun _ => ⟨List.nil_prefix, rfl⟩

theorem bind {work : Compiling α} {rest : α → Compiling β} {second : α → Bound}
    (works : Binds names bound work) (rests : ∀ value, Binds more (second value) (rest value)) :
    Binds (names ++ more) (andThen work bound second) (work >>= rest) := by
  intro compiler
  have worked := works compiler
  cases ran : work compiler with
  | error fault next =>
      rw [ran] at worked
      rw [Stateful.bind_of_error ran, andThen, ran]
      dsimp only
      rw [List.append_nil]
      exact ⟨worked.1.trans (List.prefix_append names more), worked.2⟩
  | ok value between =>
      rw [ran] at worked
      obtain ⟨all, scope⟩ := worked
      have rested := rests value between
      rw [Stateful.bind_of_ok ran, andThen, ran, all]
      cases reran : rest value between with
      | ok other next =>
          rw [reran] at rested
          exact ⟨congrArg (names ++ ·) rested.1, by rw [rested.2, scope, Scope.defineAll_append]⟩
      | error fault next =>
          rw [reran] at rested
          refine ⟨(List.prefix_append_right_inj names).mpr rested.1, ?_⟩
          dsimp only
          rw [rested.2, scope, Scope.defineAll_append]

theorem andThen_nothing (work : Compiling α) (bound : Bound) :
    andThen work bound (fun _ => nothing) = bound := by
  funext compiler
  rw [andThen]
  cases work compiler <;> exact List.append_nil _

/-- Nothing is bound behind. -/
theorem last {work : Compiling α} {rest : α → Compiling β} (works : Binds names bound work)
    (rests : ∀ value, Binds [] nothing (rest value)) : Binds names bound (work >>= rest) := by
  have both := works.bind rests
  rwa [List.append_nil, andThen_nothing] at both

/-- Nothing is bound in front. -/
theorem first {work : Compiling α} {rest : α → Compiling β} {second : α → Bound}
    (works : Binds [] nothing work) (rests : ∀ value, Binds names (second value) (rest value)) :
    Binds names (andThen work nothing second) (work >>= rest) := works.bind rests

theorem get : Binds [] nothing (MonadState.get : Compiling Compiler) := fun _ => ⟨rfl, rfl⟩

/-- What is bound may depend on what the compiler has collected. -/
theorem reading {rest : Compiler → Compiling α} {second : Compiler → Bound}
    (rests : ∀ compiler, Binds names (second compiler) (rest compiler)) :
    Binds names (fun compiler => second compiler compiler) (MonadState.get >>= rest) :=
  fun compiler => rests compiler compiler

theorem require (holds : Bool) (limit : Limit) (span : Span) :
    Binds [] nothing (Compiling.require holds limit span) := by
  unfold Compiling.require
  split
  · exact pure ()
  · exact throw _

theorem requireTarget (target : Nat) (span : Span) :
    Binds [] nothing (Compiling.requireTarget target span) :=
  require _ _ _

theorem resolve (name : Name) : Binds [] nothing (Compiling.resolve name) := by
  refine get.last fun compiler => ?_
  dsimp only
  cases compiler.scope.resolve? name.text with
  | none => exact throw _
  | some symbol =>
      dsimp only
      split
      · exact throw _
      · exact pure symbol

theorem store (name : Name) (symbol : Symbol) :
    Binds [] nothing (Compiling.store name symbol) := by
  obtain ⟨text, storage, index⟩ := symbol
  cases storage with
  | global => exact pure _
  | frame => exact pure _
  | builtin => exact throw _

theorem constant (value : Value) (span : Span) :
    Binds [] nothing (Compiling.constant value span) := by
  intro compiler
  rw [Compiling.constant_cases]
  by_cases few : compiler.constants.size < 65536
  · rw [if_pos few]
    exact ⟨rfl, rfl⟩
  · rw [if_neg few]
    exact ⟨List.nil_prefix, rfl⟩

theorem literal (value : Literal) (span : Span) :
    Binds [] nothing (Compiling.literal value span) := by
  cases value with
  | boolean value => cases value <;> exact pure _
  | _ => exact constant _ span

theorem define (name : Name) :
    Binds [name.text] (fun _ => [name.text]) (Compiling.define name) := by
  intro compiler
  obtain ⟨warnings, run⟩ := Compiling.define_cases name compiler
  rw [run]
  by_cases few : (compiler.scope.define name.text).1.index <
      (slotLimit (compiler.scope.define name.text).1.storage).bound
  · rw [if_pos few]
    exact ⟨rfl, rfl⟩
  · rw [if_neg few]
    exact ⟨List.prefix_rfl, rfl⟩

/-- The names of a function are forgotten. -/
theorem inFunction (work : Compiling α) : Binds [] nothing (Compiling.inFunction work) := by
  intro compiler
  unfold Compiling.inFunction
  cases work { compiler with scope := compiler.scope.enter } with
  | ok result inner => exact ⟨rfl, rfl⟩
  | error fault inner => exact ⟨List.nil_prefix, rfl⟩

theorem function (name : Option String) (parameters : List Name) (span : Span) (body : Block) :
    Binds [] nothing (Compiling.function name parameters span body) := by
  obtain ⟨body, bodySpan⟩ := body
  simp only [Compiling.function, functionConstant]
  exact (inFunction _).last fun _ => get.last fun _ => constant _ _

end Binds

end Compiling

/-! ## The parts of a program -/

open Compiling Compiling.Binds

mutual

theorem expression_binds : ∀ (syntaxTree : Expression) (start : Nat),
    Binds syntaxTree.binds (syntaxTree.bound start) (Compiling.expression syntaxTree start)
  | .literal value span, start => by
      simp only [Compiling.expression, Expression.binds, Expression.bound]
      exact Binds.literal value span
  | .name identifier, start => by
      simp only [Compiling.expression, Expression.binds, Expression.bound]
      exact (Binds.resolve identifier).last fun _ => Binds.pure _
  | .unary operator operand span, start => by
      simp only [Compiling.expression, Expression.binds, Expression.bound]
      exact (expression_binds operand start).last fun _ => Binds.pure _
  | .binary operator left right span, start => by
      simp only [Compiling.expression, Expression.binds, Expression.bound]
      split
      · exact (expression_binds right start).bind fun _ =>
          (expression_binds left _).last fun _ => Binds.pure _
      · exact (expression_binds left start).bind fun _ =>
          (expression_binds right _).last fun _ => Binds.pure _
  | .conditional condition consequence none span, start => by
      simp only [Compiling.expression, Expression.binds, Expression.bound]
      refine (expression_binds condition start).bind fun _ => ?_
      refine (block_binds .keep consequence _).last fun _ => ?_
      exact (Binds.requireTarget _ _).last fun _ => (Binds.pure _).last fun _ =>
        (Binds.requireTarget _ _).last fun _ => Binds.pure _
  | .conditional condition consequence (some alternative) span, start => by
      simp only [Compiling.expression, Expression.binds, Expression.bound]
      refine (expression_binds condition start).bind fun _ => ?_
      refine (block_binds .keep consequence _).bind fun _ => ?_
      refine (Binds.requireTarget _ _).first fun _ => ?_
      refine (block_binds .keep alternative _).last fun _ => ?_
      exact (Binds.requireTarget _ _).last fun _ => Binds.pure _
  | .whileLoop condition body span, start => by
      simp only [Compiling.expression, Expression.binds, Expression.bound]
      refine (expression_binds condition start).bind fun _ => ?_
      refine (block_binds .discard body _).last fun _ => ?_
      exact (Binds.requireTarget _ _).last fun _ => Binds.pure _
  | .forLoop first condition post body span, start => by
      simp only [Compiling.expression, Expression.binds, Expression.bound]
      refine (binding_binds first start).bind fun _ => ?_
      refine (expression_binds condition _).bind fun _ => ?_
      refine (block_binds .discard body _).bind fun _ => ?_
      refine (expression_binds post _).last fun _ => ?_
      exact (Binds.requireTarget _ _).last fun _ => Binds.pure _
  | .function parameters body span, start => by
      simp only [Compiling.expression, Expression.binds, Expression.bound]
      exact Binds.function none parameters span body
  | .call callee arguments span, start => by
      simp only [Compiling.expression, Expression.binds, Expression.bound]
      refine (Binds.require _ _ _).first fun _ => ?_
      refine (expression_binds callee start).bind fun _ => ?_
      exact (expressions_bind arguments start _).last fun _ => Binds.pure _
  | .array elements span, start => by
      simp only [Compiling.expression, Expression.binds, Expression.bound]
      refine (Binds.require _ _ _).first fun _ => ?_
      exact (expressions_bind elements start _).last fun _ => Binds.pure _
  | .index target index span, start => by
      simp only [Compiling.expression, Expression.binds, Expression.bound]
      exact (expression_binds target start).bind fun _ =>
        (expression_binds index _).last fun _ => Binds.pure _
  | .assign target value span, start => by
      simp only [Compiling.expression, Expression.binds, Expression.bound]
      refine (Binds.resolve target).first fun _ => ?_
      refine (expression_binds value start).last fun _ => ?_
      exact (Binds.store target _).last fun _ => Binds.pure _

theorem expressions_bind : ∀ (items : List Expression) (start : Nat) (before : Fragment),
    Binds (Expression.bindsAll items) (Expression.boundAll items start before)
      (Compiling.expressions items start before)
  | [], start, before => by
      simp only [Compiling.expressions, Expression.bindsAll, Expression.boundAll]
      exact Binds.pure before
  | item :: items, start, before => by
      simp only [Compiling.expressions, Expression.bindsAll, Expression.boundAll]
      exact (expression_binds item _).bind fun _ => expressions_bind items start _

theorem binding_binds : ∀ (bound : Binding) (start : Nat),
    Binds bound.binds (bound.bound start) (Compiling.binding bound start)
  | .mk name value span, start => by
      cases value with
      | function parameters body literalSpan =>
          simp only [Compiling.binding, Binding.binds, Expression.binds, List.nil_append]
          refine (Binds.define name).last fun symbol => ?_
          exact (Binds.function _ parameters literalSpan body).last fun _ =>
            (Binds.store name symbol).last fun _ => Binds.pure _
      | _ =>
          simp only [Compiling.binding, Binding.binds, Binding.bound]
          refine (expression_binds _ start).bind fun _ => ?_
          refine (Binds.define name).last fun symbol => ?_
          exact (Binds.store name symbol).last fun _ => Binds.pure _

theorem block_binds (ending : Ending) : ∀ (body : Block) (start : Nat),
    Binds body.binds (body.bound start) (Compiling.block ending body start)
  | .mk body span, start => by
      simp only [Compiling.block, Block.binds, Block.bound]
      exact statements_bind ending body start .empty

theorem statement_binds : ∀ (first : Statement) (start : Nat),
    Binds first.binds (first.bound start) (Compiling.statement first start)
  | .bind bound, start => by
      simp only [Compiling.statement, Statement.binds, Statement.bound]
      exact binding_binds bound start
  | .leave value span, start => by
      simp only [Compiling.statement]
      exact departure_binds value span start
  | .expression value span, start => by
      simp only [Compiling.statement, Statement.binds, Statement.bound]
      exact (expression_binds value start).last fun _ => Binds.pure _

theorem departure_binds : ∀ (value : Option Expression) (span : Span) (start : Nat),
    Binds (Statement.leave value span).binds ((Statement.leave value span).bound start)
      (Compiling.departure value span start)
  | none, span, start => by
      simp only [Compiling.departure, Statement.binds, Statement.bound]
      refine Binds.get.last fun compiler => ?_
      split
      · exact Binds.throw _
      · exact (Binds.pure _).last fun _ => Binds.pure _
  | some value, span, start => by
      simp only [Compiling.departure, Statement.binds, Statement.bound]
      refine Binds.reading fun compiler => ?_
      by_cases outside : compiler.scope.isGlobal = true
      · rw [if_pos outside, if_pos outside]
        exact Binds.throw _
      · rw [if_neg outside, if_neg outside]
        exact (expression_binds value start).last fun _ => Binds.pure _

theorem statements_bind (ending : Ending) : ∀ (body : List Statement) (start : Nat)
    (before : Fragment),
    Binds (Statement.bindsAll body) (Statement.boundAll body start before)
      (Compiling.statements ending body start before)
  | [], start, before => by
      simp only [Compiling.statements, Statement.bindsAll]
      exact Binds.pure _
  | [.expression value span], start, before => by
      simp only [Compiling.statements, Statement.bindsAll, Statement.binds, List.append_nil,
        Statement.boundAll, Statement.bound, andThen_nothing]
      exact (expression_binds value _).last fun _ => Binds.pure _
  | [.leave value span], start, before => by
      simp only [Compiling.statements, Statement.bindsAll, List.append_nil, Statement.boundAll,
        andThen_nothing]
      exact (departure_binds value span _).last fun _ => Binds.pure _
  | [.bind bound], start, before => by
      simp only [Compiling.statements, Statement.bindsAll]
      exact (statement_binds (.bind bound) _).bind fun _ => Binds.pure _
  | first :: second :: rest, start, before => by
      simp only [Compiling.statements]
      rw [Statement.bindsAll]
      exact (statement_binds first _).bind fun _ => statements_bind ending (second :: rest) start _

end

namespace Compiler

/-- The names that a program has bound when it is compiled, or in front of the error for which it is
refused. -/
def bound (compiler : Compiler) (program : Program) : List String :=
  Statement.boundAll program.statements 0 .empty compiler

/-- A program binds its names one after another. If it is refused, only those in front of its error
are bound. -/
theorem scope_compile (compiler : Compiler) (program : Program) :
    compiler.bound program <+: Statement.bindsAll program.statements ∧
      (compiler.compile program).2.scope = compiler.scope.defineAll (compiler.bound program) := by
  have binds := statements_bind .discard program.statements 0 .empty compiler
  unfold compile bound
  cases ran : Compiling.statements .discard program.statements 0 .empty compiler with
  | ok code next =>
      rw [ran] at binds
      rw [binds.1]
      exact ⟨List.prefix_rfl, binds.2⟩
  | error fault next =>
      rw [ran] at binds
      exact binds

end Compiler

end MonkeyLang
