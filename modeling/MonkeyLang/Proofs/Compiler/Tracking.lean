import MonkeyLang.Proofs.Compiler.Routines

/-!
# The compiler follows the walk

Each part of the compiler takes a compiler that the walk reads to one that the walk reads behind
that part (`expression_follows` and its companions), if it succeeds. Whether it succeeds or not,
constants are only added, and those that are functions come from routines.
-/

set_option autoImplicit false

namespace MonkeyLang

/-- What later states of a compiler keep of an earlier one. -/
structure Grows (earlier later : Compiler) : Prop where
  constants : Within earlier.constants later.constants
  enclosing : later.scope.enclosing = earlier.scope.enclosing
  definitions : earlier.scope.definitions ≤ later.scope.definitions

namespace Grows

theorem refl (compiler : Compiler) : Grows compiler compiler :=
  ⟨Within.refl _, rfl, Nat.le_refl _⟩

theorem trans {first second third : Compiler} (left : Grows first second)
    (right : Grows second third) : Grows first third where
  constants := left.constants.trans right.constants
  enclosing := right.enclosing.trans left.enclosing
  definitions := Nat.le_trans left.definitions right.definitions

theorem isGlobal {earlier later : Compiler} (grows : Grows earlier later) :
    later.scope.isGlobal = earlier.scope.isGlobal := by
  simp only [Scope.isGlobal, grows.enclosing]

end Grows

/-- The walk reads a compiler. If the constants in front of it were linked, all are. -/
structure Tracks (known : Prop) (walk : Walk) (compiler : Compiler) : Prop where
  reads : Reads walk compiler
  linked : known → Linked walk.routines compiler.constants

/-- What remains true of a compiler after a fault. -/
structure Survives (known : Prop) (compiler : Compiler) : Prop where
  sound : compiler.scope.Sound
  linked : known → ∃ routines, Linked routines compiler.constants

theorem Tracks.survives {known : Prop} {walk : Walk} {compiler : Compiler}
    (tracks : Tracks known walk compiler) : Survives known compiler :=
  ⟨tracks.reads.sound, fun holds => ⟨walk.routines, tracks.linked holds⟩⟩

/-- How a part of the compiler ends: where the walk is behind that part, or with a fault. -/
def Arrives {α : Type} (known : Prop) (good : α → Prop) (compiler : Compiler) (walk : Walk) :
    EStateM.Result CompileFault Compiler α → Prop
  | .ok result next => good result ∧ Tracks known walk next ∧ Grows compiler next
  | .error _ next => Survives known next ∧ Grows compiler next

/-- A part of the compiler takes the walk from one place to another, as far as it gets. -/
def Follows {α : Type} (known : Prop) (good : α → Prop) (work : Compiling α)
    (before behind : Walk) : Prop :=
  ∀ compiler : Compiler, Tracks known before compiler →
    Arrives known good compiler behind (work compiler)

/-- Any result will do. -/
abbrev Follows.Any {α : Type} (known : Prop) (work : Compiling α) (before behind : Walk) : Prop :=
  Follows known (fun _ => True) work before behind

namespace Follows

variable {α β : Type} {known : Prop} {good : α → Prop} {well : β → Prop}
  {walk before middle behind : Walk}

theorem pure {result : α} (holds : good result) : Follows known good (pure result) walk walk :=
  fun _ tracks => ⟨holds, tracks, Grows.refl _⟩

theorem throw (fault : CompileFault) : Follows known good (throw fault) before behind :=
  fun _ tracks => ⟨tracks.survives, Grows.refl _⟩

theorem bind {work : Compiling α} {rest : α → Compiling β}
    (works : Follows known good work before middle)
    (rests : ∀ result, good result → Follows known well (rest result) middle behind) :
    Follows known well (work >>= rest) before behind := by
  intro compiler tracks
  have worked := works compiler tracks
  cases ran : work compiler with
  | error fault next =>
      rw [ran] at worked
      rw [Stateful.bind_of_error ran]
      exact worked
  | ok result middle =>
      rw [ran] at worked
      obtain ⟨fine, tracked, grown⟩ := worked
      have rested := rests result fine middle tracked
      rw [Stateful.bind_of_ok ran]
      cases reran : rest result middle with
      | error fault next =>
          rw [reran] at rested
          exact ⟨rested.1, grown.trans rested.2⟩
      | ok other next =>
          rw [reran] at rested
          exact ⟨rested.1, rested.2.1, grown.trans rested.2.2⟩

theorem get : Follows.Any known (MonadState.get : Compiling Compiler) walk walk :=
  fun _ tracks => ⟨trivial, tracks, Grows.refl _⟩

theorem require (holds : Bool) (limit : Limit) (span : Span) :
    Follows.Any known (Compiling.require holds limit span) walk walk := by
  unfold Compiling.require
  split
  · exact pure trivial
  · exact throw _

theorem requireTarget (target : Nat) (span : Span) :
    Follows.Any known (Compiling.requireTarget target span) walk walk :=
  require _ _ _

theorem resolve (name : Name) : Follows.Any known (Compiling.resolve name) walk walk := by
  refine bind get fun compiler _ => ?_
  dsimp only
  cases compiler.scope.resolve? name.text with
  | none => exact throw _
  | some symbol =>
      dsimp only
      split
      · exact throw _
      · exact pure trivial

theorem store (name : Name) (symbol : Symbol) :
    Follows known Instruction.Complete (Compiling.store name symbol) walk walk := by
  unfold Compiling.store
  split
  · exact pure rfl
  · exact pure rfl
  · exact throw _

/-- A value becomes a constant behind the walk. -/
theorem addConstant {value : Value} (span : Span)
    (added : ∀ compiler, Tracks known before compiler →
      Tracks known behind { compiler with constants := compiler.constants.push value }) :
    Follows.Any known (Compiling.addConstant value span) before behind := by
  have pushed : Follows.Any known
      (modify fun compiler => { compiler with constants := compiler.constants.push value })
      before behind :=
    fun compiler tracks =>
      ⟨trivial, added compiler tracks, Within.push _ _, rfl, Nat.le_refl _⟩
  exact bind get fun _ _ => bind (require _ _ _) fun _ _ => bind pushed fun _ _ => pure trivial

/-- A value that is no function becomes a constant. -/
theorem constant {value : Value} (plain : ∀ body, value ≠ .function body)
    (genuine : ∀ constants, value.Genuine constants) (span : Span) :
    Follows known Fragment.Complete (Compiling.constant value span) walk walk.addConstant := by
  refine bind (addConstant span fun compiler tracks => ?_) fun index _ => pure ?_
  · refine ⟨⟨tracks.reads.scope, ?_, tracks.reads.slots, tracks.reads.sound⟩, ?_⟩
    · simp only [Walk.addConstant, tracks.reads.number, Array.size_push]
    · exact fun holds => (tracks.linked holds).pushLiteral plain (genuine _)
  · simp [Fragment.single_eq_push, Instruction.Complete, Opcode.widths]

theorem literal (value : Literal) (span : Span) :
    Follows known Fragment.Complete (Compiling.literal value span) walk (value.walk walk) := by
  cases value with
  | boolean value =>
      cases value <;> exact pure (by
        simp [Fragment.single_eq_push, Instruction.Complete, Opcode.widths])
  | _ =>
      simp only [Compiling.literal, Literal.walk]
      refine constant ?_ ?_ span
      · intro _ same
        cases same
      · exact fun _ => trivial

theorem define (name : Name) :
    Follows.Any known (Compiling.define name) walk (walk.define name) := by
  intro compiler tracks
  obtain ⟨warnings, run⟩ := Compiling.define_cases name compiler
  have sound := tracks.reads.sound.define name.text
  have grows : Grows compiler
      { compiler with scope := (compiler.scope.define name.text).2, warnings } :=
    ⟨Within.refl _, rfl, Nat.le_succ _⟩
  rw [run]
  split
  · next few =>
      refine ⟨trivial, ⟨⟨?_, tracks.reads.number, ?_, sound⟩, tracks.linked⟩, grows⟩
      · have kept : (compiler.scope.define name.text).1.reached =
            (compiler.scope.define name.text).1 := by
          cases storage : compiler.scope.storage with
          | global =>
              rw [Scope.storage_define, storage] at few
              exact Symbol.reached_of_lt few
          | _ => exact Symbol.reached_of_storage_ne (by simp [storage])
        simp only [Walk.define, tracks.reads.scope, Scope.define_reached kept]
      · intro inner
        have storage : compiler.scope.storage = .frame := by
          simp only [Scope.isGlobal_define] at inner
          simp [Scope.storage, inner]
        simp only [Scope.storage_define, storage] at few
        exact few
  · exact ⟨⟨sound, fun holds => ⟨walk.routines, tracks.linked holds⟩⟩, grows⟩

theorem parameters (names : List Name) :
    Follows.Any known (names.forM fun name => discard (Compiling.define name)) walk
      (names.foldl Walk.define walk) := by
  induction names generalizing walk with
  | nil => exact pure trivial
  | cons name names ih =>
      have bound : Follows.Any known (discard (Compiling.define name)) walk (walk.define name) :=
        bind (define name) fun _ _ => pure trivial
      exact bind bound fun _ _ => ih

/-- A function literal, if the compiler follows the walk through its body. -/
theorem function {body : List Statement} {parameters : List Name}
    (body_follows : Follows known Fragment.Complete (Compiling.statements .leave body 0 .empty)
      (walk.enter parameters) (Statement.walkAll body (walk.enter parameters)))
    (name : Option String) (span bodySpan : Span) :
    Follows known Fragment.Complete
      (Compiling.function name parameters span (.mk body bodySpan)) walk
      (Block.walkFunction (.mk body bodySpan) parameters walk) := by
  intro compiler tracks
  have entered : Tracks known { walk with scope := walk.scope.enter }
      { compiler with scope := compiler.scope.enter } :=
    ⟨tracks.reads.enter, tracks.linked⟩
  have worked := Follows.bind (Follows.parameters parameters) (fun _ _ => body_follows) _ entered
  cases ran : (parameters.forM (fun parameter => discard (Compiling.define parameter)) >>=
      fun _ => Compiling.statements .leave body 0 .empty : Compiling Fragment)
      { compiler with scope := compiler.scope.enter } with
  | error fault inner =>
      rw [ran] at worked
      obtain ⟨survives, grows⟩ := worked
      have left : Compiling.function name parameters span (.mk body bodySpan) compiler =
          .error fault { inner with scope := compiler.scope } :=
        Stateful.bind_of_error (by simp only [Compiling.inFunction, ran])
      rw [left]
      exact ⟨⟨tracks.reads.sound, survives.linked⟩, grows.constants, rfl, Nat.le_refl _⟩
  | ok stream inner =>
      obtain ⟨_, start, bound, body_ran⟩ := Stateful.bind_eq_ok.mp ran
      have arrived := Follows.parameters parameters _ entered
      rw [bound] at arrived
      obtain ⟨-, started, opened⟩ := arrived
      have finished := body_follows start started
      rw [body_ran] at finished
      obtain ⟨complete, tracked, grows⟩ := finished
      have left : Compiling.function name parameters span (.mk body bodySpan) compiler =
          Compiling.constant (.function ⟨inner.constants.size, name, parameters.length,
            inner.scope.definitions, stream.encode⟩) span { inner with scope := compiler.scope } :=
        Stateful.bind_of_ok (Compiling.inFunction_eq_ok.mpr ⟨inner, ran, rfl, rfl⟩)
      have number := tracked.reads.number
      have locals : (Statement.walkAll body (walk.enter parameters)).scope.definitions =
          inner.scope.definitions := by
        rw [tracked.reads.scope, Scope.definitions_reached]
      have first : start.scope.definitions = parameters.length := by
        rw [← Scope.definitions_reached, ← started.reads.scope]
        exact Walk.definitions_enter walk parameters
      have compiled : CompiledAs
          ⟨parameters.length, inner.scope.definitions, body, (walk.enter parameters).scope,
            (walk.enter parameters).number⟩
          ⟨inner.constants.size, name, parameters.length, inner.scope.definitions, stream.encode⟩
          inner.constants := by
        refine ⟨start, inner, stream, body_ran, started.reads.withRoutines _, ?_, rfl, rfl, rfl, ?_,
          complete, rfl, Within.refl _⟩
        · rw [opened.isGlobal]
          rfl
        · rw [← first]
          exact grows.definitions
      rw [left, Compiling.constant_cases]
      split
      · refine ⟨?_, ⟨⟨tracks.reads.scope, ?_, tracks.reads.slots, tracks.reads.sound⟩, ?_⟩, ?_⟩
        · simp [Fragment.single_eq_push, Instruction.Complete, Opcode.widths]
        · simp only [Block.walkFunction, Walk.close, number, Array.size_push]
        · intro holds
          have linked := (tracked.linked holds).pushFunction rfl compiled
          simp only [Block.walkFunction, Walk.close, number, locals]
          exact linked
        · exact ⟨(opened.trans grows).constants.trans (Within.push _ _), rfl, Nat.le_refl _⟩
      · refine ⟨⟨tracks.reads.sound, fun holds => ⟨_, tracked.linked holds⟩⟩, ?_⟩
        exact ⟨(opened.trans grows).constants, rfl, Nat.le_refl _⟩

/-- What a success says without any constants linked. -/
theorem of_ok {work : Compiling α} {compiler next : Compiler} {result : α}
    (follows : Follows False good work before behind) (reads : Reads before compiler)
    (ran : work compiler = .ok result next) :
    good result ∧ Reads behind next ∧ Grows compiler next := by
  have arrived := follows compiler ⟨reads, False.elim⟩
  rw [ran] at arrived
  exact ⟨arrived.1, arrived.2.1.reads, arrived.2.2⟩

end Follows

/-! ## The parts of a program -/

namespace Fragment

theorem complete_emit {fragment : Fragment} {opcode : Opcode} {operands : List Nat}
    (complete : fragment.Complete) (operand : operands.length = opcode.widths.length) :
    (fragment.emit opcode operands).Complete :=
  complete_push.mpr ⟨complete, operand⟩

theorem complete_emitAll {opcodes : List Opcode} (plain : ∀ opcode ∈ opcodes, opcode.widths = [])
    {fragment : Fragment} (complete : fragment.Complete) : (fragment.emitAll opcodes).Complete := by
  induction opcodes generalizing fragment with
  | nil => exact complete
  | cons opcode opcodes ih =>
      refine ih (fun other member => plain other (List.mem_cons_of_mem _ member)) ?_
      exact complete_emit complete (by simp [plain opcode List.mem_cons_self])

theorem complete_single {opcode : Opcode} {operands : List Nat}
    (operand : operands.length = opcode.widths.length) : (single opcode operands).Complete :=
  complete_emit complete_empty operand

end Fragment

theorem BinaryOperator.widths_opcodes (operator : BinaryOperator) :
    ∀ opcode ∈ operator.opcodes, opcode.widths = [] := by
  cases operator <;> decide

namespace Ending

theorem widths_behindExpression (ending : Ending) :
    ∀ opcode ∈ ending.behindExpression, opcode.widths = [] := by
  cases ending <;> decide

theorem widths_behindLeave (ending : Ending) :
    ∀ opcode ∈ ending.behindLeave, opcode.widths = [] := by
  cases ending <;> decide

theorem widths_behindOther (ending : Ending) :
    ∀ opcode ∈ ending.behindOther, opcode.widths = [] := by
  cases ending <;> decide

end Ending

theorem complete_load (symbol : Symbol) : (Compiling.load symbol).Complete := by
  unfold Compiling.load
  split <;> rfl

open Follows Fragment

mutual

theorem expression_follows (known : Prop) : ∀ (syntaxTree : Expression) (start : Nat) (walk : Walk),
    Follows known Fragment.Complete (Compiling.expression syntaxTree start) walk
      (syntaxTree.walk walk)
  | .literal value span, start, walk => by
      simp only [Compiling.expression, Expression.walk]
      exact literal value span
  | .name identifier, start, walk => by
      simp only [Compiling.expression, Expression.walk]
      exact bind (resolve identifier) fun symbol _ =>
        Follows.pure (complete_push.mpr ⟨complete_empty, complete_load symbol⟩)
  | .unary operator operand span, start, walk => by
      simp only [Compiling.expression, Expression.walk]
      refine bind (expression_follows known operand start walk) fun code complete =>
        Follows.pure (complete_emit complete ?_)
      cases operator <;> rfl
  | .binary operator left right span, start, walk => by
      simp only [Compiling.expression, Expression.walk]
      split
      · exact bind (expression_follows known right start walk) fun first firstComplete =>
          bind (expression_follows known left _ _) fun second secondComplete =>
            Follows.pure (complete_emitAll operator.widths_opcodes
              (complete_append.mpr ⟨firstComplete, secondComplete⟩))
      · exact bind (expression_follows known left start walk) fun first firstComplete =>
          bind (expression_follows known right _ _) fun second secondComplete =>
            Follows.pure (complete_emitAll operator.widths_opcodes
              (complete_append.mpr ⟨firstComplete, secondComplete⟩))
  | .conditional condition consequence none span, start, walk => by
      simp only [Compiling.expression, Expression.walk]
      refine bind (expression_follows known condition start walk) fun test testComplete => ?_
      refine bind (block_follows known .keep consequence _ _) fun chosen chosenComplete => ?_
      refine bind (requireTarget _ _) fun _ _ => ?_
      refine bind (Follows.pure (complete_single rfl)) fun other otherComplete => ?_
      refine bind (requireTarget _ _) fun _ _ => Follows.pure ?_
      exact complete_append.mpr ⟨complete_emit (complete_append.mpr
        ⟨complete_emit testComplete rfl, chosenComplete⟩) rfl, otherComplete⟩
  | .conditional condition consequence (some alternative) span, start, walk => by
      simp only [Compiling.expression, Expression.walk]
      refine bind (expression_follows known condition start walk) fun test testComplete => ?_
      refine bind (block_follows known .keep consequence _ _) fun chosen chosenComplete => ?_
      refine bind (requireTarget _ _) fun _ _ => ?_
      refine bind (block_follows known .keep alternative _ _) fun other otherComplete => ?_
      refine bind (requireTarget _ _) fun _ _ => Follows.pure ?_
      exact complete_append.mpr ⟨complete_emit (complete_append.mpr
        ⟨complete_emit testComplete rfl, chosenComplete⟩) rfl, otherComplete⟩
  | .whileLoop condition body span, start, walk => by
      simp only [Compiling.expression, Expression.walk]
      refine bind (expression_follows known condition start walk) fun test testComplete => ?_
      refine bind (block_follows known .discard body _ _) fun pass passComplete => ?_
      refine bind (requireTarget _ _) fun _ _ => Follows.pure ?_
      exact complete_emit (complete_emit (complete_append.mpr
        ⟨complete_emit testComplete rfl, passComplete⟩) rfl) rfl
  | .forLoop first condition post body span, start, walk => by
      simp only [Compiling.expression, Expression.walk]
      refine bind (binding_follows known first start walk) fun preparation preparationComplete => ?_
      refine bind (expression_follows known condition _ _) fun test testComplete => ?_
      refine bind (block_follows known .discard body _ _) fun pass passComplete => ?_
      refine bind (expression_follows known post _ _) fun step stepComplete => ?_
      refine bind (requireTarget _ _) fun _ _ => Follows.pure ?_
      exact complete_emit (complete_emit (complete_append.mpr ⟨preparationComplete,
        complete_append.mpr ⟨complete_append.mpr ⟨complete_emit testComplete rfl, passComplete⟩,
          complete_emit stepComplete rfl⟩⟩) rfl) rfl
  | .function parameters body span, start, walk => by
      simp only [Compiling.expression, Expression.walk]
      exact function_follows known none parameters span body walk
  | .call callee arguments span, start, walk => by
      simp only [Compiling.expression, Expression.walk]
      refine bind (Follows.require _ _ _) fun _ _ => ?_
      refine bind (expression_follows known callee start walk) fun code complete => ?_
      refine bind (expressions_follows known arguments start code complete _) fun all complete => ?_
      exact Follows.pure (complete_emit complete rfl)
  | .array elements span, start, walk => by
      simp only [Compiling.expression, Expression.walk]
      refine bind (Follows.require _ _ _) fun _ _ => ?_
      refine bind (expressions_follows known elements start .empty complete_empty walk)
        fun all complete => ?_
      exact Follows.pure (complete_emit complete rfl)
  | .index target index span, start, walk => by
      simp only [Compiling.expression, Expression.walk]
      refine bind (expression_follows known target start walk) fun first firstComplete => ?_
      refine bind (expression_follows known index _ _) fun second secondComplete => ?_
      exact Follows.pure (complete_emit (complete_append.mpr ⟨firstComplete, secondComplete⟩) rfl)
  | .assign target value span, start, walk => by
      simp only [Compiling.expression, Expression.walk]
      refine bind (resolve target) fun symbol _ => ?_
      refine bind (expression_follows known value start walk) fun code complete => ?_
      refine bind (store target symbol) fun instruction whole => Follows.pure ?_
      exact complete_push.mpr ⟨complete_push.mpr ⟨complete, whole⟩, complete_load symbol⟩

theorem expressions_follows (known : Prop) : ∀ (items : List Expression) (start : Nat)
    (before : Fragment), before.Complete → ∀ walk : Walk,
    Follows known Fragment.Complete (Compiling.expressions items start before) walk
      (Expression.walkAll items walk)
  | [], start, before, complete, walk => by
      simp only [Compiling.expressions, Expression.walkAll]
      exact Follows.pure complete
  | item :: items, start, before, complete, walk => by
      simp only [Compiling.expressions, Expression.walkAll]
      refine bind (expression_follows known item _ walk) fun code whole => ?_
      exact expressions_follows known items start _ (complete_append.mpr ⟨complete, whole⟩) _

theorem function_follows (known : Prop) (name : Option String) (parameters : List Name)
    (span : Span) : ∀ (body : Block) (walk : Walk),
    Follows known Fragment.Complete (Compiling.function name parameters span body) walk
      (body.walkFunction parameters walk)
  | .mk body bodySpan, _ =>
      Follows.function (statements_follows known .leave body 0 .empty complete_empty _) name span
        bodySpan

theorem binding_follows (known : Prop) : ∀ (bound : Binding) (start : Nat) (walk : Walk),
    Follows known Fragment.Complete (Compiling.binding bound start) walk (bound.walk walk)
  | .mk name value span, start, walk => by
      cases value with
      | function parameters body literalSpan =>
          simp only [Compiling.binding, Binding.walk]
          refine bind (define name) fun symbol _ => ?_
          refine bind (function_follows known (some name.text) parameters literalSpan body _)
            fun code complete => ?_
          refine bind (store name symbol) fun instruction whole => Follows.pure ?_
          exact complete_push.mpr ⟨complete, whole⟩
      | _ =>
          simp only [Compiling.binding, Binding.walk]
          refine bind (expression_follows known _ start walk) fun code complete => ?_
          refine bind (define name) fun symbol _ => ?_
          refine bind (store name symbol) fun instruction whole => Follows.pure ?_
          exact complete_push.mpr ⟨complete, whole⟩

theorem block_follows (known : Prop) (ending : Ending) : ∀ (body : Block) (start : Nat)
    (walk : Walk),
    Follows known Fragment.Complete (Compiling.block ending body start) walk (body.walk walk)
  | .mk body span, start, walk => by
      simp only [Compiling.block, Block.walk]
      exact statements_follows known ending body start .empty complete_empty walk

theorem statement_follows (known : Prop) : ∀ (first : Statement) (start : Nat) (walk : Walk),
    Follows known Fragment.Complete (Compiling.statement first start) walk (first.walk walk)
  | .bind bound, start, walk => by
      simp only [Compiling.statement, Statement.walk]
      exact binding_follows known bound start walk
  | .leave value span, start, walk => by
      simp only [Compiling.statement]
      exact departure_follows known value span start walk
  | .expression value span, start, walk => by
      simp only [Compiling.statement, Statement.walk]
      refine bind (expression_follows known value start walk) fun code complete => ?_
      exact Follows.pure (complete_emit complete rfl)

theorem departure_follows (known : Prop) : ∀ (value : Option Expression) (span : Span)
    (start : Nat) (walk : Walk),
    Follows known Fragment.Complete (Compiling.departure value span start) walk
      ((Statement.leave value span).walk walk)
  | none, span, start, walk => by
      simp only [Compiling.departure, Statement.walk]
      refine bind get fun compiler _ => ?_
      split
      · exact Follows.throw _
      · exact bind (Follows.pure (complete_single rfl)) fun code complete =>
          Follows.pure (complete_emit complete rfl)
  | some value, span, start, walk => by
      simp only [Compiling.departure, Statement.walk]
      refine bind get fun compiler _ => ?_
      split
      · exact Follows.throw _
      · exact bind (expression_follows known value start walk) fun code complete =>
          Follows.pure (complete_emit complete rfl)

theorem statements_follows (known : Prop) (ending : Ending) : ∀ (body : List Statement)
    (start : Nat) (before : Fragment), before.Complete → ∀ walk : Walk,
    Follows known Fragment.Complete (Compiling.statements ending body start before) walk
      (Statement.walkAll body walk)
  | [], start, before, complete, walk => by
      simp only [Compiling.statements, Statement.walkAll]
      exact Follows.pure (complete_emitAll ending.widths_behindOther complete)
  | [.expression value span], start, before, complete, walk => by
      simp only [Compiling.statements, Statement.walkAll, Statement.walk]
      refine bind (expression_follows known value _ walk) fun code whole => Follows.pure ?_
      exact complete_emitAll ending.widths_behindExpression (complete_append.mpr ⟨complete, whole⟩)
  | [.leave value span], start, before, complete, walk => by
      simp only [Compiling.statements, Statement.walkAll]
      refine bind (departure_follows known value span _ walk) fun code whole => Follows.pure ?_
      exact complete_emitAll ending.widths_behindLeave (complete_append.mpr ⟨complete, whole⟩)
  | [.bind bound], start, before, complete, walk => by
      simp only [Compiling.statements, Statement.walkAll]
      refine bind (statement_follows known (.bind bound) _ walk) fun code whole => Follows.pure ?_
      exact complete_emitAll ending.widths_behindOther (complete_append.mpr ⟨complete, whole⟩)
  | first :: second :: rest, start, before, complete, walk => by
      simp only [Compiling.statements]
      rw [Statement.walkAll]
      refine bind (statement_follows known first _ walk) fun code whole => ?_
      exact statements_follows known ending (second :: rest) start _
        (complete_append.mpr ⟨complete, whole⟩) _

end

/-- The compiler gives no function more slots than an instruction can name. -/
theorem CompiledAs.few {routine : Routine} {body : Function} {constants : Array Value}
    (compiled : CompiledAs routine body constants) : body.locals ≤ Limit.locals.bound := by
  obtain ⟨before, after, code, ran, reads, inner, -, locals, definitions, -, -, -, -⟩ := compiled
  obtain ⟨-, behind, grows⟩ := (statements_follows False .leave routine.body 0 .empty
    complete_empty routine.walk).of_ok reads ran
  rw [locals, ← definitions]
  exact behind.slots (grows.isGlobal.trans inner)

end MonkeyLang
