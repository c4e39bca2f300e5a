import MonkeyLang.Proofs.Bytecode.Decoding
import MonkeyLang.Proofs.Compiler.Mentions
import MonkeyLang.Proofs.Compiler.Tracking

/-!
# The compiler resolves names as the walk does

The indices of global slots in the code of a part of a program are those of the global symbols
that the part uses, in the same order (`Fragment.Names`). This holds of every part of the
compiler and of every function that it adds to the constants (`expression_resolves` and its
companions), whether the compilation comes to its end or not.

Each part of the compiler only binds more names. It succeeds only if all global slots it has
taken exist, and it is refused for the number of global slots exactly when it has taken one more
(`Accepted`, `Stopped`).
-/

set_option autoImplicit false

namespace MonkeyLang

/-! ## The indices in the code -/

/-- The instruction reads or writes the slots of these symbols. -/
structure Instruction.Names (instruction : Instruction) (symbols : List Symbol) : Prop where
  complete : instruction.Complete
  slot : instruction.slot?.toList = symbols.map Symbol.index

theorem Compiling.load_names (symbol : Symbol) : (load symbol).Names symbol.globals := by
  refine ⟨complete_load symbol, ?_⟩
  obtain ⟨_, storage, _⟩ := symbol
  cases storage <;> rfl

/-- The code reads and writes the slots of these symbols in turn, and the scope has them. -/
structure Fragment.Names (code : Fragment) (symbols : List Symbol) (scope : Scope) : Prop where
  complete : code.Complete
  slots : code.slots = symbols.map Symbol.index
  known : ∀ symbol ∈ symbols, scope.Knows symbol

namespace Fragment.Names

variable {code rest : Fragment} {symbols others : List Symbol} {scope later : Scope}

theorem empty (scope : Scope) : Names .empty [] scope :=
  ⟨complete_empty, rfl, nofun⟩

theorem grow (names : code.Names symbols scope) (grows : scope.Grows later) :
    code.Names symbols later :=
  ⟨names.complete, names.slots, fun symbol member => grows.knows (names.known symbol member)⟩

theorem enter (names : code.Names symbols scope) : code.Names symbols scope.enter :=
  ⟨names.complete, names.slots, fun symbol member =>
    Scope.knows_enter.mpr (names.known symbol member)⟩

/-- A function uses no global symbols but those around it. -/
theorem leave (names : code.Names symbols later) (grows : scope.enter.Grows later) :
    code.Names symbols scope :=
  ⟨names.complete, names.slots, fun symbol member =>
    Scope.knows_enter.mp (grows.knows_of_inner rfl (names.known symbol member))⟩

theorem append (first : code.Names symbols scope) (second : rest.Names others scope) :
    (code ++ rest).Names (symbols ++ others) scope where
  complete := complete_append.mpr ⟨first.complete, second.complete⟩
  slots := by rw [slots_append, first.slots, second.slots, List.map_append]
  known := by
    intro symbol member
    rcases List.mem_append.mp member with member | member
    · exact first.known symbol member
    · exact second.known symbol member

theorem push {instruction : Instruction} (names : code.Names symbols scope)
    (named : instruction.Names others) (known : ∀ symbol ∈ others, scope.Knows symbol) :
    (code.push instruction).Names (symbols ++ others) scope where
  complete := complete_push.mpr ⟨names.complete, named.complete⟩
  slots := by rw [slots_push, names.slots, named.slot, List.map_append]
  known := by
    intro symbol member
    rcases List.mem_append.mp member with member | member
    · exact names.known symbol member
    · exact known symbol member

theorem plain {instruction : Instruction} (names : code.Names symbols scope)
    (complete : instruction.Complete) (other : instruction.slot? = none) :
    (code.push instruction).Names symbols scope := by
  have named : instruction.Names [] := ⟨complete, by rw [other]; rfl⟩
  have pushed := names.push named nofun
  rwa [List.append_nil] at pushed

theorem emit (names : code.Names symbols scope) (opcode : Opcode) (bare : opcode.widths = []) :
    (code.emit opcode []).Names symbols scope := by
  refine names.plain (by rw [Instruction.Complete, bare]) (Instruction.slot?_of_ne ?_ ?_)
  · rintro rfl
    cases bare
  · rintro rfl
    cases bare

theorem emitAll {opcodes : List Opcode} (bare : ∀ opcode ∈ opcodes, opcode.widths = [])
    (names : code.Names symbols scope) : (code.emitAll opcodes).Names symbols scope := by
  induction opcodes generalizing code with
  | nil => exact names
  | cons opcode opcodes ih =>
      refine ih (fun other member => bare other (List.mem_cons_of_mem _ member)) ?_
      exact names.emit opcode (bare opcode List.mem_cons_self)

theorem jump (names : code.Names symbols scope) (target : Nat) :
    (code.emit .jump [target]).Names symbols scope :=
  names.plain rfl rfl

/-- A test with a part behind it that is jumped over if the test fails. -/
theorem guarded (test : code.Names symbols scope) (pass : rest.Names others later)
    (grows : scope.Grows later) (target : Nat) :
    (code.emit .jumpNotTruthy [target] ++ rest).Names (symbols ++ others) later := by
  have tested : (code.emit .jumpNotTruthy [target]).Names symbols later :=
    (test.grow grows).plain rfl rfl
  exact tested.append pass

end Fragment.Names

/-! ## The functions among the constants -/

/-- Every function among the constants reads and writes the slots of the symbols of its routine. -/
def Resolved (routines : Nat → Routine) (constants : Array Value) (scope : Scope) : Prop :=
  ∀ (number : Nat) (body : Function), constants[number]? = some (.function body) →
    ∃ code : Fragment, body.code = code.encode ∧ code.Names (routines number).globals scope

namespace Resolved

variable {routines others : Nat → Routine} {constants : Array Value} {scope later : Scope}

theorem grow (resolved : Resolved routines constants scope) (grows : scope.Grows later) :
    Resolved routines constants later := by
  intro number body found
  obtain ⟨code, stream, names⟩ := resolved number body found
  exact ⟨code, stream, names.grow grows⟩

theorem leave (resolved : Resolved routines constants later) (grows : scope.enter.Grows later) :
    Resolved routines constants scope := by
  intro number body found
  obtain ⟨code, stream, names⟩ := resolved number body found
  exact ⟨code, stream, names.leave grows⟩

/-- Routines with numbers beyond the constants do not matter. -/
theorem reroute (resolved : Resolved routines constants scope)
    (same : ∀ number < constants.size, others number = routines number) :
    Resolved others constants scope := by
  intro number body found
  rw [same number (Array.getElem?_eq_some_iff.mp found).1]
  exact resolved number body found

theorem push {value : Value} (resolved : Resolved routines constants scope)
    (named : ∀ body, value = .function body → ∃ code : Fragment, body.code = code.encode ∧
      code.Names (routines constants.size).globals scope) :
    Resolved routines (constants.push value) scope := by
  intro number body found
  rw [Array.getElem?_push] at found
  split at found
  · next same =>
      subst same
      exact named body (Option.some.inj found)
  · exact resolved number body found

end Resolved

/-! ## Parts of the compiler -/

/-- A program is refused because it has too many global names. -/
def CompileFault.isGlobalLimit : CompileFault → Bool
  | .limitExceeded .globals _ => true
  | _ => false

/-- What a part of the compiler that succeeds has done to the scope. -/
structure Accepted (earlier later : Scope) : Prop where
  grows : earlier.Grows later
  slots : earlier.isGlobal = true →
    later.definitions ≤ max earlier.definitions Limit.globals.bound

/-- What a part of the compiler that fails has done to the scope. -/
structure Stopped (fault : CompileFault) (earlier later : Scope) : Prop where
  grows : earlier.Grows later
  refused : fault.isGlobalLimit = true →
    earlier.isGlobal = true ∧ Limit.globals.bound < later.definitions
  otherwise : fault.isGlobalLimit = false → earlier.isGlobal = true →
    later.definitions ≤ max earlier.definitions Limit.globals.bound

namespace Accepted

variable {first second third scope : Scope}

theorem refl (scope : Scope) : Accepted scope scope :=
  ⟨.refl, fun _ => Nat.le_max_left _ _⟩

theorem slots_trans (left : Accepted first second) (outer : first.isGlobal = true)
    (few : third.definitions ≤ max second.definitions Limit.globals.bound) :
    third.definitions ≤ max first.definitions Limit.globals.bound := by
  have earlier := left.slots outer
  omega

theorem trans (left : Accepted first second) (right : Accepted second third) :
    Accepted first third where
  grows := left.grows.trans right.grows
  slots := fun outer => left.slots_trans outer (right.slots (left.grows.isGlobal.trans outer))

theorem stop {fault : CompileFault} (left : Accepted first second)
    (right : Stopped fault second third) : Stopped fault first third where
  grows := left.grows.trans right.grows
  refused := fun refused => by
    obtain ⟨outer, many⟩ := right.refused refused
    exact ⟨left.grows.isGlobal.symm.trans outer, many⟩
  otherwise := fun other outer =>
    left.slots_trans outer (right.otherwise other (left.grows.isGlobal.trans outer))

end Accepted

/-- A fault that has nothing to do with the number of global names. -/
theorem Stopped.unchanged {fault : CompileFault} (other : fault.isGlobalLimit = false)
    (scope : Scope) : Stopped fault scope scope where
  grows := .refl
  refused := fun refused => by
    rw [other] at refused
    cases refused
  otherwise := fun _ _ => Nat.le_max_left _ _

/-- The walk is where the compiler is. The constants are resolved if those in front of it are. -/
structure Beside (known : Prop) (walk : Walk) (compiler : Compiler) : Prop where
  scope : walk.scope = compiler.scope
  number : walk.number = compiler.constants.size
  resolved : known → Resolved walk.routines compiler.constants compiler.scope

/-- How a part of the compiler ends that started with a compiler. -/
def Settles {α : Type} (known : Prop) (good : α → Prop) (compiler : Compiler) (walk : Walk) :
    EStateM.Result CompileFault Compiler α → Prop
  | .ok value next =>
      good value ∧ Beside known walk next ∧ Accepted compiler.scope next.scope
  | .error fault next =>
      (known → Resolved walk.routines next.constants next.scope) ∧
        next.constants.size ≤ walk.number ∧ Stopped fault compiler.scope next.scope

/-- A part of the compiler that resolves names as the walk does between two places. -/
def Resolves {α : Type} (known : Prop) (good : α → Prop) (work : Compiling α)
    (before behind : Walk) : Prop :=
  ∀ compiler : Compiler, Beside known before compiler →
    Settles known good compiler behind (work compiler)

/-- Code of a part of a program that uses these symbols. -/
abbrev Resolves.Code (known : Prop) (symbols : List Symbol) (work : Compiling Fragment)
    (before behind : Walk) : Prop :=
  Resolves known (fun code => code.Names symbols behind.scope) work before behind

namespace Resolves

variable {α β : Type} {known : Prop} {good : α → Prop} {well : β → Prop}
  {walk before middle behind : Walk}

theorem pure {value : α} (holds : good value) : Resolves known good (pure value) walk walk :=
  fun _ beside => ⟨holds, beside, .refl _⟩

theorem throw {fault : CompileFault} (later : before.Later behind)
    (other : fault.isGlobalLimit = false) : Resolves known good (throw fault) before behind := by
  intro compiler beside
  have few : compiler.constants.size ≤ before.number := Nat.le_of_eq beside.number.symm
  refine ⟨fun holds => ?_, Nat.le_trans few later.number, .unchanged other _⟩
  exact (beside.resolved holds).reroute fun number below =>
    later.routines number (Nat.lt_of_lt_of_le below few)

theorem bind {work : Compiling α} {rest : α → Compiling β} (later : middle.Later behind)
    (works : Resolves known good work before middle)
    (rests : ∀ value, good value → Resolves known well (rest value) middle behind) :
    Resolves known well (work >>= rest) before behind := by
  intro compiler beside
  have worked := works compiler beside
  cases ran : work compiler with
  | error fault next =>
      rw [ran] at worked
      rw [Stateful.bind_of_error ran]
      obtain ⟨resolved, few, stopped⟩ := worked
      refine ⟨fun holds => ?_, Nat.le_trans few later.number, stopped⟩
      exact (resolved holds).reroute fun number below =>
        later.routines number (Nat.lt_of_lt_of_le below few)
  | ok value between =>
      rw [ran] at worked
      obtain ⟨fine, moved, accepted⟩ := worked
      have rested := rests value fine between moved
      rw [Stateful.bind_of_ok ran]
      cases reran : rest value between with
      | error fault next =>
          rw [reran] at rested
          exact ⟨rested.1, rested.2.1, accepted.stop rested.2.2⟩
      | ok other next =>
          rw [reran] at rested
          exact ⟨rested.1, rested.2.1, accepted.trans rested.2.2⟩

theorem weaken {relaxed : α → Prop} {work : Compiling α}
    (resolves : Resolves known good work before behind)
    (implies : ∀ value, good value → relaxed value) :
    Resolves known relaxed work before behind := by
  intro compiler beside
  have worked := resolves compiler beside
  cases ran : work compiler with
  | error fault next =>
      rw [ran] at worked
      exact worked
  | ok value next =>
      rw [ran] at worked
      exact ⟨implies value worked.1, worked.2⟩

/-- What the walk knows of the compiler. -/
theorem get : Resolves known (fun compiler => compiler.scope = walk.scope)
    (MonadState.get : Compiling Compiler) walk walk :=
  fun _ beside => ⟨beside.scope.symm, beside, .refl _⟩

theorem require {holds : Bool} {limit : Limit} {span : Span} (other : limit ≠ .globals) :
    Resolves known (fun _ => True) (Compiling.require holds limit span) walk walk := by
  unfold Compiling.require
  split
  · exact pure trivial
  · exact throw (.refl _) (by cases limit <;> simp_all [CompileFault.isGlobalLimit])

theorem requireTarget (target : Nat) (span : Span) :
    Resolves known (fun _ => True) (Compiling.requireTarget target span) walk walk :=
  require nofun

theorem resolve (name : Name) :
    Resolves known (fun symbol => walk.scope.resolve? name.text = some symbol)
      (Compiling.resolve name) walk walk := by
  refine bind (.refl _) get fun compiler scope => ?_
  dsimp only
  rw [← scope]
  cases found : compiler.scope.resolve? name.text with
  | none => exact throw (.refl _) rfl
  | some symbol =>
      dsimp only
      split
      · exact throw (.refl _) rfl
      · exact pure rfl

theorem store (name : Name) (symbol : Symbol) :
    Resolves known (fun instruction => instruction.Names symbol.globals)
      (Compiling.store name symbol) walk walk := by
  obtain ⟨_, storage, _⟩ := symbol
  cases storage with
  | global => exact pure ⟨rfl, rfl⟩
  | frame => exact pure ⟨rfl, rfl⟩
  | builtin => exact throw (.refl _) rfl

theorem null : Code known [] (Pure.pure (Fragment.single .null [])) walk walk :=
  pure ((Fragment.Names.empty _).emit .null rfl)

/-- A value that is no function becomes a constant. -/
theorem constant {value : Value} (plain : ∀ body, value ≠ .function body) (span : Span) :
    Code known [] (Compiling.constant value span) walk walk.addConstant := by
  intro compiler beside
  rw [Compiling.constant_cases]
  split
  · refine ⟨(Fragment.Names.empty _).plain rfl rfl, ⟨beside.scope, ?_, fun holds => ?_⟩, .refl _⟩
    · rw [Array.size_push, ← beside.number]
      rfl
    · exact (beside.resolved holds).push fun body same => absurd same (plain body)
  · refine ⟨beside.resolved, ?_, .unchanged rfl _⟩
    exact Nat.le_succ_of_le (Nat.le_of_eq beside.number.symm)

theorem literal (value : Literal) (span : Span) :
    Code known [] (Compiling.literal value span) walk (value.walk walk) := by
  cases value with
  | boolean value => cases value <;> exact pure ((Fragment.Names.empty _).plain rfl rfl)
  | _ =>
      simp only [Compiling.literal, Literal.walk]
      refine constant ?_ span
      intro _ same
      cases same

theorem define (name : Name) :
    Resolves known (fun symbol => symbol = (walk.scope.define name.text).1)
      (Compiling.define name) walk (walk.define name) := by
  intro compiler beside
  obtain ⟨warnings, run⟩ := Compiling.define_cases name compiler
  have grows : compiler.scope.Grows (compiler.scope.define name.text).2 := .define .refl _
  rw [run]
  split
  · next few =>
      refine ⟨by rw [beside.scope], ⟨?_, beside.number, ?_⟩, grows, fun outer => ?_⟩
      · simp only [Walk.define, beside.scope]
      · exact fun holds => (beside.resolved holds).grow grows
      · have storage : compiler.scope.storage = .global := if_pos outer
        rw [Scope.storage_define, storage] at few
        exact Nat.le_trans (Nat.succ_le_of_lt few) (Nat.le_max_right _ _)
  · next many =>
      refine ⟨fun holds => (beside.resolved holds).grow grows, Nat.le_of_eq beside.number.symm,
        grows, ?_, ?_⟩
      all_goals rw [Scope.storage_define] at many ⊢
      · intro refused
        cases outer : compiler.scope.isGlobal with
        | true =>
            rw [Scope.storage, if_pos outer] at many
            exact ⟨rfl, Nat.lt_succ_of_le (Nat.le_of_not_lt many)⟩
        | false =>
            rw [Scope.storage, if_neg (by rw [outer]; exact Bool.false_ne_true)] at refused
            cases refused
      · intro other outer
        rw [Scope.storage, if_pos outer] at other
        cases other

theorem parameters (names : List Name) :
    Resolves known (fun _ => True)
      (names.forM fun name => discard (Compiling.define name)) walk
      (names.foldl Walk.define walk) := by
  induction names generalizing walk with
  | nil => exact pure trivial
  | cons name names ih =>
      have bound : Resolves known (fun _ => True) (discard (Compiling.define name)) walk
          (walk.define name) :=
        bind (.refl _) (define name) fun _ _ => pure trivial
      exact bind (.foldl_define names _) bound fun _ _ => ih

/-- A function literal, if names are resolved in its body wherever the walk comes from. -/
theorem function {body : List Statement} {parameters : List Name}
    (body_resolves : ∀ (known : Prop) (walk : Walk), Code known (Statement.globalsAll body walk)
      (Compiling.statements .leave body 0 .empty) walk (Statement.walkAll body walk))
    (name : Option String) (span bodySpan : Span) :
    Code known [] (Compiling.function name parameters span (.mk body bodySpan)) walk
      (Block.walkFunction (.mk body bodySpan) parameters walk) := by
  intro compiler beside
  have entered : Beside known { walk with scope := walk.scope.enter }
      { compiler with scope := compiler.scope.enter } := by
    refine ⟨by rw [beside.scope], beside.number, fun holds => ?_⟩
    intro number function found
    obtain ⟨code, stream, names⟩ := beside.resolved holds number function found
    exact ⟨code, stream, names.enter⟩
  have worked := bind (Statement.walkAll_later body _) (Resolves.parameters parameters)
    (fun _ _ => body_resolves known (walk.enter parameters)) _ entered
  cases ran : (parameters.forM (fun parameter => discard (Compiling.define parameter)) >>=
      fun _ => Compiling.statements .leave body 0 .empty : Compiling Fragment)
      { compiler with scope := compiler.scope.enter } with
  | error fault inner =>
      rw [ran] at worked
      obtain ⟨resolved, few, stopped⟩ := worked
      have left : Compiling.function name parameters span (.mk body bodySpan) compiler =
          .error fault { inner with scope := compiler.scope } :=
        Stateful.bind_of_error (by simp only [Compiling.inFunction, ran])
      rw [left]
      refine ⟨fun holds => ?_, Nat.le_succ_of_le few, .unchanged ?_ _⟩
      · refine ((resolved holds).leave stopped.grows).reroute fun number below => ?_
        exact Function.update_of_ne (Nat.ne_of_lt (Nat.lt_of_lt_of_le below few)) _ _
      · cases refused : fault.isGlobalLimit with
        | false => rfl
        | true => exact absurd (stopped.refused refused).1 Bool.false_ne_true
  | ok stream inner =>
      rw [ran] at worked
      obtain ⟨-, moved, accepted⟩ := worked
      have left : Compiling.function name parameters span (.mk body bodySpan) compiler =
          Compiling.constant (.function ⟨inner.constants.size, name, parameters.length,
            inner.scope.definitions, stream.encode⟩) span { inner with scope := compiler.scope } :=
        Stateful.bind_of_ok (Compiling.inFunction_eq_ok.mpr ⟨inner, ran, rfl, rfl⟩)
      obtain ⟨_, start, bound, body_ran⟩ := Stateful.bind_eq_ok.mp ran
      have arrived := Resolves.parameters parameters _ entered
      rw [bound] at arrived
      obtain ⟨-, started, -⟩ := arrived
      -- The routine has its own walk through the body, which knows nothing of other routines.
      have again := body_resolves False
        (.start (walk.enter parameters).scope (walk.enter parameters).number) start
        ⟨started.scope, started.number, False.elim⟩
      rw [body_ran] at again
      obtain ⟨names, there, -⟩ := again
      rw [there.scope] at names
      have number : (Statement.walkAll body (walk.enter parameters)).number =
          inner.constants.size := moved.number
      rw [left, Compiling.constant_cases]
      split
      · refine ⟨(Fragment.Names.empty _).plain rfl rfl, ⟨beside.scope, ?_, fun holds => ?_⟩, .refl _⟩
        · rw [Array.size_push, ← number]
          rfl
        · have kept : Resolved (Block.walkFunction (.mk body bodySpan) parameters walk).routines
              inner.constants compiler.scope :=
            ((moved.resolved holds).leave accepted.grows).reroute fun index below =>
              Function.update_of_ne (Nat.ne_of_lt (number ▸ below)) _ _
          refine kept.push ?_
          rintro _ ⟨⟩
          refine ⟨stream, rfl, ?_⟩
          rw [← number]
          simp only [Block.walkFunction, Walk.close, Function.update_self]
          exact names.leave accepted.grows
      · refine ⟨fun holds => ?_, Nat.le_succ_of_le (Nat.le_of_eq number.symm), .unchanged rfl _⟩
        refine ((moved.resolved holds).leave accepted.grows).reroute fun index below => ?_
        exact Function.update_of_ne (Nat.ne_of_lt (number ▸ below)) _ _

end Resolves

/-! ## The parts of a program -/

open Resolves Fragment.Names

/-- The code that loads what a name stands for. -/
theorem Fragment.Names.load {code : Fragment} {symbols : List Symbol} {scope : Scope} {name : Name}
    {symbol : Symbol} (names : code.Names symbols scope)
    (found : scope.resolve? name.text = some symbol) :
    (code.push (Compiling.load symbol)).Names (symbols ++ scope.globals name) scope := by
  have globals : scope.globals name = symbol.globals := by rw [Scope.globals, found]; rfl
  rw [globals]
  exact names.push (Compiling.load_names symbol) (scope.knows_of_resolve? found)

mutual

theorem expression_resolves (known : Prop) : ∀ (syntaxTree : Expression) (start : Nat)
    (walk : Walk), Resolves.Code known (syntaxTree.globals walk)
      (Compiling.expression syntaxTree start) walk (syntaxTree.walk walk)
  | .literal value span, start, walk => by
      simp only [Compiling.expression, Expression.walk, Expression.globals]
      exact literal value span
  | .name identifier, start, walk => by
      simp only [Compiling.expression, Expression.walk, Expression.globals]
      refine bind (.refl _) (resolve identifier) fun symbol found => Resolves.pure ?_
      exact (Fragment.Names.empty _).load found
  | .unary operator operand span, start, walk => by
      simp only [Compiling.expression, Expression.walk, Expression.globals]
      refine bind (.refl _) (expression_resolves known operand start walk) fun code names =>
        Resolves.pure (names.emit operator.opcode ?_)
      cases operator <;> rfl
  | .binary operator left right span, start, walk => by
      simp only [Compiling.expression, Expression.walk, Expression.globals]
      split
      · refine bind (left.walk_later _) (expression_resolves known right start walk)
          fun first firstNames => ?_
        refine bind (.refl _) (expression_resolves known left _ _) fun second secondNames =>
          Resolves.pure ?_
        exact ((firstNames.grow (left.walk_later _).scope).append secondNames).emitAll
          operator.widths_opcodes
      · refine bind (right.walk_later _) (expression_resolves known left start walk)
          fun first firstNames => ?_
        refine bind (.refl _) (expression_resolves known right _ _) fun second secondNames =>
          Resolves.pure ?_
        exact ((firstNames.grow (right.walk_later _).scope).append secondNames).emitAll
          operator.widths_opcodes
  | .conditional condition consequence none span, start, walk => by
      simp only [Compiling.expression, Expression.walk, Expression.globals]
      refine bind (consequence.walk_later _) (expression_resolves known condition start walk)
        fun test testNames => ?_
      refine bind (.refl _) (block_resolves known .keep consequence _ _)
        fun chosen chosenNames => ?_
      refine bind (.refl _) (requireTarget _ _) fun _ _ => ?_
      refine bind (.refl _) null fun other otherNames => ?_
      refine bind (.refl _) (requireTarget _ _) fun _ _ => Resolves.pure ?_
      have chosen_later := consequence.walk_later (condition.walk walk)
      rw [← List.append_nil (condition.globals walk ++ _)]
      exact ((testNames.guarded chosenNames chosen_later.scope _).jump _).append otherNames
  | .conditional condition consequence (some alternative) span, start, walk => by
      simp only [Compiling.expression, Expression.walk, Expression.globals]
      have chosen_later := consequence.walk_later (condition.walk walk)
      have other_later := alternative.walk_later (consequence.walk (condition.walk walk))
      refine bind (chosen_later.trans other_later) (expression_resolves known condition start walk)
        fun test testNames => ?_
      refine bind other_later (block_resolves known .keep consequence _ _)
        fun chosen chosenNames => ?_
      refine bind other_later (requireTarget _ _) fun _ _ => ?_
      refine bind (.refl _) (block_resolves known .keep alternative _ _)
        fun other otherNames => ?_
      refine bind (.refl _) (requireTarget _ _) fun _ _ => Resolves.pure ?_
      exact (((testNames.guarded chosenNames chosen_later.scope _).jump _).grow
        other_later.scope).append otherNames
  | .whileLoop condition body span, start, walk => by
      simp only [Compiling.expression, Expression.walk, Expression.globals]
      refine bind (body.walk_later _) (expression_resolves known condition start walk)
        fun test testNames => ?_
      refine bind (.refl _) (block_resolves known .discard body _ _) fun pass passNames => ?_
      refine bind (.refl _) (requireTarget _ _) fun _ _ => Resolves.pure ?_
      exact ((testNames.guarded passNames (body.walk_later _).scope _).jump start).emit .null rfl
  | .forLoop first condition post body span, start, walk => by
      simp only [Compiling.expression, Expression.walk, Expression.globals]
      have test_later := condition.walk_later (first.walk walk)
      have pass_later := body.walk_later (condition.walk (first.walk walk))
      have step_later := post.walk_later (body.walk (condition.walk (first.walk walk)))
      refine bind ((test_later.trans pass_later).trans step_later)
        (binding_resolves known first start walk) fun preparation preparationNames => ?_
      refine bind (pass_later.trans step_later) (expression_resolves known condition _ _)
        fun test testNames => ?_
      refine bind step_later (block_resolves known .discard body _ _) fun pass passNames => ?_
      refine bind (.refl _) (expression_resolves known post _ _) fun step stepNames => ?_
      refine bind (.refl _) (requireTarget _ _) fun _ _ => Resolves.pure ?_
      have prepared := preparationNames.grow ((test_later.trans pass_later).trans step_later).scope
      exact ((prepared.append (((testNames.guarded passNames pass_later.scope _).grow
        step_later.scope).append (stepNames.emit .pop rfl))).jump _).emit .null rfl
  | .function parameters body span, start, walk => by
      simp only [Compiling.expression, Expression.walk, Expression.globals]
      exact function_resolves known none parameters span body walk
  | .call callee arguments span, start, walk => by
      simp only [Compiling.expression, Expression.walk, Expression.globals]
      have later := Expression.walkAll_later arguments (callee.walk walk)
      refine bind ((callee.walk_later walk).trans later) (Resolves.require nofun) fun _ _ => ?_
      refine bind later (expression_resolves known callee start walk) fun code names => ?_
      refine bind (.refl _) (expressions_resolve known arguments start code _ _ names)
        fun all names => ?_
      exact Resolves.pure (names.plain rfl rfl)
  | .array elements span, start, walk => by
      simp only [Compiling.expression, Expression.walk, Expression.globals]
      refine bind (Expression.walkAll_later elements walk) (Resolves.require nofun) fun _ _ => ?_
      refine bind (.refl _) (expressions_resolve known elements start .empty [] walk (.empty _))
        fun all names => ?_
      exact Resolves.pure (names.plain rfl rfl)
  | .index target index span, start, walk => by
      simp only [Compiling.expression, Expression.walk, Expression.globals]
      refine bind (index.walk_later _) (expression_resolves known target start walk)
        fun first firstNames => ?_
      refine bind (.refl _) (expression_resolves known index _ _) fun second secondNames => ?_
      have both := (firstNames.grow (index.walk_later _).scope).append secondNames
      exact Resolves.pure (both.emit .index rfl)
  | .assign target value span, start, walk => by
      simp only [Compiling.expression, Expression.walk, Expression.globals]
      refine bind (value.walk_later walk) (resolve target) fun symbol found => ?_
      refine bind (.refl _) (expression_resolves known value start walk) fun code names => ?_
      refine bind (.refl _) (store target symbol) fun instruction named => Resolves.pure ?_
      have globals : walk.scope.globals target = symbol.globals := by
        rw [Scope.globals, found]
        rfl
      have reached := fun other member => (value.walk_later walk).scope.knows
        (walk.scope.knows_of_resolve? found other member)
      rw [globals]
      exact (names.push named reached).push (Compiling.load_names symbol) reached

theorem expressions_resolve (known : Prop) : ∀ (items : List Expression) (start : Nat)
    (before : Fragment) (symbols : List Symbol) (walk : Walk), before.Names symbols walk.scope →
    Resolves.Code known (symbols ++ Expression.globalsAll items walk)
      (Compiling.expressions items start before) walk (Expression.walkAll items walk)
  | [], start, before, symbols, walk, names => by
      simp only [Compiling.expressions, Expression.walkAll, Expression.globalsAll, List.append_nil]
      exact Resolves.pure names
  | item :: items, start, before, symbols, walk, names => by
      simp only [Compiling.expressions, Expression.walkAll, Expression.globalsAll]
      rw [← List.append_assoc]
      refine bind (Expression.walkAll_later items _) (expression_resolves known item _ walk)
        fun code own => ?_
      exact expressions_resolve known items start _ _ _
        ((names.grow (item.walk_later walk).scope).append own)

theorem function_resolves (known : Prop) (name : Option String) (parameters : List Name)
    (span : Span) : ∀ (body : Block) (walk : Walk),
    Resolves.Code known [] (Compiling.function name parameters span body) walk
      (body.walkFunction parameters walk)
  | .mk body bodySpan, _ =>
      Resolves.function (fun known walk =>
        statements_resolve known .leave body 0 .empty [] walk (.empty _)) name span bodySpan

theorem binding_resolves (known : Prop) : ∀ (bound : Binding) (start : Nat) (walk : Walk),
    Resolves.Code known (bound.globals walk) (Compiling.binding bound start) walk (bound.walk walk)
  | .mk name value span, start, walk => by
      cases value with
      | function parameters body literalSpan =>
          simp only [Compiling.binding, Binding.walk, Binding.globals]
          have later := body.walkFunction_later parameters (walk.define name)
          refine bind later (define name) fun symbol bound => ?_
          subst bound
          refine bind (.refl _) (function_resolves known (some name.text) parameters literalSpan
            body _) fun code names => ?_
          refine bind (.refl _) (store name _) fun instruction named => Resolves.pure ?_
          exact names.push named fun symbol member =>
            later.scope.knows (Scope.knows_of_define member)
      | _ =>
          simp only [Compiling.binding, Binding.walk, Binding.globals]
          refine bind (.define _ name) (expression_resolves known _ start walk)
            fun code names => ?_
          refine bind (.refl _) (define name) fun symbol bound => ?_
          subst bound
          refine bind (.refl _) (store name _) fun instruction named => Resolves.pure ?_
          exact (names.grow (.define .refl _)).push named fun symbol member =>
            Scope.knows_of_define member

theorem block_resolves (known : Prop) (ending : Ending) : ∀ (body : Block) (start : Nat)
    (walk : Walk), Resolves.Code known (body.globals walk) (Compiling.block ending body start)
      walk (body.walk walk)
  | .mk body span, start, walk => by
      simp only [Compiling.block, Block.walk, Block.globals]
      exact statements_resolve known ending body start .empty [] walk (.empty _)

theorem statement_resolves (known : Prop) : ∀ (first : Statement) (start : Nat) (walk : Walk),
    Resolves.Code known (first.globals walk) (Compiling.statement first start) walk
      (first.walk walk)
  | .bind bound, start, walk => by
      simp only [Compiling.statement, Statement.walk, Statement.globals]
      exact binding_resolves known bound start walk
  | .leave value span, start, walk => by
      simp only [Compiling.statement]
      exact departure_resolves known value span start walk
  | .expression value span, start, walk => by
      simp only [Compiling.statement, Statement.walk, Statement.globals]
      refine bind (.refl _) (expression_resolves known value start walk) fun code names => ?_
      exact Resolves.pure (names.emit .pop rfl)

theorem departure_resolves (known : Prop) : ∀ (value : Option Expression) (span : Span)
    (start : Nat) (walk : Walk),
    Resolves.Code known ((Statement.leave value span).globals walk)
      (Compiling.departure value span start) walk ((Statement.leave value span).walk walk)
  | none, span, start, walk => by
      simp only [Compiling.departure, Statement.walk, Statement.globals]
      refine bind (.refl _) get fun compiler _ => ?_
      split
      · exact Resolves.throw (.refl _) rfl
      · exact bind (.refl _) null fun code names =>
          Resolves.pure (names.emit .returnValue rfl)
  | some value, span, start, walk => by
      simp only [Compiling.departure, Statement.walk, Statement.globals]
      refine bind (value.walk_later walk) get fun compiler _ => ?_
      split
      · exact Resolves.throw (value.walk_later walk) rfl
      · exact bind (.refl _) (expression_resolves known value start walk) fun code names =>
          Resolves.pure (names.emit .returnValue rfl)

theorem statements_resolve (known : Prop) (ending : Ending) : ∀ (body : List Statement)
    (start : Nat) (before : Fragment) (symbols : List Symbol) (walk : Walk),
    before.Names symbols walk.scope →
    Resolves.Code known (symbols ++ Statement.globalsAll body walk)
      (Compiling.statements ending body start before) walk (Statement.walkAll body walk)
  | [], start, before, symbols, walk, names => by
      simp only [Compiling.statements, Statement.walkAll, Statement.globalsAll, List.append_nil]
      exact Resolves.pure (names.emitAll ending.widths_behindOther)
  | [.expression value span], start, before, symbols, walk, names => by
      simp only [Compiling.statements, Statement.walkAll, Statement.walk, Statement.globalsAll,
        Statement.globals, List.append_nil]
      refine bind (.refl _) (expression_resolves known value _ walk) fun code own =>
        Resolves.pure ?_
      exact ((names.grow (value.walk_later walk).scope).append own).emitAll
        ending.widths_behindExpression
  | [.leave value span], start, before, symbols, walk, names => by
      simp only [Compiling.statements, Statement.walkAll, Statement.globalsAll, List.append_nil]
      refine bind (.refl _) (departure_resolves known value span _ walk) fun code own =>
        Resolves.pure ?_
      exact ((names.grow ((Statement.leave value span).walk_later walk).scope).append own).emitAll
        ending.widths_behindLeave
  | [.bind bound], start, before, symbols, walk, names => by
      simp only [Compiling.statements, Statement.walkAll, Statement.globalsAll, List.append_nil]
      refine bind (.refl _) (statement_resolves known (.bind bound) _ walk) fun code own =>
        Resolves.pure ?_
      exact ((names.grow ((Statement.bind bound).walk_later walk).scope).append own).emitAll
        ending.widths_behindOther
  | first :: second :: rest, start, before, symbols, walk, names => by
      simp only [Compiling.statements]
      rw [Statement.walkAll, Statement.globalsAll, ← List.append_assoc]
      refine bind (Statement.walkAll_later (second :: rest) _)
        (statement_resolves known first _ walk) fun code own => ?_
      exact statements_resolve known ending (second :: rest) start _ _ _
        ((names.grow (first.walk_later walk).scope).append own)

end

end MonkeyLang
