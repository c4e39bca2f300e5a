import MonkeyLang.Proofs.Session.Batch
import MonkeyLang.Proofs.Session.Reading

/-!
# Inputs that are one expression

Literals, names and operators can be evaluated in any session: nothing is called, and nothing
changes. Of such an expression it is known how many constants it takes, how many values wait on
the stack at most, and what it comes to (`Session.Evaluates`), and this is put together from its
parts.

The run of a program shows what its evaluation tells. So if an input is such an expression, the
session replies with what the expression comes to, as soon as it is given enough steps
(`Session.Sound.replies`), and the same is told of a text that is run alone
(`evaluate_of_evaluates`).
-/

set_option autoImplicit false

namespace MonkeyLang

open Stateful

/-- A program that is one expression yields what the expression evaluates to. -/
theorem Evaluator.run_expression (routines : Nat → Routine) (fuel : Nat) (capacity : Capacity)
    (value : Expression) (whole : Span) (walk : Walk) (store : Store) :
    run routines fuel capacity [.expression value whole] walk store =
      (expression (invoke routines fuel) fuel value walk >>= fun result => pure (some result))
        ⟨capacity, 0, 1⟩ store := by
  simp only [run, statements, statement, bind_pure]

/-! ## Expressions without calls -/

/-- An expression that compiles with at most `count` further constants, and that comes to the
outcome if there is room for `need` more values. -/
structure Session.Evaluates (session : Session) (count need : Nat) (value : Expression)
    (outcome : Except Fault Value) : Prop where
  compiles : ∀ start (compiler : Compiler), compiler.scope = session.scope →
    count ≤ Limit.constants.bound - compiler.constants.size →
    ∃ code next, Compiling.expression value start compiler = .ok code next ∧
      next.scope = session.scope ∧ next.warnings = compiler.warnings ∧
      next.constants.size ≤ compiler.constants.size + count
  scope : ∀ walk, (value.walk walk).scope = walk.scope
  comes : ∀ invoke turns (walk : Walk) held, walk.scope = session.scope.reached →
    held + need ≤ session.limits.stackSize →
    Evaluator.expression invoke turns value walk ⟨session.limits.capacity, held, 1⟩ session.store =
      Evaluating.ofResult outcome ⟨session.limits.capacity, held, 1⟩ session.store

/-- Outside of all functions the name stands for the value. -/
def Session.Binds (session : Session) (name : String) (value : Value) : Prop :=
  ∃ symbol, session.scope.resolve? name = some symbol ∧ symbol.held session.globals = .ok value

/-- What a name stands for is what the evaluator finds in its slot. -/
theorem Session.Sound.valueIn_binds {session : Session} (sound : session.Sound) {name : String}
    {value : Value} (binds : session.Binds name value) (held : Nat) :
    Evaluating.valueIn (session.scope.reached.resolve? name)
        ⟨session.limits.capacity, held, 1⟩ session.store = .ok value session.store := by
  obtain ⟨symbol, found, stands⟩ := binds
  have outside := sound.storage_ne_frame found
  rw [Scope.resolve?_reached, found, Option.map_some]
  obtain ⟨label, storage, index⟩ := symbol
  cases storage with
  | frame => exact absurd rfl outside
  | global =>
      have slot : (Compiling.load ⟨label, .global, index⟩).operand = index % Limit.globals.bound := rfl
      unfold Symbol.held at stands
      dsimp only at stands
      rw [slot] at stands
      cases there : session.globals[index % Limit.globals.bound]? with
      | none =>
          rw [there] at stands
          cases stands
      | some kept =>
          rw [there] at stands
          obtain rfl := Except.ok.inj stands
          obtain ⟨inside, same⟩ := Array.getElem?_eq_some_iff.mp there
          rw [sound.globalsSize] at inside
          refine (Host.valueIn_global _ _ _ _ _ _).trans ((if_pos inside).trans ?_)
          simp [Session.store, there]
  | builtin =>
      obtain ⟨table, inside, member⟩ := Scope.mem_of_resolve? found
      have known : index < Builtin.all.length := sound.scope.builtins table inside _ member rfl
      have operand : (Compiling.load ⟨label, .builtin, index⟩).operand = index :=
        Instruction.operand_of_lt (Nat.lt_trans known (by decide))
      have callee : Builtin.ofIndex? index = some _ := List.getElem?_eq_getElem known
      unfold Symbol.held at stands
      dsimp only at stands
      rw [operand, callee] at stands
      obtain rfl := Except.ok.inj stands
      show EStateM.Result.ok (((Builtin.ofIndex? index).map Value.builtin).getD .null) _ = _
      rw [callee]
      rfl

namespace Session.Evaluates

variable {session : Session} {count need more less : Nat} {first second : Value}
  {left right : Expression}

theorem literal (session : Session) (written : Literal) (span : Span) :
    session.Evaluates 1 1 (.literal written span) (.ok written.value) where
  compiles := by
    intro start compiler scope few
    simp only [Compiling.expression]
    have room : compiler.constants.size < 65536 := Nat.lt_of_sub_pos few
    have constant := fun value => (Compiling.constant_cases value span compiler).trans (if_pos room)
    match written with
    | .integer value => exact ⟨_, _, constant _, scope, rfl, Nat.le_of_eq (Array.size_push _)⟩
    | .float value => exact ⟨_, _, constant _, scope, rfl, Nat.le_of_eq (Array.size_push _)⟩
    | .string value => exact ⟨_, _, constant _, scope, rfl, Nat.le_of_eq (Array.size_push _)⟩
    | .boolean true => exact ⟨_, _, rfl, scope, rfl, Nat.le_succ _⟩
    | .boolean false => exact ⟨_, _, rfl, scope, rfl, Nat.le_succ _⟩
  scope walk := by
    cases written <;> rfl
  comes := by
    intro invoke turns walk held _ room
    simp only [Evaluator.expression]
    exact (Host.yield_apply _ _ _ _ _).trans (if_pos room)

theorem name {text : String} {value : Value} (sound : session.Sound)
    (binds : session.Binds text value) (span : Span) :
    session.Evaluates 0 1 (.name ⟨text, span⟩) (.ok value) where
  compiles := by
    intro start compiler scope _
    obtain ⟨symbol, found, -⟩ := binds
    have resolved : Compiling.resolve ⟨text, span⟩ compiler = .ok symbol compiler :=
      Compiling.resolve_eq_ok.mpr ⟨by rw [scope, found],
        fun frame => absurd frame (sound.storage_ne_frame found), rfl⟩
    simp only [Compiling.expression]
    exact ⟨_, compiler, bind_of_ok resolved, scope, rfl, Nat.le_refl _⟩
  scope _ := rfl
  comes := by
    intro invoke turns walk held scope room
    simp only [Evaluator.expression]
    rw [scope]
    exact (bind_of_ok (sound.valueIn_binds binds held)).trans
      ((Host.yield_apply _ _ _ _ _).trans (if_pos room))

theorem unary (operator : UnaryOperator) (operand : session.Evaluates count need left (.ok first))
    (span : Span) :
    session.Evaluates count need (.unary operator left span) (operator.apply first) where
  compiles := by
    intro start compiler scope few
    obtain ⟨code, next, ran, behind⟩ := operand.compiles start compiler scope few
    simp only [Compiling.expression]
    exact ⟨_, next, bind_of_ok ran, behind⟩
  scope := operand.scope
  comes := by
    intro invoke turns walk held scope room
    simp only [Evaluator.expression]
    exact bind_of_ok (operand.comes invoke turns walk held scope room)

/-- Two expressions, one behind the other. -/
theorem compiles_pair {outcome result : Except Fault Value}
    (one : session.Evaluates count need left outcome)
    (other : session.Evaluates more need right result) (join : Fragment → Fragment → Fragment)
    (start : Nat) {compiler : Compiler} (scope : compiler.scope = session.scope)
    (few : count + more ≤ Limit.constants.bound - compiler.constants.size) :
    ∃ code next,
      (do
        let first ← Compiling.expression left start
        let second ← Compiling.expression right (start + first.size)
        return join first second : Compiling Fragment) compiler = .ok code next ∧
      next.scope = session.scope ∧ next.warnings = compiler.warnings ∧
      next.constants.size ≤ compiler.constants.size + (count + more) := by
  obtain ⟨code, middle, ran, scope, warnings, size⟩ :=
    one.compiles start compiler scope (by omega)
  obtain ⟨rest, next, reran, behind, still, total⟩ :=
    other.compiles (start + code.size) middle scope (by omega)
  refine ⟨join code rest, next, ?_, behind, still.trans warnings, by omega⟩
  rw [bind_of_ok ran, bind_of_ok reran]
  rfl

/-- The operand that is evaluated first waits for the other one. -/
theorem binary (operator : BinaryOperator)
    (one : session.Evaluates count need left (.ok first))
    (other : session.Evaluates more need right (.ok second)) (span : Span) :
    session.Evaluates (count + more) (need + 1) (.binary operator left right span)
      (operator.apply first second) where
  compiles := by
    intro start compiler scope few
    simp only [Compiling.expression]
    split
    · rw [Nat.add_comm count] at few ⊢
      exact other.compiles_pair one _ start scope few
    · exact one.compiles_pair other _ start scope few
  scope walk := by
    simp only [Expression.walk]
    split
    · rw [one.scope, other.scope]
    · rw [other.scope, one.scope]
  comes := by
    intro invoke turns walk held scope room
    have now : held + need ≤ session.limits.stackSize := by omega
    have later : held + 1 + need ≤ session.limits.stackSize := by omega
    simp only [Evaluator.expression]
    split
    · have behind : (right.walk walk).scope = session.scope.reached := (other.scope walk).trans scope
      exact (bind_of_ok (other.comes invoke turns walk held scope now)).trans
        (bind_of_ok (one.comes invoke turns (right.walk walk) (held + 1) behind later))
    · have behind : (left.walk walk).scope = session.scope.reached := (one.scope walk).trans scope
      exact (bind_of_ok (one.comes invoke turns walk held scope now)).trans
        (bind_of_ok (other.comes invoke turns (left.walk walk) (held + 1) behind later))

end Session.Evaluates

/-! ## What is replied -/

namespace Session

variable {session : Session} {count need : Nat} {value : Expression} {outcome : Except Fault Value}

/-- An input that is one expression is accepted without a warning, and its run shows what the
expression comes to. -/
theorem Sound.comesTo_outcome (sound : session.Sound)
    (evaluates : session.Evaluates count need value outcome)
    (few : count ≤ Limit.constants.bound - session.constants.size)
    (room : need ≤ session.limits.stackSize) (whole : Span) :
    ∃ compiled next,
      session.compiler.compile ⟨[.expression value whole]⟩ = (.ok compiled, next) ∧
        next.warnings = #[] ∧
        (Machine.loaded compiled session.limits session.globals).ComesTo fun machine =>
          machine.shown? ⟨[.expression value whole]⟩ =
            some ⟨outcome.map fun value => some (value.linked compiled.constants), "",
              session.globals⟩ := by
  obtain ⟨code, next, ran, -, quiet, -⟩ := evaluates.compiles 0 session.compiler rfl few
  have made : session.compiler.compile ⟨[.expression value whole]⟩ =
      (.ok ⟨(code.emit .pop []).encode, next.constants⟩, next) := by
    refine Compiler.compile_eq_ok.mpr ⟨_, ?_, rfl⟩
    rw [Compiling.statements_discard_singleton, Compiling.statement]
    exact bind_of_ok ran
  obtain ⟨routines, linked⟩ := sound.linked
  have globals := sound.globals_store (sound.compiled linked made).2
  refine ⟨_, next, made, quiet, ?_⟩
  have tells := Host.tells_of_ends (fun fuel => sound.ends linked made fuel) rfl
    fun _ _ _ => Evaluator.statements_isSome
  have comes := evaluates.comes
    (Evaluator.invoke (Statement.walkAll [.expression value whole] (session.walk routines)).routines 0)
    0 (session.walk routines) 0 rfl (by omega)
  have told : (Host.mk next.constants session.limits "").shown? (Evaluator.run
      (Statement.walkAll [.expression value whole] (session.walk routines)).routines 0
      session.limits.capacity [.expression value whole] (session.walk routines) session.store) =
        some ⟨outcome.map fun value => some (value.linked next.constants), "",
          session.globals⟩ := by
    rw [Evaluator.run_expression]
    cases outcome with
    | ok result =>
        refine (congrArg (Host.shown? _) (bind_of_ok comes)).trans ?_
        rw [← globals]
        rfl
    | error fault =>
        refine (congrArg (Host.shown? _) (bind_of_error comes)).trans ?_
        rw [← globals]
        rfl
  rcases tells 0 with ⟨shown, found, comes⟩ | ⟨silent, -⟩
  · obtain rfl := Option.some.inj (found.symm.trans told)
    exact comes
  · cases silent.symm.trans told

/-- The reply to an input without warnings whose run showed this. -/
def Reply.ofShown (shown : Shown) : Reply :=
  match shown.result with
  | .ok value => ⟨value, [], shown.output⟩
  | .error fault => ⟨none, [fault.diagnostic], shown.output⟩

theorem evaluate_of_shown {source : List Char} {program : Program} {compiled : CompiledProgram}
    {next : Compiler} {steps : Nat} {shown : Shown} (read : Program.ofSource source = .ok program)
    (made : session.compiler.compile program = (.ok compiled, next))
    (quiet : next.warnings = #[])
    (seen : ((Machine.loaded compiled session.limits session.globals).advance steps).shown? program =
      some shown) : (session.evaluate steps source).1 = .ofShown shown := by
  unfold evaluate
  rw [read]
  dsimp only
  rw [execute_of_ok made, Machine.run_load]
  dsimp only
  rw [quiet]
  generalize (Machine.loaded compiled session.limits session.globals).advance steps = machine at seen
  obtain ⟨outcome, came, rfl⟩ := Option.map_eq_some_iff.mp seen
  rw [came]
  cases outcome <;> rfl

/-- The session replies so as soon as it is given enough steps. -/
def Replies (session : Session) (source : List Char) (reply : Reply) : Prop :=
  ∃ enough, ∀ steps, enough ≤ steps → (session.evaluate steps source).1 = reply

/-- The reply that tells what an expression comes to, and nothing else. -/
def Reply.ofOutcome (outcome : Except Fault Value) : Reply :=
  .ofShown ⟨outcome.map some, "", #[]⟩

/-- **An input that is one expression is replied to with what the expression comes to.** -/
theorem Sound.replies (sound : session.Sound)
    (evaluates : session.Evaluates count need value outcome)
    (few : count ≤ Limit.constants.bound - session.constants.size)
    (room : need ≤ session.limits.stackSize)
    (plain : ∀ result constants, outcome = .ok result → result.linked constants = result)
    {source : List Char} {whole : Span}
    (read : Program.ofSource source = .ok ⟨[.expression value whole]⟩) :
    session.Replies source (.ofOutcome outcome) := by
  obtain ⟨compiled, next, made, quiet, count, shows, -⟩ :=
    sound.comesTo_outcome evaluates few room whole
  refine ⟨count + 1, fun steps enough => ?_⟩
  rw [evaluate_of_shown read made quiet (shows steps enough)]
  cases outcome with
  | ok result =>
      show Reply.mk (some (result.linked compiled.constants)) [] "" = _
      rw [plain result _ rfl]
      rfl
  | error fault => rfl

end Session

/-! ## Texts that are run alone -/

/-- What is told of a text without warnings whose run showed this. -/
def Evaluation.ofShown (shown : Shown) : Evaluation where
  result := some <| match shown.result with
    | .ok value => .ok ⟨value.getD .null, []⟩
    | .error fault => .error [fault.diagnostic]
  output := shown.output

theorem evaluate_of_shown {source : List Char} {program : Program} {compiled : CompiledProgram}
    {next : Compiler} {steps : Nat} {limits : Limits} {shown : Shown}
    (read : Program.ofSource source = .ok program)
    (made : Compiler.new.compile program = (.ok compiled, next)) (quiet : next.warnings = #[])
    (seen : ((Machine.loaded compiled limits (Globals.ofSize limits.globalsSize)).advance
      steps).shown? program = some shown) : evaluate steps limits source = .ofShown shown := by
  have accepted : compileSource source = .ok ⟨program, compiled, []⟩ := by
    unfold compileSource
    rw [read]
    simp only [bind, Except.bind]
    rw [made]
    dsimp only
    rw [quiet]
    rfl
  unfold evaluate
  rw [accepted]
  dsimp only
  rw [Machine.run_load]
  generalize (Machine.loaded compiled limits (Globals.ofSize limits.globalsSize)).advance steps =
    machine at seen
  obtain ⟨outcome, came, rfl⟩ := Option.map_eq_some_iff.mp seen
  rw [came]
  cases outcome <;> rfl

/-- A text that is one expression is evaluated to what the expression comes to. -/
theorem evaluate_of_evaluates {limits : Limits} {count need : Nat} {value : Expression}
    {whole : Span} {outcome : Except Fault Value} {source : List Char}
    (evaluates : (Session.new limits).Evaluates count need value outcome)
    (few : count ≤ Limit.constants.bound) (room : need ≤ limits.stackSize)
    (plain : ∀ result constants, outcome = .ok result → result.linked constants = result)
    (read : Program.ofSource source = .ok ⟨[.expression value whole]⟩) :
    ∃ enough, ∀ steps, enough ≤ steps →
      evaluate steps limits source = .ofShown ⟨outcome.map some, "", #[]⟩ := by
  obtain ⟨compiled, next, made, quiet, count, shows, -⟩ :=
    (Session.sound_new limits).comesTo_outcome evaluates few room whole
  refine ⟨count + 1, fun steps enough =>
    (evaluate_of_shown read made quiet (shows steps enough)).trans ?_⟩
  cases outcome with
  | ok result =>
      show Evaluation.mk (some (.ok ⟨result.linked compiled.constants, []⟩)) "" = _
      rw [plain result _ rfl]
      rfl
  | error fault => rfl

/-- A text that is rejected is not run. -/
theorem evaluate_of_rejected {source : List Char} {diagnostics : List Diagnostic}
    (rejected : Program.ofSource source = .error diagnostics) (steps : Nat) (limits : Limits) :
    evaluate steps limits source = ⟨some (.error diagnostics), ""⟩ := by
  have refused : compileSource source = .error diagnostics := by
    unfold compileSource
    rw [rejected]
    rfl
  unfold evaluate
  rw [refused]

end MonkeyLang
