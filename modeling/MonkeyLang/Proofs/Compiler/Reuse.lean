import Mathlib.Data.List.Forall2
import MonkeyLang.Proofs.Compiler.Assembling
import MonkeyLang.Proofs.Compiler.Bindings
import MonkeyLang.Proofs.Compiler.Stepwise

/-!
# One assembler for many programs

An assembler can be used for one program after another, or each program can be given to a new one
that goes on with the names and the constants of the one before. Between two programs an assembler
keeps its warnings as well, and nothing else: its one buffer is empty, and no table of a function is
there that was open when a fault occurred (`Assembler.Idle`). No step of the generator heeds the
warnings (`stepwise_ignoresWarnings`), so one compilation is the same with earlier warnings in front
(`Compiler.compile_resume`); an idle assembler compiles what the generator does, and is idle again.
So whole sequences of programs are the same step by step (`Assembler.reuse_eq_resume`), whatever
faults there are in between.
-/

set_option autoImplicit false

namespace MonkeyLang

/-- A compiler with earlier warnings in front of its own. -/
def Compiler.recalling (earlier : Array Diagnostic) (compiler : Compiler) : Compiler :=
  { compiler with warnings := earlier ++ compiler.warnings }

namespace Compiling

variable {α β : Type}

/-- An end of work with another state. -/
def endingIn (change : Compiler → Compiler) :
    EStateM.Result CompileFault Compiler α → EStateM.Result CompileFault Compiler α
  | .ok value next => .ok value (change next)
  | .error fault next => .error fault (change next)

/-- Work that ends in the same way, with a value or a fault, whatever was warned about before. -/
def IgnoresWarnings (work : Compiling α) : Prop :=
  ∀ earlier compiler,
    work (.recalling earlier compiler) = endingIn (.recalling earlier) (work compiler)

namespace IgnoresWarnings

/-! ## Steps of the compiler -/

theorem pure (value : α) : IgnoresWarnings (Pure.pure value) := fun _ _ => rfl

theorem throw (fault : CompileFault) :
    IgnoresWarnings (MonadExcept.throw fault : Compiling α) := fun _ _ => rfl

theorem bind {work : Compiling α} {rest : α → Compiling β} (works : IgnoresWarnings work)
    (rests : ∀ value, IgnoresWarnings (rest value)) : IgnoresWarnings (work >>= rest) := by
  intro earlier compiler
  have worked := works earlier compiler
  cases ran : work compiler with
  | error fault next =>
      rw [ran] at worked
      rw [Stateful.bind_of_error ran, Stateful.bind_of_error worked]
      rfl
  | ok value next =>
      rw [ran] at worked
      rw [Stateful.bind_of_ok ran, Stateful.bind_of_ok worked]
      exact rests value earlier next

/-- Work that looks at the names and the constants only. -/
theorem get {rest : Compiler → Compiling α}
    (same : ∀ earlier compiler, rest (.recalling earlier compiler) = rest compiler)
    (rests : ∀ compiler, IgnoresWarnings (rest compiler)) :
    IgnoresWarnings (MonadState.get >>= rest) := by
  intro earlier compiler
  rw [Stateful.get_bind, Stateful.get_bind, same]
  exact rests compiler earlier compiler

theorem modify {change : Compiler → Compiler}
    (same : ∀ earlier compiler,
      change (.recalling earlier compiler) = .recalling earlier (change compiler)) :
    IgnoresWarnings (modify change : Compiling PUnit) := by
  intro earlier compiler
  show EStateM.Result.ok () (change _) = .ok () _
  rw [same]

theorem require (holds : Bool) (limit : Limit) (span : Span) :
    IgnoresWarnings (Compiling.require holds limit span) := by
  cases holds with
  | true => exact pure ()
  | false => exact throw _

theorem requireTarget (target : Nat) (span : Span) :
    IgnoresWarnings (Compiling.requireTarget target span) :=
  require _ _ _

theorem resolve (name : Name) : IgnoresWarnings (Compiling.resolve name) := by
  refine get (fun _ _ => rfl) fun compiler => ?_
  dsimp only
  cases compiler.scope.resolve? name.text with
  | none => exact throw _
  | some symbol =>
      dsimp only
      split
      · exact throw _
      · exact pure symbol

/-- A name that hides a builtin function adds a warning, behind all others. -/
theorem define (name : Name) : IgnoresWarnings (Compiling.define name) := by
  -- What is left of a definition, with or without a warning before it.
  have record : IgnoresWarnings (MonadState.get >>= fun compiler : Compiler =>
      MonadStateOf.modifyGet (fun other : Compiler =>
        ((), { other with scope := (compiler.scope.define name.text).2 })) >>= fun _ =>
      Compiling.require ((compiler.scope.define name.text).1.index <
          (slotLimit (compiler.scope.define name.text).1.storage).bound)
        (slotLimit (compiler.scope.define name.text).1.storage) name.span >>= fun _ =>
      Pure.pure (compiler.scope.define name.text).1) :=
    get (fun _ _ => rfl) fun _ =>
      (modify fun _ _ => rfl).bind fun _ => (require _ _ _).bind fun _ => pure _
  refine get (fun _ _ => rfl) fun compiler => ?_
  dsimp only
  split
  · refine (modify fun earlier other => ?_).bind fun _ => record
    rw [Compiler.recalling, Compiler.recalling, Array.append_push]
  · exact record

theorem store (name : Name) (symbol : Symbol) :
    IgnoresWarnings (Compiling.store name symbol) := by
  obtain ⟨text, storage, index⟩ := symbol
  cases storage with
  | global => exact pure _
  | frame => exact pure _
  | builtin => exact throw _

theorem constant (value : Value) (span : Span) :
    IgnoresWarnings (Compiling.constant value span) := by
  have added : IgnoresWarnings (addConstant value span) := by
    refine get (fun _ _ => rfl) fun compiler => ?_
    exact (require _ _ _).bind fun _ => (modify fun _ _ => rfl).bind fun _ => pure _
  exact added.bind fun _ => pure _

theorem literal (value : Literal) (span : Span) :
    IgnoresWarnings (Compiling.literal value span) := by
  cases value with
  | boolean value => cases value <;> exact pure _
  | _ => exact constant _ span

theorem parameters (names : List Name) :
    IgnoresWarnings (names.forM fun name => discard (Compiling.define name)) := by
  induction names with
  | nil => exact pure _
  | cons name names ih => exact ((define name).bind fun _ => pure _).bind fun _ => ih

/-- A fault inside of a function leaves the same names behind as a success: those around it. -/
theorem inFunction {work : Compiling α} (works : IgnoresWarnings work) :
    IgnoresWarnings (Compiling.inFunction work) := by
  intro earlier compiler
  have worked := works earlier { compiler with scope := compiler.scope.enter }
  unfold Compiling.inFunction
  dsimp only [Compiler.recalling] at worked ⊢
  rw [worked]
  cases work { compiler with scope := compiler.scope.enter } with
  | ok value next => rfl
  | error fault next => rfl

theorem functionConstant (name : Option String) (names : List Name) (span : Span)
    (body : Fragment) (locals : Nat) :
    IgnoresWarnings (Compiling.functionConstant name names span body locals) :=
  get (fun _ _ => rfl) fun _ => constant _ span

end IgnoresWarnings

/-- No step of the compiler heeds the warnings. -/
theorem stepwise_ignoresWarnings :
    Stepwise (fun _ => True) fun _ work => IgnoresWarnings work where
  pure := .pure
  bind := .bind
  inFunction := .inFunction
  departs := by
    intro _ _ span rest
    refine .get (fun _ _ => rfl) fun compiler => ?_
    split
    · exact (IgnoresWarnings.throw _).bind fun _ => rest
    · exact rest
  require := .require
  constant := .constant
  functionConstant := .functionConstant
  resolve name _ := .resolve name
  define name _ := .define name
  store name symbol _ := .store name symbol

/-- Whatever statements are compiled, the warnings make no difference. -/
theorem statements_ignore (ending : Ending) (body : List Statement) (start : Nat)
    (before : Fragment) : IgnoresWarnings (statements ending body start before) :=
  stepwise_ignoresWarnings.statements ending body start before fun _ _ _ _ => trivial

end Compiling

namespace Compiler

/-- A compilation is that of a new compiler that goes on with the names and the constants; the
earlier warnings stand in front. -/
theorem compile_resume (compiler : Compiler) (program : Program) :
    compiler.compile program =
      (((resume compiler.scope compiler.constants).compile program).1,
        recalling compiler.warnings
          ((resume compiler.scope compiler.constants).compile program).2) := by
  have same : compiler =
      recalling compiler.warnings (resume compiler.scope compiler.constants) := by
    rw [recalling, resume, Array.append_empty]
  have ignored := Compiling.statements_ignore .discard program.statements 0 .empty
    compiler.warnings (resume compiler.scope compiler.constants)
  rw [← same] at ignored
  unfold compile
  rw [ignored]
  cases Compiling.statements .discard program.statements 0 .empty
      (resume compiler.scope compiler.constants) with
  | ok code next => rfl
  | error fault next => rfl

end Compiler

namespace Assembler

/-! ## Sequences of programs -/

/-- No function is open, and there is one buffer, which is empty. -/
structure Idle (assembler : Assembler) : Prop where
  isGlobal : assembler.compiler.scope.isGlobal = true
  buffers : assembler.buffers = [.empty]

theorem Idle.eq_start {assembler : Assembler} (idle : assembler.Idle) :
    assembler = start assembler.compiler := by
  rw [start, ← idle.buffers]

/-- A program that is given to an assembler. -/
structure Turn where
  before : Assembler
  program : Program

namespace Turn

/-- What a compilation yields. -/
def result (turn : Turn) : Except Obstacle CompiledProgram :=
  (turn.before.compile turn.program).1

/-- The assembler after a compilation. -/
def after (turn : Turn) : Assembler := (turn.before.compile turn.program).2

/-- Two compilations of one program agree: the code and the constants, or the fault, are the same,
and the same names and constants are left behind. -/
structure Agrees (turn other : Turn) : Prop where
  program : turn.program = other.program
  result : turn.result = other.result
  scope : turn.after.compiler.scope = other.after.compiler.scope
  constants : turn.after.compiler.constants = other.after.compiler.constants

/-- A compilation comes to an end with nothing out of range. After it no function is open, and the
one buffer is empty. Of all that the program binds, the names that it binds outside of functions, up
to its error if it has one, are left in the one table there is. -/
structure Closes (turn : Turn) : Prop where
  returns : turn.result ≠ .error .outOfRange
  idle : turn.after.Idle
  binds : turn.after.compiler.scope =
    turn.before.compiler.scope.defineAll (turn.before.compiler.bound turn.program)

variable {turn : Turn}

theorem result_eq (idle : turn.before.Idle) :
    turn.result = (turn.before.compiler.compile turn.program).1.mapError .rejected := by
  rw [result, idle.eq_start]
  exact congrArg Prod.fst (compile_start idle.isGlobal turn.program)

theorem after_eq (idle : turn.before.Idle) :
    turn.after = start (turn.before.compiler.compile turn.program).2 := by
  rw [after, idle.eq_start]
  exact congrArg Prod.snd (compile_start idle.isGlobal turn.program)

/-- A fault at any depth of functions leaves the table and the buffer of the program, and a success
as well. -/
theorem closes (idle : turn.before.Idle) : turn.Closes := by
  obtain ⟨-, scope⟩ := Compiler.scope_compile turn.before.compiler turn.program
  have outer : (turn.before.compiler.compile turn.program).2.scope.isGlobal = true := by
    rw [scope, (Scope.grows_defineAll _ _).isGlobal, idle.isGlobal]
  refine ⟨?_, ?_, ?_⟩
  · rw [result_eq idle]
    cases (turn.before.compiler.compile turn.program).1 with
    | ok compiled => exact fun same => nomatch same
    | error fault => exact fun same => nomatch same
  · rw [after_eq idle]
    exact ⟨outer, rfl⟩
  · rw [after_eq idle]
    exact scope

end Turn

/-- Compiles programs one after another through one assembler. -/
def reuse (assembler : Assembler) : List Program → List Turn
  | [] => []
  | program :: programs => ⟨assembler, program⟩ :: reuse (Turn.after ⟨assembler, program⟩) programs

/-- Compiles each of some programs with a new assembler, which goes on with the names and the
constants that the one before has left. -/
def resumeEach (scope : Scope) (constants : Array Value) : List Program → List Turn
  | [] => []
  | program :: programs =>
      let turn : Turn := ⟨resume scope constants, program⟩
      turn :: resumeEach turn.after.compiler.scope turn.after.compiler.constants programs

/-- One compilation through an assembler that is used for many. -/
theorem Turn.agrees_resume {assembler : Assembler} (idle : assembler.Idle) (program : Program) :
    Agrees ⟨assembler, program⟩
      ⟨resume assembler.compiler.scope assembler.compiler.constants, program⟩ := by
  have again : (resume assembler.compiler.scope assembler.compiler.constants).Idle :=
    ⟨idle.isGlobal, rfl⟩
  have same := Compiler.compile_resume assembler.compiler program
  refine ⟨rfl, ?_, ?_, ?_⟩
  · rw [result_eq idle, result_eq again]
    exact congrArg (fun ended => ended.1.mapError Obstacle.rejected) same
  · rw [after_eq idle, after_eq again]
    exact congrArg (fun ended => ended.2.scope) same
  · rw [after_eq idle, after_eq again]
    exact congrArg (fun ended => ended.2.constants) same

theorem reuse_agrees {assembler : Assembler} (idle : assembler.Idle) (programs : List Program) :
    List.Forall₂ Turn.Agrees (assembler.reuse programs)
      (resumeEach assembler.compiler.scope assembler.compiler.constants programs) := by
  induction programs generalizing assembler with
  | nil => exact .nil
  | cons program programs ih =>
      have agrees := Turn.agrees_resume idle program
      have closes : Turn.Closes ⟨assembler, program⟩ := Turn.closes idle
      refine .cons agrees ?_
      have rest := ih closes.idle
      rwa [agrees.scope, agrees.constants] at rest

theorem reuse_closes {assembler : Assembler} (idle : assembler.Idle) (programs : List Program) :
    ∀ turn ∈ assembler.reuse programs, turn.Closes := by
  induction programs generalizing assembler with
  | nil => exact fun _ member => absurd member List.not_mem_nil
  | cons program programs ih =>
      have closes : Turn.Closes ⟨assembler, program⟩ := Turn.closes idle
      rintro turn (_ | ⟨_, later⟩)
      · exact closes
      · exact ih closes.idle turn later

/-- **One assembler for all programs is as good as one for each.** Whatever faults there are in
between, also inside of functions, both ways give the same code and constants or the same fault
step by step; and after every step no function is open, and the one buffer is empty. -/
theorem reuse_eq_resume {assembler : Assembler} (idle : assembler.Idle) (programs : List Program) :
    (assembler.reuse programs).map Turn.program = programs ∧
      List.Forall₂ Turn.Agrees (assembler.reuse programs)
        (resumeEach assembler.compiler.scope assembler.compiler.constants programs) ∧
      ∀ turn ∈ assembler.reuse programs, turn.Closes := by
  refine ⟨?_, reuse_agrees idle programs, reuse_closes idle programs⟩
  clear idle
  induction programs generalizing assembler with
  | nil => rfl
  | cons program programs ih => exact congrArg (program :: ·) ih

/-- A function with a fault two functions deep, a use of its parameter outside, a use of the
function, and a binding of the parameter's name: two programs that are refused and two that are
not. -/
def interrupted : List Program :=
  let name (text : String) : Name := ⟨text, .dummy⟩
  let mention (text : String) : Statement := .expression (.name (name text)) .dummy
  let inner : Expression :=
    .function [name "b"] (.mk [mention "b", mention "missing"] .dummy) .dummy
  let outer : Expression :=
    .function [name "a"] (.mk [mention "a", .expression inner .dummy] .dummy) .dummy
  [⟨[.bind (.mk (name "f") outer .dummy)]⟩, ⟨[mention "a"]⟩, ⟨[mention "f"]⟩,
    ⟨[.bind (.mk (name "a") (.literal (.boolean true) .dummy) .dummy), mention "a"]⟩]

theorem reuse_eq_resume_interrupted :
    new.Idle ∧
      (new.reuse interrupted).map (fun turn => turn.result.toOption.isSome) =
        [false, false, true, true] ∧
      List.Forall₂ Turn.Agrees (new.reuse interrupted)
        (resumeEach new.compiler.scope new.compiler.constants interrupted) ∧
      ∀ turn ∈ new.reuse interrupted, turn.Closes :=
  have idle : new.Idle := ⟨by decide +kernel, rfl⟩
  ⟨idle, by decide +kernel, (reuse_eq_resume idle interrupted).2⟩

end Assembler

end MonkeyLang
