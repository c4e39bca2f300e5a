import MonkeyLang.Proofs.Simulation.Run
import MonkeyLang.Session.Interactive

/-!
# Sessions are safe

What a session keeps from its inputs is sound: its names have slots, its constants are compiled
routines, and the functions in its global slots are among its constants (`Session.Sound`). Every
input keeps it sound, whether it is compiled or not, and however its run ends. In a sound session
the code of a program never runs into a fault that tells of broken code, and when its run ends
without a fault, nothing is left on the stack and no call is going on (`Session.Reachable.safe`).
-/

set_option autoImplicit false

namespace MonkeyLang

namespace Session

/-- What a session keeps fits together. -/
structure Sound (session : Session) : Prop where
  scope : session.scope.Sound
  isGlobal : session.scope.isGlobal = true
  linked : ∃ routines, Linked routines session.constants
  globals : ∀ value ∈ session.globals, value.Genuine session.constants
  globalsSize : session.globals.size = session.limits.globalsSize

theorem sound_new (limits : Limits) : (new limits).Sound where
  scope := Compiler.sound_new
  isGlobal := rfl
  linked := ⟨_, linked_empty⟩
  globals := by
    intro value member
    obtain rfl := Array.eq_of_mem_replicate member
    trivial
  globalsSize := Array.size_replicate

/-! ## Compiling in a session -/

/-- The compiler for the next program. -/
abbrev compiler (session : Session) : Compiler := .resume session.scope session.constants

/-- The walk in front of the next program. -/
def walk (session : Session) (routines : Nat → Routine) : Walk :=
  ⟨session.scope.reached, session.constants.size, routines⟩

variable {session : Session} {routines : Nat → Routine}

theorem Sound.reads (sound : session.Sound) (routines : Nat → Routine) :
    Reads (session.walk routines) session.compiler where
  scope := rfl
  number := rfl
  slots := by
    intro inner
    rw [show session.compiler.scope.isGlobal = true from sound.isGlobal] at inner
    cases inner
  sound := sound.scope

/-- What a compilation leaves behind goes on from what was there, whether it succeeds or not. -/
theorem Sound.survives (sound : session.Sound) (program : Program) :
    Survives True (session.compiler.compile program).2 ∧
      Grows session.compiler (session.compiler.compile program).2 := by
  obtain ⟨routines, linked⟩ := sound.linked
  have arrived := statements_follows True .discard program.statements 0 .empty
    Fragment.complete_empty _ session.compiler ⟨sound.reads routines, fun _ => linked⟩
  unfold Compiler.compile
  cases ran : Compiling.statements .discard program.statements 0 .empty session.compiler with
  | ok code next =>
      rw [ran] at arrived
      exact ⟨arrived.2.1.survives, arrived.2.2⟩
  | error fault next =>
      rw [ran] at arrived
      exact arrived

/-- A session that keeps what a compilation leaves behind is sound. -/
theorem Sound.keep (sound : session.Sound) (program : Program) :
    (session.keep (session.compiler.compile program).2).Sound := by
  obtain ⟨⟨scope, known⟩, grows⟩ := sound.survives program
  exact {
    scope
    isGlobal := grows.isGlobal.trans sound.isGlobal
    linked := known trivial
    globals := fun value member => (sound.globals value member).mono grows.constants
    globalsSize := sound.globalsSize }

/-- The constants of a program that was compiled come from its function literals and from those
of earlier programs. -/
theorem Sound.compiled (sound : session.Sound)
    (linked : Linked routines session.constants) {program : Program} {compiled : CompiledProgram}
    {next : Compiler} (made : session.compiler.compile program = (.ok compiled, next)) :
    Linked (Statement.walkAll program.statements (session.walk routines)).routines
        compiled.constants ∧
      Within session.constants compiled.constants := by
  obtain ⟨code, ran, rfl⟩ := Compiler.compile_eq_ok.mp made
  have arrived := statements_follows True .discard program.statements 0 .empty
    Fragment.complete_empty _ session.compiler ⟨sound.reads routines, fun _ => linked⟩
  rw [ran] at arrived
  exact ⟨arrived.2.1.linked trivial, arrived.2.2.constants⟩

/-! ## Running in a session -/

/-- The functions that a loaded program knows are its constants. -/
theorem knows_loaded {compiled : CompiledProgram} {limits : Limits} {globals : Globals}
    (linked : Linked routines compiled.constants)
    (genuine : ∀ value ∈ globals, value.Genuine compiled.constants) :
    (Machine.loaded compiled limits globals).Knows fun body =>
      compiled.constants[body.identity]? = some (.function body) := by
  refine Machine.knows_loaded (fun value member => ?_) genuine limits
  obtain ⟨index, inside, rfl⟩ := Array.mem_iff_getElem.mp member
  exact linked.genuine index _ (Array.getElem?_eq_getElem inside)

theorem execute_of_error {program : Program} {fault : CompileFault} {next : Compiler}
    (failed : session.compiler.compile program = (.error fault, next)) (steps : Nat) :
    session.execute steps program = (⟨.error fault, next.warnings⟩, session.keep next) := by
  unfold execute
  rw [failed]

theorem execute_of_ok {program : Program} {compiled : CompiledProgram} {next : Compiler}
    (made : session.compiler.compile program = (.ok compiled, next)) (steps : Nat) :
    session.execute steps program =
      (⟨.ok ((Machine.load compiled session.limits session.globals).run steps), next.warnings⟩,
        { session.keep next with
          globals := ((Machine.loaded compiled session.limits session.globals).advance
            steps).globals }) := by
  unfold execute
  rw [made]
  rfl

/-- Every program keeps a session sound, however far it gets. -/
theorem Sound.execute (sound : session.Sound) (steps : Nat) (program : Program) :
    (session.execute steps program).2.Sound := by
  have kept := sound.keep program
  match made : session.compiler.compile program with
  | (.error fault, next) =>
      rw [made] at kept
      rw [execute_of_error made]
      exact kept
  | (.ok compiled, next) =>
      rw [made] at kept
      rw [execute_of_ok made]
      obtain ⟨code, ran, rfl⟩ := Compiler.compile_eq_ok.mp made
      obtain ⟨routines, linked⟩ := kept.linked
      have knows : (Machine.loaded ⟨code.encode, next.constants⟩ session.limits
          session.globals).Knows _ := knows_loaded linked kept.globals
      obtain ⟨known, size⟩ := Machine.knows_advance steps knows
      exact { kept with
        globals := known.globals
        globalsSize := size.trans kept.globalsSize }

theorem limits_execute (session : Session) (steps : Nat) (program : Program) :
    (session.execute steps program).2.limits = session.limits := by
  match made : session.compiler.compile program with
  | (.error fault, next) => rw [execute_of_error made, keep]
  | (.ok compiled, next) => rw [execute_of_ok made, keep]

/-! ## Sessions -/

/-- The sessions that come from inputs; a run may be cut off after any number of steps. -/
inductive Reachable (limits : Limits) : Session → Prop where
  | new : Reachable limits (new limits)
  | evaluate {session : Session} (reachable : Reachable limits session) (steps : Nat)
      (source : List Char) : Reachable limits (session.evaluate steps source).2

/-- An input that is no program leaves the session alone, and a program is executed. -/
theorem evaluate_cases (session : Session) (steps : Nat) (source : List Char) :
    (session.evaluate steps source).2 = session ∨
      ∃ program, Program.ofSource source = .ok program ∧
        (session.evaluate steps source).2 = (session.execute steps program).2 := by
  unfold evaluate
  cases read : Program.ofSource source with
  | error diagnostics => exact .inl rfl
  | ok program =>
      refine .inr ⟨program, rfl, ?_⟩
      dsimp only
      split <;> rfl

theorem Reachable.sound {limits : Limits} (reachable : Reachable limits session) :
    session.Sound := by
  induction reachable with
  | new => exact sound_new limits
  | evaluate _ steps source sound =>
      rcases evaluate_cases _ steps source with same | ⟨program, -, same⟩
      · rw [same]
        exact sound
      · rw [same]
        exact sound.execute steps program

/-! ## Runs in a session -/

/-- The store that a program starts with. -/
def store (session : Session) : Store := ⟨fun slot => session.globals.getD slot .null, [], ""⟩

/-- The machine has the global slots of the session. -/
theorem Sound.globals_store (sound : session.Sound) {constants : Array Value}
    (within : Within session.constants constants) :
    (Host.mk constants session.limits "").globals session.store = session.globals := by
  refine Array.ext (by simp [Host.globals, sound.globalsSize]) fun slot _ inside => ?_
  have genuine := (sound.globals _ (Array.getElem_mem inside)).mono within
  have held : session.globals.getD slot .null = session.globals[slot] := by simp [inside]
  simp only [Host.globals, Host.link, store, Array.getElem_ofFn]
  rw [held, genuine.linked]

/-- The run of a program in a session ends as the evaluation of the program does, from what the
global slots hold. -/
theorem Sound.ends (sound : session.Sound) (linked : Linked routines session.constants)
    {program : Program} {compiled : CompiledProgram} {next : Compiler}
    (made : session.compiler.compile program = (.ok compiled, next)) (fuel : Nat) :
    (Host.mk compiled.constants session.limits "").Ends fuel
      (Machine.loaded compiled session.limits session.globals)
      (Evaluator.run
        (Statement.walkAll program.statements (session.walk routines)).routines fuel
        session.limits.capacity program.statements (session.walk routines) session.store) := by
  obtain ⟨linked, within⟩ := sound.compiled linked made
  exact Compiler.compile_ends made (sound.reads routines) sound.isGlobal linked rfl rfl
    (sound.globals_store within) fuel

theorem Reachable.limits_eq {limits : Limits} (reachable : Reachable limits session) :
    session.limits = limits := by
  induction reachable with
  | new => rfl
  | @evaluate session _ steps source same =>
      rcases evaluate_cases session steps source with stays | ⟨program, -, stays⟩
      · rw [stays, same]
      · rw [stays, limits_execute, same]

/-- **Code that a session compiles does not fault by itself.** Whatever the inputs were, the run of
a program ends with a fault that the program is to blame for or that names a limit, or at an end
where no value is left on the stack and no call is going on. -/
theorem Reachable.safe {limits : Limits} (reachable : Reachable limits session) {steps : Nat}
    {program : Program} {outcome : Except Fault Unit} {machine : Machine}
    (ran : (session.execute steps program).1.result = .ok (some outcome, machine)) :
    (∀ fault, outcome = .error fault → fault.Expected limits) ∧
      (outcome = .ok () → machine.height = 0 ∧ machine.callers = #[]) := by
  have sound := reachable.sound
  obtain ⟨routines, linked⟩ := sound.linked
  match made : session.compiler.compile program with
  | (.error fault, next) =>
      rw [execute_of_error made] at ran
      cases ran
  | (.ok compiled, next) =>
      rw [execute_of_ok made, Machine.run_load] at ran
      obtain ⟨came, rfl⟩ := Prod.mk.inj (Except.ok.inj ran)
      have ends := sound.ends linked made steps
      rw [← reachable.limits_eq]
      exact ends.of_outcome? rfl (Nat.le_refl steps) came

/-- A session behind an input that does not compile and an input that defines a function. -/
def practised : Session :=
  let failed := ((Session.new ⟨4, 2, 1⟩).evaluate 9 "missing".toList).2
  (failed.evaluate 9 "var inc = func(x) { x + 1 };".toList).2

theorem reachable_practised : Reachable ⟨4, 2, 1⟩ practised := .evaluate (.evaluate .new 9 _) 9 _

/-- The program `inc(1);`, with spans left out. -/
def incrementing : Program :=
  ⟨[.expression (.call (.name ⟨"inc", .dummy⟩) [.literal (.integer 1) .dummy] .dummy) .dummy]⟩

/-- A call of a function from an earlier input, on a stack that has just enough slots. -/
theorem Reachable.safe_incrementing :
    ((Session.new ⟨4, 2, 1⟩).evaluate 9 "missing".toList).1.hasErrors = true ∧
      ∃ machine : Machine,
        (practised.execute 9 incrementing).1.result = .ok (some (.ok ()), machine) ∧
          machine.height = 0 ∧ machine.callers = #[] := by
  have came : (practised.execute 9 incrementing).1.result.toOption.bind Prod.fst =
      some (.ok ()) := by decide +kernel
  refine ⟨by decide +kernel, ?_⟩
  cases ran : (practised.execute 9 incrementing).1.result with
  | error fault =>
      rw [ran] at came
      cases came
  | ok run =>
      obtain ⟨outcome, machine⟩ := run
      rw [ran] at came
      obtain rfl : outcome = some (.ok ()) := came
      exact ⟨machine, rfl, (reachable_practised.safe ran).2 rfl⟩

end Session

end MonkeyLang
