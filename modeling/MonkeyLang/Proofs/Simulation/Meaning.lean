import MonkeyLang.Proofs.Evaluator.Room
import MonkeyLang.Proofs.Simulation.Run
import MonkeyLang.Session.Evaluate

/-!
# Compiled programs mean what they say

A program that is accepted is run by the machine as its tree says. Unless the run reaches a limit
of the machine, it ends if and only if the program has a meaning, and then with the value or the
fault, the output and the global slots of that meaning (`Compiler.compile_runsAs`).
-/

set_option autoImplicit false

namespace MonkeyLang

/-! ## The value of the last statement -/

namespace Evaluator

open Stateful

variable {invoke : Nat → List Value → Evaluating Value} {turns : Nat}

theorem statement_isSome {first : Statement} {walk : Walk} {result : Option Value} {room : Room}
    {store next : Store} (ran : statement invoke turns first walk room store = .ok result next) :
    result.isSome = first.isExpression := by
  match first with
  | .bind bound =>
      simp only [statement] at ran
      obtain ⟨_, _, -, rested⟩ := bind_eq_ok.mp ran
      obtain ⟨rfl, -⟩ := pure_eq_ok.mp rested
      rfl
  | .leave none span =>
      simp only [statement] at ran
      obtain ⟨_, _, -, rested⟩ := bind_eq_ok.mp ran
      exact absurd rested throw_ne_ok
  | .leave (some value) span =>
      simp only [statement] at ran
      obtain ⟨_, _, -, rested⟩ := bind_eq_ok.mp ran
      exact absurd rested throw_ne_ok
  | .expression value span =>
      simp only [statement] at ran
      obtain ⟨_, _, -, rested⟩ := bind_eq_ok.mp ran
      obtain ⟨rfl, -⟩ := pure_eq_ok.mp rested
      rfl

/-- Statements yield a value if the last of them is an expression. -/
theorem statements_isSome {body : List Statement} {walk : Walk} {result : Option Value}
    {room : Room} {store next : Store}
    (ran : statements invoke turns body walk none room store = .ok result next) :
    result.isSome = endsInExpression body := by
  rcases body.eq_nil_or_concat with rfl | ⟨front, last, rfl⟩
  · simp only [statements] at ran
    obtain ⟨rfl, -⟩ := pure_eq_ok.mp ran
    rfl
  · rw [List.concat_eq_append, statements_append] at ran
    obtain ⟨_, _, -, rested⟩ := bind_eq_ok.mp ran
    simp only [statements, bind_pure] at rested
    rw [statement_isSome rested, List.concat_eq_append, endsInExpression, List.getLast?_concat]

end Evaluator

/-! ## Programs and their runs -/

/-- How a run came out shows the meaning of a program with these constants. -/
structure Machine.ShowsMeaning (machine : Machine) (program : Program) (constants : Array Value)
    (limits : Limits) (meaning : Meaning) : Prop where
  outcome : machine.outcome? = some (meaning.result.map fun _ => ())
  value : ∀ last, meaning.result = .ok last →
    machine.result? program = last.map (Value.linked constants)
  output : machine.output = meaning.output
  globals : machine.globals = Array.ofFn fun slot : Fin limits.globalsSize =>
    (meaning.globals slot).linked constants

theorem Machine.result?_eq {machine : Machine} {program : Program} {last : Option Value}
    {change : Value → Value} (valued : last.isSome = endsInExpression program.statements)
    (popped : ∀ value, last = some value → machine.lastPopped = change value) :
    machine.result? program = last.map change := by
  rw [result?, ← valued]
  cases last with
  | none => rfl
  | some value => exact congrArg some (popped value rfl)

/-- The run reached a limit of the machine. -/
def Machine.ReachedLimit (machine : Machine) : Prop :=
  ∃ fault : Fault, fault.isLimit = true ∧ machine.outcome? = some (.error fault)

/-- The runs of a program and its meaning agree. -/
structure CompiledProgram.RunsAs (compiled : CompiledProgram) (program : Program)
    (limits : Limits) : Prop where
  /-- A run that comes to its end shows what the program means, unless it reached a limit. -/
  run_shows : ∀ steps outcome machine,
    (Machine.load compiled limits (Globals.ofSize limits.globalsSize)).run steps =
      (some outcome, machine) →
    machine.ReachedLimit ∨ ∃ meaning, program.Means meaning ∧
      machine.ShowsMeaning program compiled.constants limits meaning
  /-- What the program means is shown by a run, unless that reaches a limit. -/
  meaning_shown : ∀ meaning, program.Means meaning → ∃ steps outcome machine,
    (Machine.load compiled limits (Globals.ofSize limits.globalsSize)).run steps =
      (some outcome, machine) ∧
    (machine.ReachedLimit ∨ machine.ShowsMeaning program compiled.constants limits meaning)

theorem Machine.ShowsMeaning.isSome {machine : Machine} {program : Program}
    {constants : Array Value} {limits : Limits} {meaning : Meaning}
    (shows : machine.ShowsMeaning program constants limits meaning) :
    machine.outcome?.isSome = true := by
  rw [shows.outcome]
  rfl

theorem Machine.ReachedLimit.isSome {machine : Machine} (reached : machine.ReachedLimit) :
    machine.outcome?.isSome = true := by
  obtain ⟨fault, -, came⟩ := reached
  rw [came]
  rfl

namespace Host

theorem globals_initial (host : Host) :
    host.globals .initial = Globals.ofSize host.limits.globalsSize := by
  have null : host.link .null = .null := rfl
  refine Array.ext (by simp [globals, Globals.ofSize]) fun index _ _ => ?_
  simp [globals, Store.initial, null, Globals.ofSize]

end Host

namespace Compiler

/-- The run of an accepted program ends as its evaluation does. -/
theorem compile_new_ends {program : Program} {compiled : CompiledProgram} {compiler : Compiler}
    (accepted : new.compile program = (.ok compiled, compiler)) (limits : Limits) (fuel : Nat) :
    (Host.mk compiled.constants limits "").Ends fuel
      (Machine.loaded compiled limits (Globals.ofSize limits.globalsSize))
      (Evaluator.run program.routines fuel limits.capacity program.statements Program.walk
        .initial) := by
  obtain ⟨code, ran, rfl⟩ := compile_eq_ok.mp accepted
  have follows := (statements_follows True .discard program.statements 0 .empty
    Fragment.complete_empty Program.walk) new ⟨reads_new _, fun _ => linked_empty⟩
  rw [ran] at follows
  obtain ⟨-, tracks, -⟩ := follows
  exact compile_ends accepted (reads_new _) rfl (tracks.linked trivial) rfl rfl
    (Host.globals_initial _) fuel

/-- What is known about a run after the evaluation with some fuel. -/
theorem compile_new_cases {program : Program} {compiled : CompiledProgram} {compiler : Compiler}
    (accepted : new.compile program = (.ok compiled, compiler)) (limits : Limits) (fuel : Nat) :
    let start := Machine.loaded compiled limits (Globals.ofSize limits.globalsSize)
    start.ComesTo Machine.ReachedLimit ∨
      (∃ meaning, program.meaning? fuel = some meaning ∧
        start.ComesTo fun machine =>
          machine.ShowsMeaning program compiled.constants limits meaning) ∨
      program.meaning? fuel = none ∧ ∀ steps, steps ≤ fuel → (start.advance steps).outcome? = none := by
  intro start
  have ends := compile_new_ends accepted limits fuel
  rcases Evaluator.run_unlimited program.routines fuel limits program.statements Program.walk .initial
    with same | ⟨fault, last, limit, ran⟩
  · rw [same] at ends
    simp only [Program.meaning?]
    generalize result : Evaluator.run program.routines fuel .unlimited program.statements Program.walk
      .initial = ended at ends
    match ended with
    | .ok last store =>
        obtain ⟨count, final, finishes, shows, -, popped⟩ := ends
        have valued : last.isSome = endsInExpression program.statements :=
          Evaluator.statements_isSome result
        refine .inr (.inl ⟨_, rfl, finishes.comesTo rfl
          ⟨rfl, ?_, shows.output.trans String.empty_append, shows.globals⟩⟩)
        rintro _ ⟨⟩
        exact Machine.result?_eq valued popped
    | .error (.fault fault) store =>
        obtain ⟨count, final, finishes, shows, -⟩ := ends
        exact .inr (.inl ⟨_, rfl, finishes.comesTo rfl
          ⟨rfl, nofun, shows.output.trans String.empty_append, shows.globals⟩⟩)
    | .error .exhausted store =>
        obtain ⟨count, final, enough, reached⟩ := ends
        refine .inr (.inr ⟨rfl, fun steps few => ?_⟩)
        obtain ⟨middle, reaches⟩ := reached.prefix_of_le (Nat.le_trans few enough)
        exact reaches.outcome? rfl
    | .error (.leave value) store => exact ends.elim
  · rw [ran] at ends
    obtain ⟨count, final, finishes, -, -⟩ := ends
    exact .inl (finishes.comesTo rfl ⟨fault, limit, rfl⟩)

/-- **The code of an accepted program runs as the tree of the program says.** -/
theorem compile_runsAs {program : Program} {compiled : CompiledProgram} {compiler : Compiler}
    (accepted : new.compile program = (.ok compiled, compiler)) (limits : Limits) :
    compiled.RunsAs program limits := by
  constructor
  · intro steps outcome machine ran
    rw [Machine.run_load] at ran
    obtain ⟨came, rfl⟩ := Prod.mk.inj ran
    rcases compile_new_cases accepted limits steps with limit | ⟨meaning, found, shown⟩ | ⟨-, never⟩
    · exact .inl (limit.ended_of_outcome? came)
    · exact .inr ⟨meaning, ⟨steps, found⟩, shown.ended_of_outcome? came⟩
    · rw [never steps (Nat.le_refl steps)] at came
      cases came
  · rintro meaning ⟨fuel, found⟩
    rcases compile_new_cases accepted limits fuel with limit | ⟨other, also, shown⟩ | ⟨missing, -⟩
    · obtain ⟨steps, outcome, came, reached⟩ :=
        limit.exists_outcome? fun machine => Machine.ReachedLimit.isSome
      exact ⟨steps, outcome, _, Machine.run_load_of_outcome? came, .inl reached⟩
    · obtain rfl := Option.some.inj (found.symm.trans also)
      obtain ⟨steps, outcome, came, shows⟩ :=
        shown.exists_outcome? fun machine => Machine.ShowsMeaning.isSome
      exact ⟨steps, outcome, _, Machine.run_load_of_outcome? came, .inr shows⟩
    · rw [missing] at found
      cases found

/-- The program `var twice = fn(x) { x + x; }; twice(4);`, with spans left out. -/
def doubling : Program :=
  let meant (text : String) : Expression := .name ⟨text, .dummy⟩
  let body : List Statement := [.expression (.binary .add (meant "x") (meant "x") .dummy) .dummy]
  ⟨[.bind (.mk ⟨"twice", .dummy⟩ (.function [⟨"x", .dummy⟩] (.mk body .dummy) .dummy) .dummy),
    .expression (.call (meant "twice") [.literal (.integer 4) .dummy] .dummy) .dummy]⟩

theorem compile_runsAs_doubling : ∃ compiled compiler,
    new.compile doubling = (.ok compiled, compiler) ∧ compiled.RunsAs doubling .default :=
  ⟨_, _, rfl, compile_runsAs rfl .default⟩

end Compiler

end MonkeyLang
