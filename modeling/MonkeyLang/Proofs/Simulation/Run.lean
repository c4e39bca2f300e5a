import MonkeyLang.Proofs.Simulation.Program

/-!
# Runs of compiled programs

What a call comes to is known for all amounts of fuel (`Host.calls_invoke`), so the statements of
a program are followed without any assumption (`Host.root_realized`). A run starts where no value
waits and no slot of the stack is in use, and it ends behind the last instruction. From this
follows how a run ends, step by step (`Host.Ends`).
-/

set_option autoImplicit false

namespace MonkeyLang

namespace Host

open Fragment Stateful

variable {host : Host} {routines : Nat → Routine}

/-! ## Calls -/

/-- What a function was compiled from has nothing to do with its name. -/
theorem compiledAs_relinked (linked : Linked routines host.constants) (callee : Function) :
    CompiledAs (routines callee.identity) (callee.relinked host.constants) host.constants := by
  obtain ⟨before, after, fragment, ran, reads, inside, parameters, locals, definitions, roomy,
    complete, stream, within⟩ := linked.compiled callee.identity
  exact ⟨before, after, fragment, ran, reads, inside, parameters, locals, definitions, roomy,
    complete, stream, within⟩

/-- The body of a routine, in a call of the function that the compiler made of it. -/
theorem body_simulated {fuel : Nat} {call : Activation} {routine : Routine} {body : Function}
    (calls : host.Calls fuel (Evaluator.invoke routines fuel))
    (compiled : CompiledAs routine body host.constants) (inner : call.Inner)
    (code : call.code = body.code) (slots : call.slots = body.locals) :
    host.Simulates call fuel call.floor (host.At call 0 [])
      (Evaluator.statements (Evaluator.invoke routines fuel) fuel routine.body routine.walk none)
      fun last => host.Left call (last.getD .null) := by
  obtain ⟨before, after, fragment, ran, reads, inside, -, locals, definitions, -, complete, stream,
    within⟩ := compiled
  have serves : Serves host call after := by
    have same : after.scope.definitions = call.slots := by rw [slots, locals, definitions]
    exact ⟨within, fun _ => ⟨inner, Nat.le_of_eq same⟩⟩
  have stands : fragment.StandsAt call.code 0 := by
    rw [code, stream]
    exact standsAt_encode complete
  have simulated : host.Simulates call fuel call.floor (host.At call (0 + empty.size) []) _ _ :=
    statements_simulated calls .leave _ ⟨ran, reads, serves, stands⟩ complete_empty
      (fun _ => rfl) (fun _ => inner) (Nat.add_zero call.floor)
  rw [Ending.bind_conclude_leave] at simulated
  exact simulated

/-- The machine follows every call, if all functions come from routines. -/
theorem calls_invoke (linked : Linked routines host.constants) (fuel : Nat) :
    host.Calls fuel (Evaluator.invoke routines fuel) := by
  induction fuel with
  | zero => exact fun _ _ _ _ _ _ _ _ _ => Simulates.exhausted
  | succ fuel ih =>
      intro call position held waiting arguments callee holds small count
      have compiled := compiledAs_relinked linked callee
      refine Simulates.invoking holds small count rfl compiled.parameters compiled.locals
        compiled.roomy compiled.few fun inner returns code slots => ?_
      exact body_simulated ih compiled returns code slots

/-! ## The program itself -/

/-- The program while no function is called. -/
def root (code : Code) : Activation := ⟨code, 0, [], #[]⟩

/-- A machine in front of statements outside of all functions, as a part of a program, gets to
where their evaluation ends. -/
theorem root_realized {body : List Statement} {walk : Walk} {compiler next : Compiler}
    {code before : Fragment} {whole : Code} {start : Nat}
    (linked : Linked routines host.constants)
    (ran : Compiling.statements .discard body start before compiler = .ok code next)
    (reads : Reads walk compiler) (isGlobal : compiler.scope.isGlobal = true)
    (within : Within next.constants host.constants) (complete : before.Complete)
    (stands : code.StandsAt whole start) {store : Store} {machine : Machine}
    (there : host.At (root whole) (start + before.size) [] store machine) (fuel : Nat) :
    host.Realizes (root whole) fuel machine (host.Behind (root whole) (start + code.size) [])
      (Evaluator.run routines fuel host.limits.capacity body walk store) := by
  obtain ⟨-, -, grows⟩ :=
    (statements_follows False .discard body start before complete _).of_ok reads ran
  have serves : Serves host (root whole) next := by
    refine ⟨within, fun inner => ?_⟩
    rw [grows.isGlobal, isGlobal] at inner
    cases inner
  have returns : Ending.discard = .leave → (root whole).Inner := by
    intro leaves
    cases leaves
  have simulated : host.Simulates (root whole) fuel 0 (host.At (root whole) (start + before.size) [])
      _ _ :=
    statements_simulated (calls_invoke linked fuel) .discard _ ⟨ran, reads, serves, stands⟩
      complete (fun _ => rfl) returns rfl
  rw [Ending.bind_conclude_discard] at simulated
  exact simulated store machine there

/-! ## How a run ends -/

/-- How the run of a program ends, for what the evaluation of the program comes to. -/
def Ends (host : Host) (fuel : Nat) (machine : Machine) :
    EStateM.Result Exit Store (Option Value) → Prop
  | .ok last store =>
    ∃ count final, machine.Finishes count none final ∧ host.Shows store final ∧
      (final.height = 0 ∧ final.callers = #[]) ∧
      ∀ value, last = some value → final.lastPopped = host.link value
  | .error (.fault fault) store =>
    ∃ count final, machine.Finishes count (some fault) final ∧ host.Shows store final ∧
      fault.Expected host.limits
  | .error .exhausted _ => ∃ count final, fuel ≤ count ∧ machine.Reaches count final
  | .error (.leave _) _ => False

/-- Behind the last instruction of the program a step ends the run. -/
theorem step_stop {code : Code} {store : Store} {waiting stale : List Value} :
    Operation.step (host.machine (root code) store waiting stale code.size) =
      .ok .ends (host.machine (root code) store waiting stale code.size) := by
  have beyond : (⟨code, code.size, 0, 0⟩ : Frame).fetch = .stop := by
    simp only [Frame.fetch, Array.getElem?_size]
  have fetched : (host.machine (root code) store waiting stale code.size).frame.fetch = .stop :=
    beyond
  rw [Operation.step, fetched]
  rfl

theorem Realizes.ends {code : Code} {fuel : Nat} {machine : Machine}
    {result : EStateM.Result Exit Store (Option Value)}
    (realizes : host.Realizes (root code) fuel machine (host.Behind (root code) code.size []) result) :
    host.Ends fuel machine result := by
  match result with
  | .ok last store =>
      obtain ⟨count, final, reached, ⟨stale, fits, rfl⟩, popped⟩ := realizes
      refine ⟨count, _, ⟨_, reached, step_stop⟩, shows_machine _ _ _ _ _ _, ⟨?_, rfl⟩, popped⟩
      exact length_values fits
  | .error (.fault fault) store => exact realizes
  | .error .exhausted store => exact realizes
  | .error (.leave value) store =>
      obtain ⟨-, -, -, below, callee, -, -, -, under, -⟩ := realizes
      simp [root] at under

/-- A run that has an outcome came to an expected fault, or to an end where no value is left on the
stack and no call goes on. -/
theorem Ends.of_outcome? {fuel steps : Nat} {first : Machine}
    {result : EStateM.Result Exit Store (Option Value)} {outcome : Except Fault Unit}
    (ends : host.Ends fuel first result) (running : first.status = .running) (le : steps ≤ fuel)
    (came : (first.advance steps).outcome? = some outcome) :
    (∀ fault, outcome = .error fault → fault.Expected host.limits) ∧
      (outcome = .ok () →
        (first.advance steps).height = 0 ∧ (first.advance steps).callers = #[]) := by
  match result with
  | .ok last store =>
      obtain ⟨count, final, finishes, -, cleared, -⟩ := ends
      have comes : first.ComesTo fun machine =>
          machine.outcome? = some (.ok ()) ∧ machine.height = 0 ∧ machine.callers = #[] :=
        finishes.comesTo running ⟨rfl, cleared⟩
      obtain ⟨fine, cleared⟩ := comes.ended_of_outcome? came
      obtain rfl := Option.some.inj (came.symm.trans fine)
      refine ⟨?_, fun _ => cleared⟩
      rintro fault ⟨⟩
  | .error (.fault fault) store =>
      obtain ⟨count, final, finishes, -, expected⟩ := ends
      have comes : first.ComesTo fun machine => machine.outcome? = some (.error fault) :=
        finishes.comesTo running rfl
      obtain rfl := Option.some.inj (came.symm.trans (comes.ended_of_outcome? came))
      refine ⟨?_, nofun⟩
      rintro _ ⟨⟩
      exact expected
  | .error .exhausted store =>
      obtain ⟨count, final, enough, reached⟩ := ends
      obtain ⟨middle, reaches⟩ := reached.prefix_of_le (Nat.le_trans le enough)
      rw [reaches.outcome? running] at came
      cases came
  | .error (.leave value) store => exact ends.elim

/-- If a run is known to end without a fault, so does the evaluation that it follows. -/
theorem Ends.ok_of_finishes {fuel count : Nat} {first final : Machine}
    {result : EStateM.Result Exit Store (Option Value)} (ends : host.Ends fuel first result)
    (running : first.status = .running) (finishes : first.Finishes count none final)
    (enough : count < fuel) :
    ∃ last store, result = .ok last store ∧ host.Shows store final := by
  match result with
  | .ok last store =>
      obtain ⟨more, other, finished, shows, -, -⟩ := ends
      have globals := congrArg Machine.globals (finishes.unique finished)
      have output := congrArg Machine.output (finishes.unique finished)
      exact ⟨last, store, rfl, globals.trans shows.globals, output.trans shows.output⟩
  | .error (.fault fault) store =>
      obtain ⟨more, other, finished, -, -⟩ := ends
      have same := congrArg Machine.status (finishes.unique finished)
      cases same
  | .error .exhausted store =>
      obtain ⟨more, other, longer, reached⟩ := ends
      obtain ⟨middle, reaches⟩ := reached.prefix_of_le (Nat.le_trans enough longer)
      have silent := reaches.outcome? running
      rw [finishes.outcome? running, if_pos (Nat.lt_succ_self count)] at silent
      cases silent
  | .error (.leave value) store => exact ends.elim

/-- A machine that is about to run a program. -/
theorem at_loaded (compiled : CompiledProgram) {limits : Limits} {globals : Globals} {store : Store}
    (locals : store.locals = []) (output : store.output = "")
    (holds : (Host.mk compiled.constants limits "").globals store = globals) :
    (Host.mk compiled.constants limits "").At (root compiled.code) 0 [] store
      (Machine.loaded compiled limits globals) := by
  refine ⟨List.replicate limits.stackSize .null, ⟨by simp [locals, root], ?_⟩, ?_⟩
  · simp [root, Activation.floor]
  · simp [Machine.loaded, Machine.load, machine, bare, values, Machine.withStack, root, locals,
      output, holds]

/-- The run of statements ends as their evaluation does. The machine may have more constants than
the statements need. -/
theorem ends_statements {body : List Statement} {walk : Walk} {compiler next : Compiler}
    {code : Fragment} (linked : Linked routines host.constants)
    (ran : Compiling.statements .discard body 0 .empty compiler = .ok code next)
    (reads : Reads walk compiler) (isGlobal : compiler.scope.isGlobal = true)
    (within : Within next.constants host.constants) {store : Store} {machine : Machine}
    (there : host.At (root code.encode) 0 [] store machine) (fuel : Nat) :
    host.Ends fuel machine
      (Evaluator.run routines fuel host.limits.capacity body walk store) := by
  obtain ⟨complete, -, -⟩ :=
    (statements_follows False .discard body 0 .empty complete_empty _).of_ok reads ran
  have realized := root_realized linked ran reads isGlobal within complete_empty
    (standsAt_encode complete) there fuel
  rw [Nat.zero_add, ← size_encode complete] at realized
  exact realized.ends

end Host

/-- The run of a program that was compiled ends as the evaluation of the program does. -/
theorem Compiler.compile_ends {compiler next : Compiler} {program : Program}
    {compiled : CompiledProgram} {walk : Walk} {routines : Nat → Routine} {limits : Limits}
    {globals : Globals} {store : Store}
    (made : compiler.compile program = (.ok compiled, next)) (reads : Reads walk compiler)
    (isGlobal : compiler.scope.isGlobal = true) (linked : Linked routines compiled.constants)
    (locals : store.locals = []) (output : store.output = "")
    (holds : (Host.mk compiled.constants limits "").globals store = globals) (fuel : Nat) :
    (Host.mk compiled.constants limits "").Ends fuel (Machine.loaded compiled limits globals)
      (Evaluator.run routines fuel limits.capacity program.statements walk store) := by
  obtain ⟨code, ran, rfl⟩ := compile_eq_ok.mp made
  have within : Within next.constants (Host.mk next.constants limits "").constants := Within.refl _
  exact Host.ends_statements linked ran reads isGlobal within (Host.at_loaded _ locals output
    holds) fuel

end MonkeyLang
