import MonkeyLang.Proofs.Compiler.Relocation
import MonkeyLang.Proofs.Machine.Constants
import MonkeyLang.Proofs.Session.Safety
import MonkeyLang.Proofs.Simulation.Meaning

/-!
# A session is as good as one program

Statements that are put behind others do the same as in the next input of a session. Their code
stands at another place, so its jumps have other targets, and its constants are the same
(`Compiling.statements_moves`). The run of the first statements does not notice the constants of
the others (`Machine.Finishes.withConstants`). And the run of the others starts with an empty
stack in either case, with what the first ones left in the global slots, so that both runs follow
one and the same evaluation (`Session.execute_append`).
-/

set_option autoImplicit false

namespace MonkeyLang

/-- What one sees of a run that came to its end: the value of the last statement, if that is an
expression, or a fault, and what the run leaves behind. -/
structure Shown where
  result : Except Fault (Option Value)
  output : String
  globals : Globals

/-- The same behind other output. -/
def Shown.after (printed : String) (shown : Shown) : Shown :=
  { shown with output := printed ++ shown.output }

/-- What one sees of the run of a program, once it is at its end. -/
def Machine.shown? (machine : Machine) (program : Program) : Option Shown :=
  machine.outcome?.map fun
    | .ok _ => ⟨.ok (machine.result? program), machine.output, machine.globals⟩
    | .error fault => ⟨.error fault, machine.output, machine.globals⟩

/-- What one sees of a program in a session, once its run is at its end. -/
def Session.Execution.shown? (execution : Session.Execution) (program : Program) : Option Shown :=
  match execution.result with
  | .ok (_, machine) => machine.shown? program
  | .error _ => none

theorem Machine.shown?_eq_none {machine : Machine} {program : Program} :
    machine.shown? program = none ↔ machine.outcome? = none :=
  Option.map_eq_none_iff

/-- A run shows what an evaluation tells, and it is at its end as soon as any amount of fuel is
enough to tell. -/
def Machine.Tells (first : Machine) (program : Program) (told : Nat → Option Shown) : Prop :=
  ∀ fuel,
    (∃ shown, told fuel = some shown ∧
      first.ComesTo fun machine => machine.shown? program = some shown) ∨
    told fuel = none ∧ ∀ steps, steps ≤ fuel → (first.advance steps).outcome? = none

theorem Machine.Tells.exists_iff {first : Machine} {program : Program} {told : Nat → Option Shown}
    (tells : first.Tells program told) (shown : Shown) :
    (∃ steps, (first.advance steps).shown? program = some shown) ↔
      ∃ fuel, told fuel = some shown := by
  constructor
  · rintro ⟨steps, seen⟩
    rcases tells steps with ⟨other, found, comes⟩ | ⟨-, silent⟩
    · cases came : (first.advance steps).outcome? with
      | none =>
          rw [shown?_eq_none.mpr came] at seen
          cases seen
      | some outcome =>
          have same := (comes.ended_of_outcome? came).symm.trans seen
          exact ⟨steps, found.trans same⟩
    · rw [shown?_eq_none.mpr (silent steps (Nat.le_refl steps))] at seen
      cases seen
  · rintro ⟨fuel, found⟩
    rcases tells fuel with ⟨other, also, count, after, -⟩ | ⟨silent, -⟩
    · exact ⟨count + 1, (after _ (Nat.lt_succ_self count)).trans (also.symm.trans found)⟩
    · rw [silent] at found
      cases found

/-- A run tells the same from an earlier machine on. -/
theorem Machine.Reaches.tells {count : Nat} {first second : Machine} {program : Program}
    {told : Nat → Option Shown} (reaches : Reaches count first second)
    (running : first.status = .running) (tells : second.Tells program told) :
    first.Tells program told := by
  intro fuel
  rcases tells fuel with ⟨shown, found, comes⟩ | ⟨silent, never⟩
  · exact .inl ⟨shown, found, reaches.comesTo running comes⟩
  · exact .inr ⟨silent, fun steps few => reaches.outcome?_of_le running never
      (Nat.le_trans few (Nat.le_add_left fuel count))⟩

namespace Host

/-- What one sees of a run that follows an evaluation. -/
def shown? (host : Host) : EStateM.Result Exit Store (Option Value) → Option Shown
  | .ok last store =>
    some ⟨.ok (last.map host.link), host.printed ++ store.output, host.globals store⟩
  | .error (.fault fault) store =>
    some ⟨.error fault, host.printed ++ store.output, host.globals store⟩
  | .error _ _ => none

theorem shown?_of_finishes {host : Host} {program : Program} {last : Option Value} {store : Store}
    {final : Machine} (shows : host.Shows store final)
    (popped : ∀ value, last = some value → final.lastPopped = host.link value)
    (valued : last.isSome = endsInExpression program.statements) :
    { final with status := .halted none }.shown? program = host.shown? (.ok last store) := by
  have result : { final with status := .halted none }.result? program = last.map host.link :=
    Machine.result?_eq valued popped
  show some (Shown.mk (.ok (Machine.result? _ program)) final.output final.globals) = _
  rw [result, shows.globals, shows.output]
  rfl

/-- What one sees of a run is what its evaluation tells. -/
theorem tells_of_ends {host : Host} {program : Program} {first : Machine}
    {result : Nat → EStateM.Result Exit Store (Option Value)}
    (ends : ∀ fuel, host.Ends fuel first (result fuel)) (running : first.status = .running)
    (valued : ∀ fuel last store, result fuel = .ok last store →
      last.isSome = endsInExpression program.statements) :
    first.Tells program fun fuel => host.shown? (result fuel) := by
  intro fuel
  have ended := ends fuel
  have value := valued fuel
  dsimp only
  generalize result fuel = evaluated at ended value
  match evaluated with
  | .ok last store =>
      obtain ⟨count, final, finishes, shows, -, popped⟩ := ended
      exact .inl ⟨_, rfl, finishes.comesTo running
        (shown?_of_finishes shows popped (value last store rfl))⟩
  | .error (.fault fault) store =>
      obtain ⟨count, final, finishes, shows, -⟩ := ended
      refine .inl ⟨_, rfl, finishes.comesTo running ?_⟩
      simp only [Machine.shown?, Machine.outcome?, Option.map_some, shows.globals, shows.output]
  | .error .exhausted store =>
      obtain ⟨count, final, enough, reached⟩ := ended
      refine .inr ⟨rfl, fun steps few => ?_⟩
      obtain ⟨middle, reaches⟩ := reached.prefix_of_le (Nat.le_trans few enough)
      exact reaches.outcome? running
  | .error (.leave value) store => exact ended.elim

/-- What was printed before an evaluation shows in front of what it prints. -/
theorem shown?_printed (host : Host) (result : EStateM.Result Exit Store (Option Value)) :
    host.shown? result =
      (({ host with printed := "" } : Host).shown? result).map (Shown.after host.printed) := by
  match result with
  | .ok last store => simp only [shown?, Option.map_some, Shown.after, String.empty_append]; rfl
  | .error (.fault fault) store =>
      simp only [shown?, Option.map_some, Shown.after, String.empty_append]
      rfl
  | .error .exhausted store => rfl
  | .error (.leave value) store => rfl

/-- What was printed may count as printed before. -/
theorem At.flush {host : Host} {call : Activation} {position : Nat} {waiting : List Value}
    {store : Store} {machine : Machine} (there : host.At call position waiting store machine) :
    ({ host with printed := host.printed ++ store.output } : Host).At call position waiting
      { store with output := "" } machine := by
  obtain ⟨stale, fits, rfl⟩ := there
  refine ⟨stale, ⟨fits.slots, fits.size⟩, ?_⟩
  simp only [machine, bare, String.append_empty]
  rfl

end Host

namespace Session

/-! ## Programs one behind the other -/

/-- Statements that were compiled in one piece, and their parts in two. -/
structure Parted (before : Compiler) (p q : List Statement) where
  first : Fragment
  between : Compiler
  second : Fragment
  behind : Compiler
  whole : Fragment
  last : Compiler
  ranFirst : Compiling.statements .discard p 0 .empty before = .ok first between
  ranSecond : Compiling.statements .discard q 0 .empty (.resume between.scope between.constants) =
    .ok second behind
  ranWhole : Compiling.statements .discard (p ++ q) 0 .empty before = .ok whole last

namespace Parted

variable {before : Compiler} {p q : List Statement} (parted : Parted before p q)

theorem ranRest : Compiling.statements .discard q 0 parted.first parted.between =
    .ok parted.whole parted.last := by
  have ran := parted.ranWhole
  rw [Compiling.statements_discard_append, Stateful.bind_of_ok parted.ranFirst] at ran
  exact ran

/-- The second part leaves the same names and constants behind in either case. -/
theorem alike : Compiler.Alike parted.behind parted.last := by
  have same : Compiler.Alike (.resume parted.between.scope parted.between.constants)
      parted.between := ⟨rfl, rfl⟩
  exact (Compiling.statements_moves .discard q 0 0 .empty parted.first _ _ _ _ _ _ same
    parted.ranSecond parted.ranRest).2

variable {limits : Limits} {walk : Walk} {routines : Nat → Routine}

/-- What is known about a program in two parts: the walk reads the compilers in front of it and
between the parts, and all functions come from routines. -/
structure Known (walk : Walk) (routines : Nat → Routine) : Prop where
  reads : Reads walk before
  isGlobal : before.scope.isGlobal = true
  linked : Linked routines parted.last.constants

namespace Known

variable {parted}

theorem between (known : parted.Known walk routines) : parted.first.Complete ∧
    Reads (Statement.walkAll p walk) parted.between ∧ Grows before parted.between :=
  (statements_follows False .discard p 0 .empty Fragment.complete_empty walk).of_ok known.reads
    parted.ranFirst

theorem whole (known : parted.Known walk routines) : parted.whole.Complete ∧
    Reads (Statement.walkAll q (Statement.walkAll p walk)) parted.last ∧
      Grows parted.between parted.last := by
  obtain ⟨complete, reads, -⟩ := known.between
  exact (statements_follows False .discard q 0 parted.first complete _).of_ok reads parted.ranRest

/-- The machine that has all constants. -/
abbrev host (parted : Parted before p q) (limits : Limits) (printed : String) : Host :=
  ⟨parted.last.constants, limits, printed⟩

/-- The evaluation of the first part, if its run alone comes to its end. -/
theorem first_ok (known : parted.Known walk routines) {store : Store} {globals : Globals}
    {count : Nat} {final : Machine}
    (locals : store.locals = []) (output : store.output = "")
    (holds : (host parted limits "").globals store = globals)
    (finishes : (Machine.loaded ⟨parted.first.encode, parted.between.constants⟩ limits
      globals).Finishes count none final) :
    ∃ last inner, Evaluator.run routines (count + 1) limits.capacity p walk store = .ok last inner ∧
      final.globals = (host parted limits "").globals inner ∧ final.output = inner.output := by
  obtain ⟨-, -, grows⟩ := known.whole
  have there : (host parted limits "").At (Host.root parted.first.encode) 0 [] store
      (Machine.loaded ⟨parted.first.encode, parted.last.constants⟩ limits globals) :=
    Host.at_loaded ⟨parted.first.encode, parted.last.constants⟩ locals output holds
  have ends := Host.ends_statements known.linked parted.ranFirst known.reads known.isGlobal
    grows.constants there (count + 1)
  have extended := finishes.withConstants grows.constants
  obtain ⟨last, inner, ran, shows⟩ := ends.ok_of_finishes rfl extended (Nat.lt_succ_self count)
  exact ⟨last, inner, ran, shows.globals, shows.output.trans String.empty_append⟩

/-- Between the parts of the whole program no value waits, and the first part has done its
work. -/
theorem first_reaches (known : parted.Known walk routines) {store : Store} {globals : Globals}
    {fuel : Nat} {last : Option Value} {inner : Store}
    (locals : store.locals = []) (output : store.output = "")
    (holds : (host parted limits "").globals store = globals)
    (ran : Evaluator.run routines fuel limits.capacity p walk store = .ok last inner) :
    ∃ count machine,
      (Machine.loaded ⟨parted.whole.encode, parted.last.constants⟩ limits globals).Reaches count
        machine ∧
      (host parted limits inner.output).At (Host.root parted.whole.encode) parted.first.size []
        { inner with output := "" } machine := by
  obtain ⟨complete, -, grows⟩ := known.whole
  have stands := (Compiling.statements_begins parted.ranRest).standsAt
    (Fragment.standsAt_encode complete)
  have within : Within parted.between.constants (host parted limits "").constants :=
    grows.constants
  have there := Host.at_loaded ⟨parted.whole.encode, parted.last.constants⟩ locals output holds
  have realized := Host.root_realized known.linked parted.ranFirst known.reads known.isGlobal
    within Fragment.complete_empty stands there fuel
  rw [ran] at realized
  obtain ⟨count, machine, reached, behind⟩ := realized
  have flushed := behind.at.flush
  rw [Nat.zero_add, String.empty_append] at flushed
  exact ⟨count, machine, reached, flushed⟩

/-- The run of the second part alone. -/
theorem second_ends (known : parted.Known walk routines) {store : Store} {globals : Globals}
    (locals : store.locals = []) (output : store.output = "")
    (holds : (host parted limits "").globals store = globals) (fuel : Nat) :
    (host parted limits "").Ends fuel
      (Machine.loaded ⟨parted.second.encode, parted.behind.constants⟩ limits globals)
      (Evaluator.run routines fuel limits.capacity q (Statement.walkAll p walk) store) := by
  obtain ⟨-, reads, grows⟩ := known.between
  have alike : parted.last.constants = parted.behind.constants := parted.alike.constants
  have resumed : Reads (Statement.walkAll p walk)
      (.resume parted.between.scope parted.between.constants) :=
    ⟨reads.scope, reads.number, reads.slots, reads.sound⟩
  rw [← alike]
  refine Host.ends_statements known.linked parted.ranSecond resumed
    (grows.isGlobal.trans known.isGlobal) (alike ▸ Within.refl _) ?_ fuel
  exact Host.at_loaded ⟨parted.second.encode, parted.last.constants⟩ locals output holds

/-- The run of the second part behind the first one. -/
theorem rest_ends (known : parted.Known walk routines) {store : Store} {machine : Machine}
    {printed : String}
    (there : (host parted limits printed).At (Host.root parted.whole.encode) parted.first.size []
      store machine) (fuel : Nat) :
    (host parted limits printed).Ends fuel machine
      (Evaluator.run routines fuel limits.capacity q (Statement.walkAll p walk) store) := by
  obtain ⟨whole, reads, grows⟩ := known.between
  obtain ⟨complete, -, -⟩ := known.whole
  have within : Within parted.last.constants (host parted limits printed).constants :=
    Within.refl _
  rw [← Nat.zero_add parted.first.size] at there
  have realized := Host.root_realized known.linked parted.ranRest reads
    (grows.isGlobal.trans known.isGlobal) within whole (Fragment.standsAt_encode complete) there fuel
  rw [Nat.zero_add, ← Fragment.size_encode complete] at realized
  exact realized.ends

/-- The whole program shows what the second part shows alone, behind the output of the first. -/
theorem shown_iff (known : parted.Known walk routines) (nonempty : q ≠ []) {start store : Store}
    {globals slots : Globals} {fuel : Nat} {last : Option Value}
    (locals : start.locals = []) (output : start.output = "")
    (holds : (host parted limits "").globals start = globals)
    (ran : Evaluator.run routines fuel limits.capacity p walk start = .ok last store)
    (left : (host parted limits "").globals store = slots) (shown : Shown) :
    (∃ steps, ((Machine.loaded ⟨parted.whole.encode, parted.last.constants⟩ limits
        globals).advance steps).shown? ⟨p ++ q⟩ = some shown) ↔
      ∃ own : Shown, own.after store.output = shown ∧
        ∃ steps, ((Machine.loaded ⟨parted.second.encode, parted.behind.constants⟩ limits
          slots).advance steps).shown? ⟨q⟩ = some own := by
  obtain ⟨count, middle, reached, there⟩ := known.first_reaches locals output holds ran
  have empty : store.locals = [] := by
    obtain ⟨stale, fits, -⟩ := there
    exact List.length_eq_zero_iff.mp fits.slots
  have ending : endsInExpression (p ++ q) = endsInExpression q := by
    rw [endsInExpression, endsInExpression, List.getLast?_append,
      List.getLast?_eq_some_getLast nonempty, Option.some_or]
  let evaluated (fuel : Nat) := Evaluator.run routines fuel limits.capacity q
    (Statement.walkAll p walk) { store with output := "" }
  have valued : ∀ fuel last inner, evaluated fuel = .ok last inner →
      last.isSome = endsInExpression q := fun _ _ _ => Evaluator.statements_isSome
  have alone : Machine.Tells _ ⟨q⟩ fun fuel => (host parted limits "").shown? (evaluated fuel) :=
    Host.tells_of_ends (known.second_ends empty rfl left) rfl valued
  have behind : Machine.Tells middle ⟨p ++ q⟩ fun fuel =>
      (host parted limits store.output).shown? (evaluated fuel) :=
    Host.tells_of_ends (known.rest_ends there) reached.sameRun.status fun fuel last inner ran =>
      (valued fuel last inner ran).trans ending.symm
  simp only [alone.exists_iff, (reached.tells rfl behind).exists_iff,
    Host.shown?_printed (host parted limits store.output), Option.map_eq_some_iff]
  constructor
  · rintro ⟨fuel, own, tells, same⟩
    exact ⟨own, same, fuel, tells⟩
  · rintro ⟨own, same, fuel, tells⟩
    exact ⟨fuel, own, tells, same⟩

end Known

end Parted

/-! ## Two inputs and one -/

/-- **A session is as good as one program.** If the statements `p` come to their end as the first
input of a session, then `p` and `q` in one input leave the same names and constants behind as `q`
in the next input, and they show the same behind the output of `p`: the same value or the same
fault, the same output and the same global slots. -/
theorem execute_append {limits : Limits} {p q : List Statement} (nonempty : q ≠ []) {steps : Nat}
    {machine : Machine} {second whole : CompiledProgram} {behind last : Compiler}
    (succeeds : ((new limits).execute steps ⟨p⟩).1.result = .ok (some (.ok ()), machine))
    (compiles : ((new limits).execute steps ⟨p⟩).2.compiler.compile ⟨q⟩ = (.ok second, behind))
    (together : (new limits).compiler.compile ⟨p ++ q⟩ = (.ok whole, last)) :
    (∀ few many, ((new limits).execute many ⟨p ++ q⟩).2.scope =
          (((new limits).execute steps ⟨p⟩).2.execute few ⟨q⟩).2.scope ∧
        ((new limits).execute many ⟨p ++ q⟩).2.constants =
          (((new limits).execute steps ⟨p⟩).2.execute few ⟨q⟩).2.constants) ∧
      ∀ shown : Shown,
        (∃ many, ((new limits).execute many ⟨p ++ q⟩).1.shown? ⟨p ++ q⟩ = some shown) ↔
          ∃ own : Shown, own.after machine.output = shown ∧
            ∃ few, (((new limits).execute steps ⟨p⟩).2.execute few ⟨q⟩).1.shown? ⟨q⟩ = some own := by
  have sound := sound_new limits
  match made : (new limits).compiler.compile ⟨p⟩ with
  | (.error fault, next) =>
      rw [execute_of_error made] at succeeds
      cases succeeds
  | (.ok first, between) =>
      have executed := execute_of_ok made steps
      rw [executed] at succeeds compiles ⊢
      rw [Machine.run_load] at succeeds
      obtain ⟨came, rfl⟩ := Prod.mk.inj (Except.ok.inj succeeds)
      obtain ⟨count, final, finishes, ended⟩ := Machine.finishes_of_outcome? rfl came
      rw [ended] at compiles ⊢
      obtain ⟨linked, within⟩ := sound.compiled linked_empty together
      obtain ⟨firstCode, ranFirst, rfl⟩ := Compiler.compile_eq_ok.mp made
      obtain ⟨secondCode, ranSecond, rfl⟩ := Compiler.compile_eq_ok.mp compiles
      obtain ⟨wholeCode, ranWhole, rfl⟩ := Compiler.compile_eq_ok.mp together
      let parted : Parted (new limits).compiler p q :=
        ⟨firstCode, between, secondCode, behind, wholeCode, last, ranFirst, ranSecond, ranWhole⟩
      have known : parted.Known ((new limits).walk fun _ => .idle) _ :=
        ⟨sound.reads _, sound.isGlobal, linked⟩
      obtain ⟨result, inner, ran, globals, output⟩ :=
        known.first_ok rfl rfl (sound.globals_store within) finishes
      refine ⟨fun few many => ?_, fun shown => ?_⟩
      · rw [execute_of_ok compiles, execute_of_ok together]
        exact ⟨parted.alike.scope, parted.alike.constants⟩
      · have shows := known.shown_iff nonempty rfl rfl (sound.globals_store within) ran globals.symm shown
        rw [← output] at shows
        simp only [execute_of_ok compiles, execute_of_ok together, Execution.shown?,
          Machine.run_load]
        exact shows

/-- The input `var x = 1;`, with its spans left out. -/
def definition : List Statement :=
  [.bind (.mk ⟨"x", .dummy⟩ (.literal (.integer 1) .dummy) .dummy)]

/-- The input `x;`, with its spans left out. -/
def mention : List Statement := [.expression (.name ⟨"x", .dummy⟩) .dummy]

set_option maxRecDepth 8000 in
/-- A variable that is defined and read in one input shows what it shows on a line of its own. -/
theorem execute_append_variable :
    ∃ many, ((new ⟨2, 1, 1⟩).execute many ⟨definition ++ mention⟩).1.shown?
        ⟨definition ++ mention⟩ = some ⟨.ok (some (.integer 1)), "", #[.integer 1]⟩ := by
  have nonempty : mention ≠ [] := List.cons_ne_nil _ _
  have succeeds : ((new ⟨2, 1, 1⟩).execute 9 ⟨definition⟩).1.result = .ok (some (.ok ()), _) := rfl
  have compiles : ((new ⟨2, 1, 1⟩).execute 9 ⟨definition⟩).2.compiler.compile ⟨mention⟩ =
      (.ok _, _) := rfl
  have together : (new ⟨2, 1, 1⟩).compiler.compile ⟨definition ++ mention⟩ = (.ok _, _) := rfl
  have same := (execute_append nonempty succeeds compiles together).2
  have alone : (((new ⟨2, 1, 1⟩).execute 9 ⟨definition⟩).2.execute 9 ⟨mention⟩).1.shown?
      ⟨mention⟩ = some ⟨.ok (some (.integer 1)), "", #[.integer 1]⟩ := rfl
  exact (same _).mpr ⟨_, rfl, 9, alone⟩

end Session

end MonkeyLang
