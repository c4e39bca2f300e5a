import MonkeyLang.Proofs.Machine.Tracked

/-!
# Functions and larger pools

A function names its constants by their indices. If all indices in its stream are those of
constants that there were when it was made (`Code.Covered`), and if this holds of all functions
that it can get at as well, then no step can tell the old constants from a pool that goes on behind
them: not a step that goes on, and neither one that ends in a fault
(`Machine.Tracked.advance_withConstants`). So a call from outside of a program has the same answer
with either pool (`Function.answer_eq`).
-/

set_option autoImplicit false

namespace MonkeyLang

/-- The stream is well formed, with no use for more than a number of constants. -/
def Code.Covered (constants : Nat) (code : Code) : Prop :=
  ∃ stock, code.WellFormed stock ∧ stock.constants ≤ constants

theorem Code.Covered.wellFormed {constants : Nat} {code : Code} (covered : code.Covered constants) :
    ∃ stock, code.WellFormed stock := by
  obtain ⟨stock, formed, -⟩ := covered
  exact ⟨stock, formed⟩

/-- The stream without instructions. -/
theorem Code.covered_empty (constants : Nat) : Code.Covered constants #[] :=
  ⟨⟨0, 0, 0⟩, ⟨.start, fun offset _ inside => absurd inside (Nat.not_lt_zero offset)⟩, Nat.zero_le _⟩

namespace Machine.Tracked

variable {machine : Machine} {few many : Array Value}

/-- The constants that a machine on its tracks pushes are those of the smaller pool. -/
theorem step_withConstants (tracked : machine.Tracked (Code.Covered few.size))
    (own : machine.constants = few) (within : Within few many) :
    Operation.step (machine.withConstants many) =
      Operation.endsWith many (Operation.step machine) := by
  apply Operation.step_withConstants
  intro index behind fetched
  obtain ⟨⟨stock, formed, bound⟩, visits⟩ := tracked.innermost
  obtain ⟨operands, width, -, -, admits⟩ := formed.fetched visits fetched
  rcases admits with none | ⟨-, inside⟩
  · cases none
  · have below : index < machine.constants.size := own ▸ Nat.lt_of_lt_of_le inside bound
    have found := Array.getElem?_eq_getElem below
    rw [found]
    exact within index _ (own ▸ found)

/-- A run with the larger pool is the run with the smaller one, however far it gets. -/
theorem advance_withConstants (tracked : machine.Tracked (Code.Covered few.size))
    (own : machine.constants = few) (within : Within few many) (steps : Nat) :
    (machine.withConstants many).advance steps = (machine.advance steps).withConstants many := by
  induction steps generalizing machine with
  | zero => rfl
  | succ steps ih =>
      rw [advance, advance, tracked.step_withConstants own within]
      cases stepped : Operation.step machine with
      | error fault next => rfl
      | ok progress next =>
          cases progress with
          | ends | crashes => rfl
          | goesOn =>
              have same := (Reaches.single stepped).sameRun.constants
              have following := tracked.step (fun _ => Code.Covered.wellFormed) stepped
              exact ih following (same.trans own)

end Machine.Tracked

/-! ## Calls from outside -/

/-- Puts a value and its arguments on the stack, and calls it. -/
def Operation.invoke (callee : Value) (arguments : List Value) : Operation Progress := do
  push callee
  arguments.forM push
  call arguments.length

/-- What one sees of a call: the value that the function has left with, or a fault, unless the
steps were used up; and what was printed and is in the global slots. -/
structure Answer where
  result : Option (Except Fault (Option Value))
  output : String
  globals : Globals

/-- What one sees of a machine that is called from outside. -/
def Machine.answer (machine : Machine) : Answer where
  result := machine.outcome?.map fun outcome => outcome.map fun _ => machine.top?
  output := machine.output
  globals := machine.globals

/-- A machine without a program of its own that has called a function, some steps later. -/
def Function.called (body : Function) (constants : Array Value) (limits : Limits)
    (globals : Globals) (arguments : List Value) (steps : Nat) : Machine :=
  match Operation.invoke (.function body) arguments
      (.loaded ⟨#[], constants⟩ limits globals) with
  | .ok .crashes machine => { machine with status := .crashed }
  | .ok _ machine => machine.advance steps
  | .error fault machine => { machine with status := .halted (some fault) }

/-- The answer of a function to some arguments. -/
def Function.answer (body : Function) (constants : Array Value) (limits : Limits)
    (globals : Globals) (arguments : List Value) (steps : Nat) : Answer :=
  (body.called constants limits globals arguments steps).answer

namespace Operation

theorem blind_forM_push (values : List Value) : Blind (values.forM push) := by
  induction values with
  | nil => exact Blind.pure _
  | cons value values ih => exact (blind_push value).bind fun _ => ih

theorem calm_forM_push (values : List Value) : Calm (values.forM push) := by
  induction values with
  | nil => exact Calm.pure _
  | cons value values ih => exact (calm_push value).bind fun _ => ih

theorem keeps_forM_push {holds : Function → Prop} {values : List Value}
    (all : ∀ value ∈ values, value.All holds) :
    Keeps holds (fun _ => True) (values.forM push) := by
  induction values with
  | nil => exact Keeps.pure trivial
  | cons value values ih =>
      have rest := ih fun other member => all other (List.mem_cons_of_mem _ member)
      exact (keeps_push (all value List.mem_cons_self)).bind fun _ _ => rest

theorem blind_invoke (callee : Value) (arguments : List Value) :
    Blind (invoke callee arguments) :=
  (blind_push callee).bind fun _ => (blind_forM_push arguments).bind fun _ => blind_call _

theorem keeps_invoke {holds : Function → Prop} {callee : Value} {arguments : List Value}
    (known : callee.All holds) (all : ∀ argument ∈ arguments, argument.All holds) :
    Keeps holds (fun _ => True) (invoke callee arguments) :=
  (keeps_push known).bind fun _ _ => (keeps_forM_push all).bind fun _ _ => keeps_call _

/-- A value that is called from outside does not end the program. -/
theorem invoke_ne_ends {callee : Value} {arguments : List Value} {machine next : Machine} :
    invoke callee arguments machine ≠ .ok .ends next := by
  intro invoked
  obtain ⟨_, _, -, invoked⟩ := Stateful.bind_eq_ok.mp invoked
  obtain ⟨_, _, -, called⟩ := Stateful.bind_eq_ok.mp invoked
  exact call_ne_ends called

/-- A machine that has called a value is on its tracks if it was before. -/
theorem invoke_tracked {good : Code → Prop} {machine next : Machine} {callee : Value}
    {arguments : List Value} (tracked : machine.Tracked good)
    (known : callee.All fun body => good body.code)
    (all : ∀ argument ∈ arguments, argument.All fun body => good body.code)
    (invoked : invoke callee arguments machine = .ok .goesOn next) : next.Tracked good := by
  have kept := keeps_invoke known all machine tracked.knows
  rw [invoked] at kept
  obtain ⟨_, first, pushed, invoked⟩ := Stateful.bind_eq_ok.mp invoked
  obtain ⟨_, second, filled, called⟩ := Stateful.bind_eq_ok.mp invoked
  have calm := ((calm_push callee).of_ok pushed).trans ((calm_forM_push arguments).of_ok filled)
  have onStack : ∀ value ∈ second.stack, value.All fun body => good body.code := by
    have held := keeps_push known machine tracked.knows
    rw [pushed] at held
    have filling := keeps_forM_push all first held.2.1
    rw [filled] at filling
    exact filling.2.1.stack
  rcases call_eq_ok called with same | ⟨body, member, entered⟩
  · have still := calm.trans same
    refine ⟨?_, ?_, kept.2.1⟩
    · rw [still.frame]
      exact tracked.innermost
    · rw [still.callers]
      exact tracked.callers
  · obtain ⟨-, callers, frame, -, -⟩ := enter_eq_ok entered
    refine ⟨?_, ?_, kept.2.1⟩
    · rw [frame]
      exact ⟨onStack _ member, .start⟩
    · rw [callers, calm.frame, calm.callers]
      intro other member
      rcases Array.mem_push.mp member with member | rfl
      · exact tracked.callers other member
      · exact tracked.innermost

end Operation

namespace Function

variable {few many : Array Value} {globals : Globals} {arguments : List Value} {body : Function}

/-- A call with the larger pool is the call with the smaller one, if the functions that it can get
at have all their constants in the smaller one. -/
theorem called_withConstants (within : Within few many)
    (constants : ∀ value ∈ few, value.All fun other => other.code.Covered few.size)
    (shared : ∀ value ∈ globals, value.All fun other => other.code.Covered few.size)
    (given : ∀ value ∈ arguments, value.All fun other => other.code.Covered few.size)
    (covered : body.code.Covered few.size) (limits : Limits) (steps : Nat) :
    body.called many limits globals arguments steps =
      (body.called few limits globals arguments steps).withConstants many := by
  have callee : (Value.function body).All fun other => other.code.Covered few.size := covered
  have tracked : (Machine.loaded ⟨#[], few⟩ limits globals).Tracked (Code.Covered few.size) := by
    refine ⟨⟨Code.covered_empty _, .start⟩, fun _ member => absurd member (Array.not_mem_empty _), ?_⟩
    refine ⟨fun value member => ?_, shared, constants⟩
    obtain rfl := Array.eq_of_mem_replicate member
    trivial
  have kept := Operation.keeps_invoke callee given _ tracked.knows
  have invoked : Operation.invoke (.function body) arguments
      (.loaded ⟨#[], many⟩ limits globals) = _ :=
    Operation.blind_invoke _ _ (.loaded ⟨#[], few⟩ limits globals) many
  rw [called, called, invoked]
  cases ran : Operation.invoke (.function body) arguments (.loaded ⟨#[], few⟩ limits globals) with
  | error fault machine => rfl
  | ok progress machine =>
      rw [ran] at kept
      cases progress with
      | ends => exact absurd ran Operation.invoke_ne_ends
      | crashes => rfl
      | goesOn =>
          have following := Operation.invoke_tracked tracked callee given ran
          exact following.advance_withConstants kept.2.2.constants within steps

/-- The answer does not tell the pools apart. -/
theorem answer_eq (within : Within few many)
    (constants : ∀ value ∈ few, value.All fun other => other.code.Covered few.size)
    (shared : ∀ value ∈ globals, value.All fun other => other.code.Covered few.size)
    (given : ∀ value ∈ arguments, value.All fun other => other.code.Covered few.size)
    (covered : body.code.Covered few.size) (limits : Limits) (steps : Nat) :
    body.answer many limits globals arguments steps =
      body.answer few limits globals arguments steps := by
  have same := called_withConstants within constants shared given covered limits steps
  rw [answer, answer, same]
  rfl

end Function

end MonkeyLang
