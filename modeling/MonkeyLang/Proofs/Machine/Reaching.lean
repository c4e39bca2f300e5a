import MonkeyLang.Proofs.Machine.Preservation

/-!
# Runs step by step

A machine reaches another one in a number of steps if none of them ends the run. What a run of
limited length comes to is told by where the machine gets before it ends: as long as there are
steps to take the run has no outcome, and from then on it always has the same one.
-/

set_option autoImplicit false

namespace MonkeyLang

namespace Machine

/-- The second machine is where the first one is after this many steps that go on. -/
inductive Reaches : Nat → Machine → Machine → Prop where
  | refl (machine : Machine) : Reaches 0 machine machine
  | step {count : Nat} {first second third : Machine}
      (stepped : Operation.step first = .ok .goesOn second) (rest : Reaches count second third) :
      Reaches (count + 1) first third

namespace Reaches

theorem single {first second : Machine} (stepped : Operation.step first = .ok .goesOn second) :
    Reaches 1 first second :=
  .step stepped (.refl second)

theorem trans {few many : Nat} {first second third : Machine} (left : Reaches few first second)
    (right : Reaches many second third) : Reaches (few + many) first third := by
  induction left with
  | refl machine => simpa using right
  | step stepped rest ih =>
      rw [Nat.add_right_comm]
      exact .step stepped (ih right)

theorem advance {count : Nat} {first second : Machine} (reaches : Reaches count first second)
    (more : Nat) : first.advance (count + more) = second.advance more := by
  induction reaches with
  | refl machine => rw [Nat.zero_add]
  | step stepped rest ih =>
      rw [Nat.add_right_comm, Machine.advance, stepped]
      exact ih

/-- A machine that is still running has taken all its steps. -/
theorem of_running {steps : Nat} {first : Machine}
    (running : (first.advance steps).status = .running) :
    Reaches steps first (first.advance steps) := by
  induction steps generalizing first with
  | zero => exact .refl first
  | succ steps ih =>
      rw [Machine.advance] at running ⊢
      split at running
      · next stepped => exact .step stepped (ih running)
      all_goals cases running

theorem step_of_running {steps : Nat} {first : Machine}
    (running : (first.advance (steps + 1)).status = .running) :
    Operation.step (first.advance steps) = .ok .goesOn (first.advance (steps + 1)) := by
  induction steps generalizing first with
  | zero =>
      rw [Machine.advance] at running ⊢
      split at running
      · next stepped => exact stepped
      all_goals cases running
  | succ steps ih =>
      rw [Machine.advance] at running
      rw [Machine.advance, Machine.advance]
      split at running
      · exact ih running
      all_goals cases running

/-- A machine reaches one other machine in a number of steps. -/
theorem advance_eq {count : Nat} {first second : Machine} (reaches : Reaches count first second) :
    first.advance count = second := reaches.advance 0

/-- The machines on the way. -/
theorem prefix_of_le {count few : Nat} {first third : Machine} (reaches : Reaches count first third)
    (le : few ≤ count) : ∃ second, Reaches few first second := by
  induction reaches generalizing few with
  | refl machine =>
      obtain rfl := Nat.le_zero.mp le
      exact ⟨machine, .refl machine⟩
  | step stepped rest ih =>
      cases few with
      | zero => exact ⟨_, .refl _⟩
      | succ few =>
          obtain ⟨second, reached⟩ := ih (Nat.le_of_succ_le_succ le)
          exact ⟨second, .step stepped reached⟩

/-- What holds of the functions of a machine holds of all it reaches. -/
theorem kept {holds : Function → Prop} {count : Nat} {first second : Machine}
    (reaches : Reaches count first second) (knows : first.Knows holds) :
    second.Knows holds ∧ first.SameRun second := by
  induction reaches with
  | refl machine => exact ⟨knows, .refl machine⟩
  | step stepped rest ih =>
      have kept := Operation.keeps_step _ knows
      rw [stepped] at kept
      obtain ⟨known, same⟩ := ih kept.2.1
      exact ⟨known, kept.2.2.trans same⟩

theorem sameRun {count : Nat} {first second : Machine} (reaches : Reaches count first second) :
    first.SameRun second := by
  have anything : first.Knows fun _ => True :=
    ⟨fun _ _ => Value.all_of_forall (fun _ => trivial) _,
      fun _ _ => Value.all_of_forall (fun _ => trivial) _,
      fun _ _ => Value.all_of_forall (fun _ => trivial) _⟩
  exact (reaches.kept anything).2

end Reaches

/-- The run ends after this many steps and one more, at its end or with a fault. -/
def Finishes (count : Nat) (first : Machine) (fault : Option Fault) (last : Machine) : Prop :=
  ∃ second, Reaches count first second ∧
    Operation.step second =
      match fault with
      | none => .ok .ends last
      | some fault => .error fault last

/-- A run that is not given the steps to end has no outcome. -/
theorem Reaches.outcome? {count : Nat} {first second : Machine}
    (reaches : Reaches count first second) (running : first.status = .running) :
    (first.advance count).outcome? = none := by
  have stopped := reaches.advance 0
  rw [Nat.add_zero, Machine.advance] at stopped
  rw [stopped, Machine.outcome?, reaches.sameRun.status, running]

/-- A run that has no outcome for some steps after others has none before either. -/
theorem Reaches.outcome?_of_le {count more steps : Nat} {first second : Machine}
    (reaches : Reaches count first second) (running : first.status = .running)
    (silent : ∀ steps, steps ≤ more → (second.advance steps).outcome? = none)
    (le : steps ≤ count + more) : (first.advance steps).outcome? = none := by
  rcases Nat.le_total steps count with few | many
  · obtain ⟨middle, reached⟩ := reaches.prefix_of_le few
    exact reached.outcome? running
  · obtain ⟨rest, rfl⟩ := Nat.exists_eq_add_of_le many
    rw [reaches.advance]
    exact silent rest (Nat.le_of_add_le_add_left le)

/-- A run that is given enough steps comes to an end of a kind, and has no outcome before. -/
def ComesTo (first : Machine) (ended : Machine → Prop) : Prop :=
  ∃ count, (∀ steps, count < steps → ended (first.advance steps)) ∧
    ∀ steps, steps ≤ count → (first.advance steps).outcome? = none

/-- Steps in front of a run. -/
theorem Reaches.comesTo {count : Nat} {first second : Machine} {ended : Machine → Prop}
    (reaches : Reaches count first second) (running : first.status = .running)
    (comes : second.ComesTo ended) : first.ComesTo ended := by
  obtain ⟨more, after, silent⟩ := comes
  refine ⟨count + more, fun steps enough => ?_, fun steps few =>
    reaches.outcome?_of_le running silent few⟩
  obtain ⟨rest, rfl⟩ := Nat.exists_eq_add_of_le (Nat.le_of_lt (Nat.lt_of_le_of_lt
    (Nat.le_add_right count more) enough))
  rw [reaches.advance]
  exact after rest (Nat.lt_of_add_lt_add_left enough)

theorem Finishes.advance_of_lt {count steps : Nat} {first last : Machine} {fault : Option Fault}
    (finishes : Finishes count first fault last) (enough : count < steps) :
    first.advance steps = { last with status := .halted fault } := by
  obtain ⟨second, reaches, stepped⟩ := finishes
  obtain ⟨more, rfl⟩ := Nat.exists_eq_add_of_lt enough
  rw [Nat.add_assoc, reaches.advance, Machine.advance, stepped]
  cases fault <;> rfl

/-- A run that came to its end without a fault has taken its steps one by one. -/
theorem finishes_of_outcome? {steps : Nat} {first : Machine} (running : first.status = .running)
    (came : (first.advance steps).outcome? = some (.ok ())) :
    ∃ count last, Finishes count first none last ∧
      first.advance steps = { last with status := .halted none } := by
  induction steps generalizing first with
  | zero =>
      rw [advance, Machine.outcome?, running] at came
      cases came
  | succ steps ih =>
      rw [advance] at came ⊢
      cases stepped : Operation.step first with
      | ok progress next =>
          rw [stepped] at came
          cases progress with
          | goesOn =>
              have goes := Reaches.single stepped
              obtain ⟨count, last, ⟨second, reaches, ended⟩, same⟩ :=
                ih (goes.sameRun.status.trans running) came
              exact ⟨count + 1, last, ⟨second, .step stepped reaches, ended⟩, same⟩
          | ends => exact ⟨0, next, ⟨first, .refl first, stepped⟩, rfl⟩
          | crashes => cases came
      | error fault next =>
          rw [stepped] at came
          cases came

/-- A run ends in one way only. -/
theorem Finishes.unique {count more : Nat} {first last other : Machine}
    {fault failure : Option Fault} (left : Finishes count first fault last)
    (right : Finishes more first failure other) :
    { last with status := .halted fault } = { other with status := .halted failure } := by
  rw [← left.advance_of_lt (Nat.lt_succ_of_le (Nat.le_max_left count more)),
    ← right.advance_of_lt (Nat.lt_succ_of_le (Nat.le_max_right count more))]

/-- A run that ends has its outcome as soon as it is given enough steps, and none before. -/
theorem Finishes.outcome? {count : Nat} {first last : Machine} {fault : Option Fault}
    (finishes : Finishes count first fault last) (running : first.status = .running)
    (steps : Nat) :
    (first.advance steps).outcome? =
      if count < steps then
        match fault with
        | none => some (.ok ())
        | some fault => some (.error fault)
      else none := by
  split
  · next enough =>
      rw [finishes.advance_of_lt enough]
      cases fault <;> rfl
  · next few =>
      obtain ⟨second, reaches, _⟩ := finishes
      obtain ⟨middle, reached⟩ := reaches.prefix_of_le (Nat.le_of_not_lt few)
      exact reached.outcome? running

theorem Finishes.comesTo {count : Nat} {first last : Machine} {fault : Option Fault}
    {ended : Machine → Prop} (finishes : Finishes count first fault last)
    (running : first.status = .running) (ends : ended { last with status := .halted fault }) :
    first.ComesTo ended := by
  refine ⟨count, fun steps enough => ?_, fun steps few => ?_⟩
  · rw [finishes.advance_of_lt enough]
    exact ends
  · rw [finishes.outcome? running, if_neg (Nat.not_lt.mpr few)]

namespace ComesTo

variable {first : Machine} {ended : Machine → Prop}

theorem ended_of_outcome? {steps : Nat} {outcome : Except Fault Unit}
    (comes : first.ComesTo ended) (came : (first.advance steps).outcome? = some outcome) :
    ended (first.advance steps) := by
  obtain ⟨count, after, before⟩ := comes
  refine after steps (Nat.lt_of_not_le fun few => ?_)
  rw [before steps few] at came
  cases came

theorem exists_outcome? (comes : first.ComesTo ended)
    (told : ∀ machine, ended machine → machine.outcome?.isSome = true) :
    ∃ steps outcome, (first.advance steps).outcome? = some outcome ∧
      ended (first.advance steps) := by
  obtain ⟨count, after, -⟩ := comes
  have here := after (count + 1) (Nat.lt_succ_self count)
  obtain ⟨outcome, came⟩ := Option.isSome_iff_exists.mp (told _ here)
  exact ⟨count + 1, outcome, came, here⟩

end ComesTo

/-- Where the run of a program that was loaded starts. -/
def loaded (program : CompiledProgram) (limits : Limits) (globals : Globals) : Machine :=
  { Machine.load program limits globals with status := .running }

/-- What holds of all functions among the constants and the global slots holds of all functions
that the program starts with. -/
theorem knows_loaded {program : CompiledProgram} {globals : Globals} {holds : Function → Prop}
    (constants : ∀ value ∈ program.constants, value.All holds)
    (known : ∀ value ∈ globals, value.All holds) (limits : Limits) :
    (loaded program limits globals).Knows holds := by
  refine ⟨fun value member => ?_, known, constants⟩
  obtain rfl := Array.eq_of_mem_replicate member
  trivial

theorem run_load (steps : Nat) (program : CompiledProgram) (limits : Limits) (globals : Globals) :
    (Machine.load program limits globals).run steps =
      (((loaded program limits globals).advance steps).outcome?,
        (loaded program limits globals).advance steps) := rfl

theorem run_load_of_outcome? {steps : Nat} {program : CompiledProgram} {limits : Limits}
    {globals : Globals} {outcome : Except Fault Unit}
    (came : ((loaded program limits globals).advance steps).outcome? = some outcome) :
    (Machine.load program limits globals).run steps =
      (some outcome, (loaded program limits globals).advance steps) := by
  rw [run_load, came]

end Machine

end MonkeyLang
