import MonkeyLang.Proofs.Simulation.Host

/-!
# Evaluations that a machine follows

An evaluation is simulated from one relation between stores and machines to another one if every
machine in the first relation with the store gets to where the evaluation ends: to the second
relation if there is a result, to the caller if the function is left, and to the same fault if
there is a fault. If the evaluation is exhausted, the machine takes at least a given number of
steps. A simulation is put together from simulations of its parts like the evaluation itself, as
a proof in Hoare's logic is, and the rules are of the same form.
-/

set_option autoImplicit false

namespace MonkeyLang

/-- The faults that compiled code can run into on a machine of this size. -/
def Fault.Expected (limits : Limits) : Fault → Prop
  | stackUnderflow | unknownOpcode _ _ | truncatedInstruction _ _ | constantOutOfRange _
  | localOutOfRange _ | builtinOutOfRange _ | alreadyHalted => False
  | globalOutOfRange _ _ => limits.globalsSize < Limit.globals.bound
  | _ => True

namespace Host

/-- A machine gets to where an evaluation ended. -/
def Realizes {α : Type} (host : Host) (call : Activation) (bound : Nat) (machine : Machine)
    (arrives : α → Assertion) : EStateM.Result Exit Store α → Prop
  | .ok result store =>
    ∃ count last, machine.Reaches count last ∧ arrives result store last
  | .error (.leave value) store =>
    ∃ count last, machine.Reaches count last ∧ host.Left call value store last
  | .error (.fault fault) store =>
    ∃ count last, machine.Finishes count (some fault) last ∧ host.Shows store last ∧
      fault.Expected host.limits
  | .error .exhausted _ => ∃ count last, bound ≤ count ∧ machine.Reaches count last

/-- A machine follows an evaluation inside of a call, while some slots of the stack are in use. -/
def Simulates {α : Type} (host : Host) (call : Activation) (bound held : Nat) (before : Assertion)
    (work : Evaluating α) (arrives : α → Assertion) : Prop :=
  ∀ store machine, before store machine →
    host.Realizes call bound machine arrives (work ⟨host.limits.capacity, held, call.depth⟩ store)

/-- One step leads from one relation to another, and the store stays as it is. -/
def Silently (before after : Assertion) : Prop :=
  ∀ store machine, before store machine →
    ∃ next, Operation.step machine = .ok .goesOn next ∧ after store next

theorem Silently.weaken {before middle after : Assertion} (silently : Silently before middle)
    (implies : ∀ store machine, middle store machine → after store machine) :
    Silently before after := by
  intro store machine holds
  obtain ⟨next, stepped, inside⟩ := silently store machine holds
  exact ⟨next, stepped, implies store next inside⟩

/-! ## Where a machine gets to -/

section

variable {α : Type} {host : Host} {call : Activation} {bound : Nat} {machine : Machine}
  {arrives : α → Assertion} {result : EStateM.Result Exit Store α}

/-- Steps in front of an evaluation. -/
theorem Realizes.after {count : Nat} {first : Machine}
    (realizes : host.Realizes call bound machine arrives result)
    (reaches : first.Reaches count machine) :
    host.Realizes call (count + bound) first arrives result := by
  match result with
  | .ok value store =>
      obtain ⟨more, last, reached, arrived⟩ := realizes
      exact ⟨_, last, reaches.trans reached, arrived⟩
  | .error (.leave value) store =>
      obtain ⟨more, last, reached, left⟩ := realizes
      exact ⟨_, last, reaches.trans reached, left⟩
  | .error (.fault fault) store =>
      obtain ⟨more, last, ⟨second, reached, stepped⟩, shows, expected⟩ := realizes
      exact ⟨_, last, ⟨second, reaches.trans reached, stepped⟩, shows, expected⟩
  | .error .exhausted store =>
      obtain ⟨more, last, enough, reached⟩ := realizes
      exact ⟨_, last, Nat.add_le_add_left enough count, reaches.trans reached⟩

theorem Realizes.mono {fewer : Nat} (realizes : host.Realizes call bound machine arrives result)
    (le : fewer ≤ bound) : host.Realizes call fewer machine arrives result := by
  match result with
  | .ok _ _ | .error (.leave _) _ | .error (.fault _) _ => exact realizes
  | .error .exhausted store =>
      obtain ⟨count, last, enough, reached⟩ := realizes
      exact ⟨count, last, Nat.le_trans le enough, reached⟩

end

/-! ## Rules -/

namespace Simulates

variable {α β : Type} {host : Host} {call : Activation} {bound held : Nat}
  {before middle : Assertion} {work : Evaluating α} {arrives : α → Assertion}
  {ends : β → Assertion}

theorem pure (arrives : α → Assertion) {result : α} :
    host.Simulates call bound held (arrives result) (pure result) arrives :=
  fun _ machine arrived => ⟨0, machine, .refl machine, arrived⟩

/-- A result where the machine is already. -/
theorem ready {result : α}
    (implies : ∀ store machine, before store machine → arrives result store machine) :
    host.Simulates call bound held before (Pure.pure result) arrives :=
  fun store machine holds => ⟨0, machine, .refl machine, implies store machine holds⟩

/-- An evaluation that leaves the function where the machine has left it. -/
theorem leave {value : Value} :
    host.Simulates call bound held (host.Left call value) (throw (.leave value)) arrives :=
  fun _ machine left => ⟨0, machine, .refl machine, left⟩

theorem exhausted : host.Simulates call 0 held before (throw .exhausted) arrives :=
  fun _ machine _ => ⟨0, machine, Nat.le_refl 0, .refl machine⟩

theorem bind {rest : α → Evaluating β}
    (first : host.Simulates call bound held before work arrives)
    (second : ∀ result, host.Simulates call bound held (arrives result) (rest result) ends) :
    host.Simulates call bound held before (work >>= rest) ends := by
  intro store machine holds
  have realized := first store machine holds
  show host.Realizes call bound machine ends ((work ⟨host.limits.capacity, held, call.depth⟩ >>=
    fun result => rest result ⟨host.limits.capacity, held, call.depth⟩) store)
  cases ran : work ⟨host.limits.capacity, held, call.depth⟩ store with
  | ok result next =>
      rw [ran] at realized
      rw [Stateful.bind_of_ok ran]
      obtain ⟨count, last, reached, arrived⟩ := realized
      have rested := second result next last arrived
      exact (rested.after reached).mono (Nat.le_add_left bound count)
  | error exit next =>
      rw [ran] at realized
      rw [Stateful.bind_of_error ran]
      cases exit <;> exact realized

theorem mono {fewer : Nat} (simulates : host.Simulates call bound held before work arrives)
    (le : fewer ≤ bound) : host.Simulates call fewer held before work arrives :=
  fun store machine holds => (simulates store machine holds).mono le

theorem weaken (simulates : host.Simulates call bound held middle work arrives)
    (implies : ∀ store machine, before store machine → middle store machine) :
    host.Simulates call bound held before work arrives :=
  fun store machine holds => simulates store machine (implies store machine holds)

theorem relax {last : α → Assertion}
    (simulates : host.Simulates call bound held before work arrives)
    (implies : ∀ result store machine, arrives result store machine → last result store machine) :
    host.Simulates call bound held before work last := by
  have relaxed : host.Simulates call bound held before (work >>= Pure.pure) last :=
    simulates.bind fun result => ready (implies result)
  rwa [bind_pure] at relaxed

/-- What is known at the start may be used. -/
theorem assuming {fact : Prop} (simulates : fact → host.Simulates call bound held before work arrives) :
    host.Simulates call bound held (fun store machine => fact ∧ before store machine) work arrives :=
  fun store machine holds => simulates holds.1 store machine holds.2

/-- A step in front of an evaluation. -/
theorem step (silently : Silently before middle)
    (simulates : host.Simulates call bound held middle work arrives) :
    host.Simulates call (bound + 1) held before work arrives := by
  intro store machine holds
  obtain ⟨next, stepped, inside⟩ := silently store machine holds
  rw [Nat.add_comm]
  exact (simulates store next inside).after (.single stepped)

/-- A step that has a result in the evaluation. -/
theorem silent {result : α} (silently : Silently before (arrives result)) :
    host.Simulates call bound held before (Pure.pure result) arrives :=
  ((pure arrives).step silently).mono (Nat.le_succ bound)

/-- A step behind an evaluation. -/
theorem behind {last : α → Assertion}
    (simulates : host.Simulates call bound held before work arrives)
    (silently : ∀ result, Silently (arrives result) (last result)) :
    host.Simulates call bound held before work last := by
  have stepped : host.Simulates call bound held before (work >>= Pure.pure) last :=
    simulates.bind fun result => silent (silently result)
  rwa [bind_pure] at stepped

/-- A result that is only put into another form. -/
theorem of_map {change : α → β}
    (simulates : host.Simulates call bound held before
      (work >>= fun result => Pure.pure (change result)) ends) :
    host.Simulates call bound held before work fun result => ends (change result) := by
  intro store machine holds
  have realized := simulates store machine holds
  change host.Realizes call bound machine ends ((work ⟨host.limits.capacity, held, call.depth⟩ >>=
    fun result => Pure.pure (change result)) store) at realized
  cases ran : work ⟨host.limits.capacity, held, call.depth⟩ store with
  | ok result next =>
      rw [Stateful.bind_of_ok ran] at realized
      exact realized
  | error exit next =>
      rw [Stateful.bind_of_error ran] at realized
      cases exit <;> exact realized

theorem holding {count : Nat}
    (simulates : host.Simulates call bound (held + count) before work arrives) :
    host.Simulates call bound held before (Evaluating.holding count work) arrives :=
  simulates

/-- A loop, if every turn leads back to its start or behind it. -/
theorem loop {turn : Evaluating Bool} {again done : Assertion}
    (simulates : host.Simulates call bound held before turn fun more => if more then again else done)
    (back : Silently again before) {turns : Nat} (le : turns ≤ bound) :
    host.Simulates call turns held before (Evaluating.loop turns turn) fun _ => done := by
  induction turns with
  | zero => exact exhausted
  | succ turns ih =>
      refine (simulates.mono le).bind fun more => ?_
      cases more with
      | true => exact (ih (Nat.le_of_succ_le le)).step back
      | false => exact pure fun _ => done

end Simulates

end Host

end MonkeyLang
