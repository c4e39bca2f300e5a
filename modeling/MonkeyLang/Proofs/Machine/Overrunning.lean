import MonkeyLang.Proofs.Machine.Constants

/-!
# Calls whose slots end beyond all numbers

Where the slots of a call end is the sum of two machine words. The sum is asked for before it is
compared with the size of the stack, and if it is no machine word, then the process is lost with
the machine. This is the only way to lose it: a step crashes exactly if the machine is at such a
call (`Operation.step_crashes_iff`), and a run has crashed exactly if it came to one
(`Machine.crashed_advance_iff`).

On a stack of no more than half as many slots as there are numbers, which no real one exceeds, the
slots of a call overrun just if their end is no number (`Function.overruns_iff`). A function can
only be called in this way if its slots and those of the stack together are more than there are
numbers (`Function.overruns_of_fits`).
-/

set_option autoImplicit false

namespace MonkeyLang

/-- The slots of a function and those of the stack together have numbers. -/
def Function.Fits (stackSize : Nat) (body : Function) : Prop :=
  stackSize + body.locals ≤ Number.greatestSize

namespace Function

variable {body : Function} {base stackSize : Nat}

/-- On a stack of at most half as many slots as there are numbers, the slots overrun just if their
end is no number. -/
theorem overruns_iff (low : base ≤ Number.twoTo 63) :
    body.overruns base = true ↔ Number.greatestSize < base + body.locals := by
  have halves : Number.twoTo 63 + Number.twoTo 63 = Number.greatestSize + 1 := by decide
  simp only [overruns, Bool.and_eq_true, decide_eq_true_eq]
  omega

theorem overruns_of_fits (fits : body.Fits stackSize) (low : base ≤ stackSize) :
    body.overruns base = false := by
  rw [Fits] at fits
  simp only [overruns, Bool.and_eq_false_iff, decide_eq_false_iff_not]
  omega

/-- No function with as few slots as the compiler gives it overruns. -/
theorem overruns_of_few (few : body.locals ≤ Limit.locals.bound) : body.overruns base = false := by
  have small : Limit.locals.bound < Number.twoTo 63 := by decide
  simp only [overruns, Bool.and_eq_false_iff, decide_eq_false_iff_not]
  omega

end Function

namespace Machine

theorem overrunBy_of_few {machine : Machine} {body : Function} {count : Nat}
    (few : body.locals ≤ Limit.locals.bound) : machine.overrunBy body count = false := by
  rw [overrunBy, Function.overruns_of_few few, Bool.and_false]

/-- The machine is at a call whose slots end beyond all numbers. -/
def Overruns (machine : Machine) : Prop :=
  ∃ count behind body, machine.frame.fetch = .instruction .call count behind ∧
    count < machine.height ∧
    machine.stack[machine.height - (count + 1)]? = some (.function body) ∧
    machine.overrunBy body count = true

end Machine

namespace Operation

variable {machine next : Machine}

theorem leave_ne_crashes {value : Value} : leave value machine ≠ .ok .crashes next := by
  intro ran
  rw [leave, Stateful.get_bind] at ran
  cases called : machine.callers.back? with
  | none | some caller =>
      rw [called] at ran
      obtain ⟨_, _, -, ran⟩ := Stateful.bind_eq_ok.mp ran
      obtain ⟨_, _, -, ran⟩ := Stateful.bind_eq_ok.mp ran
      cases ran

theorem call_crashes_iff (count : Nat) :
    (∃ next, call count machine = .ok .crashes next) ↔
      count < machine.height ∧
        ∃ body, machine.stack[machine.height - (count + 1)]? = some (.function body) ∧
          machine.overrunBy body count = true := by
  rw [call_eq, Stateful.get_bind]
  constructor
  · rintro ⟨next, ran⟩
    split at ran
    · cases ran
    · next enough =>
        refine ⟨Nat.le_of_not_lt enough, ?_⟩
        split at ran
        · next body found =>
            rcases callFunction_eq_ok ran with ⟨overrun, -⟩ | ⟨⟨⟩, -⟩
            exact ⟨body, getD_eq_function_iff.mp found, overrun⟩
        · cases going_progress ran
        · cases ran
  · rintro ⟨enough, body, found, overrun⟩
    refine ⟨machine, ?_⟩
    rw [if_neg (Nat.not_lt_of_le enough), getD_eq_function_iff.mpr found]
    exact if_pos overrun

theorem execute_crashes_iff (opcode : Opcode) (operand : Nat) :
    (∃ next, execute opcode operand machine = .ok .crashes next) ↔
      opcode = .call ∧ ∃ next, call operand machine = .ok .crashes next := by
  constructor
  · rintro ⟨next, ran⟩
    cases opcode with
    | call => exact ⟨rfl, next, ran⟩
    | returnValue =>
        obtain ⟨_, _, -, ran⟩ := Stateful.bind_eq_ok.mp ran
        exact absurd ran leave_ne_crashes
    | returnNull => exact absurd ran leave_ne_crashes
    | _ => cases going_progress ran
  · rintro ⟨rfl, crashes⟩
    exact crashes

/-- A step crashes exactly at a call whose slots end beyond all numbers. -/
theorem step_crashes_iff : (∃ next, step machine = .ok .crashes next) ↔ machine.Overruns := by
  rw [step_eq, Stateful.get_bind, Machine.Overruns]
  cases fetched : machine.frame.fetch with
  | stop =>
      refine ⟨?_, fun ⟨_, _, _, other, _⟩ => (by cases other)⟩
      rintro ⟨next, ran⟩
      dsimp only at ran
      split at ran
      · cases ran
      · exact absurd ran leave_ne_crashes
  | broken fault =>
      refine ⟨?_, fun ⟨_, _, _, other, _⟩ => (by cases other)⟩
      rintro ⟨_, ⟨⟩⟩
  | instruction opcode operand behind =>
      -- Where the innermost call goes on behind the instruction makes no difference to the stack.
      have executes := @execute_crashes_iff (machine.jump behind) opcode operand
      refine executes.trans ?_
      rw [call_crashes_iff]
      constructor
      · rintro ⟨rfl, enough, body, found, overrun⟩
        exact ⟨operand, behind, body, rfl, enough, found, overrun⟩
      · rintro ⟨_, _, body, ⟨⟩, enough, found, overrun⟩
        exact ⟨rfl, enough, body, found, overrun⟩

/-- No step crashes where all functions have as few slots as the compiler gives them. -/
theorem step_ne_crashes (few : machine.Knows fun body => body.locals ≤ Limit.locals.bound) :
    step machine ≠ .ok .crashes next := by
  intro stepped
  obtain ⟨count, behind, body, -, -, found, overrun⟩ := step_crashes_iff.mp ⟨next, stepped⟩
  rw [Machine.overrunBy_of_few (few.stack _ (Array.mem_of_getElem? found))] at overrun
  cases overrun

end Operation

namespace Machine

/-- A machine that does not go on reaches itself only. -/
theorem exists_reaches_iff_of_stops {machine : Machine} {holds : Machine → Prop} (steps : Nat)
    (stops : ∀ next, Operation.step machine ≠ .ok .goesOn next) :
    (∃ count reached, count < steps + 1 ∧ Reaches count machine reached ∧ holds reached) ↔
      holds machine := by
  refine ⟨?_, fun here => ⟨0, machine, Nat.succ_pos _, .refl _, here⟩⟩
  rintro ⟨count, reached, -, reaches, here⟩
  cases reaches with
  | refl => exact here
  | step stepped rest => exact absurd stepped (stops _)

/-- A run has crashed exactly if it came to a call whose slots end beyond all numbers. -/
theorem crashed_advance_iff {machine : Machine} (running : machine.status = .running)
    (steps : Nat) :
    (machine.advance steps).status = .crashed ↔
      ∃ count reached, count < steps ∧ Reaches count machine reached ∧ reached.Overruns := by
  induction steps generalizing machine with
  | zero =>
      rw [advance, running]
      simp
  | succ steps ih =>
      rw [advance]
      cases stepped : Operation.step machine with
      | ok progress next =>
          cases progress with
          | goesOn =>
              have sound : ¬machine.Overruns := by
                rw [← Operation.step_crashes_iff, stepped]
                rintro ⟨_, ⟨⟩⟩
              have later := (Reaches.single stepped).sameRun.status.trans running
              refine (ih later).trans ⟨?_, ?_⟩
              · rintro ⟨count, reached, few, reaches, overruns⟩
                exact ⟨count + 1, reached, Nat.succ_lt_succ few, .step stepped reaches, overruns⟩
              · rintro ⟨count, reached, few, reaches, overruns⟩
                cases reaches with
                | refl => exact absurd overruns sound
                | step other rest =>
                    obtain ⟨⟩ := stepped.symm.trans other
                    exact ⟨_, reached, Nat.lt_of_succ_lt_succ few, rest, overruns⟩
          | ends | crashes =>
              rw [exists_reaches_iff_of_stops steps (by rw [stepped]; rintro _ ⟨⟩),
                ← Operation.step_crashes_iff, stepped]
              simp
      | error fault next =>
          rw [exists_reaches_iff_of_stops steps (by rw [stepped]; rintro _ ⟨⟩),
            ← Operation.step_crashes_iff, stepped]
          simp

end Machine

end MonkeyLang
