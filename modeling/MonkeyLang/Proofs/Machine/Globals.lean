import MonkeyLang.Proofs.Machine.Tracked

/-!
# What holds of a global slot

Only one instruction writes a global slot, and it names the slot (`Operation.globals_step`). So a
slot that no stream of a program names holds after any number of steps what it held before
(`Machine.Tracked.globals_advance`).
-/

set_option autoImplicit false

namespace MonkeyLang

namespace Operation

variable {α β : Type} {slot : Nat}

/-- An operation leaves alone what a global slot holds. -/
def Spares (slot : Nat) (operation : Operation α) : Prop :=
  ∀ machine : Machine, (operation.after machine).globals[slot]? = machine.globals[slot]?

theorem Spares.ofCalm {operation : Operation α} (calm : Calm operation) : Spares slot operation :=
  fun machine => congrArg (·[slot]?) (calm machine).globals

theorem Spares.ofModify {change : Machine → Machine}
    (same : ∀ machine : Machine, (change machine).globals = machine.globals) :
    Spares slot (modify change : Operation PUnit) :=
  fun machine => congrArg (·[slot]?) (same machine)

theorem Spares.bind {operation : Operation α} {rest : α → Operation β}
    (first : Spares slot operation) (second : ∀ result, Spares slot (rest result)) :
    Spares slot (operation >>= rest) := fun machine =>
  after_bind (fun earlier later => later.globals[slot]? = earlier.globals[slot]?)
    (fun left right => right.trans left) (first machine) fun result next _ => second result next

theorem Spares.reading {rest : Machine → Operation α}
    (second : ∀ machine, Spares slot (rest machine)) : Spares slot (get >>= rest) :=
  fun machine => second machine machine

theorem spares_going {operation : Operation Unit} (spares : Spares slot operation) :
    Spares slot (going operation) :=
  spares.bind fun _ => .ofCalm (Calm.pure _)

theorem spares_popGlobal {index : Nat} (other : index ≠ slot) : Spares slot (popGlobal index) := by
  refine (Spares.ofCalm calm_pop).bind fun value machine => ?_
  unfold after
  dsimp only
  by_cases inside : index < machine.globals.size
  · rw [dif_pos inside]
    exact Array.getElem?_set_ne inside other
  · rw [dif_neg inside]

theorem spares_enter (body : Function) (count : Nat) : Spares slot (enter body count) := by
  intro machine
  cases ran : enter body count machine with
  | ok result next =>
      obtain ⟨-, -, -, -, globals⟩ := enter_eq_ok ran
      rw [after_of_ok ran, globals]
  | error fault next =>
      rw [after_of_error ran]
      unfold enter at ran
      split at ran
      · cases ran
        rfl
      · split at ran
        · cases ran
          rfl
        · dsimp only at ran
          split at ran
          · cases ran
            rfl
          · cases ran

theorem spares_callFunction (body : Function) (count : Nat) :
    Spares slot (callFunction body count) := by
  intro machine
  by_cases overrun : machine.overrunBy body count = true
  · have same : callFunction body count machine = .ok .crashes machine := if_pos overrun
    rw [after_of_ok same]
  · rw [after, callFunction_of_sound (Bool.of_not_eq_true overrun)]
    exact spares_going (spares_enter body count) machine

theorem spares_call (count : Nat) : Spares slot (call count) := by
  rw [call_eq]
  refine Spares.reading fun machine => ?_
  split
  · exact .ofCalm (Calm.throw _)
  · split
    · exact spares_callFunction _ _
    · exact .ofCalm (calm_going (calm_callBuiltin _ _))
    · exact .ofCalm (Calm.throw _)

theorem spares_leave (value : Value) : Spares slot (leave value) := by
  refine Spares.reading fun machine => ?_
  split
  · exact Spares.bind (.ofCalm (calm_push value)) fun _ =>
      Spares.bind (Spares.ofModify fun _ => rfl) fun _ => .ofCalm (Calm.pure _)
  · exact Spares.bind (Spares.ofModify fun _ => rfl) fun _ =>
      Spares.bind (.ofCalm (calm_push value)) fun _ => .ofCalm (Calm.pure _)

/-- Only one instruction writes a global slot, and it names the slot. -/
theorem spares_execute {opcode : Opcode} {operand : Nat}
    (other : opcode = .setGlobal → operand ≠ slot) : Spares slot (execute opcode operand) := by
  have calm : ∀ {operation : Operation Unit}, Calm operation → Spares slot (going operation) :=
    fun quiet => .ofCalm (calm_going quiet)
  have jumps : Spares slot (jump operand) := Spares.ofModify fun _ => rfl
  cases opcode with
  | constant => exact calm (calm_pushConstant operand)
  | null | true | false => exact calm (calm_push _)
  | getLocal => exact calm (calm_pushLocal operand)
  | setLocal => exact calm (calm_popLocal operand)
  | getGlobal => exact calm (calm_pushGlobal operand)
  | setGlobal => exact spares_going (spares_popGlobal (other rfl))
  | getBuiltin => exact calm (calm_pushBuiltin operand)
  | add | sub | mul | div => exact calm (calm_combine _)
  | equal | notEqual | greater => exact calm (calm_combine _)
  | index => exact calm (calm_combine _)
  | negate => exact calm (calm_pop.bind fun _ => calm_pushResult _)
  | not => exact calm (calm_pop.bind fun _ => calm_push _)
  | jump => exact spares_going jumps
  | jumpNotTruthy =>
      refine spares_going ((Spares.ofCalm calm_pop).bind fun condition => ?_)
      split
      · exact jumps
      · exact .ofCalm (Calm.pure _)
  | call => exact spares_call operand
  | returnValue => exact (Spares.ofCalm calm_pop).bind fun _ => spares_leave _
  | returnNull => exact spares_leave _
  | array => exact calm (calm_collect operand)
  | pop => exact calm (calm_pop.bind fun _ => Calm.pure _)

/-- A step changes a global slot only if it executes an instruction that writes it. -/
theorem globals_step {machine : Machine}
    (other : ∀ operand behind, machine.frame.fetch = .instruction .setGlobal operand behind →
      operand ≠ slot) : (step.after machine).globals[slot]? = machine.globals[slot]? := by
  cases fetched : machine.frame.fetch with
  | stop =>
      by_cases outermost : machine.callers.isEmpty = true
      · have same : step machine = .ok .ends machine := by rw [step, fetched, if_pos outermost]
        rw [after_of_ok same]
      · have same : step machine = leave .null machine := by rw [step, fetched, if_neg outermost]
        rw [after, same]
        exact spares_leave .null machine
  | broken fault =>
      have same : step machine = .error fault machine := by rw [step, fetched]
      rw [after_of_error same]
  | instruction opcode operand behind =>
      have same : step machine = execute opcode operand (machine.jump behind) := by
        rw [step, fetched]
      rw [after, same]
      refine spares_execute ?_ (machine.jump behind)
      intro writes
      exact other operand behind (writes ▸ fetched)

end Operation

/-- A slot beyond those that the streams of a machine name keeps what it holds, however far the run
gets. -/
theorem Machine.Tracked.globals_advance {good : Code → Prop} {slot : Nat}
    (beyond : ∀ code, good code → ∃ stock, code.WellFormed stock ∧ stock.globals ≤ slot)
    {machine : Machine} (tracked : machine.Tracked good) (steps : Nat) :
    (machine.advance steps).globals[slot]? = machine.globals[slot]? := by
  have sound : ∀ code, good code → ∃ stock, code.WellFormed stock := by
    intro code fine
    obtain ⟨stock, formed, -⟩ := beyond code fine
    exact ⟨stock, formed⟩
  induction steps generalizing machine with
  | zero => rfl
  | succ steps ih =>
      have spared : (Operation.step.after machine).globals[slot]? = machine.globals[slot]? := by
        refine Operation.globals_step fun operand behind fetched => ?_
        obtain ⟨stock, formed, few⟩ := beyond _ tracked.innermost.stream
        obtain ⟨operands, width, -, -, admits⟩ := formed.fetched tracked.innermost.visits fetched
        rcases admits with none | ⟨-, below⟩
        · cases none
        · exact Nat.ne_of_lt (Nat.lt_of_lt_of_le below few)
      rw [Machine.advance]
      cases stepped : Operation.step machine with
      | error fault next =>
          rw [Operation.after_of_error stepped] at spared
          exact spared
      | ok progress next =>
          rw [Operation.after_of_ok stepped] at spared
          cases progress with
          | ends | crashes => exact spared
          | goesOn => exact (ih (tracked.step sound stepped)).trans spared

end MonkeyLang
