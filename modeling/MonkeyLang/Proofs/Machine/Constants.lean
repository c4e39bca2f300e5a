import MonkeyLang.Proofs.Machine.Reaching
import MonkeyLang.Proofs.Compiler.Routines

/-!
# Runs with more constants

An instruction names a constant by its index, and only the instruction that pushes a constant looks
at the constants at all (`Operation.Blind`). So a machine with other constants takes the same step,
be it a fault or not, unless the instruction finds another constant (`Operation.step_withConstants`).
A machine that has all the constants of another one, with the same indices, and perhaps some more,
takes every step that the other one takes without a fault (`Machine.Reaches.withConstants`).
-/

set_option autoImplicit false

namespace MonkeyLang

/-- The machine with another pool of constants. -/
def Machine.withConstants (machine : Machine) (constants : Array Value) : Machine :=
  { machine with constants }

namespace Operation

variable {α β : Type}

/-- The end of an operation with another pool of constants. -/
def endsWith (constants : Array Value) :
    EStateM.Result Fault Machine α → EStateM.Result Fault Machine α
  | .ok result next => .ok result (next.withConstants constants)
  | .error fault next => .error fault (next.withConstants constants)

/-- An operation that does not look at the constants: with others it ends in the same way. -/
def Blind (operation : Operation α) : Prop :=
  ∀ (machine : Machine) (constants : Array Value),
    operation (machine.withConstants constants) = endsWith constants (operation machine)

/-- What comes behind does not look at the constants, and neither does the first operation here. -/
theorem bind_withConstants {operation : Operation α} {rest : α → Operation β} {machine : Machine}
    {constants : Array Value}
    (first : operation (machine.withConstants constants) = endsWith constants (operation machine))
    (second : ∀ result, Blind (rest result)) :
    (operation >>= rest) (machine.withConstants constants) =
      endsWith constants ((operation >>= rest) machine) := by
  cases ran : operation machine with
  | error fault next =>
      rw [ran] at first
      rw [Stateful.bind_of_error ran, Stateful.bind_of_error first]
      rfl
  | ok result next =>
      rw [ran] at first
      rw [Stateful.bind_of_ok ran, Stateful.bind_of_ok first]
      exact second result next constants

namespace Blind

theorem pure (result : α) : Blind (Pure.pure result) := fun _ _ => rfl

theorem throw (fault : Fault) : Blind (MonadExcept.throw fault : Operation α) := fun _ _ => rfl

theorem bind {operation : Operation α} {rest : α → Operation β} (first : Blind operation)
    (second : ∀ result, Blind (rest result)) : Blind (operation >>= rest) :=
  fun machine constants => bind_withConstants (first machine constants) second

theorem ofModify {change : Machine → Machine}
    (same : ∀ (machine : Machine) (constants : Array Value),
      change (machine.withConstants constants) = (change machine).withConstants constants) :
    Blind (modify change : Operation PUnit) :=
  fun machine constants => congrArg (EStateM.Result.ok PUnit.unit) (same machine constants)

/-- Work that looks at the machine, but not at its constants. -/
theorem reading {rest : Machine → Operation α}
    (same : ∀ (machine : Machine) (constants : Array Value),
      rest (machine.withConstants constants) = rest machine)
    (works : ∀ machine, Blind (rest machine)) : Blind (get >>= rest) := by
  intro machine constants
  rw [Stateful.get_bind, Stateful.get_bind, same]
  exact works machine machine constants

end Blind

/-! ## Operations one by one -/

theorem blind_push (value : Value) : Blind (push value) := by
  intro machine constants
  by_cases room : machine.height < machine.stack.size
  · have same : (machine.withConstants constants).height <
        (machine.withConstants constants).stack.size := room
    rw [push, push, dif_pos room, dif_pos same]
    rfl
  · have same : ¬(machine.withConstants constants).height <
        (machine.withConstants constants).stack.size := room
    rw [push, push, dif_neg room, dif_neg same]
    rfl

theorem blind_pop : Blind pop := by
  intro machine constants
  unfold pop Machine.withConstants
  dsimp only
  split <;> rfl

theorem blind_pushResult (result : Except Fault Value) : Blind (pushResult result) := by
  cases result with
  | ok value => exact blind_push value
  | error fault => exact Blind.throw fault

theorem blind_jump (position : Nat) : Blind (jump position) := Blind.ofModify fun _ _ => rfl

theorem blind_localSlot (index : Nat) : Blind (localSlot index) := by
  intro machine constants
  unfold localSlot Machine.withConstants
  dsimp only
  split <;> rfl

theorem blind_pushLocal (index : Nat) : Blind (pushLocal index) :=
  (blind_localSlot index).bind fun _ => Blind.reading (fun _ _ => rfl) fun _ => blind_push _

theorem blind_popLocal (index : Nat) : Blind (popLocal index) :=
  (blind_localSlot index).bind fun _ => blind_pop.bind fun _ => Blind.ofModify fun _ _ => rfl

theorem blind_pushGlobal (index : Nat) : Blind (pushGlobal index) := by
  intro machine constants
  have same : (machine.withConstants constants).globals = machine.globals := rfl
  rw [pushGlobal, pushGlobal, same]
  cases machine.globals[index]? with
  | some value => exact blind_push value machine constants
  | none => rfl

theorem blind_popGlobal (index : Nat) : Blind (popGlobal index) := by
  refine blind_pop.bind fun value machine constants => ?_
  unfold Machine.withConstants
  dsimp only
  split <;> rfl

theorem blind_pushBuiltin (index : Nat) : Blind (pushBuiltin index) := by
  unfold pushBuiltin
  split
  · exact blind_push _
  · exact Blind.throw _

theorem blind_collect (count : Nat) : Blind (collect count) := by
  refine Blind.reading (fun _ _ => rfl) fun machine => ?_
  split
  · exact Blind.throw _
  · exact Blind.bind (Blind.ofModify fun _ _ => rfl) fun _ => blind_push _

theorem blind_combine (function : Value → Value → Except Fault Value) :
    Blind (combine function) :=
  blind_pop.bind fun _ => blind_pop.bind fun _ => blind_pushResult _

theorem blind_enter (body : Function) (count : Nat) : Blind (enter body count) := by
  intro machine constants
  unfold enter Machine.withConstants Machine.depth
  dsimp only
  split
  · rfl
  · split
    · rfl
    · split <;> rfl

theorem going_progress {operation : Operation Unit} {machine next : Machine} {progress : Progress}
    (ran : going operation machine = .ok progress next) : progress = .goesOn := by
  obtain ⟨_, _, -, last⟩ := Stateful.bind_eq_ok.mp ran
  exact (Stateful.pure_eq_ok.mp last).1.symm

theorem blind_going {operation : Operation Unit} (works : Blind operation) :
    Blind (going operation) :=
  works.bind fun _ => Blind.pure _

theorem going_eq_ok {operation : Operation Unit} {machine next : Machine} {progress : Progress}
    (ran : going operation machine = .ok progress next) : operation machine = .ok () next := by
  obtain ⟨_, _, first, last⟩ := Stateful.bind_eq_ok.mp ran
  cases last
  exact first

theorem callFunction_of_sound {body : Function} {count : Nat} {machine : Machine}
    (sound : machine.overrunBy body count = false) :
    callFunction body count machine = going (enter body count) machine :=
  if_neg (by rw [sound]; exact Bool.false_ne_true)

/-- A call of a function crashes, or the function is entered. -/
theorem callFunction_eq_ok {body : Function} {count : Nat} {machine next : Machine}
    {progress : Progress} (ran : callFunction body count machine = .ok progress next) :
    machine.overrunBy body count = true ∧ progress = .crashes ∧ next = machine ∨
      progress = .goesOn ∧ enter body count machine = .ok () next := by
  rw [callFunction] at ran
  split at ran
  · next overrun =>
      cases ran
      exact .inl ⟨overrun, rfl, rfl⟩
  · exact .inr ⟨going_progress ran, going_eq_ok ran⟩

theorem blind_callFunction (body : Function) (count : Nat) : Blind (callFunction body count) := by
  intro machine constants
  have same : (machine.withConstants constants).overrunBy body count =
      machine.overrunBy body count := rfl
  rw [callFunction, callFunction, same]
  split
  · rfl
  · exact blind_going (blind_enter body count) machine constants

theorem blind_callBuiltin (builtin : Builtin) (slot : Nat) : Blind (callBuiltin builtin slot) :=
  Blind.reading (fun _ _ => rfl) fun _ =>
    Blind.bind (Blind.ofModify fun _ _ => rfl) fun _ => blind_push _

theorem call_eq (count : Nat) :
    call count = get >>= fun machine =>
      if machine.height < count + 1 then throw .stackUnderflow
      else
        match machine.stack.getD (machine.height - (count + 1)) .null with
        | .function body => callFunction body count
        | .builtin builtin => going (callBuiltin builtin (machine.height - (count + 1)))
        | other => throw (.notCallable other.kind) := by
  funext machine
  rw [Stateful.get_bind]
  unfold call
  split
  · rfl
  · dsimp only
    cases machine.stack.getD (machine.height - (count + 1)) .null <;> rfl

/-- A slot whose value is a function is a slot of the stack. -/
theorem getD_eq_function_iff {stack : Array Value} {slot : Nat} {body : Function} :
    stack.getD slot .null = .function body ↔ stack[slot]? = some (.function body) := by
  rw [Array.getD_eq_getD_getElem?]
  cases stack[slot]? with
  | none => exact ⟨nofun, nofun⟩
  | some value => exact (Option.some_inj).symm

theorem blind_call (count : Nat) : Blind (call count) := by
  rw [call_eq]
  refine Blind.reading (fun _ _ => rfl) fun machine => ?_
  split
  · exact Blind.throw _
  · split
    · exact blind_callFunction _ count
    · exact blind_going (blind_callBuiltin _ _)
    · exact Blind.throw _

theorem blind_leave (value : Value) : Blind (leave value) := by
  refine Blind.reading (fun _ _ => rfl) fun machine => ?_
  split
  · exact (blind_push value).bind fun _ =>
      Blind.bind (Blind.ofModify fun _ _ => rfl) fun _ => Blind.pure _
  · exact Blind.bind (Blind.ofModify fun _ _ => rfl) fun _ =>
      (blind_push value).bind fun _ => Blind.pure _

/-! ## Instructions and steps -/

theorem blind_execute {opcode : Opcode} (other : opcode ≠ .constant) (operand : Nat) :
    Blind (execute opcode operand) := by
  cases opcode with
  | constant => exact absurd rfl other
  | null | true | false => exact blind_going (blind_push _)
  | getLocal => exact blind_going (blind_pushLocal operand)
  | setLocal => exact blind_going (blind_popLocal operand)
  | getGlobal => exact blind_going (blind_pushGlobal operand)
  | setGlobal => exact blind_going (blind_popGlobal operand)
  | getBuiltin => exact blind_going (blind_pushBuiltin operand)
  | add | sub | mul | div => exact blind_going (blind_combine _)
  | equal | notEqual | greater => exact blind_going (blind_combine _)
  | index => exact blind_going (blind_combine _)
  | negate => exact blind_going (blind_pop.bind fun _ => blind_pushResult _)
  | not => exact blind_going (blind_pop.bind fun _ => blind_push _)
  | jump => exact blind_going (blind_jump operand)
  | jumpNotTruthy =>
      refine blind_going (blind_pop.bind fun condition => ?_)
      split
      · exact blind_jump operand
      · exact Blind.pure _
  | call => exact blind_call operand
  | returnValue => exact blind_pop.bind fun _ => blind_leave _
  | returnNull => exact blind_leave _
  | array => exact blind_going (blind_collect operand)
  | pop => exact blind_going (blind_pop.bind fun _ => Blind.pure _)

theorem step_eq :
    step = get >>= fun machine =>
      match machine.frame.fetch with
      | .stop => if machine.callers.isEmpty then pure .ends else leave .null
      | .broken fault => throw fault
      | .instruction opcode operand next => jump next >>= fun _ => execute opcode operand := by
  funext machine
  rw [Stateful.get_bind]
  unfold step
  cases machine.frame.fetch with
  | stop => dsimp only; split <;> rfl
  | broken fault => rfl
  | instruction opcode operand next => rfl

/-- To push a constant that both pools have, or that none of them has. -/
theorem pushConstant_withConstants {machine : Machine} {constants : Array Value} {index : Nat}
    (same : constants[index]? = machine.constants[index]?) :
    pushConstant index (machine.withConstants constants) =
      endsWith constants (pushConstant index machine) := by
  have there : (machine.withConstants constants).constants[index]? = machine.constants[index]? :=
    same
  rw [pushConstant, pushConstant, there]
  cases machine.constants[index]? with
  | some value => exact blind_push value machine constants
  | none => rfl

theorem step_constant {machine : Machine} {index behind : Nat}
    (fetched : machine.frame.fetch = .instruction .constant index behind) :
    step machine = going (pushConstant index) (machine.jump behind) := by
  rw [step_eq, Stateful.get_bind, fetched]
  rfl

/-- A step with other constants, unless it pushes a constant that is another one there. -/
theorem step_withConstants {machine : Machine} {constants : Array Value}
    (same : ∀ index behind, machine.frame.fetch = .instruction .constant index behind →
      constants[index]? = machine.constants[index]?) :
    step (machine.withConstants constants) = endsWith constants (step machine) := by
  have frame : (machine.withConstants constants).frame = machine.frame := rfl
  have callers : (machine.withConstants constants).callers = machine.callers := rfl
  by_cases pushes : ∃ index behind, machine.frame.fetch = .instruction .constant index behind
  · obtain ⟨index, behind, fetched⟩ := pushes
    have pushed : pushConstant index ((machine.jump behind).withConstants constants) = _ :=
      pushConstant_withConstants (same index behind fetched)
    rw [step_constant fetched, step_constant (frame ▸ fetched)]
    exact bind_withConstants pushed fun _ => Blind.pure _
  · rw [step_eq, Stateful.get_bind, Stateful.get_bind, frame, callers]
    cases fetched : machine.frame.fetch with
    | stop =>
        dsimp only
        split
        · rfl
        · exact blind_leave _ machine constants
    | broken fault => rfl
    | instruction opcode operand behind =>
        have other : opcode ≠ .constant := by
          rintro rfl
          exact pushes ⟨operand, behind, fetched⟩
        exact ((blind_jump behind).bind fun _ => blind_execute other operand) machine constants

/-- A constant that is pushed is one of the constants. -/
theorem constant_of_step {machine next : Machine} {progress : Progress} {index behind : Nat}
    (stepped : step machine = .ok progress next)
    (fetched : machine.frame.fetch = .instruction .constant index behind) :
    ∃ value, machine.constants[index]? = some value := by
  rw [step_constant fetched] at stepped
  obtain ⟨_, middle, pushed, -⟩ := Stateful.bind_eq_ok.mp stepped
  unfold pushConstant at pushed
  split at pushed
  · next value found => exact ⟨value, found⟩
  · cases pushed

/-- A step that succeeds does the same with more constants. -/
theorem step_withConstants_of_ok {machine next : Machine} {constants : Array Value}
    {progress : Progress} (within : Within machine.constants constants)
    (stepped : step machine = .ok progress next) :
    step (machine.withConstants constants) = .ok progress (next.withConstants constants) := by
  have same : ∀ index behind, machine.frame.fetch = .instruction .constant index behind →
      constants[index]? = machine.constants[index]? := by
    intro index behind fetched
    obtain ⟨value, found⟩ := constant_of_step stepped fetched
    rw [found, within index value found]
  rw [step_withConstants same, stepped]
  rfl

end Operation

namespace Machine

variable {many : Array Value} {count : Nat} {first last : Machine}

theorem Reaches.withConstants (reaches : Reaches count first last)
    (within : Within first.constants many) :
    Reaches count (first.withConstants many) (last.withConstants many) := by
  induction reaches with
  | refl machine => exact .refl _
  | step stepped rest ih =>
      have same := (Reaches.single stepped).sameRun.constants
      exact .step (Operation.step_withConstants_of_ok within stepped) (ih (same ▸ within))

/-- A run that ends without a fault does so with more constants. -/
theorem Finishes.withConstants (finishes : Finishes count first none last)
    (within : Within first.constants many) :
    Finishes count (first.withConstants many) none (last.withConstants many) := by
  obtain ⟨second, reaches, stepped⟩ := finishes
  have same := reaches.sameRun.constants
  exact ⟨_, reaches.withConstants within,
    Operation.step_withConstants_of_ok (same ▸ within) stepped⟩

end Machine

end MonkeyLang
