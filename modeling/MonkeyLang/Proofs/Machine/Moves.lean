import MonkeyLang.Proofs.Machine.Constants

/-!
# How a step moves

Most operations change the stack only: the calls that are going on and the global slots are
afterwards what they were before (`Operation.Calm`). The others are few. A jump changes the offset
at which the innermost call goes on, a call of a function puts a new call around, and to leave one
takes it away. So a step that goes on moves the machine in one of three ways (`Machine.Moves`).
-/

set_option autoImplicit false

namespace MonkeyLang

/-- Two machines with the same calls and the same global slots. -/
structure Machine.SameCalls (earlier later : Machine) : Prop where
  frame : later.frame = earlier.frame
  callers : later.callers = earlier.callers
  maxFrames : later.maxFrames = earlier.maxFrames
  globals : later.globals = earlier.globals

namespace Machine.SameCalls

theorem refl (machine : Machine) : SameCalls machine machine := ⟨rfl, rfl, rfl, rfl⟩

theorem trans {first second third : Machine} (left : SameCalls first second)
    (right : SameCalls second third) : SameCalls first third where
  frame := right.frame.trans left.frame
  callers := right.callers.trans left.callers
  maxFrames := right.maxFrames.trans left.maxFrames
  globals := right.globals.trans left.globals

end Machine.SameCalls

namespace Operation

variable {α β : Type}

/-- Where an operation takes a machine, whether it ends in a fault or not. -/
def after (operation : Operation α) (machine : Machine) : Machine :=
  match operation machine with
  | .ok _ next => next
  | .error _ next => next

theorem after_of_ok {operation : Operation α} {machine next : Machine} {result : α}
    (ran : operation machine = .ok result next) : operation.after machine = next := by
  rw [after, ran]

theorem after_of_error {operation : Operation α} {machine next : Machine} {fault : Fault}
    (ran : operation machine = .error fault next) : operation.after machine = next := by
  rw [after, ran]

/-- What holds between the ends of two operations one after the other. -/
theorem after_bind (relation : Machine → Machine → Prop) {operation : Operation α}
    {rest : α → Operation β} {machine : Machine}
    (trans : ∀ {first second third}, relation first second → relation second third →
      relation first third)
    (first : relation machine (operation.after machine))
    (second : ∀ result next, operation machine = .ok result next →
      relation next ((rest result).after next)) :
    relation machine ((operation >>= rest).after machine) := by
  cases ran : operation machine with
  | error fault next =>
      rw [after_of_error ran] at first
      rwa [after_of_error (Stateful.bind_of_error ran)]
  | ok result next =>
      rw [after_of_ok ran] at first
      have same : (operation >>= rest).after machine = (rest result).after next := by
        rw [after, Stateful.bind_of_ok ran, after]
      rw [same]
      exact trans first (second result next ran)

/-- An operation that leaves the calls and the global slots alone. -/
def Calm (operation : Operation α) : Prop :=
  ∀ machine : Machine, machine.SameCalls (operation.after machine)

namespace Calm

theorem of_ok {operation : Operation α} (calm : Calm operation) {machine next : Machine}
    {result : α} (ran : operation machine = .ok result next) : machine.SameCalls next :=
  after_of_ok ran ▸ calm machine

theorem pure (result : α) : Calm (Pure.pure result) := Machine.SameCalls.refl

theorem throw (fault : Fault) : Calm (MonadExcept.throw fault : Operation α) :=
  Machine.SameCalls.refl

theorem bind {operation : Operation α} {rest : α → Operation β} (first : Calm operation)
    (second : ∀ result, Calm (rest result)) : Calm (operation >>= rest) := fun machine =>
  after_bind Machine.SameCalls Machine.SameCalls.trans (first machine)
    fun result next _ => second result next

theorem reading {rest : Machine → Operation α} (second : ∀ machine, Calm (rest machine)) :
    Calm (get >>= rest) := fun machine => second machine machine

theorem ofModify {change : Machine → Machine}
    (same : ∀ machine : Machine, machine.SameCalls (change machine)) :
    Calm (modify change : Operation PUnit) := same

end Calm

/-! ## Calm operations -/

theorem calm_push (value : Value) : Calm (push value) := by
  intro machine
  unfold after push
  split
  · next ran =>
      split at ran
      · cases ran
        exact ⟨rfl, rfl, rfl, rfl⟩
      · cases ran
  · next ran =>
      split at ran
      · cases ran
      · cases ran
        exact .refl machine

theorem calm_pop : Calm pop := by
  intro machine
  by_cases empty : machine.height = 0
  · rw [after_of_error (if_pos empty)]
    exact .refl machine
  · rw [after_of_ok (if_neg empty)]
    exact ⟨rfl, rfl, rfl, rfl⟩

theorem calm_pushResult (result : Except Fault Value) : Calm (pushResult result) := by
  cases result with
  | ok value => exact calm_push value
  | error fault => exact Calm.throw fault

theorem calm_pushConstant (index : Nat) : Calm (pushConstant index) := by
  intro machine
  cases found : machine.constants[index]? with
  | some value =>
      have same : pushConstant index machine = push value machine := by rw [pushConstant, found]
      rw [after, same]
      exact calm_push value machine
  | none =>
      rw [after_of_error (by rw [pushConstant, found])]
      exact .refl machine

theorem calm_localSlot (index : Nat) : Calm (localSlot index) := by
  intro machine
  by_cases inside : index < machine.frame.locals
  · rw [after_of_ok (if_pos inside)]
    exact .refl machine
  · rw [after_of_error (if_neg inside)]
    exact .refl machine

theorem calm_pushLocal (index : Nat) : Calm (pushLocal index) :=
  (calm_localSlot index).bind fun _ => Calm.reading fun _ => calm_push _

theorem calm_popLocal (index : Nat) : Calm (popLocal index) :=
  (calm_localSlot index).bind fun _ => calm_pop.bind fun _ =>
    Calm.ofModify fun _ => ⟨rfl, rfl, rfl, rfl⟩

theorem calm_pushGlobal (index : Nat) : Calm (pushGlobal index) := by
  intro machine
  cases found : machine.globals[index]? with
  | some value =>
      have same : pushGlobal index machine = push value machine := by rw [pushGlobal, found]
      rw [after, same]
      exact calm_push value machine
  | none =>
      rw [after_of_error (by rw [pushGlobal, found])]
      exact .refl machine

theorem calm_pushBuiltin (index : Nat) : Calm (pushBuiltin index) := by
  unfold pushBuiltin
  split
  · exact calm_push _
  · exact Calm.throw _

theorem calm_collect (count : Nat) : Calm (collect count) := by
  refine Calm.reading fun machine => ?_
  split
  · exact Calm.throw _
  · exact Calm.bind (Calm.ofModify fun _ => ⟨rfl, rfl, rfl, rfl⟩) fun _ => calm_push _

theorem calm_combine (function : Value → Value → Except Fault Value) : Calm (combine function) :=
  calm_pop.bind fun _ => calm_pop.bind fun _ => calm_pushResult _

theorem calm_callBuiltin (builtin : Builtin) (slot : Nat) : Calm (callBuiltin builtin slot) :=
  Calm.reading fun _ => Calm.bind (Calm.ofModify fun _ => ⟨rfl, rfl, rfl, rfl⟩) fun _ => calm_push _

theorem calm_going {operation : Operation Unit} (calm : Calm operation) : Calm (going operation) :=
  calm.bind fun _ => Calm.pure _

/-! ## The other operations -/

/-- To enter a function takes a call that there may still be. -/
theorem enter_eq_ok {body : Function} {count : Nat} {machine next : Machine}
    (ran : enter body count machine = .ok () next) :
    machine.depth < machine.maxFrames ∧ next.callers = machine.callers.push machine.frame ∧
      next.frame = ⟨body.code, 0, machine.height - count, body.locals⟩ ∧
      next.maxFrames = machine.maxFrames ∧ next.globals = machine.globals := by
  unfold enter at ran
  split at ran
  · cases ran
  · split at ran
    · cases ran
    · next shallow =>
        dsimp only at ran
        split at ran
        · cases ran
        · cases ran
          exact ⟨Nat.lt_of_not_le shallow, rfl, rfl, rfl, rfl⟩

/-- To leave a function goes back to the call around it. -/
theorem leave_goesOn {value : Value} {machine next : Machine}
    (ran : leave value machine = .ok .goesOn next) :
    machine.callers = next.callers.push next.frame ∧ next.maxFrames = machine.maxFrames := by
  unfold leave at ran
  rw [Stateful.get_bind] at ran
  cases called : machine.callers.back? with
  | none =>
      rw [called] at ran
      obtain ⟨_, _, -, ran⟩ := Stateful.bind_eq_ok.mp ran
      obtain ⟨_, _, -, ran⟩ := Stateful.bind_eq_ok.mp ran
      cases ran
  | some caller =>
      rw [called] at ran
      obtain ⟨callers, split⟩ := Array.back?_eq_some_iff.mp called
      obtain ⟨_, lowered, changed, rest⟩ := Stateful.bind_eq_ok.mp ran
      obtain ⟨_, _, pushed, last⟩ := Stateful.bind_eq_ok.mp rest
      obtain rfl := Stateful.modify_eq_ok.mp changed
      obtain ⟨-, rfl⟩ := Stateful.pure_eq_ok.mp last
      have same := (calm_push value).of_ok pushed
      refine ⟨?_, same.maxFrames⟩
      rw [same.callers, same.frame, split, Array.pop_push]

/-- To call a value does not end the program. -/
theorem call_ne_ends {count : Nat} {machine next : Machine} :
    call count machine ≠ .ok .ends next := by
  intro ran
  rw [call_eq, Stateful.get_bind] at ran
  split at ran
  · cases ran
  · split at ran
    · rcases callFunction_eq_ok ran with ⟨-, ⟨⟩, -⟩ | ⟨⟨⟩, -⟩
    · cases going_progress ran
    · cases ran

/-- A function that is called is one of the values on the stack. -/
theorem call_eq_ok {count : Nat} {machine next : Machine}
    (ran : call count machine = .ok .goesOn next) :
    machine.SameCalls next ∨
      ∃ body, .function body ∈ machine.stack ∧ enter body count machine = .ok () next := by
  rw [call_eq, Stateful.get_bind] at ran
  split at ran
  · cases ran
  · split at ran
    · next body found =>
        rcases callFunction_eq_ok ran with ⟨-, ⟨⟩, -⟩ | ⟨-, entered⟩
        exact .inr ⟨body, Array.mem_of_getElem? (getD_eq_function_iff.mp found), entered⟩
    · exact .inl ((calm_callBuiltin _ _).of_ok (going_eq_ok ran))
    · cases ran

end Operation

/-! ## Steps -/

/-- What a step that goes on does to the calls. -/
inductive Machine.Moves (machine next : Machine) : Prop where
  /-- The innermost call goes on behind an instruction, or where the instruction jumps. -/
  | onward {opcode : Opcode} {operand behind position : Nat}
      (fetched : machine.frame.fetch = .instruction opcode operand behind)
      (place : position = behind ∨ position = operand ∧ (opcode = .jump ∨ opcode = .jumpNotTruthy))
      (frame : next.frame = { machine.frame with position })
      (callers : next.callers = machine.callers)
  /-- A function on the stack is called. -/
  | enters {operand behind base : Nat} {body : Function}
      (fetched : machine.frame.fetch = .instruction .call operand behind)
      (shallow : machine.depth < machine.maxFrames) (known : .function body ∈ machine.stack)
      (frame : next.frame = ⟨body.code, 0, base, body.locals⟩)
      (callers : next.callers = machine.callers.push { machine.frame with position := behind })
  /-- The innermost call ends, and the one around it goes on. -/
  | leaves (callers : machine.callers = next.callers.push next.frame)

namespace Operation

theorem step_moves {machine next : Machine} (stepped : step machine = .ok .goesOn next) :
    machine.Moves next ∧ next.maxFrames = machine.maxFrames := by
  unfold step at stepped
  split at stepped
  · split at stepped
    · cases stepped
    · obtain ⟨callers, same⟩ := leave_goesOn stepped
      exact ⟨.leaves callers, same⟩
  · cases stepped
  · next opcode operand behind fetched =>
      have stays : (machine.jump behind).SameCalls next →
          machine.Moves next ∧ next.maxFrames = machine.maxFrames := fun same =>
        ⟨.onward fetched (.inl rfl) same.frame same.callers, same.maxFrames⟩
      have jumps : opcode = .jump ∨ opcode = .jumpNotTruthy →
          jump operand (machine.jump behind) = .ok () next →
          machine.Moves next ∧ next.maxFrames = machine.maxFrames := by
        intro leads ran
        cases ran
        exact ⟨.onward fetched (.inr ⟨rfl, leads⟩) rfl rfl, rfl⟩
      have calm : ∀ {operation : Operation Unit}, Calm operation →
          going operation (machine.jump behind) = .ok .goesOn next →
          machine.Moves next ∧ next.maxFrames = machine.maxFrames := fun quiet ran =>
        stays ((calm_going quiet).of_ok ran)
      cases opcode with
      | constant => exact calm (calm_pushConstant operand) stepped
      | null | true | false => exact calm (calm_push _) stepped
      | getLocal => exact calm (calm_pushLocal operand) stepped
      | setLocal => exact calm (calm_popLocal operand) stepped
      | getGlobal => exact calm (calm_pushGlobal operand) stepped
      | setGlobal =>
          obtain ⟨value, middle, popped, ran⟩ := Stateful.bind_eq_ok.mp (going_eq_ok stepped)
          have same := calm_pop.of_ok popped
          split at ran
          · cases ran
            exact ⟨.onward fetched (.inl rfl) same.frame same.callers, same.maxFrames⟩
          · cases ran
      | getBuiltin => exact calm (calm_pushBuiltin operand) stepped
      | add | sub | mul | div => exact calm (calm_combine _) stepped
      | equal | notEqual | greater => exact calm (calm_combine _) stepped
      | index => exact calm (calm_combine _) stepped
      | negate => exact calm (calm_pop.bind fun _ => calm_pushResult _) stepped
      | not => exact calm (calm_pop.bind fun _ => calm_push _) stepped
      | jump => exact jumps (.inl rfl) (going_eq_ok stepped)
      | jumpNotTruthy =>
          obtain ⟨condition, middle, popped, ran⟩ := Stateful.bind_eq_ok.mp (going_eq_ok stepped)
          have same := calm_pop.of_ok popped
          split at ran
          · cases ran
            refine ⟨.onward fetched (.inr ⟨rfl, .inr rfl⟩) ?_ same.callers, same.maxFrames⟩
            exact congrArg (fun frame : Frame => { frame with position := operand }) same.frame
          · cases ran
            exact stays same
      | call =>
          rcases call_eq_ok stepped with same | ⟨body, known, entered⟩
          · exact stays same
          · obtain ⟨shallow, callers, frame, same, -⟩ := enter_eq_ok entered
            exact ⟨.enters fetched shallow known frame callers, same⟩
      | returnValue =>
          obtain ⟨value, middle, popped, ran⟩ := Stateful.bind_eq_ok.mp stepped
          have same := calm_pop.of_ok popped
          obtain ⟨callers, more⟩ := leave_goesOn ran
          exact ⟨.leaves (same.callers.symm.trans callers), more.trans same.maxFrames⟩
      | returnNull =>
          obtain ⟨callers, same⟩ := leave_goesOn stepped
          exact ⟨.leaves callers, same⟩
      | array => exact calm (calm_collect operand) stepped
      | pop => exact calm (calm_pop.bind fun _ => Calm.pure _) stepped

end Operation

end MonkeyLang
