import MonkeyLang.Proofs.Bytecode.Levels
import MonkeyLang.Proofs.Machine.Checked
import MonkeyLang.Proofs.Machine.Moves

/-!
# What a step does to the stack

Most instructions take some values from the top of the stack and put one there; the slots below
stay as they are, those of the innermost call apart (`Machine.Shifts`). A call puts the slots of
the new call in place of the arguments, and to leave a call puts its value in place of what was
called. So a step that goes on has one of three effects on the stack (`Machine.Effect`). All of this
holds for any code: that an instruction does not take what belongs to the calls around it is not
told here.
-/

set_option autoImplicit false

namespace MonkeyLang

/-- The second machine has some values less on the stack and then some more. What is below them and
below the slots of the innermost call is the same. -/
structure Machine.Shifts (takes puts : Nat) (machine next : Machine) : Prop where
  enough : takes ≤ machine.height
  height : next.height = machine.height - takes + puts
  fits : machine.height ≤ machine.stack.size → next.height ≤ next.stack.size
  base : next.frame.base = machine.frame.base
  below : ∀ index, index < machine.frame.base → index < machine.height - takes →
    next.stack[index]? = machine.stack[index]?

namespace Machine.Shifts

variable {machine next : Machine}

theorem refl (machine : Machine) : Shifts 0 0 machine machine :=
  ⟨Nat.zero_le _, rfl, id, rfl, fun _ _ _ => rfl⟩

theorem trans {last : Machine} {takes more puts : Nat} (first : Shifts takes 0 machine next)
    (second : Shifts more puts next last) : Shifts (takes + more) puts machine last where
  enough := by
    have fewer := second.enough
    rw [first.height] at fewer
    have enough := first.enough
    omega
  height := by rw [second.height, first.height, Nat.add_zero, Nat.sub_sub]
  fits := fun inside => second.fits (first.fits inside)
  base := second.base.trans first.base
  below := by
    intro index own low
    have lower : index < next.height - more := by
      rw [first.height]
      omega
    rw [second.below index (first.base ▸ own) lower, first.below index own (by omega)]

/-- The values that are taken, and nothing else. -/
theorem lower {count : Nat} (enough : count ≤ machine.height) :
    Shifts count 0 machine { machine with height := machine.height - count } where
  enough := enough
  height := rfl
  fits := fun inside => Nat.le_trans (Nat.sub_le _ _) inside
  base := rfl
  below := fun _ _ _ => rfl

end Machine.Shifts

namespace Operation

open Stateful

variable {α β : Type}

/-- An operation that takes some values from the stack and then puts some there, if it succeeds. -/
def Shifts (takes puts : Nat) (operation : Operation α) : Prop :=
  ∀ machine next result, operation machine = .ok result next → machine.Shifts takes puts next

namespace Shifts

theorem pure (result : α) : Shifts 0 0 (Pure.pure result) := by
  rintro machine _ _ ⟨⟩
  exact .refl machine

theorem throw {takes puts : Nat} (fault : Fault) :
    Shifts takes puts (MonadExcept.throw fault : Operation α) :=
  fun _ _ _ ran => absurd ran throw_ne_ok

theorem bind {takes more puts : Nat} {operation : Operation α} {rest : α → Operation β}
    (first : Shifts takes 0 operation) (second : ∀ result, Shifts more puts (rest result)) :
    Shifts (takes + more) puts (operation >>= rest) := by
  intro machine next result ran
  obtain ⟨value, middle, took, rested⟩ := bind_eq_ok.mp ran
  exact (first machine middle value took).trans (second value middle next result rested)

end Shifts

/-! ## Operations on the stack -/

theorem shifts_push (value : Value) : Shifts 0 1 (push value) := by
  intro machine next result ran
  unfold push at ran
  split at ran
  · next room =>
      cases ran
      refine ⟨Nat.zero_le _, rfl, fun _ => ?_, rfl, fun index _ low => ?_⟩
      · rw [Array.size_set]
        exact room
      · rw [Nat.sub_zero] at low
        exact Array.getElem?_set_ne room (Nat.ne_of_gt low)
  · cases ran

theorem shifts_pop : Shifts 1 0 pop := by
  intro machine next result ran
  unfold pop at ran
  split at ran
  · cases ran
  · next some =>
      cases ran
      exact .lower (Nat.one_le_iff_ne_zero.mpr some)

theorem shifts_pushResult (result : Except Fault Value) : Shifts 0 1 (pushResult result) := by
  cases result with
  | ok value => exact shifts_push value
  | error fault => exact .throw fault

theorem shifts_pushConstant (index : Nat) : Shifts 0 1 (pushConstant index) := by
  intro machine next result ran
  unfold pushConstant at ran
  split at ran
  · next value found => exact shifts_push value machine next result ran
  · cases ran

theorem shifts_pushGlobal (index : Nat) : Shifts 0 1 (pushGlobal index) := by
  intro machine next result ran
  unfold pushGlobal at ran
  split at ran
  · next value found => exact shifts_push value machine next result ran
  · cases ran

theorem shifts_pushBuiltin (index : Nat) : Shifts 0 1 (pushBuiltin index) := by
  unfold pushBuiltin
  split
  · exact shifts_push _
  · exact .throw _

theorem localSlot_eq_ok {index slot : Nat} {machine next : Machine}
    (found : localSlot index machine = .ok slot next) :
    slot = machine.frame.base + index ∧ next = machine := by
  unfold localSlot at found
  split at found
  · cases found
    exact ⟨rfl, rfl⟩
  · cases found

theorem shifts_pushLocal (index : Nat) : Shifts 0 1 (pushLocal index) := by
  intro machine next result ran
  obtain ⟨slot, middle, found, rested⟩ := bind_eq_ok.mp ran
  obtain ⟨-, rfl⟩ := localSlot_eq_ok found
  rw [get_bind] at rested
  exact shifts_push _ middle next result rested

/-- A slot of the innermost call is written, which is not below the slots of that call. -/
theorem shifts_popLocal (index : Nat) : Shifts 1 0 (popLocal index) := by
  intro machine next result ran
  obtain ⟨slot, middle, found, rested⟩ := bind_eq_ok.mp ran
  obtain ⟨rfl, rfl⟩ := localSlot_eq_ok found
  obtain ⟨value, lowered, popped, stored⟩ := bind_eq_ok.mp rested
  obtain rfl := modify_eq_ok.mp stored
  have shifts := shifts_pop middle lowered value popped
  refine ⟨shifts.enough, shifts.height, fun inside => ?_, shifts.base, fun other own low => ?_⟩
  · have fits := shifts.fits inside
    rwa [← Array.size_setIfInBounds] at fits
  · rw [← shifts.below other own low]
    exact Array.getElem?_setIfInBounds_ne (by omega)

theorem shifts_popGlobal (index : Nat) : Shifts 1 0 (popGlobal index) := by
  intro machine next result ran
  obtain ⟨value, lowered, popped, stored⟩ := bind_eq_ok.mp ran
  have shifts := shifts_pop machine lowered value popped
  split at stored
  · cases stored
    exact ⟨shifts.enough, shifts.height, shifts.fits, shifts.base, shifts.below⟩
  · cases stored

theorem shifts_combine (function : Value → Value → Except Fault Value) :
    Shifts 2 1 (combine function) :=
  shifts_pop.bind fun _ => shifts_pop.bind fun _ => shifts_pushResult _

theorem shifts_collect (count : Nat) : Shifts count 1 (collect count) := by
  intro machine next result ran
  unfold collect at ran
  rw [get_bind] at ran
  split at ran
  · cases ran
  · next enough =>
      obtain ⟨_, lowered, changed, pushed⟩ := bind_eq_ok.mp ran
      obtain rfl := modify_eq_ok.mp changed
      exact (Machine.Shifts.lower (Nat.le_of_not_lt enough)).trans (shifts_push _ _ next result pushed)

/-- The builtin function and its arguments make place for the result. -/
theorem shifts_callBuiltin {builtin : Builtin} {count : Nat} {machine next : Machine}
    (enough : count + 1 ≤ machine.height)
    (ran : callBuiltin builtin (machine.height - (count + 1)) machine = .ok () next) :
    machine.Shifts (count + 1) 1 next := by
  unfold callBuiltin at ran
  rw [get_bind] at ran
  obtain ⟨_, lowered, changed, pushed⟩ := bind_eq_ok.mp ran
  obtain rfl := modify_eq_ok.mp changed
  have lower : machine.Shifts (count + 1) 0 { machine with
      height := machine.height - (count + 1)
      output := machine.output ++ builtin.output
        (machine.stack.extract (machine.height - (count + 1) + 1) machine.height).toList } :=
    ⟨enough, rfl, fun inside => Nat.le_trans (Nat.sub_le _ _) inside, rfl, fun _ _ _ => rfl⟩
  exact lower.trans (shifts_push _ _ next () pushed)

/-! ## Calls and returns -/

theorem getElem?_cleared (stack : Array Value) (count start : Nat) {index : Nat}
    (low : index < start) :
    (count.fold (fun offset _ stack => stack.setIfInBounds (start + offset) Value.null)
      stack)[index]? = stack[index]? := by
  induction count with
  | zero => rfl
  | succ count ih => rw [Nat.fold_succ, Array.getElem?_setIfInBounds_ne (by omega), ih]

/-- The slots of the new call start at the arguments, and what was in use stays in its slot. -/
theorem enter_stack {body : Function} {count : Nat} {machine next : Machine}
    (ran : enter body count machine = .ok () next) :
    next.height = machine.height - count + body.locals ∧ next.height ≤ next.stack.size ∧
      ∀ index < machine.height, next.stack[index]? = machine.stack[index]? := by
  unfold enter at ran
  split at ran
  · cases ran
  · split at ran
    · cases ran
    · dsimp only at ran
      split at ran
      · cases ran
      · next room =>
          cases ran
          refine ⟨rfl, ?_, fun index low => getElem?_cleared _ _ _ low⟩
          rw [CheckedOperation.size_cleared]
          exact Nat.le_of_not_lt room

/-- What is called stands right below the arguments. -/
theorem call_stack {count : Nat} {machine next : Machine}
    (ran : call count machine = .ok .goesOn next) :
    machine.SameCalls next ∧ machine.Shifts (count + 1) 1 next ∨
      ∃ body, count + 1 ≤ machine.height ∧
        machine.stack[machine.height - (count + 1)]? = some (.function body) ∧
        enter body count machine = .ok () next := by
  rw [call_eq, get_bind] at ran
  split at ran
  · cases ran
  · next enough =>
      have enough := Nat.le_of_not_lt enough
      split at ran
      · next body found =>
          rcases callFunction_eq_ok ran with ⟨-, ⟨⟩, -⟩ | ⟨-, entered⟩
          exact .inr ⟨body, enough, getD_eq_function_iff.mp found, entered⟩
      · have called := going_eq_ok ran
        exact .inl ⟨(calm_callBuiltin _ _).of_ok called, shifts_callBuiltin enough called⟩
      · cases ran

/-- The value of a call comes to the slot below its own slots. -/
theorem leave_stack {value : Value} {machine next : Machine}
    (ran : leave value machine = .ok .goesOn next) :
    next.height = machine.frame.base - 1 + 1 ∧ next.stack[machine.frame.base - 1]? = some value ∧
      ∀ index, index ≠ machine.frame.base - 1 → next.stack[index]? = machine.stack[index]? := by
  unfold leave at ran
  rw [get_bind] at ran
  cases called : machine.callers.back? with
  | none =>
      rw [called] at ran
      obtain ⟨_, _, -, ran⟩ := bind_eq_ok.mp ran
      obtain ⟨_, _, -, ran⟩ := bind_eq_ok.mp ran
      cases ran
  | some caller =>
      rw [called] at ran
      obtain ⟨_, lowered, changed, rest⟩ := bind_eq_ok.mp ran
      obtain ⟨_, _, pushed, last⟩ := bind_eq_ok.mp rest
      obtain rfl := modify_eq_ok.mp changed
      obtain ⟨-, rfl⟩ := pure_eq_ok.mp last
      unfold push at pushed
      split at pushed
      · next room =>
          cases pushed
          exact ⟨rfl, Array.getElem?_set_self room,
            fun index other => Array.getElem?_set_ne room (Ne.symm other)⟩
      · cases pushed

end Operation

/-! ## Steps -/

/-- The next step of the machine leaves the innermost call with a value. -/
inductive Machine.Returns (machine : Machine) : Value → Prop where
  | value {operand behind : Nat} {value : Value}
      (fetched : machine.frame.fetch = .instruction .returnValue operand behind)
      (top : machine.top? = some value) : machine.Returns value.unwrapped
  | null {operand behind : Nat}
      (fetched : machine.frame.fetch = .instruction .returnNull operand behind) :
      machine.Returns .null
  /-- Behind its last instruction. -/
  | stop (fetched : machine.frame.fetch = .stop) : machine.Returns .null

/-- What a step that goes on does to the calls and to the stack. -/
inductive Machine.Effect (machine next : Machine) : Prop where
  /-- The innermost call goes on, with some values less and then some more. -/
  | onward {opcode : Opcode} {operand behind position : Nat}
      (fetched : machine.frame.fetch = .instruction opcode operand behind)
      (place : position = behind ∧ opcode.Continues ∨ position = operand ∧ opcode.Jumps)
      (frame : next.frame = { machine.frame with position })
      (callers : next.callers = machine.callers)
      (shifts : machine.Shifts (opcode.takes operand) opcode.puts next)
  /-- A function on the stack is called, and the slots of the call start at the arguments. -/
  | enters {operand behind : Nat} {body : Function}
      (fetched : machine.frame.fetch = .instruction .call operand behind)
      (enough : operand + 1 ≤ machine.height)
      (callee : machine.stack[machine.height - (operand + 1)]? = some (.function body))
      (frame : next.frame = ⟨body.code, 0, machine.height - operand, body.locals⟩)
      (callers : next.callers = machine.callers.push { machine.frame with position := behind })
      (height : next.height = machine.height - operand + body.locals)
      (fits : next.height ≤ next.stack.size)
      (below : ∀ index < machine.height, next.stack[index]? = machine.stack[index]?)
  /-- The innermost call ends, and its value comes to the slot below its own slots. -/
  | leaves {value : Value} (returns : machine.Returns value)
      (callers : machine.callers = next.callers.push next.frame)
      (height : next.height = machine.frame.base - 1 + 1)
      (result : next.stack[machine.frame.base - 1]? = some value)
      (others : ∀ index, index ≠ machine.frame.base - 1 →
        next.stack[index]? = machine.stack[index]?)

/-- The stack has room for its height. -/
theorem Machine.Effect.fits {machine next : Machine} (effect : machine.Effect next)
    (fits : machine.height ≤ machine.stack.size) : next.height ≤ next.stack.size := by
  cases effect with
  | onward _ _ _ _ shifts => exact shifts.fits fits
  | enters _ _ _ _ _ _ room _ => exact room
  | leaves _ _ height result _ =>
      have inside := (Array.getElem?_eq_some_iff.mp result).1
      omega

namespace Operation

open Stateful

theorem pop_eq_ok {machine next : Machine} {value : Value}
    (fits : machine.height ≤ machine.stack.size) (ran : pop machine = .ok value next) :
    machine.top? = some value ∧ next = { machine with height := machine.height - 1 } := by
  unfold pop at ran
  split at ran
  · cases ran
  · next some =>
      cases ran
      have inside : machine.height - 1 < machine.stack.size := by omega
      rw [Machine.top?, if_neg some, Array.getD_eq_getD_getElem?, Array.getElem?_eq_getElem inside]
      exact ⟨rfl, rfl⟩

theorem step_effect {machine next : Machine} (fits : machine.height ≤ machine.stack.size)
    (stepped : step machine = .ok .goesOn next) : machine.Effect next := by
  unfold step at stepped
  split at stepped
  · next fetched =>
      split at stepped
      · cases stepped
      · obtain ⟨height, result, others⟩ := leave_stack stepped
        exact .leaves (.stop fetched) (leave_goesOn stepped).1 height result others
  · cases stepped
  · next opcode operand behind fetched =>
      have inside : (machine.jump behind).height ≤ (machine.jump behind).stack.size := fits
      have stays : next.frame = (machine.jump behind).frame → next.callers = machine.callers →
          opcode.Continues →
          (machine.jump behind).Shifts (opcode.takes operand) opcode.puts next →
          machine.Effect next := by
        intro frame callers onward shifts
        refine .onward fetched (.inl ⟨rfl, onward⟩) frame callers ?_
        exact ⟨shifts.enough, shifts.height, shifts.fits, shifts.base, shifts.below⟩
      have calm : ∀ {operation : Operation Unit}, Calm operation →
          Operation.Shifts (opcode.takes operand) opcode.puts operation → opcode.Continues →
          going operation (machine.jump behind) = .ok .goesOn next → machine.Effect next := by
        intro operation quiet moves onward ran
        have same := (calm_going quiet).of_ok ran
        exact stays same.frame same.callers onward (moves _ next () (going_eq_ok ran))
      cases opcode with
      | constant => exact calm (calm_pushConstant operand) (shifts_pushConstant operand) trivial stepped
      | null | true | false => exact calm (calm_push _) (shifts_push _) trivial stepped
      | getLocal => exact calm (calm_pushLocal operand) (shifts_pushLocal operand) trivial stepped
      | setLocal => exact calm (calm_popLocal operand) (shifts_popLocal operand) trivial stepped
      | getGlobal => exact calm (calm_pushGlobal operand) (shifts_pushGlobal operand) trivial stepped
      | setGlobal =>
          have ran := going_eq_ok stepped
          have shifts := shifts_popGlobal operand _ next () ran
          obtain ⟨value, middle, popped, stored⟩ := bind_eq_ok.mp ran
          have same := calm_pop.of_ok popped
          split at stored
          · cases stored
            exact stays same.frame same.callers trivial shifts
          · cases stored
      | getBuiltin =>
          exact calm (calm_pushBuiltin operand) (shifts_pushBuiltin operand) trivial stepped
      | add | sub | mul | div => exact calm (calm_combine _) (shifts_combine _) trivial stepped
      | equal | notEqual | greater => exact calm (calm_combine _) (shifts_combine _) trivial stepped
      | index => exact calm (calm_combine _) (shifts_combine _) trivial stepped
      | negate =>
          exact calm (calm_pop.bind fun _ => calm_pushResult _)
            (shifts_pop.bind fun _ => shifts_pushResult _) trivial stepped
      | not =>
          exact calm (calm_pop.bind fun _ => calm_push _)
            (shifts_pop.bind fun _ => shifts_push _) trivial stepped
      | jump =>
          cases stepped
          refine .onward fetched (.inr ⟨rfl, trivial⟩) rfl rfl ?_
          exact ⟨Nat.zero_le _, rfl, id, rfl, fun _ _ _ => rfl⟩
      | jumpNotTruthy =>
          obtain ⟨condition, middle, popped, ran⟩ := bind_eq_ok.mp (going_eq_ok stepped)
          obtain ⟨-, rfl⟩ := pop_eq_ok inside popped
          have shifts := shifts_pop (machine.jump behind) _ condition popped
          split at ran
          · cases ran
            refine .onward fetched (.inr ⟨rfl, trivial⟩) rfl rfl ?_
            exact ⟨shifts.enough, shifts.height, shifts.fits, shifts.base, shifts.below⟩
          · cases ran
            exact stays rfl rfl trivial shifts
      | call =>
          rcases call_stack stepped with ⟨same, shifts⟩ | ⟨body, enough, callee, entered⟩
          · exact stays same.frame same.callers trivial shifts
          · obtain ⟨-, callers, frame, -, -⟩ := enter_eq_ok entered
            obtain ⟨height, room, below⟩ := enter_stack entered
            exact .enters fetched enough callee frame callers height room below
      | returnValue =>
          obtain ⟨value, middle, popped, ran⟩ := bind_eq_ok.mp stepped
          obtain ⟨top, rfl⟩ := pop_eq_ok inside popped
          obtain ⟨height, result, others⟩ := leave_stack ran
          exact .leaves (.value fetched top) (leave_goesOn ran).1 height result others
      | returnNull =>
          obtain ⟨height, result, others⟩ := leave_stack stepped
          exact .leaves (.null fetched) (leave_goesOn stepped).1 height result others
      | array => exact calm (calm_collect operand) (shifts_collect operand) trivial stepped
      | pop =>
          exact calm (calm_pop.bind fun _ => Calm.pure _)
            (shifts_pop.bind fun _ => Shifts.pure _) trivial stepped

end Operation

end MonkeyLang
