import MonkeyLang.Proofs.Evaluator.Room
import MonkeyLang.Proofs.Machine.Checked

/-!
# Machines with more room

A machine is widened by slots of its stack and of its globals, which hold null, and by frames. As
long as the machine itself does not run into one of its limits, the widened machine does the same
step by step (`Operation.unmoved_step`): it never looks at the new slots, because a machine within
its limits uses no slot beyond its stack, and it never writes one, because each write has found
room in the smaller machine.

So the outcome of a run that is not the fault of a limit is its outcome under all larger limits
(`Machine.run_widen`).
-/

set_option autoImplicit false

namespace MonkeyLang

/-- The machine with more slots and frames, as many as these limits say. -/
def Machine.widen (machine : Machine) (more : Limits) : Machine :=
  { machine with
    stack := machine.stack ++ Array.replicate more.stackSize .null
    globals := machine.globals ++ Array.replicate more.globalsSize .null
    maxFrames := machine.maxFrames + more.maxFrames }

namespace Operation

variable {α β : Type} {more limits : Limits} {machine : Machine}

/-- An operation does on the widened machine what it does on the machine itself, unless that runs
into one of its limits. -/
def Unmoved (more : Limits) (machine : Machine) (operation : Operation α) : Prop :=
  match operation machine with
  | .ok result next => operation (machine.widen more) = .ok result (next.widen more)
  | .error fault next => fault.isLimit = false →
    operation (machine.widen more) = .error fault (next.widen more)

namespace Unmoved

theorem of_ok {operation : Operation α} {result : α} {next : Machine}
    (ran : operation machine = .ok result next)
    (same : operation (machine.widen more) = .ok result (next.widen more)) :
    Unmoved more machine operation := by
  rw [Unmoved, ran]
  exact same

theorem of_error {operation : Operation α} {fault : Fault} {next : Machine}
    (ran : operation machine = .error fault next)
    (same : operation (machine.widen more) = .error fault (next.widen more)) :
    Unmoved more machine operation := by
  rw [Unmoved, ran]
  exact fun _ => same

theorem of_limit {operation : Operation α} {fault : Fault} {next : Machine}
    (ran : operation machine = .error fault next) (limit : fault.isLimit = true) :
    Unmoved more machine operation := by
  rw [Unmoved, ran]
  intro other
  rw [limit] at other
  cases other

theorem pure (result : α) : Unmoved more machine (Pure.pure result) := of_ok rfl rfl

theorem throw (fault : Fault) : Unmoved more machine (MonadExcept.throw fault : Operation α) :=
  of_error rfl rfl

theorem bind {operation : Operation α} {rest : α → Operation β}
    (first : Unmoved more machine operation)
    (second : ∀ result next, operation machine = .ok result next →
      Unmoved more next (rest result)) :
    Unmoved more machine (operation >>= rest) := by
  rw [Unmoved] at first
  cases ran : operation machine with
  | error fault next =>
      rw [ran] at first
      rw [Unmoved, Stateful.bind_of_error ran]
      exact fun other => Stateful.bind_of_error (first other)
  | ok result next =>
      rw [ran] at first
      have rested := second result next ran
      rwa [Unmoved, Stateful.bind_of_ok ran, Stateful.bind_of_ok first]

theorem ofModify {change : Machine → Machine}
    (same : change (machine.widen more) = (change machine).widen more) :
    Unmoved more machine (modify change : Operation PUnit) :=
  of_ok rfl (congrArg (EStateM.Result.ok _) same)

/-- Work that finds in the widened machine what it finds in the machine itself. -/
theorem reading {rest : Machine → Operation α}
    (same : rest (machine.widen more) = rest machine) (works : Unmoved more machine (rest machine)) :
    Unmoved more machine (get >>= rest) := by
  rw [Unmoved] at works ⊢
  rwa [Stateful.get_bind, Stateful.get_bind, same]

end Unmoved

/-! ## What stands in the slots -/

theorem getD_widen (slot : Nat) :
    (machine.widen more).stack.getD slot .null = machine.stack.getD slot .null := by
  simp only [Machine.widen, Array.getD_eq_getD_getElem?, Array.getElem?_append,
    Array.getElem?_replicate]
  split
  · rfl
  · next beyond =>
      rw [Array.getElem?_eq_none (Nat.le_of_not_lt beyond)]
      split <;> rfl

theorem extract_widen {first last : Nat} (inside : last ≤ machine.stack.size) :
    (machine.widen more).stack.extract first last = machine.stack.extract first last := by
  have beyond : last - machine.stack.size = 0 := Nat.sub_eq_zero_of_le inside
  simp [Machine.widen, Array.extract_append, beyond]

/-- Slots of the machine itself that are set to null. -/
theorem fold_null_widen (stack rest : Array Value) (start count : Nat)
    (inside : start + count ≤ stack.size) :
    count.fold (fun offset _ slots => slots.setIfInBounds (start + offset) Value.null)
        (stack ++ rest) =
      count.fold (fun offset _ slots => slots.setIfInBounds (start + offset) Value.null) stack ++
        rest := by
  induction count with
  | zero => rfl
  | succ count ih =>
      rw [Nat.fold_succ, Nat.fold_succ, ih (Nat.le_of_succ_le inside)]
      refine Array.setIfInBounds_append_left ?_
      rw [CheckedOperation.size_cleared]
      omega

/-! ## Operations one by one -/

theorem unmoved_push (value : Value) : Unmoved more machine (push value) := by
  by_cases room : machine.height < machine.stack.size
  · have wide : (machine.widen more).height < (machine.widen more).stack.size := by
      rw [Machine.widen, Array.size_append]
      exact Nat.lt_add_right _ room
    refine .of_ok (dif_pos room) ((dif_pos wide).trans ?_)
    simp only [Machine.widen, Array.set_append_left room]
  · exact .of_limit (dif_neg room) rfl

theorem unmoved_pop : Unmoved more machine pop := by
  by_cases empty : machine.height = 0
  · exact .of_error (if_pos empty) (if_pos empty)
  · refine .of_ok (if_neg empty) ((if_neg empty).trans ?_)
    dsimp only
    rw [getD_widen]
    rfl

theorem unmoved_pushResult (result : Except Fault Value) :
    Unmoved more machine (pushResult result) := by
  cases result with
  | ok value => exact unmoved_push value
  | error fault => exact .throw fault

theorem unmoved_jump (position : Nat) : Unmoved more machine (jump position) := .ofModify rfl

theorem unmoved_pushConstant (index : Nat) : Unmoved more machine (pushConstant index) := by
  have pushed (value : Value) : Unmoved more machine (push value) := unmoved_push value
  simp only [Unmoved, pushConstant] at pushed ⊢
  rw [show (machine.widen more).constants = machine.constants from rfl]
  cases machine.constants[index]? with
  | none => exact fun _ => rfl
  | some value => exact pushed value

theorem unmoved_localSlot (index : Nat) : Unmoved more machine (localSlot index) := by
  by_cases inside : index < machine.frame.locals
  · exact .of_ok (if_pos inside) (if_pos inside)
  · exact .of_error (if_neg inside) (if_neg inside)

theorem unmoved_pushLocal (index : Nat) : Unmoved more machine (pushLocal index) :=
  (unmoved_localSlot index).bind fun _ _ _ =>
    .reading (by rw [getD_widen]) (unmoved_push _)

/-- The slot that is written is one of the machine itself. -/
theorem unmoved_popLocal (confined : machine.Confined limits) (index : Nat) :
    Unmoved more machine (popLocal index) := by
  refine (unmoved_localSlot index).bind fun slot next located => ?_
  obtain ⟨rfl, inside⟩ := CheckedOperation.localSlot_inside confined located
  refine unmoved_pop.bind fun value popped ran => .ofModify ?_
  have size : popped.stack.size = next.stack.size := by
    rw [pop] at ran
    split at ran <;> cases ran
    rfl
  simp only [Machine.widen, Array.setIfInBounds_append_left (size ▸ inside)]

theorem unmoved_pushGlobal (index : Nat) : Unmoved more machine (pushGlobal index) := by
  by_cases inside : index < machine.globals.size
  · have found := Array.getElem?_eq_getElem inside
    have wide : (machine.widen more).globals[index]? = some machine.globals[index] := by
      rw [Machine.widen, Array.getElem?_append_left inside, found]
    have pushed : Unmoved more machine (push machine.globals[index]) := unmoved_push _
    rw [Unmoved] at pushed ⊢
    rwa [pushGlobal, pushGlobal, found, wide]
  · have missing := Array.getElem?_eq_none (Nat.le_of_not_lt inside)
    have ran : pushGlobal index machine =
        .error (.globalOutOfRange index machine.globals.size) machine := by
      rw [pushGlobal, missing]
    exact .of_limit ran rfl

theorem unmoved_popGlobal (index : Nat) : Unmoved more machine (popGlobal index) := by
  refine unmoved_pop.bind fun value next _ => ?_
  by_cases inside : index < next.globals.size
  · have wide : index < (next.widen more).globals.size := by
      rw [Machine.widen, Array.size_append]
      exact Nat.lt_add_right _ inside
    refine .of_ok (dif_pos inside) ((dif_pos wide).trans ?_)
    simp only [Machine.widen, Array.set_append_left inside]
  · exact .of_limit (dif_neg inside) rfl

theorem unmoved_pushBuiltin (index : Nat) : Unmoved more machine (pushBuiltin index) := by
  rw [pushBuiltin]
  cases Builtin.ofIndex? index with
  | none => exact .throw _
  | some builtin => exact unmoved_push _

theorem unmoved_collect (confined : machine.Confined limits) (count : Nat) :
    Unmoved more machine (collect count) := by
  refine .reading ?_ ?_
  · dsimp only
    rw [show (machine.widen more).height = machine.height from rfl,
      extract_widen confined.height_le]
  · split
    · exact .throw _
    · exact Unmoved.bind (.ofModify rfl) fun _ _ _ => unmoved_push _

theorem unmoved_combine (function : Value → Value → Except Fault Value) :
    Unmoved more machine (combine function) :=
  unmoved_pop.bind fun _ _ _ => unmoved_pop.bind fun _ _ _ => unmoved_pushResult _

/-- A call that finds room for its slots and its frame finds it in the widened machine. -/
theorem unmoved_enter (body : Function) (count : Nat) (low : machine.height ≤ machine.stack.size) :
    Unmoved more machine (enter body count) := by
  by_cases arity : count ≠ body.parameters
  · exact .of_error (enter_of_ne arity) (enter_of_ne arity)
  have takes : count = body.parameters := Decidable.not_not.mp arity
  by_cases deep : machine.maxFrames ≤ machine.depth
  · exact .of_limit (enter_of_deep takes deep) rfl
  have shallow := Nat.lt_of_not_le deep
  by_cases high : machine.stack.size < machine.height - count + body.locals
  · exact .of_limit (enter_of_high takes shallow high) rfl
  have wideDeep : ¬(machine.widen more).maxFrames ≤ (machine.widen more).depth :=
    Nat.not_le_of_lt (Nat.lt_add_right _ shallow)
  have wideHigh : ¬(machine.widen more).stack.size <
      (machine.widen more).height - count + body.locals := by
    rw [Machine.widen, Array.size_append]
    exact Nat.not_lt_of_le (Nat.le_add_right_of_le (Nat.le_of_not_lt high))
  refine .of_ok ((if_neg arity).trans ((if_neg deep).trans (if_neg high)))
    ((if_neg arity).trans ((if_neg wideDeep).trans ((if_neg wideHigh).trans ?_)))
  have cleared : machine.height + (machine.height - count + body.locals - machine.height) ≤
      machine.stack.size := by
    omega
  simp only [Machine.widen, fold_null_widen _ _ _ _ cleared]

theorem unmoved_going {operation : Operation Unit} (works : Unmoved more machine operation) :
    Unmoved more machine (going operation) :=
  works.bind fun _ _ _ => .pure _

/-- What the widened machine crashes at, the machine itself has no frame for, or it crashes as
well. -/
theorem unmoved_callFunction (body : Function) (count : Nat)
    (low : machine.height ≤ machine.stack.size) :
    Unmoved more machine (callFunction body count) := by
  by_cases deep : count = body.parameters ∧ machine.maxFrames ≤ machine.depth
  · have shallow : machine.overrunBy body count = false := by
      simp [Machine.overrunBy, Nat.not_lt_of_le deep.2]
    have stops : callFunction body count machine = .error (.frameOverflow machine.maxFrames) machine :=
      (callFunction_of_sound shallow).trans
        (Stateful.bind_of_error (enter_of_deep deep.1 deep.2))
    exact .of_limit stops rfl
  · have same : (machine.widen more).overrunBy body count = machine.overrunBy body count := by
      by_cases arity : count = body.parameters
      · have shallow : machine.depth < machine.maxFrames :=
          Nat.lt_of_not_le fun high => deep ⟨arity, high⟩
        have wide : (machine.widen more).depth < (machine.widen more).maxFrames :=
          Nat.lt_add_right _ shallow
        rw [Machine.overrunBy, Machine.overrunBy, decide_eq_true shallow, decide_eq_true wide]
        rfl
      · rw [Machine.overrunBy, Machine.overrunBy, beq_eq_false_iff_ne.mpr arity]
        rfl
    by_cases overrun : machine.overrunBy body count = true
    · exact .of_ok (if_pos overrun) (if_pos (same ▸ overrun))
    · rw [Unmoved, callFunction, callFunction, same, if_neg overrun, if_neg overrun]
      exact unmoved_going (unmoved_enter body count low)

theorem unmoved_callBuiltin (confined : machine.Confined limits) (builtin : Builtin) (slot : Nat) :
    Unmoved more machine (callBuiltin builtin slot) := by
  refine .reading ?_ ?_
  · rw [show (machine.widen more).height = machine.height from rfl,
      extract_widen confined.height_le]
  · exact Unmoved.bind (.ofModify rfl) fun _ _ _ => unmoved_push _

theorem unmoved_call (confined : machine.Confined limits) (count : Nat) :
    Unmoved more machine (call count) := by
  rw [call_eq]
  refine .reading ?_ ?_
  · rw [show (machine.widen more).height = machine.height from rfl, getD_widen]
  · split
    · exact .throw _
    · split
      · exact unmoved_callFunction _ count confined.height_le
      · exact unmoved_going (unmoved_callBuiltin confined _ _)
      · exact .throw _

theorem unmoved_leave (value : Value) : Unmoved more machine (leave value) := by
  refine .reading rfl ?_
  split
  · exact (unmoved_push value).bind fun _ _ _ =>
      Unmoved.bind (.ofModify rfl) fun _ _ _ => .pure _
  · exact Unmoved.bind (.ofModify rfl) fun _ _ _ =>
      (unmoved_push value).bind fun _ _ _ => .pure _

theorem unmoved_execute (confined : machine.Confined limits) (opcode : Opcode) (operand : Nat) :
    Unmoved more machine (execute opcode operand) := by
  cases opcode with
  | constant => exact unmoved_going (unmoved_pushConstant operand)
  | null | true | false => exact unmoved_going (unmoved_push _)
  | getLocal => exact unmoved_going (unmoved_pushLocal operand)
  | setLocal => exact unmoved_going (unmoved_popLocal confined operand)
  | getGlobal => exact unmoved_going (unmoved_pushGlobal operand)
  | setGlobal => exact unmoved_going (unmoved_popGlobal operand)
  | getBuiltin => exact unmoved_going (unmoved_pushBuiltin operand)
  | add | sub | mul | div => exact unmoved_going (unmoved_combine _)
  | equal | notEqual | greater => exact unmoved_going (unmoved_combine _)
  | index => exact unmoved_going (unmoved_combine _)
  | negate => exact unmoved_going (unmoved_pop.bind fun _ _ _ => unmoved_pushResult _)
  | not => exact unmoved_going (unmoved_pop.bind fun _ _ _ => unmoved_push _)
  | jump => exact unmoved_going (unmoved_jump operand)
  | jumpNotTruthy =>
      refine unmoved_going (unmoved_pop.bind fun condition _ _ => ?_)
      split
      · exact unmoved_jump operand
      · exact .pure _
  | call => exact unmoved_call confined operand
  | returnValue => exact unmoved_pop.bind fun _ _ _ => unmoved_leave _
  | returnNull => exact unmoved_leave _
  | array => exact unmoved_going (unmoved_collect confined operand)
  | pop => exact unmoved_going (unmoved_pop.bind fun _ _ _ => .pure _)

/-- A step of a machine within its limits that does not run into one of them is a step of the
widened machine. -/
theorem unmoved_step (confined : machine.Confined limits) : Unmoved more machine step := by
  rw [step_eq]
  refine .reading rfl ?_
  split
  · split
    · exact .pure _
    · exact unmoved_leave _
  · exact .throw _
  · next opcode operand behind _ =>
      refine (unmoved_jump behind).bind fun _ next jumped => ?_
      obtain rfl := Stateful.modify_eq_ok.mp jumped
      exact unmoved_execute (confined.jump behind) opcode operand

end Operation

/-! ## Runs -/

namespace Machine

variable {limits larger more : Limits} {machine : Machine} {program : CompiledProgram}

/-- A run that comes to an outcome, which is not the fault of a limit, comes to it on the widened
machine, and leaves that machine widened. -/
theorem Confined.advance_widen (confined : machine.Confined limits)
    (roomy : machine.Knows Function.Roomy) {steps : Nat} {outcome : Except Fault Unit}
    (came : (machine.advance steps).outcome? = some outcome)
    (other : ∀ fault, outcome = .error fault → fault.isLimit = false) :
    (machine.widen more).advance steps = (machine.advance steps).widen more := by
  induction steps generalizing machine with
  | zero => rfl
  | succ steps ih =>
      have agrees := CheckedOperation.agrees_step confined roomy
      have kept := Operation.keeps_step machine roomy
      have same : Operation.Unmoved more machine Operation.step := Operation.unmoved_step confined
      rw [CheckedOperation.Agrees] at agrees
      rw [Operation.Unmoved] at same
      rw [Machine.advance] at came ⊢
      rw [Machine.advance]
      cases stepped : Operation.step machine with
      | error fault next =>
          rw [stepped] at came same
          obtain rfl := Option.some.inj came
          rw [same (other fault rfl)]
          rfl
      | ok progress next =>
          rw [stepped] at came same agrees kept
          rw [same]
          cases progress with
          | goesOn => exact ih agrees.2 kept.2.1 came
          | ends | crashes => rfl

/-- A program is loaded on a larger machine as it is on a widened one. -/
theorem widen_loaded (stack : limits.stackSize ≤ larger.stackSize)
    (frames : limits.maxFrames ≤ larger.maxFrames)
    (globals : limits.globalsSize ≤ larger.globalsSize) :
    (loaded program limits (Globals.ofSize limits.globalsSize)).widen
        ⟨larger.stackSize - limits.stackSize, larger.maxFrames - limits.maxFrames,
          larger.globalsSize - limits.globalsSize⟩ =
      loaded program larger (Globals.ofSize larger.globalsSize) := by
  simp only [loaded, Machine.load, widen, Globals.ofSize, Array.replicate_append_replicate,
    Nat.add_sub_cancel' stack, Nat.add_sub_cancel' frames, Nat.add_sub_cancel' globals]

theorem lastPopped_widen (machine : Machine) (more : Limits) :
    (machine.widen more).lastPopped = machine.lastPopped :=
  Operation.getD_widen machine.height

/-- **Larger limits change no outcome that is not the fault of a limit.** The arguments of all
functions among the constants fit into their slots; apart from that the program and the functions
consist of any bytes. If a run on fresh global slots comes to an end, and not because of the size
of the stack, the number of frames or the number of global slots, then the run under limits that
are all at least as large comes to the same end after the same number of steps, with as many values
in use, as many calls going on, the same value popped last and the same output, and the global
slots hold the same; those that there are more of hold null. -/
theorem run_widen {outcome : Except Fault Unit} {last : Machine} {steps : Nat}
    (constants : ∀ value ∈ program.constants, value.All Function.Roomy)
    (stack : limits.stackSize ≤ larger.stackSize)
    (frames : limits.maxFrames ≤ larger.maxFrames)
    (globals : limits.globalsSize ≤ larger.globalsSize)
    (ran : (Machine.load program limits (Globals.ofSize limits.globalsSize)).run steps =
      (some outcome, last))
    (other : ∀ fault, outcome = .error fault → fault.isLimit = false) :
    ∃ last' : Machine,
      (Machine.load program larger (Globals.ofSize larger.globalsSize)).run steps =
          (some outcome, last') ∧
        last'.height = last.height ∧ last'.depth = last.depth ∧
        last'.lastPopped = last.lastPopped ∧ last'.output = last.output ∧
        (∀ slot < limits.globalsSize, last'.globals[slot]? = last.globals[slot]?) ∧
        ∀ slot, limits.globalsSize ≤ slot → slot < larger.globalsSize →
          last'.globals[slot]? = some .null := by
  let first := loaded program limits (Globals.ofSize limits.globalsSize)
  let more : Limits := ⟨larger.stackSize - limits.stackSize, larger.maxFrames - limits.maxFrames,
    larger.globalsSize - limits.globalsSize⟩
  rw [run_load] at ran
  obtain ⟨came, rfl⟩ := Prod.mk.inj ran
  have roomy : first.Knows Function.Roomy := by
    refine knows_loaded constants (fun value member => ?_) limits
    obtain rfl := Array.eq_of_mem_replicate member
    trivial
  have widened : (first.widen more).advance steps = (first.advance steps).widen more :=
    (confined_loaded program limits _).advance_widen roomy came other
  have same : (loaded program larger (Globals.ofSize larger.globalsSize)).advance steps =
      (first.advance steps).widen more := by
    rw [← widen_loaded stack frames globals]
    exact widened
  have size : (first.advance steps).globals.size = limits.globalsSize :=
    (knows_advance steps roomy).2.trans Array.size_replicate
  refine ⟨(first.advance steps).widen more, ?_, rfl, rfl, lastPopped_widen _ _, rfl, ?_, ?_⟩
  · rw [run_load, same]
    exact Prod.ext came rfl
  · intro slot inside
    exact Array.getElem?_append_left (size ▸ inside)
  · intro slot beyond inside
    rw [widen, Array.getElem?_append_right (size ▸ beyond), Array.getElem?_replicate, size]
    exact if_pos (Nat.sub_lt_sub_right beyond inside)

/-- A program that stores what a function yields and then pops a value that is not there. The body
of the function takes more from the stack than there is of its own. -/
def draining : CompiledProgram where
  code := #[0x01, 0, 0, 0x60, 0, 0x13, 0, 0, 0x80]
  constants := #[.function ⟨0, none, 0, 1, #[0x80, 0x80]⟩]

/-- Two slots, two frames and one global slot are enough for the program to come to its fault. -/
theorem run_widen_draining :
    ((Machine.load draining ⟨2, 2, 1⟩ (Globals.ofSize 1)).run 9).1 =
        some (.error .stackUnderflow) ∧
      ∃ last' : Machine,
        (Machine.load draining ⟨7, 3, 4⟩ (Globals.ofSize 4)).run 9 =
            (some (.error .stackUnderflow), last') ∧
          last'.height = 0 ∧ last'.globals[3]? = some .null := by
  have constants : ∀ value ∈ draining.constants, value.All Function.Roomy := by
    intro value member
    obtain rfl := Array.mem_singleton.mp member
    exact Nat.zero_le 1
  have other : ∀ fault, (.error .stackUnderflow : Except Fault Unit) = .error fault →
      fault.isLimit = false := by
    rintro _ ⟨⟩
    rfl
  let run := (Machine.load draining ⟨2, 2, 1⟩ (Globals.ofSize 1)).run 9
  have outcome : run.1 = some (.error .stackUnderflow) := by decide +kernel
  have empty : run.2.height = 0 := by decide +kernel
  have ended : run = (some (.error .stackUnderflow), run.2) := by rw [← outcome]
  obtain ⟨last', ran, height, -, -, -, -, beyond⟩ :=
    @run_widen ⟨2, 2, 1⟩ ⟨7, 3, 4⟩ draining _ _ 9 constants (by decide) (by decide) (by decide)
      ended other
  exact ⟨outcome, last', ran, height.trans empty, beyond 3 (by decide) (by decide)⟩

end Machine

end MonkeyLang
