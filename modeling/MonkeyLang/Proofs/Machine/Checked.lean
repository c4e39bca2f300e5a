import MonkeyLang.Proofs.Machine.Confined
import MonkeyLang.Proofs.Machine.Overrunning
import MonkeyLang.Proofs.Machine.Stack

/-!
# No operation leaves the stack

The operations of the machine are total: a slot that the stack does not have reads as null, and a
value that is written there is lost. Here are the same operations with every use of the stack
checked. A slot that the stack does not have, a range whose ends are out of order or beyond the
stack, and a result of a function that finds no room all stop the checked machine for good
(`Stop.outside`), and nothing else does but the faults of the machine itself and a crash.

Whatever bytes a machine runs, the checked machine does the same, step by step
(`CheckedOperation.agrees_step`). The invariant behind it bounds the values in use and the slots of
all calls by the size of the stack (`Machine.Confined`). A call keeps the callee below its slots, so
that there is always a slot for what the call yields. What is asked of the functions in play is that
their arguments fit into their slots (`Function.Roomy`).

This is not enough to be safe. Raw code may call a function that asks for so many slots that their
end is no number, and then the machine is lost (`Machine.not_run_safe_overrunning`). It is what the
result allows for (`Machine.run_confined`), and all that it allows for.
-/

set_option autoImplicit false

namespace MonkeyLang

/-! ## Checked operations -/

/-- Why a checked machine stops. -/
inductive Stop where
  | fault (fault : Fault)
  /-- It was about to use a part of the stack that is not there. -/
  | outside
  deriving DecidableEq, Repr

/-- A change of the machine that may be stopped. -/
abbrev CheckedOperation := EStateM Stop Machine

namespace CheckedOperation

variable {α β : Type}

/-- An operation that uses no slots of the stack but by pushing. -/
def plain (operation : Operation α) : CheckedOperation α := fun machine =>
  match operation machine with
  | .ok result next => .ok result next
  | .error fault next => .error (.fault fault) next

/-- What a slot holds. -/
def read (slot : Nat) : CheckedOperation Value := fun machine =>
  match machine.stack[slot]? with
  | some value => .ok value machine
  | none => .error .outside machine

/-- Puts a value into a slot. -/
def write (slot : Nat) (value : Value) : CheckedOperation Unit := fun machine =>
  if h : slot < machine.stack.size then
    .ok () { machine with stack := machine.stack.set slot value h }
  else .error .outside machine

/-- The values from one slot up to another. -/
def slice (first last : Nat) : CheckedOperation (List Value) := fun machine =>
  if first ≤ last ∧ last ≤ machine.stack.size then
    .ok (machine.stack.extract first last).toList machine
  else .error .outside machine

/-- Puts null into the slots from one up to another. -/
def clear (first last : Nat) : CheckedOperation Unit := fun machine =>
  if first ≤ last ∧ last ≤ machine.stack.size then
    .ok () { machine with
      stack := (last - first).fold
        (fun offset _ stack => stack.setIfInBounds (first + offset) .null) machine.stack }
  else .error .outside machine

/-- Puts a value on the stack, for which there has to be room. -/
def place (value : Value) : CheckedOperation Unit := do
  let machine ← get
  write machine.height value
  modify fun machine => { machine with height := machine.height + 1 }

/-- Takes the value on top of the stack. -/
def pop : CheckedOperation Value := do
  let machine ← get
  if machine.height = 0 then throw (.fault .stackUnderflow)
  else
    let value ← read (machine.height - 1)
    modify fun machine => { machine with height := machine.height - 1 }
    return value

/-- Pushes what a slot of the innermost call holds. -/
def pushLocal (index : Nat) : CheckedOperation Unit := do
  let slot ← plain (Operation.localSlot index)
  let value ← read slot
  plain (Operation.push value)

/-- Pops a value into a slot of the innermost call. -/
def popLocal (index : Nat) : CheckedOperation Unit := do
  let slot ← plain (Operation.localSlot index)
  let value ← pop
  write slot value

/-- Pops a value into a global slot. -/
def popGlobal (index : Nat) : CheckedOperation Unit := do
  let value ← pop
  plain fun machine =>
    if h : index < machine.globals.size then
      .ok () { machine with globals := machine.globals.set index value h }
    else .error (.globalOutOfRange index machine.globals.size) machine

/-- Replaces a number of values on top of the stack by an array of them. -/
def collect (count : Nat) : CheckedOperation Unit := do
  let machine ← get
  if machine.height < count then throw (.fault .stackUnderflow)
  else
    let items ← slice (machine.height - count) machine.height
    modify fun machine => { machine with height := machine.height - count }
    plain (Operation.push (.array items))

/-- Pops two values and pushes what a function yields of them. -/
def combine (function : Value → Value → Except Fault Value) : CheckedOperation Unit := do
  let right ← pop
  let left ← pop
  plain (Operation.pushResult (function left right))

/-- Enters a function whose arguments are on top of the stack. -/
def enter (body : Function) (count : Nat) : CheckedOperation Unit := do
  let machine ← get
  if count ≠ body.parameters then throw (.fault (.wrongArity body.parameters count))
  else if machine.maxFrames ≤ machine.depth then
    throw (.fault (.frameOverflow machine.maxFrames))
  else
    let base := machine.height - count
    let height := base + body.locals
    if machine.stack.size < height then throw (.fault (.stackOverflow machine.stack.size))
    else
      clear machine.height height
      modify fun machine =>
        { machine with
          height
          callers := machine.callers.push machine.frame
          frame := ⟨body.code, 0, base, body.locals⟩ }

/-- An operation after which the run goes on. -/
def going (operation : CheckedOperation Unit) : CheckedOperation Progress := do
  operation
  return .goesOn

/-- Calls a function whose arguments are on top of the stack. -/
def callFunction (body : Function) (count : Nat) : CheckedOperation Progress := fun machine =>
  if machine.overrunBy body count then .ok .crashes machine
  else going (enter body count) machine

/-- Calls a builtin function whose arguments are on top of the stack from a slot on. -/
def callBuiltin (builtin : Builtin) (calleeSlot : Nat) : CheckedOperation Unit := do
  let machine ← get
  let arguments ← slice (calleeSlot + 1) machine.height
  modify fun machine =>
    { machine with
      height := calleeSlot
      output := machine.output ++ builtin.output arguments }
  plain (Operation.push (builtin.result arguments))

/-- Calls the value below a number of arguments. -/
def call (count : Nat) : CheckedOperation Progress := do
  let machine ← get
  if machine.height < count + 1 then throw (.fault .stackUnderflow)
  else
    let calleeSlot := machine.height - (count + 1)
    match ← read calleeSlot with
    | .function body => callFunction body count
    | .builtin builtin => going (callBuiltin builtin calleeSlot)
    | other => throw (.fault (.notCallable other.kind))

/-- Leaves the innermost call with a value. The result of a function has to find room. -/
def leave (value : Value) : CheckedOperation Progress := do
  match (← get).callers.back? with
  | none =>
    plain (Operation.push value)
    modify fun machine => { machine with height := machine.height - 1 }
    return .ends
  | some caller =>
    modify fun machine =>
      { machine with
        height := machine.frame.base - 1
        frame := caller
        callers := machine.callers.pop }
    place value
    return .goesOn

/-- Executes an instruction. -/
def execute (opcode : Opcode) (operand : Nat) : CheckedOperation Progress :=
  match opcode with
  | .constant => going (plain (Operation.pushConstant operand))
  | .null => going (plain (Operation.push .null))
  | .true => going (plain (Operation.push (.boolean true)))
  | .false => going (plain (Operation.push (.boolean false)))
  | .getLocal => going (pushLocal operand)
  | .setLocal => going (popLocal operand)
  | .getGlobal => going (plain (Operation.pushGlobal operand))
  | .setGlobal => going (popGlobal operand)
  | .getBuiltin => going (plain (Operation.pushBuiltin operand))
  | .add | .sub | .mul | .div => going (combine (Value.arithmetic opcode))
  | .equal | .notEqual | .greater => going (combine (Value.compare opcode))
  | .negate => going do plain (Operation.pushResult (← pop).negated)
  | .not => going do plain (Operation.push (.boolean !(← pop).isTruthy))
  | .jump => going (plain (Operation.jump operand))
  | .jumpNotTruthy => going do
    let condition ← pop
    if !condition.isTruthy then plain (Operation.jump operand)
  | .call => call operand
  | .returnValue => do
    let value ← pop
    leave value.unwrapped
  | .returnNull => leave .null
  | .array => going (collect operand)
  | .index => going (combine Value.indexed)
  | .pop => going (discard pop)

/-- One step of the checked machine. -/
def step : CheckedOperation Progress := fun machine =>
  match machine.frame.fetch with
  | .stop => if machine.callers.isEmpty then .ok .ends machine else leave .null machine
  | .broken fault => .error (.fault fault) machine
  | .instruction opcode operand next => execute opcode operand (machine.jump next)

end CheckedOperation

/-- Takes checked steps until the machine halts, at most a given number of them. There is no
machine if a step leaves the stack, or asks for slots that end beyond all numbers. -/
def Machine.advanceChecked? : Nat → Machine → Option Machine
  | 0, machine => some machine
  | steps + 1, machine =>
    match CheckedOperation.step machine with
    | .ok .goesOn next => advanceChecked? steps next
    | .ok .ends next => some { next with status := .halted none }
    | .ok .crashes _ => none
    | .error (.fault fault) next => some { next with status := .halted (some fault) }
    | .error .outside _ => none

/-! ## The checked operations do the same -/

namespace CheckedOperation

variable {limits : Limits} {machine : Machine} {α β : Type}

/-- What a checked operation does is what the machine's own operation does, and it leaves the
machine confined. -/
def Agrees (limits : Limits) (machine : Machine) (checked : CheckedOperation α)
    (operation : Operation α) : Prop :=
  match operation machine with
  | .ok result next => checked machine = .ok result next ∧ next.Confined limits
  | .error fault next => checked machine = .error (.fault fault) next ∧ next.Confined limits

theorem Agrees.of_ok {checked : CheckedOperation α} {operation : Operation α} {result : α}
    {next : Machine} (ran : operation machine = .ok result next)
    (same : checked machine = .ok result next) (confined : next.Confined limits) :
    Agrees limits machine checked operation := by
  rw [Agrees, ran]
  exact ⟨same, confined⟩

theorem Agrees.of_error {checked : CheckedOperation α} {operation : Operation α} {fault : Fault}
    {next : Machine} (ran : operation machine = .error fault next)
    (same : checked machine = .error (.fault fault) next) (confined : next.Confined limits) :
    Agrees limits machine checked operation := by
  rw [Agrees, ran]
  exact ⟨same, confined⟩

theorem Agrees.bind {checked : CheckedOperation α} {operation : Operation α}
    {checkedRest : α → CheckedOperation β} {rest : α → Operation β}
    (first : Agrees limits machine checked operation)
    (second : ∀ result next, operation machine = .ok result next → next.Confined limits →
      Agrees limits next (checkedRest result) (rest result)) :
    Agrees limits machine (checked >>= checkedRest) (operation >>= rest) := by
  rw [Agrees] at first
  cases ran : operation machine with
  | error fault next =>
      rw [ran] at first
      exact .of_error (Stateful.bind_of_error ran) (Stateful.bind_of_error first.1) first.2
  | ok result next =>
      rw [ran] at first
      have rested := second result next ran first.2
      rwa [Agrees, Stateful.bind_of_ok ran, Stateful.bind_of_ok first.1]

/-- What the state of the machine is asked for. -/
theorem Agrees.get_bind {checkedRest : Machine → CheckedOperation α}
    {rest : Machine → Operation α} (agrees : Agrees limits machine (checkedRest machine) (rest machine)) :
    Agrees limits machine (get >>= checkedRest) (get >>= rest) := agrees

/-- A look into the stack on the way. -/
theorem Agrees.look {look : CheckedOperation β} {rest : β → CheckedOperation α}
    {operation : Operation α} {seen : β} (looked : look machine = .ok seen machine)
    (agrees : Agrees limits machine (rest seen) operation) :
    Agrees limits machine (look >>= rest) operation := by
  rw [Agrees] at agrees ⊢
  rwa [Stateful.bind_of_ok looked]

/-- An operation that uses no slots but by pushing, if it leaves the machine confined. -/
theorem agrees_plain {operation : Operation α}
    (returns : ∀ result next, operation machine = .ok result next → next.Confined limits)
    (stops : ∀ fault next, operation machine = .error fault next → next.Confined limits) :
    Agrees limits machine (plain operation) operation := by
  cases ran : operation machine with
  | ok result next =>
      exact .of_ok ran (by rw [plain, ran]) (returns result next ran)
  | error fault next =>
      exact .of_error ran (by rw [plain, ran]) (stops fault next ran)

theorem agrees_pure (confined : machine.Confined limits) (result : α) :
    Agrees limits machine (pure result) (pure result) :=
  .of_ok rfl rfl confined

theorem agrees_throw (confined : machine.Confined limits) (fault : Fault) :
    Agrees limits machine (throw (.fault fault) : CheckedOperation α) (throw fault) :=
  .of_error rfl rfl confined

theorem agrees_modify {change : Machine → Machine} (confined : (change machine).Confined limits) :
    Agrees limits machine (modify change : CheckedOperation PUnit) (modify change) :=
  .of_ok rfl rfl confined

theorem agrees_push (confined : machine.Confined limits) (value : Value) :
    Agrees limits machine (plain (Operation.push value)) (Operation.push value) := by
  refine agrees_plain (fun result next ran => ?_) (fun fault next ran => ?_)
  all_goals rw [Operation.push] at ran; split at ran
  · next room =>
      cases ran
      exact confined.withStack (Array.size_set room) room
  · cases ran
  · cases ran
  · cases ran
    exact confined

theorem agrees_pushResult (confined : machine.Confined limits) (result : Except Fault Value) :
    Agrees limits machine (plain (Operation.pushResult result)) (Operation.pushResult result) := by
  cases result with
  | ok value => exact agrees_push confined value
  | error fault => exact agrees_throw confined fault

theorem agrees_jump (confined : machine.Confined limits) (position : Nat) :
    Agrees limits machine (plain (Operation.jump position)) (Operation.jump position) :=
  .of_ok rfl rfl (confined.jump position)

/-- A slot of the stack is read as it is. -/
theorem read_of_lt {slot : Nat} (inside : slot < machine.stack.size) :
    read slot machine = .ok (machine.stack.getD slot .null) machine := by
  rw [read, Array.getElem?_eq_getElem inside, Array.getD, dif_pos inside]
  rfl

theorem write_of_lt {slot : Nat} (inside : slot < machine.stack.size) (value : Value) :
    write slot value machine =
      .ok () { machine with stack := machine.stack.setIfInBounds slot value } := by
  rw [write, dif_pos inside, Array.setIfInBounds, dif_pos inside]

theorem slice_of_le {first last : Nat} (ordered : first ≤ last) (inside : last ≤ machine.stack.size) :
    slice first last machine = .ok (machine.stack.extract first last).toList machine := by
  rw [slice, if_pos ⟨ordered, inside⟩]

theorem clear_of_le {first last : Nat} (ordered : first ≤ last) (inside : last ≤ machine.stack.size) :
    clear first last machine = .ok () { machine with
      stack := (last - first).fold
        (fun offset _ stack => stack.setIfInBounds (first + offset) .null) machine.stack } :=
  if_pos ⟨ordered, inside⟩

theorem agrees_place (confined : machine.Confined limits) (room : machine.height < machine.stack.size)
    (value : Value) : Agrees limits machine (place value) (Operation.push value) := by
  refine .of_ok (dif_pos room) ?_ (confined.withStack (Array.size_set room) room)
  rw [place, Stateful.get_bind, Stateful.bind_of_ok (write_of_lt room value),
    Array.setIfInBounds, dif_pos room]
  rfl

theorem agrees_pop (confined : machine.Confined limits) :
    Agrees limits machine pop Operation.pop := by
  by_cases empty : machine.height = 0
  · refine .of_error (if_pos empty) ?_ confined
    rw [pop, Stateful.get_bind, if_pos empty]
    rfl
  · have low := confined.height_le
    have inside : machine.height - 1 < machine.stack.size := by omega
    refine .of_ok (if_neg empty) ?_ (confined.withStack rfl (Nat.le_of_lt inside))
    rw [pop, Stateful.get_bind, if_neg empty, Stateful.bind_of_ok (read_of_lt inside)]
    rfl

theorem agrees_localSlot (confined : machine.Confined limits) (index : Nat) :
    Agrees limits machine (plain (Operation.localSlot index)) (Operation.localSlot index) := by
  refine agrees_plain (fun result next ran => ?_) (fun fault next ran => ?_)
  all_goals rw [Operation.localSlot] at ran; split at ran
  all_goals cases ran
  · exact confined
  · exact confined

/-- The slots of the innermost call are slots of the stack. -/
theorem localSlot_inside (confined : machine.Confined limits) {index slot : Nat} {next : Machine}
    (ran : Operation.localSlot index machine = .ok slot next) :
    next = machine ∧ slot < machine.stack.size := by
  rw [Operation.localSlot] at ran
  split at ran
  · next known =>
      cases ran
      have inside := confined.frame_le
      exact ⟨rfl, by omega⟩
  · cases ran

theorem agrees_pushLocal (confined : machine.Confined limits) (index : Nat) :
    Agrees limits machine (pushLocal index) (Operation.pushLocal index) := by
  refine Agrees.bind (agrees_localSlot confined index) fun slot next ran _ => ?_
  obtain ⟨rfl, inside⟩ := localSlot_inside confined ran
  exact Agrees.look (read_of_lt inside) (agrees_push confined _)

theorem agrees_popLocal (confined : machine.Confined limits) (index : Nat) :
    Agrees limits machine (popLocal index) (Operation.popLocal index) := by
  refine Agrees.bind (agrees_localSlot confined index) fun slot next ran _ => ?_
  obtain ⟨rfl, inside⟩ := localSlot_inside confined ran
  refine Agrees.bind (agrees_pop confined) fun value popped ran kept => ?_
  have size : slot < popped.stack.size := by
    rw [kept.stackSize, ← confined.stackSize]
    exact inside
  exact .of_ok rfl (write_of_lt size value) (kept.withStack Array.size_setIfInBounds kept.height_le)

theorem agrees_popGlobal (confined : machine.Confined limits) (index : Nat) :
    Agrees limits machine (popGlobal index) (Operation.popGlobal index) := by
  refine Agrees.bind (agrees_pop confined) fun value next _ kept => ?_
  refine agrees_plain (fun result last ran => ?_) (fun fault last ran => ?_)
  all_goals split at ran
  all_goals cases ran
  · exact kept.withGlobals _
  · exact kept

/-- Operations that look something up and push it. -/
theorem agrees_lookup (confined : machine.Confined limits) (found : Option Value) {fault : Fault}
    {operation : Operation Unit}
    (looks : operation machine = match found with
      | some value => Operation.push value machine
      | none => .error fault machine) :
    Agrees limits machine (plain operation) operation := by
  cases found with
  | none => exact .of_error looks (by rw [plain, looks]) confined
  | some value =>
      have pushed := agrees_push confined value
      rw [Agrees] at pushed ⊢
      rw [looks]
      rwa [plain, looks]

theorem agrees_pushConstant (confined : machine.Confined limits) (index : Nat) :
    Agrees limits machine (plain (Operation.pushConstant index)) (Operation.pushConstant index) :=
  agrees_lookup confined machine.constants[index]? rfl

theorem agrees_pushGlobal (confined : machine.Confined limits) (index : Nat) :
    Agrees limits machine (plain (Operation.pushGlobal index)) (Operation.pushGlobal index) :=
  agrees_lookup confined machine.globals[index]? rfl

theorem agrees_pushBuiltin (confined : machine.Confined limits) (index : Nat) :
    Agrees limits machine (plain (Operation.pushBuiltin index)) (Operation.pushBuiltin index) := by
  rw [Operation.pushBuiltin]
  cases Builtin.ofIndex? index with
  | none => exact agrees_throw confined _
  | some builtin => exact agrees_push confined _

theorem agrees_collect (confined : machine.Confined limits) (count : Nat) :
    Agrees limits machine (collect count) (Operation.collect count) := by
  refine Agrees.get_bind ?_
  by_cases few : machine.height < count
  · rw [if_pos few, if_pos few]
    exact agrees_throw confined _
  · have low := confined.height_le
    rw [if_neg few, if_neg few]
    refine Agrees.look (slice_of_le (Nat.sub_le _ _) low) ?_
    refine Agrees.bind (agrees_modify (confined.withStack rfl ?_)) fun _ _ _ kept =>
      agrees_push kept _
    exact Nat.le_trans (Nat.sub_le _ _) low

theorem agrees_combine (confined : machine.Confined limits)
    (function : Value → Value → Except Fault Value) :
    Agrees limits machine (combine function) (Operation.combine function) :=
  Agrees.bind (agrees_pop confined) fun _ _ _ popped =>
    Agrees.bind (agrees_pop popped) fun _ _ _ kept => agrees_pushResult kept _

/-- To clear slots does not change their number. -/
theorem size_cleared (stack : Array Value) (count start : Nat) :
    (count.fold (fun offset _ stack => stack.setIfInBounds (start + offset) Value.null)
      stack).size = stack.size := by
  have anything : ∀ value ∈ stack, value.All fun _ => True :=
    fun value _ => Value.all_of_forall (fun _ => trivial) value
  exact (Operation.all_fold_null anything count start).2

theorem agrees_enter (confined : machine.Confined limits) {body : Function} (roomy : body.Roomy)
    {count : Nat} (enough : count < machine.height) :
    Agrees limits machine (enter body count) (Operation.enter body count) := by
  have low := confined.height_le
  by_cases arity : count ≠ body.parameters
  · refine .of_error (Operation.enter_of_ne arity) ?_ confined
    rw [enter, Stateful.get_bind, if_pos arity]
    rfl
  have takes : count = body.parameters := Decidable.not_not.mp arity
  by_cases deep : machine.maxFrames ≤ machine.depth
  · refine .of_error (Operation.enter_of_deep takes deep) ?_ confined
    rw [enter, Stateful.get_bind, if_neg arity, if_pos deep]
    rfl
  have shallow := Nat.lt_of_not_le deep
  by_cases high : machine.stack.size < machine.height - count + body.locals
  · refine .of_error (Operation.enter_of_high takes shallow high) ?_ confined
    rw [enter, Stateful.get_bind, if_neg arity, if_neg deep, if_pos high]
    rfl
  have inside := Nat.le_of_not_lt high
  have ordered : machine.height ≤ machine.height - count + body.locals := by
    rw [Function.Roomy] at roomy
    omega
  -- No slot of the arguments is cleared, and there is one below them, which held the function.
  let frame : Frame := ⟨body.code, 0, machine.height - count, body.locals⟩
  have above : 1 ≤ frame.base := Nat.sub_pos_of_lt enough
  refine .of_ok ((if_neg arity).trans ((if_neg deep).trans (if_neg high))) ?_
    (confined.enter (size_cleared _ _ _) shallow above inside)
  rw [enter, Stateful.get_bind, if_neg arity, if_neg deep, if_neg high]
  exact Stateful.bind_of_ok (clear_of_le ordered inside)

theorem agrees_going {checked : CheckedOperation Unit} {operation : Operation Unit}
    (agrees : Agrees limits machine checked operation) :
    Agrees limits machine (going checked) (Operation.going operation) :=
  Agrees.bind agrees fun _ _ _ kept => agrees_pure kept _

theorem agrees_callFunction (confined : machine.Confined limits) {body : Function}
    (roomy : body.Roomy) {count : Nat} (enough : count < machine.height) :
    Agrees limits machine (callFunction body count) (Operation.callFunction body count) := by
  rw [Agrees, callFunction, Operation.callFunction]
  by_cases overrun : machine.overrunBy body count = true
  · rw [if_pos overrun, if_pos overrun]
    exact ⟨rfl, confined⟩
  · rw [if_neg overrun, if_neg overrun]
    exact agrees_going (agrees_enter confined roomy enough)

theorem agrees_callBuiltin (confined : machine.Confined limits) (builtin : Builtin)
    {calleeSlot : Nat} (inside : calleeSlot < machine.height) :
    Agrees limits machine (callBuiltin builtin calleeSlot)
      (Operation.callBuiltin builtin calleeSlot) := by
  have low := confined.height_le
  refine Agrees.get_bind (Agrees.look (slice_of_le inside low) ?_)
  refine Agrees.bind (agrees_modify ?_) fun _ _ _ kept => agrees_push kept _
  exact (confined.withStack rfl (Nat.le_trans (Nat.le_of_lt inside) low)).withOutput _

theorem agrees_call (confined : machine.Confined limits) (roomy : machine.Knows Function.Roomy)
    (count : Nat) : Agrees limits machine (call count) (Operation.call count) := by
  rw [Operation.call_eq]
  refine Agrees.get_bind ?_
  by_cases few : machine.height < count + 1
  · rw [if_pos few, if_pos few]
    exact agrees_throw confined _
  · have low := confined.height_le
    have enough := Nat.le_of_not_lt few
    have below : machine.height - (count + 1) < machine.height := by omega
    have fits := Operation.all_getD roomy.stack (machine.height - (count + 1))
    rw [if_neg few, if_neg few]
    refine Agrees.look (read_of_lt (Nat.lt_of_lt_of_le below low)) ?_
    cases callee : machine.stack.getD (machine.height - (count + 1)) .null with
    | function body =>
        rw [callee] at fits
        exact agrees_callFunction confined fits enough
    | builtin builtin => exact agrees_going (agrees_callBuiltin confined builtin below)
    | _ => exact agrees_throw confined _

/-- The result of a call that is not the program itself takes the slot below the call, so that it
never lacks room. -/
theorem agrees_leave (confined : machine.Confined limits) (value : Value) :
    Agrees limits machine (leave value) (Operation.leave value) := by
  refine Agrees.get_bind ?_
  cases called : machine.callers.back? with
  | none =>
      refine Agrees.bind (agrees_push confined value) fun _ next _ kept => ?_
      refine Agrees.bind (agrees_modify (kept.withStack rfl ?_)) fun _ _ _ kept =>
        agrees_pure kept _
      exact Nat.le_trans (Nat.sub_le _ _) kept.height_le
  | some caller =>
      have above := confined.base_pos called
      have inside := confined.frame_le
      have room : machine.frame.base - 1 < machine.stack.size := by omega
      refine Agrees.bind (agrees_modify (confined.leave called (Nat.le_of_lt room)))
        fun _ left ran kept => ?_
      obtain rfl := Stateful.modify_eq_ok.mp ran
      exact Agrees.bind (agrees_place kept room value) fun _ _ _ kept => agrees_pure kept _

theorem agrees_execute (confined : machine.Confined limits) (roomy : machine.Knows Function.Roomy)
    (opcode : Opcode) (operand : Nat) :
    Agrees limits machine (execute opcode operand) (Operation.execute opcode operand) := by
  cases opcode with
  | constant => exact agrees_going (agrees_pushConstant confined operand)
  | null | true | false => exact agrees_going (agrees_push confined _)
  | getLocal => exact agrees_going (agrees_pushLocal confined operand)
  | setLocal => exact agrees_going (agrees_popLocal confined operand)
  | getGlobal => exact agrees_going (agrees_pushGlobal confined operand)
  | setGlobal => exact agrees_going (agrees_popGlobal confined operand)
  | getBuiltin => exact agrees_going (agrees_pushBuiltin confined operand)
  | add | sub | mul | div | equal | notEqual | greater | index =>
      exact agrees_going (agrees_combine confined _)
  | negate =>
      exact agrees_going (Agrees.bind (agrees_pop confined) fun _ _ _ kept =>
        agrees_pushResult kept _)
  | not =>
      exact agrees_going (Agrees.bind (agrees_pop confined) fun _ _ _ kept => agrees_push kept _)
  | jump => exact agrees_going (agrees_jump confined operand)
  | jumpNotTruthy =>
      refine agrees_going (Agrees.bind (agrees_pop confined) fun condition _ _ kept => ?_)
      split
      · exact agrees_jump kept operand
      · exact agrees_pure kept _
  | call => exact agrees_call confined roomy operand
  | returnValue =>
      exact Agrees.bind (agrees_pop confined) fun _ _ _ kept => agrees_leave kept _
  | returnNull => exact agrees_leave confined _
  | array => exact agrees_going (agrees_collect confined operand)
  | pop =>
      exact agrees_going (Agrees.bind (agrees_pop confined) fun _ _ _ kept => agrees_pure kept _)

/-- A step of a confined machine is the same with every use of the stack checked, and it leaves the
machine confined. -/
theorem agrees_step (confined : machine.Confined limits) (roomy : machine.Knows Function.Roomy) :
    Agrees limits machine step Operation.step := by
  rw [Agrees, step, Operation.step]
  cases machine.frame.fetch with
  | stop =>
      by_cases outermost : machine.callers.isEmpty
      · rw [if_pos outermost, if_pos outermost]
        exact ⟨rfl, confined⟩
      · rw [if_neg outermost, if_neg outermost]
        exact agrees_leave confined .null
  | broken fault => exact ⟨rfl, confined⟩
  | instruction opcode operand next =>
      exact agrees_execute (confined.jump next) ⟨roomy.stack, roomy.globals, roomy.constants⟩
        opcode operand

end CheckedOperation

/-! ## Runs -/

namespace Machine

variable {limits : Limits} {program : CompiledProgram} {globals : Globals}

/-- A program that was loaded is confined: there is one call, and it has no slots. -/
theorem confined_loaded (program : CompiledProgram) (limits : Limits) (globals : Globals) :
    (loaded program limits globals).Confined limits where
  stackSize := Array.size_replicate
  maxFrames := rfl
  height := Nat.zero_le _
  nonempty := List.cons_ne_nil _ _
  depth := Nat.le_max_left _ _
  above := by
    intro _ member
    cases member
  inside := by
    intro frame member
    obtain rfl := List.mem_singleton.mp member
    exact Nat.zero_le _

/-- A confined machine stays confined, and unless it crashes, each of its steps is the same with
every use of the stack checked. -/
theorem Confined.advance {machine : Machine} (confined : machine.Confined limits)
    (roomy : machine.Knows Function.Roomy) (running : machine.status = .running) (steps : Nat) :
    (machine.advance steps).Confined limits ∧
      machine.advanceChecked? steps =
        if (machine.advance steps).status = .crashed then none
        else some (machine.advance steps) := by
  induction steps generalizing machine with
  | zero =>
      rw [Machine.advance, running]
      exact ⟨confined, rfl⟩
  | succ steps ih =>
      have agrees := CheckedOperation.agrees_step confined roomy
      have kept := Operation.keeps_step machine roomy
      rw [CheckedOperation.Agrees] at agrees
      rw [Machine.advance, advanceChecked?]
      cases stepped : Operation.step machine with
      | ok progress next =>
          rw [stepped] at agrees kept
          rw [agrees.1]
          cases progress with
          | goesOn => exact ih agrees.2 kept.2.1 (kept.2.2.status.trans running)
          | ends | crashes => exact ⟨agrees.2.withStatus _, rfl⟩
      | error fault next =>
          rw [stepped] at agrees
          rw [agrees.1]
          exact ⟨agrees.2.withStatus _, rfl⟩

/-- A confined machine is at no call whose slots end beyond all numbers if those of its functions
and those of its stack together have numbers. -/
theorem Confined.not_overruns {machine : Machine} (confined : machine.Confined limits)
    (fits : machine.Knows (Function.Fits limits.stackSize)) : ¬machine.Overruns := by
  rintro ⟨count, behind, body, -, -, found, overrun⟩
  have known : body.Fits limits.stackSize := fits.stack _ (Array.mem_of_getElem? found)
  have low : machine.height - count ≤ limits.stackSize :=
    Nat.le_trans (Nat.sub_le _ _) confined.height
  rw [overrunBy, Function.overruns_of_fits known low, Bool.and_false] at overrun
  cases overrun

/-- **Whatever the bytes, a machine stays in its stack or is lost at a call.** Let the arguments of
all functions among the constants and the global slots fit into their slots. Then whatever the
program and the functions consist of and however small the limits are, the machine is within its
limits at every point of the run, and up to there the run is the same with every use of the stack
checked, unless the machine has crashed. It has crashed exactly if it came to a call of a function,
with as many arguments as that takes and not at the deepest level, whose slots end beyond all
numbers. If the slots of each function together with those of the stack have numbers, then it never
does. -/
theorem run_confined (constants : ∀ value ∈ program.constants, value.All Function.Roomy)
    (known : ∀ value ∈ globals, value.All Function.Roomy) (limits : Limits) (steps : Nat) :
    let start := loaded program limits globals
    let last := ((Machine.load program limits globals).run steps).2
    last.Confined limits ∧
      start.advanceChecked? steps = (if last.status = .crashed then none else some last) ∧
      (last.status = .crashed ↔
        ∃ count reached, count < steps ∧ Reaches count start reached ∧ reached.Overruns) ∧
      ((∀ value ∈ program.constants, value.All (Function.Fits limits.stackSize)) →
        (∀ value ∈ globals, value.All (Function.Fits limits.stackSize)) →
          last.status ≠ .crashed) := by
  intro start last
  have roomy : start.Knows Function.Roomy := knows_loaded constants known limits
  have confined := confined_loaded program limits globals
  have running : start.status = .running := rfl
  have crashed := crashed_advance_iff running steps
  obtain ⟨within, checked⟩ := confined.advance roomy running steps
  refine ⟨within, checked, crashed, fun constantsFit globalsFit lost => ?_⟩
  obtain ⟨count, reached, -, reaches, overruns⟩ := crashed.mp lost
  have fits : start.Knows (Function.Fits limits.stackSize) :=
    knows_loaded constantsFit globalsFit limits
  have there : reached.Confined limits := reaches.advance_eq ▸ (confined.advance roomy running count).1
  exact there.not_overruns (reaches.kept fits).1 overruns

/-- A program that calls a function whose body takes more from the stack than there is of its own:
it consists of two bytes that pop a value each. -/
def greedy : CompiledProgram where
  code := #[0x01, 0, 0, 0x60, 0]
  constants := #[.function ⟨0, none, 0, 1, #[0x80, 0x80]⟩]

/-- The result of the function finds room even if there are no other slots. -/
theorem run_confined_greedy :
    ((Machine.load greedy ⟨2, 2, 0⟩ #[]).run 9).1 = some (.ok ()) ∧
      ((Machine.load greedy ⟨2, 2, 0⟩ #[]).run 9).2.Confined ⟨2, 2, 0⟩ ∧
      ((Machine.load greedy ⟨2, 2, 0⟩ #[]).run 9).2.status ≠ .crashed := by
  have constants : ∀ holds : Function → Prop, holds ⟨0, none, 0, 1, #[0x80, 0x80]⟩ →
      ∀ value ∈ greedy.constants, value.All holds := by
    intro holds here value member
    obtain rfl := Array.mem_singleton.mp member
    exact here
  have known : ∀ holds : Function → Prop, ∀ value ∈ (#[] : Globals), value.All holds :=
    fun _ _ member => absurd member (Array.not_mem_empty _)
  have few : Function.Fits 2 ⟨0, none, 0, 1, #[0x80, 0x80]⟩ := Nat.le_of_ble_eq_true rfl
  have safe := run_confined (constants Function.Roomy (Nat.zero_le 1)) (known _) ⟨2, 2, 0⟩ 9
  exact ⟨by decide +kernel, safe.1, safe.2.2.2 (constants _ few) (known _)⟩

/-- A program that calls a function without parameters that has as many slots as there are numbers
but one. -/
def overrunning : CompiledProgram where
  code := #[0x01, 0, 0, 0x60, 0]
  constants := #[.function ⟨0, none, 0, 18446744073709551615, #[]⟩]

/-- There is no fault that says what the machine has come to, although the arguments of the function
fit into its slots. -/
theorem not_run_safe_overrunning :
    ¬((∀ value ∈ overrunning.constants, value.All Function.Roomy) → ∀ steps,
      ((Machine.load overrunning ⟨4, 4, 1⟩ #[.null]).run steps).2.status ≠ .crashed) := by
  intro safe
  refine safe (fun value member => ?_) 2 (by decide +kernel)
  obtain rfl := Array.mem_singleton.mp member
  exact Nat.zero_le 18446744073709551615

end Machine

end MonkeyLang
