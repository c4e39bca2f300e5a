import MonkeyLang.Proofs.Machine.Overrunning
import MonkeyLang.Proofs.Simulation.Instructions

/-!
# Calls and returns

A call puts a new activation on top of the one that calls: the stack below its slots is all that
the machine has in use, and the caller goes on behind the instruction. When the function is left
in any way, the machine is where the caller goes on, with the value in place of what was called.
-/

set_option autoImplicit false

namespace MonkeyLang

/-- A call of a function, not the program itself: there is somewhere to return to. -/
def Activation.Inner (call : Activation) : Prop :=
  ∃ (below : List Value) (callee : Value) (callers : Array Frame) (caller : Frame),
    call.under = below ++ [callee] ∧ call.callers = callers.push caller

namespace Host

open Operation Evaluating

variable {α : Type} {host : Host} {call : Activation} {bound held position : Nat}
  {waiting : List Value} {arrives : α → Assertion}

/-! ## Leaving a function -/

theorem leave_machine {store : Store} {stale : List Value} (inner : call.Inner)
    (fits : host.Fits call store waiting stale) (value : Value) (next : Nat) :
    ∃ last, Operation.leave (host.link value.unwrapped)
        (host.machine call store waiting stale next) = .ok .goesOn last ∧
      host.Left call value store last := by
  obtain ⟨below, callee, callers, caller, under, called⟩ := inner
  have size := fits.size
  have base : call.under.length = below.length + 1 := by simp [under]
  refine ⟨_, ?_, below, callee, callers, caller,
    (store.locals ++ waiting).map host.link ++ stale, under, called, ?_, rfl⟩
  · have values : host.values call store waiting =
        below ++ callee :: (store.locals ++ waiting).map host.link := by
      simp only [Host.values, under, List.append_assoc, List.singleton_append]
    rw [machine, values]
    exact leave_withStack called base _
  · have slots := fits.slots
    simp only [Activation.floor, base] at size
    simp
    omega

theorem silently_returnValue {value : Value} (inner : call.Inner)
    (holds : call.code.Holds position ⟨.returnValue, []⟩) :
    Silently (host.At call position (waiting ++ [value])) (host.Left call value) := by
  refine silently_instruction holds fun store stale fits => ?_
  have moved : host.Fits call store waiting (host.link value :: stale) := fits.move (by simp; omega)
  obtain ⟨last, ran, left⟩ := leave_machine inner moved value (position + 1)
  refine ⟨last, (Stateful.bind_of_ok (pop_machine store value stale _)).trans ?_, left⟩
  rw [← ran]
  exact congrArg (fun other => Operation.leave other _) (Value.unwrapped_mapFunctions value)

theorem silently_returnNull (inner : call.Inner)
    (holds : call.code.Holds position ⟨.returnNull, []⟩) :
    Silently (host.At call position waiting) (host.Left call .null) := by
  refine silently_instruction holds fun store stale fits => ?_
  exact leave_machine inner fits .null (position + 1)

/-! ## Calling a value -/

/-- The machine at a call: what is called lies below the arguments. -/
theorem call_machine (store : Store) (target : Value) (arguments stale : List Value) (next : Nat) :
    Operation.call arguments.length
        (host.machine call store (waiting ++ target :: arguments) stale next) =
      match host.link target with
      | .function body =>
        callFunction body arguments.length
          (host.machine call store (waiting ++ target :: arguments) stale next)
      | .builtin builtin =>
        going (Operation.callBuiltin builtin (host.values call store waiting).length)
          (host.machine call store (waiting ++ target :: arguments) stale next)
      | other =>
        .error (.notCallable other.kind)
          (host.machine call store (waiting ++ target :: arguments) stale next) := by
  have called : Operation.call (arguments.map host.link).length
      ((host.bare call store next).withStack
        (host.values call store waiting ++ host.link target :: arguments.map host.link) stale) =
      _ := call_withStack (host.link target) (arguments.map host.link)
  rw [List.length_map] at called
  rw [machine_append]
  exact called

/-- The result of a builtin function replaces it and its arguments. -/
theorem callBuiltin_machine (store : Store) (builtin : Builtin) (arguments stale : List Value)
    (next : Nat) :
    Operation.callBuiltin builtin (host.values call store waiting).length
        (host.machine call store (waiting ++ .builtin builtin :: arguments) stale next) =
      .ok () (host.machine call { store with output := store.output ++ builtin.output arguments }
        (waiting ++ [builtin.result arguments]) (arguments.map host.link ++ stale) next) := by
  have unnoticed := Function.unnoticed_relinked host.constants
  have output : builtin.output (arguments.map host.link) = builtin.output arguments := by
    rw [← builtin.output_mapItems unnoticed arguments, Value.mapItems_eq_map]
    rfl
  have result : builtin.result (arguments.map host.link) = host.link (builtin.result arguments) := by
    rw [link, Value.linked, ← builtin.result_mapItems unnoticed arguments, Value.mapItems_eq_map]
    rfl
  rw [machine_append]
  refine (callBuiltin_withStack builtin (host.link (.builtin builtin))
    (arguments.map host.link)).trans ?_
  rw [output, result]
  refine (push_withStack_cons _ _).trans ?_
  rw [machine_append]
  simp only [bare, values, String.append_assoc]
  rfl

/-- A call, if calls of functions are simulated. -/
theorem Simulates.calling {target : Value} {arguments : List Value}
    {invoke : Nat → List Value → Evaluating Value}
    (holds : call.code.Holds position ⟨.call, [arguments.length]⟩)
    (small : arguments.length ≤ Limit.callArguments.bound)
    (invokes : ∀ body, host.Simulates call bound held
      (host.At call position (waiting ++ .function body :: arguments))
      (invoke body.identity arguments) fun result =>
      host.At call (position + 2) (waiting ++ [result])) :
    host.Simulates call bound held (host.At call position (waiting ++ target :: arguments))
      (Evaluator.call invoke target arguments) fun result =>
      host.At call (position + 2) (waiting ++ [result]) := by
  have operand : (⟨.call, [arguments.length]⟩ : Instruction).operand = arguments.length :=
    Instruction.operand_of_lt (Nat.lt_succ_of_le small)
  cases target with
  | function body => exact invokes body
  | builtin builtin =>
      refine Simulates.instruction holds fun store stale fits => ?_
      rw [operand, execute, call_machine]
      refine Does.ok (callBuiltin_machine store builtin arguments stale (position + 2)) ?_
      exact ⟨_, (fits.move (by simp; omega)).withStore rfl, rfl⟩
  | _ =>
      refine Simulates.instruction holds fun store stale fits => ?_
      rw [operand, execute, call_machine]
      exact ⟨rfl, ⟨rfl, rfl⟩, trivial⟩

/-! ## Entering a function -/

/-- The activation of a function that is called. -/
def entered (host : Host) (call : Activation) (store : Store) (waiting : List Value)
    (callee body : Function) (next : Nat) : Activation where
  code := body.code
  slots := body.locals
  under := host.values call store waiting ++ [host.link (.function callee)]
  callers := call.callers.push ⟨call.code, next, call.under.length, call.slots⟩

theorem inner_entered (store : Store) (callee body : Function) (next : Nat) :
    (host.entered call store waiting callee body next).Inner :=
  ⟨_, _, _, _, rfl, rfl⟩

theorem floor_entered {store : Store} {callee body : Function} {next : Nat}
    (slots : store.locals.length = call.slots) (count : held = call.floor + waiting.length) :
    (host.entered call store waiting callee body next).floor = held + 1 + body.locals := by
  simp only [Activation.floor] at count ⊢
  simp [entered, values, slots, count]
  omega

theorem depth_entered (store : Store) (callee body : Function) (next : Nat) :
    (host.entered call store waiting callee body next).depth = call.depth + 1 := by
  simp [Activation.depth, entered]

/-- Where a function was left the caller goes on. -/
theorem Left.at_entered {store inner : Store} {callee body : Function} {next : Nat}
    {value : Value} {machine : Machine} (slots : store.locals.length = call.slots)
    (left : host.Left (host.entered call store waiting callee body next) value inner machine) :
    host.At call next (waiting ++ [value.unwrapped]) { inner with locals := store.locals }
      machine := by
  obtain ⟨below, other, callers, caller, stale, under, called, size, rfl⟩ := left
  obtain ⟨rfl, -⟩ := List.append_inj' under rfl
  obtain ⟨rfl, rfl⟩ := Array.push_eq_push.mp called
  refine ⟨stale, ⟨slots, ?_⟩, ?_⟩
  · have length : (host.values call store waiting).length = call.floor + waiting.length := by
      simp [values, Activation.floor, slots, Nat.add_assoc]
    simp only [List.length_append, List.length_singleton]
    omega
  · rw [machine_append]
    rfl

/-- What a call finds before it enters a function. -/
theorem invoke_succ (routines : Nat → Routine) (fuel number : Nat) (arguments : List Value)
    (limits : Limits) (held depth : Nat) (store : Store) :
    Evaluator.invoke routines (fuel + 1) number arguments ⟨limits.capacity, held, depth⟩ store =
      if arguments.length ≠ (routines number).parameters then
        .error (.fault (.wrongArity (routines number).parameters arguments.length)) store
      else if limits.maxFrames < depth + 1 then
        .error (.fault (.frameOverflow limits.maxFrames)) store
      else if limits.stackSize < held + 1 + (routines number).locals then
        .error (.fault (.stackOverflow limits.stackSize)) store
      else
        inCall (routines number).parameters (routines number).locals arguments
          (Evaluator.statements (Evaluator.invoke routines fuel) fuel (routines number).body
            (routines number).walk none) ⟨limits.capacity, held, depth⟩ store := by
  rw [Evaluator.invoke]
  by_cases arity : arguments.length ≠ (routines number).parameters
  · rw [if_pos arity, if_pos arity]
    rfl
  · rw [if_neg arity, if_neg arity]
    have framed : Evaluating.require (·.frames) (depth + 1) .frameOverflow
        ⟨limits.capacity, held, depth⟩ store =
          if depth + 1 ≤ limits.maxFrames then .ok () store
          else .error (.fault (.frameOverflow limits.maxFrames)) store := rfl
    have stacked : Evaluating.require (·.stack) (held + 1 + (routines number).locals) .stackOverflow
        ⟨limits.capacity, held, depth⟩ store =
          if held + 1 + (routines number).locals ≤ limits.stackSize then .ok () store
          else .error (.fault (.stackOverflow limits.stackSize)) store := rfl
    split
    · next deep =>
        rw [if_neg (Nat.not_le_of_lt deep)] at framed
        exact Stateful.bind_of_error framed
    · next shallow =>
        rw [if_pos (Nat.le_of_not_lt shallow)] at framed
        refine (Stateful.bind_of_ok framed).trans ?_
        split
        · next high =>
            rw [if_neg (Nat.not_le_of_lt high)] at stacked
            exact Stateful.bind_of_error stacked
        · next low =>
            rw [if_pos (Nat.le_of_not_lt low)] at stacked
            exact Stateful.bind_of_ok stacked

/-- In the function the arguments are its first slots, and its other slots are null. -/
theorem values_entered {store : Store} {callee body : Function} {arguments : List Value}
    {next : Nat} :
    host.values (host.entered call store waiting callee body next)
        { store with
          locals := arguments ++ List.replicate (body.locals - body.parameters) .null } [] =
      host.values call store waiting ++ [host.link (.function callee)] ++
        (arguments.map host.link ++
          List.replicate (body.locals - body.parameters) Value.null) := by
  have slots : (arguments ++ List.replicate (body.locals - body.parameters) Value.null).map
      host.link = arguments.map host.link ++
        List.replicate (body.locals - body.parameters) Value.null := by
    rw [List.map_append, List.map_replicate]
    rfl
  rw [values, List.append_nil, slots]
  rfl

/-- What the machine finds before it enters a function. -/
theorem enter_machine {store : Store} {callee body : Function} {arguments stale : List Value}
    {next : Nat} (fits : host.Fits call store (waiting ++ .function callee :: arguments) stale)
    (count : held = call.floor + waiting.length) (roomy : body.parameters ≤ body.locals) :
    Operation.enter body arguments.length
        (host.machine call store (waiting ++ .function callee :: arguments) stale next) =
      if arguments.length ≠ body.parameters then
        .error (.wrongArity body.parameters arguments.length)
          (host.machine call store (waiting ++ .function callee :: arguments) stale next)
      else if host.limits.maxFrames < call.depth + 1 then
        .error (.frameOverflow host.limits.maxFrames)
          (host.machine call store (waiting ++ .function callee :: arguments) stale next)
      else if host.limits.stackSize < held + 1 + body.locals then
        .error (.stackOverflow host.limits.stackSize)
          (host.machine call store (waiting ++ .function callee :: arguments) stale next)
      else
        .ok () (host.machine (host.entered call store waiting callee body next)
          { store with
            locals := arguments ++ List.replicate (body.locals - body.parameters) .null }
          [] (stale.drop (body.locals - body.parameters)) 0) := by
  have size := fits.size
  simp only [List.length_append, List.length_cons] at size
  have length : (host.values call store waiting).length = held := by
    simp [values, fits.slots, count, Activation.floor, Nat.add_assoc]
  have base : (host.machine call store (waiting ++ .function callee :: arguments) stale
      next).height - arguments.length = held + 1 := by
    rw [machine_append]
    simp [Machine.withStack, length]
    omega
  have total : (host.machine call store (waiting ++ .function callee :: arguments) stale
      next).stack.size = host.limits.stackSize := by
    rw [machine_append]
    simp [Machine.withStack, length]
    omega
  by_cases arity : arguments.length = body.parameters
  · rw [if_neg (not_not_intro arity)]
    by_cases deep : host.limits.maxFrames < call.depth + 1
    · rw [if_pos deep]
      exact enter_of_deep arity (Nat.le_of_lt_succ deep)
    · rw [if_neg deep]
      have shallow : call.depth < host.limits.maxFrames := Nat.lt_of_succ_le (Nat.le_of_not_lt deep)
      by_cases high : host.limits.stackSize < held + 1 + body.locals
      · rw [if_pos high, ← total]
        exact enter_of_high arity shallow (by rw [total, base]; exact high)
      · rw [if_neg high]
        have items : (arguments.map host.link).length = body.parameters := by simp [arity]
        have done : Operation.enter body (arguments.map host.link).length
            ((host.bare call store next).withStack
              (host.values call store waiting ++ [host.link (.function callee)] ++
                arguments.map host.link) stale) = _ :=
          enter_withStack items roomy shallow (by omega)
        rw [List.length_map] at done
        rw [machine_append, List.map_cons, List.append_cons, done, machine, values_entered]
        rfl
  · rw [if_pos arity]
    exact enter_of_ne arity

theorem fits_entered {store : Store} {callee body : Function} {arguments stale : List Value}
    {next : Nat} (fits : host.Fits call store (waiting ++ .function callee :: arguments) stale)
    (count : held = call.floor + waiting.length) (arity : arguments.length = body.parameters)
    (roomy : body.parameters ≤ body.locals)
    (low : held + 1 + body.locals ≤ host.limits.stackSize) :
    host.Fits (host.entered call store waiting callee body next)
      { store with
        locals := arguments ++ List.replicate (body.locals - body.parameters) .null }
      [] (stale.drop (body.locals - body.parameters)) := by
  have size := fits.size
  simp only [List.length_append, List.length_cons] at size
  have floor : (host.entered call store waiting callee body next).floor =
      held + 1 + body.locals := floor_entered fits.slots count
  refine ⟨by simp [entered, arity]; omega, ?_⟩
  rw [floor]
  simp
  omega

/-- What a call comes to, when the machine follows the body of the function. -/
theorem Realizes.inCall {store : Store} {callee body : Function} {arguments : List Value}
    {next fuel : Nat} {machine : Machine} {work : Evaluating (Option Value)}
    (slots : store.locals.length = call.slots)
    (realizes : host.Realizes (host.entered call store waiting callee body next) fuel machine
      (fun last => host.Left (host.entered call store waiting callee body next) (last.getD .null))
      (work ⟨host.limits.capacity, held + 1 + body.locals, call.depth + 1⟩ { store with
        locals := arguments ++ List.replicate (body.locals - body.parameters) .null })) :
    host.Realizes call fuel machine (fun result => host.At call next (waiting ++ [result]))
      (Evaluating.inCall body.parameters body.locals arguments work
        ⟨host.limits.capacity, held, call.depth⟩ store) := by
  unfold Evaluating.inCall
  dsimp only
  generalize work ⟨host.limits.capacity, held + 1 + body.locals, call.depth + 1⟩ _ = result
    at realizes
  match result with
  | .ok last inner =>
      obtain ⟨count, final, reached, left⟩ := realizes
      exact ⟨count, final, reached, left.at_entered slots⟩
  | .error (.leave value) inner =>
      obtain ⟨count, final, reached, left⟩ := realizes
      exact ⟨count, final, reached, left.at_entered slots⟩
  | .error (.fault fault) inner => exact realizes
  | .error .exhausted inner => exact realizes

/-- The call of a function, if the machine follows its body. -/
theorem Simulates.invoking {routines : Nat → Routine} {fuel : Nat} {callee body : Function}
    {arguments : List Value}
    (holds : call.code.Holds position ⟨.call, [arguments.length]⟩)
    (small : arguments.length ≤ Limit.callArguments.bound)
    (count : held = call.floor + waiting.length)
    (found : callee.relinked host.constants = body)
    (parameters : body.parameters = (routines callee.identity).parameters)
    (locals : body.locals = (routines callee.identity).locals)
    (roomy : body.parameters ≤ body.locals) (few : body.locals ≤ Limit.locals.bound)
    (follows : ∀ inner : Activation, inner.Inner → inner.code = body.code →
      inner.slots = body.locals →
      host.Simulates inner fuel inner.floor (host.At inner 0 [])
        (Evaluator.statements (Evaluator.invoke routines fuel) fuel
          (routines callee.identity).body (routines callee.identity).walk none)
        fun last => host.Left inner (last.getD .null)) :
    host.Simulates call (fuel + 1) held (host.At call position (waiting ++ .function callee :: arguments))
      (Evaluator.invoke routines (fuel + 1) callee.identity arguments) fun result =>
      host.At call (position + 2) (waiting ++ [result]) := by
  have operand : (⟨.call, [arguments.length]⟩ : Instruction).operand = arguments.length :=
    Instruction.operand_of_lt (Nat.lt_succ_of_le small)
  rintro store machine ⟨stale, fits, rfl⟩
  have stepped := step_machine host call store holds (waiting ++ .function callee :: arguments) stale
  have called : Operation.call arguments.length
      (host.machine call store (waiting ++ .function callee :: arguments) stale (position + 2)) =
      Operation.callFunction (callee.relinked host.constants) _ _ :=
    call_machine store (.function callee) arguments stale (position + 2)
  have entering : Operation.enter body arguments.length
      (host.machine call store (waiting ++ .function callee :: arguments) stale (position + 2)) = _ :=
    enter_machine fits count roomy
  rw [found, callFunction_of_sound (Machine.overrunBy_of_few few)] at called
  rw [operand] at stepped
  have stepped := stepped.trans called
  rw [invoke_succ, ← parameters, ← locals]
  split
  · next arity =>
      rw [if_pos arity] at entering
      exact (Does.fault entering ⟨rfl, rfl⟩ trivial).realizes stepped
  · next arity =>
      rw [if_neg arity] at entering
      split
      · next deep =>
          rw [if_pos deep] at entering
          exact (Does.fault entering ⟨rfl, rfl⟩ trivial).realizes stepped
      · next shallow =>
          rw [if_neg shallow] at entering
          split
          · next high =>
              rw [if_pos high] at entering
              exact (Does.fault entering ⟨rfl, rfl⟩ trivial).realizes stepped
          · next low =>
              rw [if_neg low] at entering
              have low := Nat.le_of_not_lt low
              have realized := follows (host.entered call store waiting callee body (position + 2))
                (inner_entered store callee body (position + 2)) rfl rfl _ _
                ⟨_, fits_entered fits count (Decidable.not_not.mp arity) roomy low, rfl⟩
              rw [floor_entered fits.slots count, depth_entered] at realized
              have reached := Machine.Reaches.single (stepped.trans (going_of_ok entering))
              rw [Nat.add_comm fuel 1]
              exact (Realizes.inCall fits.slots realized).after reached

end Host

end MonkeyLang
