import MonkeyLang.Machine.Step
import MonkeyLang.Proofs.Stateful

/-!
# The stack as a list

The stack of a machine is an array of a fixed size, of which the lowest slots are in use. Here
it is seen as two lists: the values in use, the topmost last, and the stale ones above them,
which are overwritten as the stack grows. In this view an operation changes the end of the first
list and the start of the second, and how much room is left is the length of the second.
-/

set_option autoImplicit false

namespace MonkeyLang

/-- A machine with these values in use and these stale ones above. -/
def Machine.withStack (machine : Machine) (values stale : List Value) : Machine :=
  { machine with stack := (values ++ stale).toArray, height := values.length }

namespace Machine

variable (machine : Machine) (values stale : List Value)

@[simp] theorem lastPopped_withStack_cons (value : Value) :
    (machine.withStack values (value :: stale)).lastPopped = value := by
  simp [withStack, lastPopped]

end Machine

namespace Operation

open Machine

variable {machine : Machine} {values stale : List Value}

theorem push_withStack_cons (value old : Value) :
    push value (machine.withStack values (old :: stale)) =
      .ok () (machine.withStack (values ++ [value]) stale) := by
  have room : (machine.withStack values (old :: stale)).height <
      (machine.withStack values (old :: stale)).stack.size := by
    simp [withStack]
  refine (dif_pos room).trans ?_
  simp [withStack]

theorem push_withStack_nil (value : Value) :
    push value (machine.withStack values []) =
      .error (.stackOverflow values.length) (machine.withStack values []) := by
  have full : ¬(machine.withStack values []).height < (machine.withStack values []).stack.size := by
    simp [withStack]
  refine (dif_neg full).trans ?_
  simp [withStack]

theorem pop_withStack_snoc (value : Value) :
    pop (machine.withStack (values ++ [value]) stale) =
      .ok value (machine.withStack values (value :: stale)) := by
  simp [pop, withStack]

theorem discard_pop_withStack (value : Value) :
    discard pop (machine.withStack (values ++ [value]) stale) =
      .ok () (machine.withStack values (value :: stale)) := by
  show (pop >>= fun _ => pure ()) _ = _
  rw [Stateful.bind_of_ok (pop_withStack_snoc value)]
  rfl

/-- A value that was popped leaves room for another one. -/
theorem pushResult_withStack_cons (result : Except Fault Value) (old : Value) :
    pushResult result (machine.withStack values (old :: stale)) =
      match result with
      | .ok value => .ok () (machine.withStack (values ++ [value]) stale)
      | .error fault => .error fault (machine.withStack values (old :: stale)) := by
  cases result with
  | ok value => exact push_withStack_cons value old
  | error fault => rfl

theorem combine_withStack (function : Value → Value → Except Fault Value) (left right : Value) :
    combine function (machine.withStack (values ++ [left, right]) stale) =
      match function left right with
      | .ok value => .ok () (machine.withStack (values ++ [value]) (right :: stale))
      | .error fault => .error fault (machine.withStack values (left :: right :: stale)) := by
  have first : pop (machine.withStack (values ++ [left, right]) stale) =
      .ok right (machine.withStack (values ++ [left]) (right :: stale)) := by
    rw [List.append_cons]
    exact pop_withStack_snoc right
  refine (Stateful.bind_of_ok first).trans ?_
  refine (Stateful.bind_of_ok (pop_withStack_snoc left)).trans ?_
  exact pushResult_withStack_cons (function left right) left

/-! ## The slots of a call -/

theorem localSlot_of_lt {index : Nat} (inside : index < machine.frame.locals) :
    localSlot index machine = .ok (machine.frame.base + index) machine :=
  if_pos inside

theorem pushLocal_withStack {index : Nat} {value : Value}
    (inside : index < machine.frame.locals)
    (found : values[machine.frame.base + index]? = some value) :
    pushLocal index (machine.withStack values stale) =
      push value (machine.withStack values stale) := by
  have slot : localSlot index (machine.withStack values stale) =
      .ok (machine.frame.base + index) (machine.withStack values stale) :=
    localSlot_of_lt inside
  have below := (List.getElem?_eq_some_iff.mp found).1
  have read : (machine.withStack values stale).stack.getD (machine.frame.base + index) .null =
      value := by
    simp [withStack, List.getElem?_append_left below, found]
  refine (Stateful.bind_of_ok slot).trans ?_
  refine (Stateful.get_bind _ _).trans ?_
  rw [read]

theorem popLocal_withStack {index : Nat} {value : Value} (inside : index < machine.frame.locals)
    (below : machine.frame.base + index < values.length) :
    popLocal index (machine.withStack (values ++ [value]) stale) =
      .ok () (machine.withStack (values.set (machine.frame.base + index) value)
        (value :: stale)) := by
  have slot : localSlot index (machine.withStack (values ++ [value]) stale) =
      .ok (machine.frame.base + index) (machine.withStack (values ++ [value]) stale) :=
    localSlot_of_lt inside
  refine (Stateful.bind_of_ok slot).trans ?_
  refine (Stateful.bind_of_ok (pop_withStack_snoc value)).trans ?_
  show EStateM.Result.ok () _ = _
  simp only [withStack, List.setIfInBounds_toArray, List.set_append_left _ _ below,
    List.length_set]

/-! ## Several values at once -/

theorem extract_withStack (items : List Value) (base : Nat) (start : base = values.length) :
    ((machine.withStack (values ++ items) stale).stack.extract base
      (values ++ items).length).toList = items := by
  subst start
  simp [withStack]

theorem collect_withStack (items : List Value) :
    collect items.length (machine.withStack (values ++ items) stale) =
      push (.array items) (machine.withStack values (items ++ stale)) := by
  refine (Stateful.get_bind _ _).trans ?_
  have high : ¬(machine.withStack (values ++ items) stale).height < items.length := by
    simp [withStack]
  have start : (machine.withStack (values ++ items) stale).height - items.length =
      values.length := by
    simp [withStack]
  have read : ((machine.withStack (values ++ items) stale).stack.extract values.length
      (machine.withStack (values ++ items) stale).height).toList = items :=
    extract_withStack items values.length rfl
  rw [if_neg high, start]
  dsimp only
  rw [read]
  refine (Stateful.modify_bind _ _ _).trans ?_
  simp only [withStack, List.append_assoc]

theorem callBuiltin_withStack (builtin : Builtin) (callee : Value) (arguments : List Value) :
    callBuiltin builtin values.length (machine.withStack (values ++ callee :: arguments) stale) =
      push (builtin.result arguments)
        (({ machine with output := machine.output ++ builtin.output arguments }).withStack values
          (callee :: arguments ++ stale)) := by
  have read : ((machine.withStack (values ++ callee :: arguments) stale).stack.extract
      (values.length + 1)
      (machine.withStack (values ++ callee :: arguments) stale).height).toList = arguments := by
    rw [List.append_cons]
    exact extract_withStack arguments (values.length + 1) (by simp)
  refine (Stateful.get_bind _ _).trans ?_
  rw [read]
  refine (Stateful.modify_bind _ _ _).trans ?_
  simp only [withStack, List.append_assoc]

/-- Slots above the values in use are filled with null one by one. -/
theorem fold_null (values : List Value) (count : Nat) (room : count ≤ stale.length) :
    count.fold (fun offset _ stack => stack.setIfInBounds (values.length + offset) Value.null)
        (values ++ stale).toArray =
      (values ++ List.replicate count Value.null ++ stale.drop count).toArray := by
  induction count with
  | zero => simp
  | succ count ih =>
      have next : stale.drop count = stale[count] :: stale.drop (count + 1) :=
        List.drop_eq_getElem_cons room
      have first : values.length + count -
          (values ++ List.replicate count Value.null).length = 0 := by simp
      rw [Nat.fold_succ, ih (Nat.le_of_succ_le room), next, List.setIfInBounds_toArray,
        List.set_append_right _ _ (by simp), first, List.set_cons_zero, List.replicate_succ']
      simp

theorem enter_of_ne {body : Function} {count : Nat} (arity : count ≠ body.parameters) :
    enter body count machine = .error (.wrongArity body.parameters count) machine :=
  if_pos arity

theorem enter_of_deep {body : Function} {count : Nat} (arity : count = body.parameters)
    (deep : machine.maxFrames ≤ machine.depth) :
    enter body count machine = .error (.frameOverflow machine.maxFrames) machine :=
  (if_neg (not_not_intro arity)).trans (if_pos deep)

theorem enter_of_high {body : Function} {count : Nat} (arity : count = body.parameters)
    (shallow : machine.depth < machine.maxFrames)
    (high : machine.stack.size < machine.height - count + body.locals) :
    enter body count machine = .error (.stackOverflow machine.stack.size) machine :=
  (if_neg (not_not_intro arity)).trans
    ((if_neg (Nat.not_le_of_lt shallow)).trans (if_pos high))

/-- A call of a function with enough room for its slots. -/
theorem enter_withStack {body : Function} {arguments : List Value}
    (arity : arguments.length = body.parameters) (roomy : body.parameters ≤ body.locals)
    (shallow : machine.depth < machine.maxFrames)
    (room : body.locals - body.parameters ≤ stale.length) :
    enter body arguments.length (machine.withStack (values ++ arguments) stale) =
      .ok () (({ machine with
          callers := machine.callers.push machine.frame
          frame := ⟨body.code, 0, values.length, body.locals⟩ }).withStack
        (values ++ (arguments ++ List.replicate (body.locals - body.parameters) Value.null))
        (stale.drop (body.locals - body.parameters))) := by
  have base : (machine.withStack (values ++ arguments) stale).height - arguments.length =
      values.length := by
    simp [withStack]
  have grown : values.length + body.locals -
      (machine.withStack (values ++ arguments) stale).height = body.locals - body.parameters := by
    simp [withStack, arity]
    omega
  have fits : ¬(machine.withStack (values ++ arguments) stale).stack.size <
      values.length + body.locals := by
    simp [withStack, arity]
    omega
  have deep : ¬(machine.withStack (values ++ arguments) stale).maxFrames ≤
      (machine.withStack (values ++ arguments) stale).depth := Nat.not_le_of_lt shallow
  unfold enter
  rw [if_neg (not_not_intro arity), if_neg deep, base]
  dsimp only
  rw [if_neg fits, grown]
  have filled := fold_null (values ++ arguments) _ room
  simp only [withStack]
  rw [filled]
  simp only [List.append_assoc, List.length_append, List.length_replicate, arity]
  rw [Nat.add_sub_cancel' roomy]

/-- What a call does depends on the value below the arguments. -/
theorem call_withStack (callee : Value) (arguments : List Value) :
    call arguments.length (machine.withStack (values ++ callee :: arguments) stale) =
      match callee with
      | .function body =>
        callFunction body arguments.length
          (machine.withStack (values ++ callee :: arguments) stale)
      | .builtin builtin =>
        going (callBuiltin builtin values.length)
          (machine.withStack (values ++ callee :: arguments) stale)
      | other =>
        .error (.notCallable other.kind)
          (machine.withStack (values ++ callee :: arguments) stale) := by
  have height : (machine.withStack (values ++ callee :: arguments) stale).height =
      values.length + (arguments.length + 1) := List.length_append
  have high : ¬(machine.withStack (values ++ callee :: arguments) stale).height <
      arguments.length + 1 := by
    rw [height]
    omega
  have slot : (machine.withStack (values ++ callee :: arguments) stale).height -
      (arguments.length + 1) = values.length := by
    rw [height, Nat.add_sub_cancel]
  have read : (machine.withStack (values ++ callee :: arguments) stale).stack.getD
      values.length .null = callee := by
    simp [withStack]
  cases callee <;> simp only [call, if_neg high, slot, read]

/-- Leaving a function with a caller: the value takes the place of what was called. -/
theorem leave_withStack {callers : Array Frame} {caller : Frame} {below inner : List Value}
    {callee : Value} (called : machine.callers = callers.push caller)
    (base : machine.frame.base = below.length + 1) (value : Value) :
    leave value (machine.withStack (below ++ callee :: inner) stale) =
      .ok .goesOn (({ machine with frame := caller, callers := callers }).withStack
        (below ++ [value]) (inner ++ stale)) := by
  have last : (machine.withStack (below ++ callee :: inner) stale).callers.back? = some caller := by
    simp [withStack, called]
  have lowered : ({ machine.withStack (below ++ callee :: inner) stale with
      height := (machine.withStack (below ++ callee :: inner) stale).frame.base - 1
      frame := caller
      callers := (machine.withStack (below ++ callee :: inner) stale).callers.pop } : Machine) =
      ({ machine with frame := caller, callers := callers }).withStack below
        (callee :: (inner ++ stale)) := by
    simp [withStack, called, base]
  refine (Stateful.get_bind _ _).trans ?_
  rw [last]
  dsimp only
  refine (Stateful.modify_bind _ _ _).trans ?_
  rw [lowered]
  exact Stateful.bind_of_ok (push_withStack_cons value callee)

end Operation

end MonkeyLang
