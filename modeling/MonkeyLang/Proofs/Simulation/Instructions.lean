import MonkeyLang.Proofs.Simulation.Rules

/-!
# The instructions one by one

For every instruction there is a rule that says which part of an evaluation it stands for. The
machine is at the offset of the instruction, and the values that it takes are those that wait.
-/

set_option autoImplicit false

namespace MonkeyLang

namespace Operation

theorem going_of_ok {operation : Operation Unit} {machine next : Machine}
    (ran : operation machine = .ok () next) : going operation machine = .ok .goesOn next :=
  Stateful.bind_of_ok ran

theorem going_of_error {operation : Operation Unit} {machine next : Machine} {fault : Fault}
    (ran : operation machine = .error fault next) :
    going operation machine = .error fault next :=
  Stateful.bind_of_error ran

theorem going_congr {first second : Operation Unit} {machine other : Machine}
    (same : first machine = second other) : going first machine = going second other := by
  cases ran : second other with
  | ok result next => rw [going_of_ok ran, going_of_ok (same.trans ran)]
  | error fault next => rw [going_of_error ran, going_of_error (same.trans ran)]

theorem pushGlobal_of_some {machine : Machine} {index : Nat} {value : Value}
    (found : machine.globals[index]? = some value) :
    pushGlobal index machine = push value machine := by
  simp only [pushGlobal, found]

theorem pushGlobal_of_none {machine : Machine} {index : Nat}
    (missing : machine.globals[index]? = none) :
    pushGlobal index machine = .error (.globalOutOfRange index machine.globals.size) machine := by
  simp only [pushGlobal, missing]

end Operation

/-! ## The faults of operators -/

namespace Value

variable {limits : Limits}

theorem expected_of_arithmetic {operator : Opcode} {left right : Value} {fault : Fault}
    (failed : left.arithmetic operator right = .error fault) : fault.Expected limits := by
  unfold arithmetic at failed
  split at failed <;> (try split at failed) <;> (try split at failed) <;> cases failed <;> trivial

theorem expected_of_compare {operator : Opcode} {left right : Value} {fault : Fault}
    (failed : left.compare operator right = .error fault) : fault.Expected limits := by
  unfold compare at failed
  split at failed <;> (try split at failed) <;> cases failed
  · unfold unordered
    split <;> trivial
  · trivial

theorem expected_of_indexed {target index : Value} {fault : Fault}
    (failed : target.indexed index = .error fault) : fault.Expected limits := by
  unfold indexed at failed
  split at failed <;> cases failed
  trivial

theorem expected_of_negated {operand : Value} {fault : Fault}
    (failed : operand.negated = .error fault) : fault.Expected limits := by
  cases operand <;> cases failed <;> trivial

end Value

namespace Host

open Operation Evaluating

variable {α : Type} {host : Host} {call : Activation} {bound held position : Nat}
  {waiting : List Value} {arrives : α → Assertion}

/-- An instruction comes to the same as a part of an evaluation. -/
def Does (host : Host) (arrives : α → Assertion) :
    EStateM.Result Exit Store α → EStateM.Result Fault Machine Progress → Prop
  | .ok result store, .ok .goesOn machine => arrives result store machine
  | .error (.fault fault) store, .error other machine =>
    other = fault ∧ host.Shows store machine ∧ fault.Expected host.limits
  | _, _ => False

theorem Does.realizes {result : EStateM.Result Exit Store α} {machine : Machine}
    {executed : EStateM.Result Fault Machine Progress} (does : host.Does arrives result executed)
    (stepped : step machine = executed) : host.Realizes call bound machine arrives result := by
  unfold Does at does
  split at does
  · next value store last => exact ⟨1, last, .single stepped, does⟩
  · next fault store other last =>
      obtain ⟨rfl, shows, expected⟩ := does
      exact ⟨0, last, ⟨machine, .refl machine, stepped⟩, shows, expected⟩
  · exact does.elim

theorem Does.of_eq {result other : EStateM.Result Exit Store α}
    {executed : EStateM.Result Fault Machine Progress} (same : result = other)
    (does : host.Does arrives other executed) : host.Does arrives result executed :=
  same ▸ does

/-- An operation that succeeds. -/
theorem Does.ok {operation : Operation Unit} {machine next : Machine} {result : α} {store : Store}
    (ran : operation machine = .ok () next) (arrived : arrives result store next) :
    host.Does arrives (.ok result store) (going operation machine) := by
  rw [going_of_ok ran]
  exact arrived

/-- An operation that is stopped by the fault of the evaluation. -/
theorem Does.fault {operation : Operation Unit} {machine next : Machine} {fault : Fault}
    {store : Store} (ran : operation machine = .error fault next)
    (shows : host.Shows store next) (expected : fault.Expected host.limits) :
    host.Does arrives (.error (.fault fault) store) (going operation machine) := by
  rw [going_of_error ran]
  exact ⟨rfl, shows, expected⟩

theorem Simulates.instruction {instruction : Instruction} {work : Evaluating α}
    (holds : call.code.Holds position instruction)
    (does : ∀ store stale, host.Fits call store waiting stale →
      host.Does arrives (work ⟨host.limits.capacity, held, call.depth⟩ store)
        (execute instruction.opcode instruction.operand
          (host.machine call store waiting stale (position + instruction.size)))) :
    host.Simulates call bound held (host.At call position waiting) work arrives := by
  rintro store machine ⟨stale, fits, rfl⟩
  have done := does store stale fits
  have stepped := step_machine host call store holds waiting stale
  generalize work ⟨host.limits.capacity, held, call.depth⟩ store = result at done
  generalize execute instruction.opcode instruction.operand
    (host.machine call store waiting stale (position + instruction.size)) = executed
    at done stepped
  exact done.realizes stepped

theorem silently_instruction {instruction : Instruction} {after : Assertion}
    (holds : call.code.Holds position instruction)
    (executes : ∀ store stale, host.Fits call store waiting stale → ∃ next,
      execute instruction.opcode instruction.operand
        (host.machine call store waiting stale (position + instruction.size)) =
          .ok .goesOn next ∧ after store next) :
    Silently (host.At call position waiting) after := by
  rintro store machine ⟨stale, fits, rfl⟩
  rw [step_machine host call store holds waiting stale]
  exact executes store stale fits

/-! ## Pushing -/

theorem yield_apply (value : Value) (limits : Limits) (held depth : Nat) (store : Store) :
    yield value ⟨limits.capacity, held, depth⟩ store =
      if held + 1 ≤ limits.stackSize then .ok value store
      else .error (.fault (.stackOverflow limits.stackSize)) store := by
  have required : Evaluating.require (·.stack) (held + 1) .stackOverflow
      ⟨limits.capacity, held, depth⟩ store =
        if held + 1 ≤ limits.stackSize then .ok () store
        else .error (.fault (.stackOverflow limits.stackSize)) store := rfl
  split
  · next enough =>
      rw [if_pos enough] at required
      exact Stateful.bind_of_ok required
  · next few =>
      rw [if_neg few] at required
      exact Stateful.bind_of_error required

/-- A value goes to the top of the stack if there is room. -/
theorem does_push {store : Store} {stale : List Value} (next : Nat) (value : Value)
    (fits : host.Fits call store waiting stale) (count : held = call.floor + waiting.length) :
    host.Does (fun result => host.At call next (waiting ++ [result]))
      (yield value ⟨host.limits.capacity, held, call.depth⟩ store)
      (going (push (host.link value)) (host.machine call store waiting stale next)) := by
  rw [yield_apply]
  have size := fits.size
  cases stale with
  | nil =>
      have full : ¬held + 1 ≤ host.limits.stackSize := by simp at size; omega
      have pushed : push (host.link value) (host.machine call store waiting [] next) = _ :=
        push_withStack_nil (host.link value)
      rw [if_neg full, going_of_error pushed, length_values fits]
      refine ⟨?_, host.shows_machine call store waiting [] next, trivial⟩
      simp at size
      rw [size]
  | cons old stale =>
      have room : held + 1 ≤ host.limits.stackSize := by simp at size; omega
      have pushed : push (host.link value) (host.machine call store waiting (old :: stale) next) =
          _ := push_withStack_cons (host.link value) old
      rw [if_pos room, going_of_ok pushed]
      refine ⟨stale, fits.move (by simp; omega), ?_⟩
      rw [Host.machine, values_snoc]

/-- A value that was read goes to the top of the stack. -/
theorem does_read {store : Store} {stale : List Value} (next : Nat) {value : Value}
    {work : Evaluating Value} (fits : host.Fits call store waiting stale)
    (count : held = call.floor + waiting.length)
    (read : work ⟨host.limits.capacity, held, call.depth⟩ store = .ok value store) :
    host.Does (fun result => host.At call next (waiting ++ [result]))
      ((do yield (← work) : Evaluating Value) ⟨host.limits.capacity, held, call.depth⟩ store)
      (going (push (host.link value)) (host.machine call store waiting stale next)) := by
  have bound : (do yield (← work) : Evaluating Value) ⟨host.limits.capacity, held, call.depth⟩
      store = yield value ⟨host.limits.capacity, held, call.depth⟩ store := Stateful.bind_of_ok read
  rw [bound]
  exact does_push _ value fits count

theorem Simulates.push {value : Value} {instruction : Instruction}
    (holds : call.code.Holds position instruction) (count : held = call.floor + waiting.length)
    (pushes : ∀ machine : Machine, machine.constants = host.constants →
      execute instruction.opcode instruction.operand machine =
        going (Operation.push (host.link value)) machine) :
    host.Simulates call bound held (host.At call position waiting) (yield value) fun result =>
      host.At call (position + instruction.size) (waiting ++ [result]) := by
  refine Simulates.instruction holds fun store stale fits => ?_
  rw [pushes _ rfl]
  exact does_push _ value fits count

theorem size_globals (store : Store) : (host.globals store).size = host.limits.globalsSize :=
  Array.size_ofFn

theorem getElem?_globals (store : Store) (index : Nat) :
    (host.globals store)[index]? =
      if index < host.limits.globalsSize then some (host.link (store.globals index)) else none := by
  simp only [globals, Array.getElem?_ofFn]
  split <;> rfl

/-- The check in front of every use of a global slot. -/
theorem require_global (index : Nat) (limits : Limits) (held depth : Nat) (store : Store) :
    Evaluating.require (·.globals) (index + 1) (.globalOutOfRange index)
        ⟨limits.capacity, held, depth⟩ store =
      if index < limits.globalsSize then .ok () store
      else .error (.fault (.globalOutOfRange index limits.globalsSize)) store := rfl

theorem valueIn_global (name : String) (index : Nat) (limits : Limits) (held depth : Nat)
    (store : Store) :
    valueIn (some ⟨name, .global, index⟩) ⟨limits.capacity, held, depth⟩ store =
      if index < limits.globalsSize then .ok (store.globals index) store
      else .error (.fault (.globalOutOfRange index limits.globalsSize)) store := by
  have required := require_global index limits held depth store
  split
  · next inside =>
      rw [if_pos inside] at required
      exact Stateful.bind_of_ok required
  · next outside =>
      rw [if_neg outside] at required
      exact Stateful.bind_of_error required

theorem pushLocal_machine {store : Store} {index : Nat} {value : Value}
    (inside : index < call.slots) (found : store.locals[index]? = some value)
    (stale : List Value) (next : Nat) :
    pushLocal index (host.machine call store waiting stale next) =
      Operation.push (host.link value) (host.machine call store waiting stale next) :=
  pushLocal_withStack inside (getElem?_values host call store waiting found)

/-- A symbol has a slot in the code of a call. -/
def InReach (call : Activation) (symbol : Symbol) : Prop :=
  match symbol.storage with
  | .global => True
  | .frame => symbol.index < call.slots ∧ symbol.index < Limit.locals.bound
  | .builtin => symbol.index < Builtin.all.length

/-- The value that a name stands for. -/
theorem Simulates.load {symbol : Symbol}
    (holds : call.code.Holds position (Compiling.load symbol)) (inReach : InReach call symbol)
    (count : held = call.floor + waiting.length) :
    host.Simulates call bound held (host.At call position waiting)
      (do yield (← valueIn (some symbol.reached))) fun result =>
      host.At call (position + (Compiling.load symbol).size) (waiting ++ [result]) := by
  refine Simulates.instruction holds fun store stale fits => ?_
  obtain ⟨name, storage, index⟩ := symbol
  cases storage with
  | global =>
      have read := valueIn_global name (index % Limit.globals.bound) host.limits held call.depth store
      have found := host.getElem?_globals store (index % Limit.globals.bound)
      by_cases inside : index % Limit.globals.bound < host.limits.globalsSize
      · rw [if_pos inside] at read found
        have done := does_read (position + 3) fits count read
        rwa [← going_congr (pushGlobal_of_some found)] at done
      · rw [if_neg inside] at read found
        have failed : (do yield (← valueIn (some ⟨name, .global, index % Limit.globals.bound⟩)) :
            Evaluating Value) ⟨host.limits.capacity, held, call.depth⟩ store = _ :=
          Stateful.bind_of_error read
        have size : (host.machine call store waiting stale (position + 3)).globals.size =
            host.limits.globalsSize := size_globals store
        have missed : pushGlobal (index % Limit.globals.bound)
            (host.machine call store waiting stale (position + 3)) = _ := pushGlobal_of_none found
        rw [size] at missed
        have beyond := Nat.le_of_not_lt inside
        exact Does.of_eq failed (Does.fault missed (shows_machine ..)
          (Nat.lt_of_le_of_lt beyond (Nat.mod_lt _ (by decide))))
  | frame =>
      obtain ⟨inside, small⟩ := inReach
      have operand : (Compiling.load ⟨name, .frame, index⟩).operand = index :=
        Instruction.operand_of_lt small
      have below : index < store.locals.length := by rw [fits.slots]; exact inside
      have read : valueIn (some (Symbol.reached ⟨name, .frame, index⟩))
          ⟨host.limits.capacity, held, call.depth⟩ store = .ok store.locals[index] store := by
        show EStateM.Result.ok (store.locals.getD index .null) store = _
        rw [List.getD_eq_getElem?_getD, List.getElem?_eq_getElem below, Option.getD_some]
      have done := does_read (position + 2) fits count read
      rw [operand]
      rwa [← going_congr (pushLocal_machine inside (List.getElem?_eq_getElem below) stale _)]
        at done
  | builtin =>
      have operand : (Compiling.load ⟨name, .builtin, index⟩).operand = index :=
        Instruction.operand_of_lt (Nat.lt_trans inReach (by decide))
      obtain ⟨callee, found⟩ : ∃ callee, Builtin.ofIndex? index = some callee :=
        ⟨_, List.getElem?_eq_getElem inReach⟩
      have read : valueIn (some (Symbol.reached ⟨name, .builtin, index⟩))
          ⟨host.limits.capacity, held, call.depth⟩ store = .ok (.builtin callee) store := by
        show EStateM.Result.ok (((Builtin.ofIndex? index).map Value.builtin).getD .null) store = _
        rw [found]
        rfl
      have done := does_read (position + 2) fits count read
      have pushes : pushBuiltin index (host.machine call store waiting stale (position + 2)) =
          Operation.push (host.link (.builtin callee))
            (host.machine call store waiting stale (position + 2)) := by
        simp only [pushBuiltin, found]
        rfl
      rw [operand]
      rwa [← going_congr pushes] at done

/-- The value on top of the stack is taken. -/
theorem pop_machine (store : Store) (value : Value) (stale : List Value) (next : Nat) :
    Operation.pop (host.machine call store (waiting ++ [value]) stale next) =
      .ok (host.link value) (host.machine call store waiting (host.link value :: stale) next) :=
  (congrArg _ (machine_append host call store waiting [value] stale next)).trans
    (pop_withStack_snoc (host.link value))

/-- The value that was popped is replaced by another one. -/
theorem push_machine (store : Store) (value : Value) (old : Value) (stale : List Value)
    (next : Nat) :
    Operation.push (host.link value) (host.machine call store waiting (old :: stale) next) =
      .ok () (host.machine call store (waiting ++ [value]) stale next) :=
  (push_withStack_cons (host.link value) old).trans
    (congrArg _ (machine_append host call store waiting [value] stale next).symm)

theorem link_array (items : List Value) : host.link (.array items) = .array (items.map host.link) :=
  congrArg Value.array (Value.mapItems_eq_map _ items)

/-- An array of the values that wait. -/
theorem Simulates.collect {items : List Value}
    (holds : call.code.Holds position ⟨.array, [items.length]⟩)
    (small : items.length ≤ Limit.arrayElements.bound)
    (count : held = call.floor + waiting.length) :
    host.Simulates call bound held (host.At call position (waiting ++ items))
      (yield (.array items)) fun result => host.At call (position + 3) (waiting ++ [result]) := by
  refine Simulates.instruction holds fun store stale fits => ?_
  have operand : (⟨.array, [items.length]⟩ : Instruction).operand = items.length :=
    Instruction.operand_of_lt (Nat.lt_succ_of_le small)
  have collected : Operation.collect (items.map host.link).length
      (host.machine call store (waiting ++ items) stale (position + 3)) =
        Operation.push (host.link (.array items))
          (host.machine call store waiting (items.map host.link ++ stale) (position + 3)) := by
    rw [machine_append, link_array]
    exact collect_withStack (items.map host.link)
  have moved : host.Fits call store waiting (items.map host.link ++ stale) :=
    fits.move (by simp; omega)
  have done := does_push (position + 3) (.array items) moved count
  rw [List.length_map] at collected
  rw [operand]
  rwa [← going_congr collected] at done

/-! ## Storing -/

theorem set_globals (store : Store) {index : Nat} (value : Value)
    (inside : index < (host.globals store).size) :
    (host.globals store).set index (host.link value) inside =
      host.globals { store with globals := Function.update store.globals index value } := by
  apply Array.ext
  · rw [Array.size_set, size_globals, size_globals]
  · intro slot before after
    simp only [Array.getElem_set, globals, Array.getElem_ofFn]
    split
    · next same => rw [← same, Function.update_self]
    · next other => rw [Function.update_of_ne (Ne.symm other)]

/-- The slot of a symbol holds a value. -/
def Keeps (host : Host) (symbol : Symbol) (value : Value) (store : Store) : Prop :=
  match symbol.storage with
  | .global => symbol.reached.index < host.limits.globalsSize ∧
      store.globals symbol.reached.index = value
  | .frame => store.locals[symbol.index]? = some value
  | .builtin => False

/-- The machine has popped a value into the slot of a symbol. -/
def Stored (host : Host) (call : Activation) (position : Nat) (waiting : List Value)
    (symbol : Symbol) (value : Value) : Assertion :=
  fun store machine => host.Keeps symbol value store ∧ ∃ old stale,
    host.Fits call store waiting (old :: stale) ∧
      machine = host.machine call store waiting (old :: stale) position

theorem Stored.at {symbol : Symbol} {value : Value} {store : Store} {machine : Machine}
    (stored : host.Stored call position waiting symbol value store machine) :
    host.At call position waiting store machine := by
  obtain ⟨_, old, stale, fits, rfl⟩ := stored
  exact ⟨old :: stale, fits, rfl⟩

theorem assign_global (name : String) (index : Nat) (value : Value) (limits : Limits)
    (held depth : Nat) (store : Store) :
    assign (some ⟨name, .global, index⟩) value ⟨limits.capacity, held, depth⟩ store =
      if index < limits.globalsSize then
        .ok () { store with globals := Function.update store.globals index value }
      else .error (.fault (.globalOutOfRange index limits.globalsSize)) store := by
  have required := require_global index limits held depth store
  split
  · next inside =>
      rw [if_pos inside] at required
      exact Stateful.bind_of_ok required
  · next outside =>
      rw [if_neg outside] at required
      exact Stateful.bind_of_error required

theorem popLocal_machine {store : Store} {index : Nat} (inside : index < call.slots)
    (below : index < store.locals.length) (value : Value) (stale : List Value) (next : Nat) :
    popLocal index (host.machine call store (waiting ++ [value]) stale next) =
      .ok () (host.machine call { store with locals := store.locals.set index value } waiting
        (host.link value :: stale) next) := by
  have slot : call.under.length + index < (host.values call store waiting).length := by
    simp [values]
    omega
  rw [machine_append, machine, ← set_values host call store below]
  exact popLocal_withStack inside slot

theorem popGlobal_machine_of_lt {index : Nat} (inside : index < host.limits.globalsSize)
    (store : Store) (value : Value) (stale : List Value) (next : Nat) :
    popGlobal index (host.machine call store (waiting ++ [value]) stale next) =
      .ok () (host.machine call
        { store with globals := Function.update store.globals index value } waiting
        (host.link value :: stale) next) := by
  have within : index < (host.globals store).size := by rw [size_globals]; exact inside
  refine (Stateful.bind_of_ok (pop_machine store value stale next)).trans ?_
  refine (dif_pos within).trans ?_
  have set := set_globals store value within
  simp only [machine, Machine.withStack, bare, set, values]

theorem popGlobal_machine_of_le {index : Nat} (outside : host.limits.globalsSize ≤ index)
    (store : Store) (value : Value) (stale : List Value) (next : Nat) :
    popGlobal index (host.machine call store (waiting ++ [value]) stale next) =
      .error (.globalOutOfRange index host.limits.globalsSize)
        (host.machine call store waiting (host.link value :: stale) next) := by
  have beyond : ¬index < (host.globals store).size := by rw [size_globals]; omega
  refine (Stateful.bind_of_ok (pop_machine store value stale next)).trans ?_
  refine (dif_neg beyond).trans ?_
  exact congrArg (fun size => EStateM.Result.error (Fault.globalOutOfRange index size) _)
    (size_globals store)

/-- The value that waits goes to the slot of a symbol. -/
theorem Simulates.store {symbol : Symbol} {value : Value} {instruction : Instruction}
    (holds : call.code.Holds position instruction) (inReach : InReach call symbol)
    (stores : symbol.storage = .global ∧ instruction = ⟨.setGlobal, [symbol.index]⟩ ∨
      symbol.storage = .frame ∧ instruction = ⟨.setLocal, [symbol.index]⟩) :
    host.Simulates call bound held (host.At call position (waiting ++ [value]))
      (assign (some symbol.reached) value) fun _ =>
      host.Stored call (position + instruction.size) waiting symbol value := by
  refine Simulates.instruction holds fun store stale fits => ?_
  obtain ⟨name, storage, index⟩ := symbol
  rcases stores with ⟨rfl, rfl⟩ | ⟨rfl, rfl⟩
  · have assigned := assign_global name (index % Limit.globals.bound) value host.limits held
      call.depth store
    by_cases inside : index % Limit.globals.bound < host.limits.globalsSize
    · rw [if_pos inside] at assigned
      exact Does.of_eq assigned (Does.ok
        (popGlobal_machine_of_lt inside store value stale (position + 3))
        ⟨⟨inside, Function.update_self ..⟩, _, stale,
          (fits.move (by simp; omega)).withStore rfl, rfl⟩)
    · rw [if_neg inside] at assigned
      have beyond := Nat.le_of_not_lt inside
      exact Does.of_eq assigned (Does.fault
        (popGlobal_machine_of_le beyond store value stale (position + 3)) (shows_machine ..)
        (Nat.lt_of_le_of_lt beyond (Nat.mod_lt _ (by decide))))
  · obtain ⟨inside, small⟩ := inReach
    have operand : (⟨.setLocal, [index]⟩ : Instruction).operand = index :=
      Instruction.operand_of_lt small
    have below : index < store.locals.length := by rw [fits.slots]; exact inside
    rw [operand]
    refine Does.ok (popLocal_machine inside below value stale (position + 2)) ⟨?_, _, stale, ?_, rfl⟩
    · exact List.getElem?_set_self below
    · exact (fits.move (by simp; omega)).withStore List.length_set

/-- What has just been stored is there again. -/
theorem Stored.silently_load {symbol : Symbol} {value : Value}
    (holds : call.code.Holds position (Compiling.load symbol)) (inReach : InReach call symbol) :
    Silently (host.Stored call position waiting symbol value)
      (host.At call (position + (Compiling.load symbol).size) (waiting ++ [value])) := by
  rintro store machine ⟨keeps, old, stale, fits, rfl⟩
  rw [step_machine host call store holds waiting (old :: stale)]
  refine ⟨host.machine call store (waiting ++ [value]) stale _, ?_, stale,
    fits.move (by simp; omega), rfl⟩
  obtain ⟨name, storage, index⟩ := symbol
  cases storage with
  | global =>
      obtain ⟨inside, rfl⟩ := keeps
      have found := (host.getElem?_globals store (index % Limit.globals.bound)).trans
        (if_pos inside)
      exact going_of_ok ((pushGlobal_of_some found).trans (push_machine ..))
  | frame =>
      obtain ⟨inside, small⟩ := inReach
      have operand : (Compiling.load ⟨name, .frame, index⟩).operand = index :=
        Instruction.operand_of_lt small
      rw [operand]
      exact going_of_ok ((pushLocal_machine inside keeps _ _).trans (push_machine ..))
  | builtin => exact keeps.elim

/-! ## Operators -/

theorem Simulates.combine {function : Value → Value → Except Fault Value} {left right : Value}
    {instruction : Instruction} (holds : call.code.Holds position instruction)
    (executes : execute instruction.opcode instruction.operand = going (Operation.combine function))
    (natural : function (host.link left) (host.link right) = (function left right).map host.link)
    (expected : ∀ fault, function left right = .error fault → fault.Expected host.limits) :
    host.Simulates call bound held (host.At call position (waiting ++ [left, right]))
      (ofResult (function left right)) fun result =>
      host.At call (position + instruction.size) (waiting ++ [result]) := by
  refine Simulates.instruction holds fun store stale fits => ?_
  have combined : Operation.combine function (host.machine call store (waiting ++ [left, right])
      stale (position + instruction.size)) = _ :=
    (congrArg _ (machine_append host call store waiting [left, right] stale _)).trans
      (combine_withStack function (host.link left) (host.link right))
  rw [executes]
  rw [natural] at combined
  cases computed : function left right with
  | ok value =>
      rw [computed] at combined
      refine Does.ok combined ⟨host.link right :: stale, fits.move (by simp; omega), ?_⟩
      rw [machine, values_snoc]
  | error fault =>
      rw [computed] at combined
      exact Does.fault combined ⟨rfl, rfl⟩ (expected fault computed)

theorem Simulates.negate {operand : Value} (holds : call.code.Holds position ⟨.negate, []⟩) :
    host.Simulates call bound held (host.At call position (waiting ++ [operand]))
      (ofResult operand.negated) fun result => host.At call (position + 1) (waiting ++ [result]) := by
  refine Simulates.instruction holds fun store stale fits => ?_
  have natural : (host.link operand).negated = operand.negated.map host.link :=
    Value.negated_mapFunctions operand
  have popped : (do pushResult (← Operation.pop).negated : Operation Unit)
      (host.machine call store (waiting ++ [operand]) stale (position + 1)) =
        pushResult (operand.negated.map host.link)
          (host.machine call store waiting (host.link operand :: stale) (position + 1)) := by
    rw [Stateful.bind_of_ok (pop_machine store operand stale _), natural]
  cases computed : operand.negated with
  | ok value =>
      rw [computed] at popped
      exact Does.ok (popped.trans (push_machine store value (host.link operand) stale _))
        ⟨stale, fits.move (by simp), rfl⟩
  | error fault =>
      rw [computed] at popped
      exact Does.fault popped (shows_machine ..) (Value.expected_of_negated computed)

theorem silently_not {operand : Value} (holds : call.code.Holds position ⟨.not, []⟩) :
    Silently (host.At call position (waiting ++ [operand]))
      (host.At call (position + 1) (waiting ++ [operand.inverted])) := by
  refine silently_instruction holds fun store stale fits => ?_
  have popped : (do push (.boolean !(← Operation.pop).isTruthy) : Operation Unit)
      (host.machine call store (waiting ++ [operand]) stale (position + 1)) =
        Operation.push (.boolean !(host.link operand).isTruthy)
          (host.machine call store waiting (host.link operand :: stale) (position + 1)) :=
    Stateful.bind_of_ok (pop_machine store operand stale _)
  have truth : (host.link operand).isTruthy = operand.isTruthy :=
    Value.isTruthy_mapFunctions operand
  rw [truth] at popped
  exact ⟨_, going_of_ok (popped.trans (push_machine store operand.inverted _ stale _)), stale,
    fits.move (by simp), rfl⟩

theorem Simulates.unary (operator : UnaryOperator) {operand : Value}
    (holds : call.code.Holds position ⟨operator.opcode, []⟩) :
    host.Simulates call bound held (host.At call position (waiting ++ [operand]))
      (ofResult (operator.apply operand)) fun result =>
      host.At call (position + 1) (waiting ++ [result]) := by
  cases operator with
  | negate => exact negate holds
  | not => exact silent (silently_not holds)

/-- The opcodes that combine two values, with what they yield. -/
inductive Combines : Opcode → (Value → Value → Except Fault Value) → Prop where
  | add : Combines .add (Value.arithmetic .add)
  | sub : Combines .sub (Value.arithmetic .sub)
  | mul : Combines .mul (Value.arithmetic .mul)
  | div : Combines .div (Value.arithmetic .div)
  | equal : Combines .equal (Value.compare .equal)
  | notEqual : Combines .notEqual (Value.compare .notEqual)
  | greater : Combines .greater (Value.compare .greater)
  | index : Combines .index Value.indexed

theorem Combines.natural {operator : Opcode} {function : Value → Value → Except Fault Value}
    (combines : Combines operator function) (left right : Value) :
    function (host.link left) (host.link right) = (function left right).map host.link := by
  have unnoticed := Function.unnoticed_relinked host.constants
  cases combines with
  | add | sub | mul | div => exact Value.arithmetic_mapFunctions _ left right
  | equal | notEqual | greater => exact Value.compare_mapFunctions unnoticed _ left right
  | index => exact Value.indexed_mapFunctions left right

theorem Combines.expected {operator : Opcode} {function : Value → Value → Except Fault Value}
    (combines : Combines operator function) {left right : Value} {fault : Fault}
    (failed : function left right = .error fault) : fault.Expected host.limits := by
  cases combines with
  | add | sub | mul | div => exact Value.expected_of_arithmetic failed
  | equal | notEqual | greater => exact Value.expected_of_compare failed
  | index => exact Value.expected_of_indexed failed

theorem Simulates.combining {operator : Opcode} {function : Value → Value → Except Fault Value}
    (combines : Combines operator function) {left right : Value}
    (holds : call.code.Holds position ⟨operator, []⟩) :
    host.Simulates call bound held (host.At call position (waiting ++ [left, right]))
      (ofResult (function left right)) fun result =>
      host.At call (position + 1) (waiting ++ [result]) := by
  have natural : function (host.link left) (host.link right) =
      (function left right).map host.link := combines.natural left right
  have combined : host.Simulates call bound held (host.At call position (waiting ++ [left, right]))
      (ofResult (function left right)) fun result =>
      host.At call (position + (⟨operator, []⟩ : Instruction).size) (waiting ++ [result]) :=
    combine holds (by cases combines <;> rfl) natural fun _ => combines.expected
  cases combines <;> exact combined

theorem ofResult_map (change : Value → Value) (result : Except Fault Value) :
    ofResult (result.map change) = ofResult result >>= fun value => Pure.pure (change value) := by
  cases result with
  | ok value => rfl
  | error fault => rfl

/-- An operator between its operands, which wait in the order in which they were evaluated. -/
theorem Simulates.binary (operator : BinaryOperator) {left right : Value} {start : Nat}
    {before : Fragment} (stands : (before.emitAll operator.opcodes).StandsAt call.code start) :
    host.Simulates call bound held
      (host.At call (start + before.size)
        (waiting ++ if operator.isSwapped then [right, left] else [left, right]))
      (ofResult (operator.apply left right)) fun result =>
      host.At call (start + (before.emitAll operator.opcodes).size) (waiting ++ [result]) := by
  have one : ∀ {opcode function first second}, Combines opcode function →
      call.code.Holds (start + before.size) ⟨opcode, []⟩ →
      host.Simulates call bound held
        (host.At call (start + before.size) (waiting ++ [first, second]))
        (ofResult (function first second)) fun result =>
        host.At call (start + before.size + 1) (waiting ++ [result]) :=
    fun combines holds => combining combines holds
  have two : ∀ {first second},
      call.code.Holds (start + before.size) ⟨.greater, []⟩ →
      call.code.Holds (start + before.size + 1) ⟨.not, []⟩ →
      host.Simulates call bound held
        (host.At call (start + before.size) (waiting ++ [first, second]))
        (ofResult ((Value.compare .greater first second).map Value.inverted)) fun result =>
        host.At call (start + before.size + 2) (waiting ++ [result]) := by
    intro first second greater not
    rw [ofResult_map]
    exact (one .greater greater).bind fun value => silent (silently_not not)
  cases operator <;> simp only [BinaryOperator.opcodes, Fragment.emitAll_cons, Fragment.emitAll_nil,
    Fragment.standsAt_push] at stands
  case add => exact one .add stands.2
  case sub => exact one .sub stands.2
  case mul => exact one .mul stands.2
  case div => exact one .div stands.2
  case equal => exact one .equal stands.2
  case notEqual => exact one .notEqual stands.2
  case less => exact one .greater stands.2
  case greater => exact one .greater stands.2
  case lessEqual => exact two stands.1.2 stands.2
  case greaterEqual => exact two stands.1.2 stands.2

/-! ## Popping and jumping -/

theorem silently_pop {value : Value} (holds : call.code.Holds position ⟨.pop, []⟩) :
    Silently (host.At call position (waiting ++ [value]))
      (host.Behind call (position + 1) waiting (some value)) := by
  refine silently_instruction holds fun store stale fits => ?_
  have popped : discard Operation.pop
      (host.machine call store (waiting ++ [value]) stale (position + 1)) =
        .ok () (host.machine call store waiting (host.link value :: stale) (position + 1)) :=
    Stateful.bind_of_ok (pop_machine store value stale _)
  refine ⟨_, going_of_ok popped, ⟨_, fits.move (by simp; omega), rfl⟩, ?_⟩
  rintro _ ⟨⟩
  exact Machine.lastPopped_withStack_cons _ _ _ _

theorem silently_jump {target : Nat} (holds : call.code.Holds position ⟨.jump, [target]⟩)
    (small : target ≤ Limit.instructionBytes.bound) :
    Silently (host.At call position waiting) (host.At call target waiting) := by
  refine silently_instruction holds fun store stale fits => ?_
  have operand : (⟨.jump, [target]⟩ : Instruction).operand = target :=
    Instruction.operand_of_lt (Nat.lt_succ_of_le small)
  rw [operand]
  exact ⟨_, rfl, stale, fits, rfl⟩

/-- A jump is taken if the condition does not hold. -/
theorem silently_jumpNotTruthy {target : Nat} {condition : Value}
    (holds : call.code.Holds position ⟨.jumpNotTruthy, [target]⟩)
    (small : target ≤ Limit.instructionBytes.bound) :
    Silently (host.At call position (waiting ++ [condition]))
      (host.At call (if condition.isTruthy then position + 3 else target) waiting) := by
  refine silently_instruction holds fun store stale fits => ?_
  have operand : (⟨.jumpNotTruthy, [target]⟩ : Instruction).operand = target :=
    Instruction.operand_of_lt (Nat.lt_succ_of_le small)
  have truth : (host.link condition).isTruthy = condition.isTruthy :=
    Value.isTruthy_mapFunctions condition
  have ran : (do
        let condition ← Operation.pop
        if !condition.isTruthy then Operation.jump target : Operation Unit)
      (host.machine call store (waiting ++ [condition]) stale (position + 3)) =
        .ok () (host.machine call store waiting (host.link condition :: stale)
          (if condition.isTruthy then position + 3 else target)) := by
    refine (Stateful.bind_of_ok (pop_machine store condition stale _)).trans ?_
    rw [truth]
    cases condition.isTruthy <;> rfl
  rw [operand]
  exact ⟨_, going_of_ok ran, _, fits.move (by simp; omega), rfl⟩

end Host

end MonkeyLang
