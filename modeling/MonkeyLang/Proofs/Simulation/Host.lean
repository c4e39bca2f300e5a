import MonkeyLang.Proofs.Compiler.Routines
import MonkeyLang.Proofs.Evaluator.Program
import MonkeyLang.Proofs.Machine.Reaching
import MonkeyLang.Proofs.Machine.Stack

/-!
# The machine of an evaluation

A machine that runs compiled code holds the store of an evaluation: the values of the global
slots, and on the stack the slots of the innermost call with the values above them that wait for
others. What lies below these slots belongs to the calls around, and nothing looks at it until
the call is left.

The values of the evaluator have no code. The machine has the same values with the functions
completed from the constants (`Host.link`); no operator notices the difference.
-/

set_option autoImplicit false

namespace MonkeyLang

/-- What stays the same during a run. -/
structure Host where
  constants : Array Value
  limits : Limits
  /-- What was printed before the evaluation. -/
  printed : String

/-- The function with the number of another one, completed from some constants. -/
def Function.relinked (constants : Array Value) (body : Function) : Function :=
  { functionAt constants body.identity with identity := body.identity, name := body.name }

theorem Function.unnoticed_relinked (constants : Array Value) :
    Value.Unnoticed (Function.relinked constants) :=
  ⟨fun _ => rfl, fun _ => rfl⟩

/-- A function that is a constant itself is complete. -/
theorem Function.relinked_of_constant {constants : Array Value} {body : Function}
    (found : constants[body.identity]? = some (.function body)) :
    body.relinked constants = body := by
  simp only [relinked, functionAt, found]

/-- A value with its functions completed from some constants. -/
def Value.linked (constants : Array Value) (value : Value) : Value :=
  value.mapFunctions (Function.relinked constants)

theorem Value.Genuine.linked {constants : Array Value} {value : Value}
    (genuine : value.Genuine constants) : value.linked constants = value :=
  mapFunctions_of_all (All.mono (fun _ => Function.relinked_of_constant) genuine)

/-- A call that is going on, as the code of its function sees it. -/
structure Activation where
  code : Code
  /-- How many slots the call has. -/
  slots : Nat
  /-- What lies on the stack below its slots. -/
  under : List Value
  callers : Array Frame

namespace Activation

/-- How many calls are going on; the program itself counts as one. -/
def depth (call : Activation) : Nat := call.callers.size + 1

/-- How many slots of the stack are in use when nothing waits. -/
def floor (call : Activation) : Nat := call.under.length + call.slots

end Activation

namespace Host

/-- A value as the machine has it. -/
def link (host : Host) (value : Value) : Value := value.linked host.constants

/-- The global slots of the machine. -/
def globals (host : Host) (store : Store) : Globals :=
  Array.ofFn fun slot : Fin host.limits.globalsSize => host.link (store.globals slot)

/-- The machine without its stack. -/
def bare (host : Host) (call : Activation) (store : Store) (position : Nat) : Machine where
  constants := host.constants
  stack := #[]
  height := 0
  globals := host.globals store
  frame := ⟨call.code, position, call.under.length, call.slots⟩
  callers := call.callers
  maxFrames := host.limits.maxFrames
  output := host.printed ++ store.output
  status := .running

/-- The values on the stack: those below the call, its slots, and those that wait. -/
def values (host : Host) (call : Activation) (store : Store) (waiting : List Value) :
    List Value :=
  call.under ++ (store.locals ++ waiting).map host.link

/-- The machine at an offset of the code of a call. -/
def machine (host : Host) (call : Activation) (store : Store) (waiting stale : List Value)
    (position : Nat) : Machine :=
  (host.bare call store position).withStack (host.values call store waiting) stale

/-- The call has its slots, and the stack has its size. -/
structure Fits (host : Host) (call : Activation) (store : Store) (waiting stale : List Value) :
    Prop where
  slots : store.locals.length = call.slots
  size : call.floor + waiting.length + stale.length = host.limits.stackSize

/-- A relation between the store of an evaluation and a machine. -/
abbrev Assertion := Store → Machine → Prop

/-- The machine is at an offset, with some values that wait. -/
def At (host : Host) (call : Activation) (position : Nat) (waiting : List Value) : Assertion :=
  fun store machine => ∃ stale, host.Fits call store waiting stale ∧
    machine = host.machine call store waiting stale position

/-- The machine is at an offset, and the value that was popped last is this one, if any. -/
def Behind (host : Host) (call : Activation) (position : Nat) (waiting : List Value)
    (last : Option Value) : Assertion :=
  fun store machine => host.At call position waiting store machine ∧
    ∀ value, last = some value → machine.lastPopped = host.link value

/-- The call has been left with a value, which replaces the function that was called. -/
def Left (host : Host) (call : Activation) (value : Value) : Assertion :=
  fun store machine => ∃ below callee callers caller stale,
    call.under = below ++ [callee] ∧ call.callers = callers.push caller ∧
      below.length + 1 + stale.length = host.limits.stackSize ∧
      machine = ({ host.bare call store 0 with frame := caller, callers }).withStack
        (below ++ [host.link value.unwrapped]) stale

/-- The machine shows what the program can change for good. -/
structure Shows (host : Host) (store : Store) (machine : Machine) : Prop where
  globals : machine.globals = host.globals store
  output : machine.output = host.printed ++ store.output

/-! ## The values on the stack -/

variable (host : Host) (call : Activation) (store : Store)

theorem values_snoc (waiting : List Value) (value : Value) :
    host.values call store (waiting ++ [value]) =
      host.values call store waiting ++ [host.link value] := by
  simp [values]

theorem values_append (waiting items : List Value) :
    host.values call store (waiting ++ items) =
      host.values call store waiting ++ items.map host.link := by
  simp [values]

theorem machine_append (waiting items stale : List Value) (position : Nat) :
    host.machine call store (waiting ++ items) stale position =
      (host.bare call store position).withStack
        (host.values call store waiting ++ items.map host.link) stale := by
  rw [machine, values_append]

/-- A slot of the call. -/
theorem getElem?_values (waiting : List Value) {index : Nat} {value : Value}
    (found : store.locals[index]? = some value) :
    (host.values call store waiting)[call.under.length + index]? = some (host.link value) := by
  have below := (List.getElem?_eq_some_iff.mp found).1
  rw [values, List.getElem?_append_right (Nat.le_add_right _ _), Nat.add_sub_cancel_left,
    List.getElem?_map, List.getElem?_append_left below, found, Option.map_some]

theorem set_values {waiting : List Value} {index : Nat} (below : index < store.locals.length)
    (value : Value) :
    (host.values call store waiting).set (call.under.length + index) (host.link value) =
      host.values call { store with locals := store.locals.set index value } waiting := by
  rw [values, List.set_append_right _ _ (Nat.le_add_right _ _), Nat.add_sub_cancel_left,
    ← List.map_set, List.set_append_left _ _ below]
  rfl

/-- Values that begin or cease to wait leave the size of the stack alone. -/
theorem Fits.move {host : Host} {call : Activation} {store : Store}
    {waiting stale others rest : List Value} (fits : host.Fits call store waiting stale)
    (size : others.length + rest.length = waiting.length + stale.length) :
    host.Fits call store others rest :=
  ⟨fits.slots, by rw [Nat.add_assoc, size, ← Nat.add_assoc, fits.size]⟩

theorem Fits.withStore {host : Host} {call : Activation} {store other : Store}
    {waiting stale : List Value} (fits : host.Fits call store waiting stale)
    (locals : other.locals.length = store.locals.length) : host.Fits call other waiting stale :=
  ⟨locals.trans fits.slots, fits.size⟩

theorem length_values {host : Host} {call : Activation} {store : Store}
    {waiting stale : List Value} (fits : host.Fits call store waiting stale) :
    (host.values call store waiting).length = call.floor + waiting.length := by
  simp [values, Activation.floor, fits.slots, Nat.add_assoc]

theorem shows_machine (waiting stale : List Value) (position : Nat) :
    host.Shows store (host.machine call store waiting stale position) :=
  ⟨rfl, rfl⟩

theorem Behind.at {host : Host} {call : Activation} {position : Nat} {waiting : List Value}
    {last : Option Value} {store : Store} {machine : Machine}
    (behind : host.Behind call position waiting last store machine) :
    host.At call position waiting store machine :=
  behind.1

/-- A machine at an offset fetches the instruction that stands there. -/
theorem step_machine {position : Nat} {instruction : Instruction}
    (holds : call.code.Holds position instruction) (waiting stale : List Value) :
    Operation.step (host.machine call store waiting stale position) =
      Operation.execute instruction.opcode instruction.operand
        (host.machine call store waiting stale (position + instruction.size)) := by
  have fetched : (host.machine call store waiting stale position).frame.fetch = _ :=
    holds call.under.length call.slots
  unfold Operation.step
  rw [fetched]
  rfl

end Host

end MonkeyLang
