import MonkeyLang.Proofs.Compiler.Landing
import MonkeyLang.Proofs.Session.Safety

/-!
# Inputs that ask for a name

An input that consists of a name and nothing else asks what the name stands for: a builtin
function, or what its global slot holds (`Symbol.held`). The code of such an input has two
instructions, one that pushes this value and one that pops it, and the value that was popped last
is the answer. So the reply depends only on the symbol that the name means, on the global slots
and on whether there is room for one value (`Session.Sound.evaluate_asks`).
-/

set_option autoImplicit false

namespace MonkeyLang

/-- The name that an input consists of, if it consists of one. -/
def asked? (source : List Char) : Option String :=
  match Program.ofSource source with
  | .ok ⟨[.expression (.name name) _]⟩ => some name.text
  | _ => none

/-- What a symbol outside of all functions stands for, or why it cannot be told. -/
def Symbol.held (globals : Globals) (symbol : Symbol) : Except Fault Value :=
  let operand := (Compiling.load symbol).operand
  match symbol.storage with
  | .builtin =>
    match Builtin.ofIndex? operand with
    | some builtin => .ok (.builtin builtin)
    | none => .error (.builtinOutOfRange operand)
  | _ =>
    match globals[operand]? with
    | some value => .ok value
    | none => .error (.globalOutOfRange operand globals.size)

/-- A global symbol that was accepted stands for what the slot of its index holds. -/
theorem Symbol.held_of_global {globals : Globals} {symbol : Symbol} {value : Value}
    (global : symbol.storage = .global) (accepted : symbol.index < Limit.globals.bound)
    (found : globals[symbol.index]? = some value) : symbol.held globals = .ok value := by
  obtain ⟨name, storage, index⟩ := symbol
  obtain rfl : storage = .global := global
  have operand : (Compiling.load ⟨name, .global, index⟩).operand = index :=
    Instruction.operand_of_lt accepted
  unfold held
  dsimp only at found ⊢
  rw [operand, found]

/-- What is answered if a value is asked for; the stack has to have a slot for it. -/
def Limits.answer (limits : Limits) (held : Except Fault Value) : Session.Reply :=
  match held with
  | .error fault => ⟨none, [fault.diagnostic], ""⟩
  | .ok value =>
    if limits.stackSize = 0 then ⟨none, [(Fault.stackOverflow 0).diagnostic], ""⟩
    else ⟨some value, [], ""⟩

/-! ## The code of a name -/

/-- The code that asks for what a symbol stands for. -/
def Symbol.asked (symbol : Symbol) : Fragment :=
  (Fragment.empty.push (Compiling.load symbol)).emit .pop []

namespace Symbol

variable {symbol : Symbol}

theorem complete_asked (symbol : Symbol) : symbol.asked.Complete :=
  Fragment.complete_push.mpr
    ⟨Fragment.complete_push.mpr ⟨Fragment.complete_empty, complete_load symbol⟩, rfl⟩

/-- The two instructions, and the end behind them. -/
theorem holds_asked (symbol : Symbol) :
    symbol.asked.encode.Holds 0 (Compiling.load symbol) ∧
      symbol.asked.encode.Holds (Compiling.load symbol).size ⟨.pop, []⟩ ∧
        symbol.asked.encode.size = (Compiling.load symbol).size + 1 := by
  have stands := Fragment.standsAt_encode symbol.complete_asked
  rw [asked, Fragment.emit_eq_push, Fragment.standsAt_push, Fragment.standsAt_push] at stands
  obtain ⟨⟨-, loads⟩, pops⟩ := stands
  have size := Fragment.size_encode symbol.complete_asked
  rw [Nat.zero_add, Fragment.size_push, Fragment.size_empty, Nat.zero_add] at pops
  rw [asked, Fragment.emit_eq_push, Fragment.size_push, Fragment.size_push, Fragment.size_empty,
    Nat.zero_add] at size
  exact ⟨loads, pops, size⟩

/-- To load a symbol is to push what it stands for. -/
theorem execute_load (outside : symbol.storage ≠ .frame) (machine : Machine) :
    Operation.execute (Compiling.load symbol).opcode (Compiling.load symbol).operand machine =
      Operation.going (Operation.pushResult (symbol.held machine.globals)) machine := by
  obtain ⟨name, storage, index⟩ := symbol
  cases storage with
  | frame => exact absurd rfl outside
  | global =>
      show Operation.going (Operation.pushGlobal _) machine = _
      refine Operation.going_congr ?_
      unfold held
      dsimp only
      cases found : machine.globals[(Compiling.load ⟨name, .global, index⟩).operand]? with
      | some value => exact Operation.pushGlobal_of_some found
      | none => exact Operation.pushGlobal_of_none found
  | builtin =>
      show Operation.going (Operation.pushBuiltin _) machine = _
      refine Operation.going_congr ?_
      unfold held Operation.pushBuiltin
      dsimp only
      cases Builtin.ofIndex? (Compiling.load ⟨name, .builtin, index⟩).operand <;> rfl

end Symbol

/-! ## The run -/

section Run

variable {symbol : Symbol} {constants : Array Value} {limits : Limits} {globals : Globals}

/-- The machine at the start of an input that asks for a symbol. -/
abbrev Symbol.asking (symbol : Symbol) (constants : Array Value) (limits : Limits)
    (globals : Globals) : Machine :=
  .loaded ⟨symbol.asked.encode, constants⟩ limits globals

/-- The first step loads the symbol. -/
theorem Symbol.step_asking (outside : symbol.storage ≠ .frame) :
    Operation.step (symbol.asking constants limits globals) =
      Operation.going (Operation.pushResult (symbol.held globals))
        ((symbol.asking constants limits globals).jump (Compiling.load symbol).size) := by
  obtain ⟨loads, -, -⟩ := symbol.holds_asked
  have fetched : (symbol.asking constants limits globals).frame.fetch = _ := loads 0 0
  rw [Nat.zero_add] at fetched
  rw [Operation.step, fetched]
  exact symbol.execute_load outside _

theorem Symbol.finishes_of_error (outside : symbol.storage ≠ .frame) {fault : Fault}
    (missing : symbol.held globals = .error fault) :
    (symbol.asking constants limits globals).Finishes 0 (some fault)
      ((symbol.asking constants limits globals).jump (Compiling.load symbol).size) := by
  refine ⟨_, .refl _, ?_⟩
  rw [Symbol.step_asking outside, missing]
  rfl

theorem Symbol.finishes_of_full (outside : symbol.storage ≠ .frame) {value : Value}
    (held : symbol.held globals = .ok value) (full : limits.stackSize = 0) :
    (symbol.asking constants limits globals).Finishes 0 (some (.stackOverflow 0))
      ((symbol.asking constants limits globals).jump (Compiling.load symbol).size) := by
  refine ⟨_, .refl _, ?_⟩
  let behind := (symbol.asking constants limits globals).jump (Compiling.load symbol).size
  have start : behind = behind.withStack [] [] := by
    simp [behind, Machine.withStack, Machine.jump, Machine.loaded, Machine.load, full]
  rw [Symbol.step_asking outside, held]
  show Operation.going (Operation.push value) behind = .error (.stackOverflow 0) behind
  rw [start]
  exact Operation.going_of_error (Operation.push_withStack_nil value)

theorem Symbol.finishes_of_ok (outside : symbol.storage ≠ .frame) {value : Value}
    (held : symbol.held globals = .ok value) (room : limits.stackSize ≠ 0) :
    ∃ last, (symbol.asking constants limits globals).Finishes 2 none last ∧
      last.lastPopped = value ∧ last.output = "" := by
  obtain ⟨size, enough⟩ := Nat.exists_eq_succ_of_ne_zero room
  obtain ⟨-, pops, ends⟩ := symbol.holds_asked
  let behind := (symbol.asking constants limits globals).jump (Compiling.load symbol).size
  let others : List Value := .replicate size .null
  have slots : Array.replicate (size + 1) Value.null = (Value.null :: others).toArray := by
    rw [← List.replicate_succ, List.toArray_replicate]
  have start : behind = behind.withStack [] (.null :: others) := by
    simp [behind, Machine.withStack, Machine.jump, Machine.loaded, Machine.load, enough, slots]
  have pushed : Operation.step (symbol.asking constants limits globals) =
      .ok .goesOn (behind.withStack [value] others) := by
    rw [Symbol.step_asking outside, held]
    show Operation.going (Operation.push value) behind = _
    rw [start]
    exact Operation.going_of_ok (Operation.push_withStack_cons value .null)
  let last := (behind.jump ((Compiling.load symbol).size + 1)).withStack [] (value :: others)
  have popped : Operation.step (behind.withStack [value] others) = .ok .goesOn last := by
    have fetched : (behind.withStack [value] others).frame.fetch = _ := pops 0 0
    rw [Operation.step, fetched]
    show Operation.going (discard Operation.pop)
      ((behind.jump ((Compiling.load symbol).size + 1)).withStack ([] ++ [value]) others) = _
    exact Operation.going_of_ok (Operation.discard_pop_withStack value)
  have ended : Operation.step last = .ok .ends last := by
    have fetched : last.frame.fetch = .stop := by
      show Frame.fetch ⟨symbol.asked.encode, (Compiling.load symbol).size + 1, 0, 0⟩ = .stop
      rw [← ends, Frame.fetch, Array.getElem?_eq_none (Nat.le_refl _)]
    rw [Operation.step, fetched]
    rfl
  refine ⟨last, ⟨last, .step pushed (.single popped), ended⟩, ?_, rfl⟩
  exact Machine.lastPopped_withStack_cons ..

end Run

/-! ## The answer -/

namespace Session

variable {session : Session} {symbol : Symbol} {name : String}

/-- Outside of all functions no name means a slot of a call. -/
theorem Sound.storage_ne_frame (sound : session.Sound)
    (found : session.scope.resolve? name = some symbol) : symbol.storage ≠ .frame := by
  intro frame
  obtain ⟨table, inside, member⟩ := Scope.mem_of_resolve? found
  have outermost := List.isEmpty_iff.mp sound.isGlobal
  rw [outermost] at inside
  obtain rfl := List.mem_singleton.mp inside
  have inner := (sound.scope.locals symbol member frame).1
  rw [sound.isGlobal] at inner
  cases inner

theorem compile_asked {compiler : Compiler} (found : compiler.scope.resolve? name = some symbol)
    (outside : symbol.storage ≠ .frame) (span whole : Span) :
    compiler.compile ⟨[.expression (.name ⟨name, span⟩) whole]⟩ =
      (.ok ⟨symbol.asked.encode, compiler.constants⟩, compiler) := by
  have resolved : Compiling.resolve ⟨name, span⟩ compiler = .ok symbol compiler :=
    Compiling.resolve_eq_ok.mpr ⟨found, fun frame => absurd frame outside, rfl⟩
  have ran : Compiling.statements .discard [.expression (.name ⟨name, span⟩) whole] 0 .empty
      compiler = .ok symbol.asked compiler := by
    simp only [Compiling.statements, Compiling.expression, bind_assoc, pure_bind]
    rw [Stateful.bind_of_ok resolved, Fragment.empty_append]
    rfl
  exact Compiler.compile_eq_ok.mpr ⟨symbol.asked, ran, rfl⟩

theorem ofSource_of_asked? {source : List Char} (asks : asked? source = some name) :
    ∃ span whole, Program.ofSource source = .ok ⟨[.expression (.name ⟨name, span⟩) whole]⟩ := by
  unfold asked? at asks
  split at asks
  · next meant whole read =>
      obtain rfl := Option.some.inj asks
      exact ⟨meant.span, whole, read⟩
  · cases asks

/-- The reply to an input that asks for a name tells what the name stands for. -/
theorem Sound.evaluate_asks (sound : session.Sound)
    (found : session.scope.resolve? name = some symbol) {source : List Char}
    (asks : asked? source = some name) {steps : Nat} (enough : 3 ≤ steps) :
    (session.evaluate steps source).1 = session.limits.answer (symbol.held session.globals) := by
  obtain ⟨span, whole, read⟩ := ofSource_of_asked? asks
  have outside := sound.storage_ne_frame found
  have made : session.compiler.compile ⟨[.expression (.name ⟨name, span⟩) whole]⟩ =
      (.ok ⟨symbol.asked.encode, session.constants⟩, session.compiler) :=
    compile_asked found outside span whole
  have ran : ∀ {count : Nat} {fault : Option Fault} {last : Machine},
      (symbol.asking session.constants session.limits session.globals).Finishes count fault last →
      count < 3 →
      (session.evaluate steps source).1 = fault.elim ⟨some last.lastPopped, [], last.output⟩
        fun fault => ⟨none, [fault.diagnostic], last.output⟩ := by
    intro count fault last finishes few
    have advanced := finishes.advance_of_lt (Nat.lt_of_lt_of_le few enough)
    unfold evaluate
    rw [read]
    dsimp only
    rw [execute_of_ok made, Machine.run_load]
    dsimp only
    rw [advanced]
    cases fault <;> rfl
  unfold Limits.answer
  cases held : symbol.held session.globals with
  | error fault => exact ran (Symbol.finishes_of_error outside held) (by decide)
  | ok value =>
      dsimp only
      by_cases full : session.limits.stackSize = 0
      · rw [if_pos full]
        exact ran (Symbol.finishes_of_full outside held full) (by decide)
      · rw [if_neg full]
        obtain ⟨last, finishes, popped, output⟩ := Symbol.finishes_of_ok outside held full
        have replied := ran finishes (by decide)
        rwa [Option.elim_none, popped, output] at replied

end Session

end MonkeyLang
