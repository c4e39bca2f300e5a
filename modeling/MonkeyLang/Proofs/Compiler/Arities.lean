import MonkeyLang.Proofs.Bytecode.Decoding
import MonkeyLang.Proofs.Compiler.Slots
import MonkeyLang.Proofs.Compiler.Tracking
import MonkeyLang.Proofs.Compiler.Relocation

/-!
# Calls of functions that compile

A function may have as many parameters as it may have slots, and a call may have as many
arguments as its operand can count. The first limit is larger by one.

A call with an argument for each parameter therefore compiles behind the definition of the
function, and its operand is the number of parameters that the compiled function asks for, except
for a function with a parameter in each of its slots: that function compiles, and no call of it
does (`Compiler.compile_calling`, `Compiler.not_compile_calling_widest`).
-/

set_option autoImplicit false

namespace MonkeyLang

/-- The statement that gives a name to a function. -/
def Statement.defining (name : Name) (parameters : List Name) (body : Block)
    (span whole : Span) : Statement :=
  .bind (.mk name (.function parameters body span) whole)

/-- The statement that calls what a name means with boolean literals. -/
def Statement.calling (name : Name) (arguments : List (Bool × Span)) (span whole : Span) :
    Statement :=
  .expression (.call (.name name)
    (arguments.map fun argument => .literal (.boolean argument.1) argument.2) span) whole

/-- The instruction that pushes a boolean. -/
def Opcode.boolean (value : Bool) : Opcode := if value then .true else .false

theorem Fragment.toList_emitAll (fragment : Fragment) (opcodes : List Opcode) :
    (fragment.emitAll opcodes).instructions.toList =
      fragment.instructions.toList ++ opcodes.map fun opcode => ⟨opcode, []⟩ := by
  induction opcodes generalizing fragment with
  | nil => simp
  | cons opcode opcodes ih =>
      rw [emitAll_cons, ih, instructions_push, Array.toList_push, List.append_assoc]
      rfl

namespace Compiling

open Stateful

variable {compiler next : Compiler}

/-! ## The definition -/

/-- Each parameter takes a slot of the function, and there are no more slots than 256. -/
theorem parameters_eq_ok {names : List Name} {start : Compiler}
    (inner : compiler.scope.isGlobal = false)
    (few : compiler.scope.definitions ≤ Limit.locals.bound)
    (bound : (names.forM fun name => discard (define name) : Compiling Unit) compiler =
      .ok () start) :
    start.scope.definitions = compiler.scope.definitions + names.length ∧
      start.scope.definitions ≤ Limit.locals.bound := by
  induction names generalizing compiler with
  | nil =>
      obtain ⟨-, rfl⟩ := pure_eq_ok.mp bound
      exact ⟨rfl, few⟩
  | cons name names ih =>
      obtain ⟨_, _, discarded, rest⟩ := bind_eq_ok.mp bound
      obtain ⟨_, middle, defined, kept⟩ := bind_eq_ok.mp discarded
      obtain ⟨-, rfl⟩ := pure_eq_ok.mp kept
      obtain ⟨rfl, scope, -, accepted⟩ := define_eq_ok defined
      have storage : (compiler.scope.define name.text).1.storage = .frame := by
        rw [Scope.storage_define, Scope.storage, inner]
        rfl
      rw [storage, Scope.index_define] at accepted
      have still : middle.scope.isGlobal = false := by rw [scope, Scope.isGlobal_define, inner]
      have counted : middle.scope.definitions = compiler.scope.definitions + 1 := by
        rw [scope, Scope.definitions_define]
      obtain ⟨total, fits⟩ := ih still (by rw [counted]; exact accepted) rest
      refine ⟨?_, fits⟩
      rw [total, counted, List.length_cons]
      omega

/-- What a definition that compiles leaves behind: its code, the function as the last constant,
and a name that means it. -/
theorem defining_eq_ok {name : Name} {parameters : List Name} {body : Block} {span whole : Span}
    {start : Nat} {code : Fragment}
    (compiled : statement (.defining name parameters body span whole) start compiler =
      .ok code next) :
    ∃ index symbol instruction made,
      code = (Fragment.single .constant [index]).push instruction ∧
        instruction.Complete ∧ instruction.opcode ≠ .call ∧
        (∀ other : Name, other.text = name.text → resolve other next = .ok symbol next) ∧
        next.constants.back? = some (.function made) ∧ made.parameters = parameters.length ∧
        parameters.length ≤ Limit.locals.bound := by
  obtain ⟨statements, bodySpan⟩ := body
  simp only [Statement.defining, statement, binding] at compiled
  obtain ⟨symbol, middle, defined, compiled⟩ := bind_eq_ok.mp compiled
  obtain ⟨pushed, last, built, compiled⟩ := bind_eq_ok.mp compiled
  obtain ⟨instruction, _, stored, finished⟩ := bind_eq_ok.mp compiled
  obtain ⟨rfl, rfl⟩ := pure_eq_ok.mp finished
  obtain ⟨begun, inner, stream, bound, -, -, rfl, rfl⟩ := function_eq_ok built
  obtain ⟨rfl, kind⟩ := store_eq_ok stored
  obtain ⟨rfl, scope, -, -⟩ := define_eq_ok defined
  obtain ⟨total, fits⟩ := parameters_eq_ok (by rfl) (Nat.zero_le _) bound
  have arity : parameters.length ≤ Limit.locals.bound := by
    rw [total] at fits
    exact Nat.le_trans (Nat.le_add_left _ _) fits
  refine ⟨_, (compiler.scope.define name.text).1, _, _, rfl, ?_, ?_, fun other same => ?_,
    Array.back?_push, rfl, arity⟩
  · rcases kind with ⟨-, rfl⟩ | ⟨-, rfl⟩ <;> rfl
  · rcases kind with ⟨-, rfl⟩ | ⟨-, rfl⟩ <;> exact Opcode.noConfusion
  · rw [resolve_eq_ok, same]
    refine ⟨?_, fun _ => ?_, rfl⟩
    · show middle.scope.resolve? name.text = _
      rw [scope, Scope.resolve?_define]
    · show middle.scope.definesLocally name.text = true
      rw [scope]
      simp [Scope.definesLocally, Scope.define, SymbolTable.lookup?_define]

/-! ## The call -/

/-- Boolean literals are one instruction each and change nothing. -/
theorem expressions_booleans (arguments : List (Bool × Span)) (start : Nat) (before : Fragment)
    (compiler : Compiler) :
    expressions (arguments.map fun argument => .literal (.boolean argument.1) argument.2) start
        before compiler =
      .ok (before.emitAll (arguments.map fun argument => .boolean argument.1)) compiler := by
  induction arguments generalizing before with
  | nil => rfl
  | cons argument arguments ih =>
      obtain ⟨value, span⟩ := argument
      have one : expression (.literal (.boolean value) span) (start + before.size) compiler =
          .ok (.single (.boolean value) []) compiler := by
        cases value <;> rfl
      simp only [List.map_cons, expressions]
      rw [bind_of_ok one, ih, Fragment.emitAll_cons, Fragment.single_eq_push,
        ← Fragment.append_push, Fragment.append_empty]

/-- A call behind code: what is called, the arguments and the instruction with their number. -/
def calls (symbol : Symbol) (arguments : List (Bool × Span)) : Fragment :=
  (((Fragment.empty.push (load symbol)).emitAll
    (arguments.map fun argument => .boolean argument.1)).emit .call [arguments.length]).emit .pop []

theorem calling_of_le {name : Name} {symbol : Symbol} {arguments : List (Bool × Span)}
    (resolved : resolve name compiler = .ok symbol compiler)
    (few : arguments.length ≤ Limit.callArguments.bound) (span whole : Span) (start : Nat) :
    statement (.calling name arguments span whole) start compiler =
      .ok (calls symbol arguments) compiler := by
  have callee : expression (.name name) start compiler =
      .ok (Fragment.empty.push (load symbol)) compiler := by
    simp only [expression]
    rw [bind_of_ok resolved]
    rfl
  simp only [Statement.calling, statement, expression, List.length_map, bind_assoc]
  rw [require_bind_of_true (decide_eq_true few)]
  simp only [expression] at callee
  rw [← bind_assoc]
  rw [bind_of_ok callee, bind_of_ok (expressions_booleans arguments start _ compiler)]
  rfl

theorem calling_of_lt {arguments : List (Bool × Span)}
    (many : Limit.callArguments.bound < arguments.length) (name : Name) (span whole : Span)
    (start : Nat) (compiler : Compiler) :
    statement (.calling name arguments span whole) start compiler =
      .error (.limitExceeded .callArguments span) compiler := by
  simp only [Statement.calling, statement, expression, List.length_map, bind_assoc]
  exact require_bind_of_false (decide_eq_false (Nat.not_le_of_lt many)) _ _ _ _

/-- The code of a definition with a call behind it, read back from its start. -/
theorem decodes_calls {instruction : Instruction} {arguments : List (Bool × Span)}
    (complete : instruction.Complete) (plain : instruction.opcode ≠ .call)
    (few : arguments.length ≤ Limit.callArguments.bound) (index : Nat) (symbol : Symbol) :
    ∃ before : List Instruction, (∀ other ∈ before, other.opcode ≠ .call) ∧
      ((Fragment.single .constant [index]).push instruction ++ calls symbol arguments).encode.Decodes
        0 (before ++ [⟨.call, [arguments.length]⟩, ⟨.pop, []⟩]) := by
  let front := (Fragment.single .constant [index]).push instruction ++
    (Fragment.empty.push (load symbol)).emitAll
      (arguments.map fun argument => .boolean argument.1)
  have whole : (Fragment.single .constant [index]).push instruction ++ calls symbol arguments =
      (front.push ⟨.call, [arguments.length]⟩).push ⟨.pop, []⟩ := by
    rw [calls, Fragment.emit_eq_push, Fragment.emit_eq_push, ← Fragment.append_push,
      ← Fragment.append_push]
  have listed : front.instructions.toList =
      [⟨.constant, [index]⟩, instruction, load symbol] ++
        arguments.map fun argument => ⟨.boolean argument.1, []⟩ := by
    simp [front, Fragment.toList_emitAll, Fragment.single, Fragment.emit, Fragment.empty]
  have each : ∀ other ∈ front.instructions.toList, other.Complete ∧ other.opcode ≠ .call := by
    rw [listed]
    intro other member
    simp only [List.mem_append, List.mem_cons, List.not_mem_nil, or_false, List.mem_map] at member
    rcases member with (rfl | rfl | rfl) | ⟨⟨value, span⟩, -, rfl⟩
    · exact ⟨rfl, Opcode.noConfusion⟩
    · exact ⟨complete, plain⟩
    · refine ⟨complete_load symbol, ?_⟩
      unfold load
      split <;> exact Opcode.noConfusion
    · cases value <;> exact ⟨rfl, Opcode.noConfusion⟩
  have fits : arguments.length % 256 = arguments.length := Nat.mod_eq_of_lt (Nat.lt_succ_of_le few)
  have front_complete : front.Complete := fun other member => (each other member).1
  have call_complete : (⟨.call, [arguments.length]⟩ : Instruction).Complete := rfl
  have pop_complete : (⟨.pop, []⟩ : Instruction).Complete := rfl
  have read := (Fragment.complete_push.mpr
    ⟨Fragment.complete_push.mpr ⟨front_complete, call_complete⟩, pop_complete⟩).decodes
  refine ⟨front.instructions.toList.map Instruction.fitted, fun other member => ?_, ?_⟩
  · obtain ⟨written, inside, rfl⟩ := List.mem_map.mp member
    exact (each written inside).2
  · rw [whole]
    simpa [Instruction.fitted, Opcode.widths, fits] using read

end Compiling

namespace Compiler

open Stateful

section Calls

variable {compiler next : Compiler} {defined : CompiledProgram} {name again : Name}
  {parameters : List Name} {body : Block} {span whole : Span} {arguments : List (Bool × Span)}

/-- A program of one statement compiles if the statement does. -/
theorem compile_singleton_eq_ok {only : Statement} :
    compiler.compile ⟨[only]⟩ = (.ok defined, next) ↔
      ∃ code, Compiling.statement only 0 compiler = .ok code next ∧
        defined = ⟨code.encode, next.constants⟩ := by
  rw [compile_eq_ok, Compiling.statements_discard_singleton]

theorem exists_of_isOk {program : Program} (accepted : (compiler.compile program).1.isOk = true) :
    ∃ defined next, compiler.compile program = (.ok defined, next) := by
  cases ran : compiler.compile program with
  | mk outcome next =>
      rw [ran] at accepted
      cases outcome with
      | ok defined => exact ⟨defined, next, rfl⟩
      | error fault => cases accepted

/-- A statement behind another one that compiles. -/
theorem statements_pair {first second : Statement} {code : Fragment}
    (ran : Compiling.statement first 0 compiler = .ok code next) :
    Compiling.statements .discard [first, second] 0 .empty compiler =
      (Compiling.statement second (0 + code.size) >>= fun rest => pure (code ++ rest)) next := by
  rw [show [first, second] = [first] ++ [second] from rfl, Compiling.statements_discard_append,
    Compiling.statements_discard_singleton, bind_of_ok ran, Compiling.statements_discard_cons]
  rfl

/-- Behind a definition a call of any name fails if it has too many arguments. -/
theorem compile_calling_of_lt
    (compiles : compiler.compile ⟨[.defining name parameters body span whole]⟩ =
      (.ok defined, next))
    (many : Limit.callArguments.bound < arguments.length) (again : Name) (callSpan outer : Span) :
    compiler.compile ⟨[.defining name parameters body span whole,
        .calling again arguments callSpan outer]⟩ =
      (.error (.limitExceeded .callArguments callSpan), next) := by
  obtain ⟨code, first, -⟩ := compile_singleton_eq_ok.mp compiles
  have fails := Compiling.calling_of_lt many again callSpan outer (0 + code.size) next
  unfold compile
  rw [statements_pair first, bind_of_error fails]

/-- **A function that compiles can be called with an argument for each of its parameters, as long
as the operand of a call can count them.** The call compiles to one call instruction, and its
operand is the number of parameters of the compiled function. A function has at most 256
parameters, and with 256 of them it cannot be called. -/
theorem compile_calling
    (compiles : compiler.compile ⟨[.defining name parameters body span whole]⟩ =
      (.ok defined, next))
    (same : again.text = name.text) (enough : arguments.length = parameters.length)
    (callSpan outer : Span) :
    ∃ function : Function,
      defined.constants.back? = some (.function function) ∧
        function.parameters = parameters.length ∧ parameters.length ≤ Limit.locals.bound ∧
        (parameters.length ≤ Limit.callArguments.bound →
          ∃ called before,
            compiler.compile ⟨[.defining name parameters body span whole,
                .calling again arguments callSpan outer]⟩ = (.ok called, next) ∧
              called.constants = defined.constants ∧
              called.code.Decodes 0 (before ++ [⟨.call, [function.parameters]⟩, ⟨.pop, []⟩]) ∧
              ∀ instruction ∈ before, instruction.opcode ≠ .call) ∧
        (Limit.callArguments.bound < parameters.length →
          compiler.compile ⟨[.defining name parameters body span whole,
              .calling again arguments callSpan outer]⟩ =
            (.error (.limitExceeded .callArguments callSpan), next)) := by
  obtain ⟨_, first, rfl⟩ := compile_singleton_eq_ok.mp compiles
  obtain ⟨index, symbol, instruction, function, rfl, complete, plain, means, last, arity, fits⟩ :=
    Compiling.defining_eq_ok first
  refine ⟨function, last, arity, fits, fun few => ?_, fun many => ?_⟩
  · rw [← enough] at few
    obtain ⟨before, others, read⟩ :=
      Compiling.decodes_calls complete plain few index symbol
    have call := Compiling.calling_of_le (means again same) few callSpan outer
    have run : Compiling.statements .discard [.defining name parameters body span whole,
        .calling again arguments callSpan outer] 0 .empty compiler =
          .ok ((Fragment.single .constant [index]).push instruction ++
            Compiling.calls symbol arguments) next := by
      rw [statements_pair first, bind_of_ok (call _)]
      rfl
    rw [arity, ← enough]
    exact ⟨_, before, compile_eq_ok.mpr ⟨_, run, rfl⟩, rfl, read, others⟩
  · exact compile_calling_of_lt compiles (enough ▸ many) again callSpan outer

/-- The identity and a call of it. -/
theorem compile_calling_identity : ∃ called next before,
    new.compile ⟨[
        .defining ⟨"f", ⟨4, 5⟩⟩ [⟨"p", ⟨13, 14⟩⟩]
          (.mk [.expression (.name ⟨"p", ⟨18, 19⟩⟩) ⟨18, 19⟩] ⟨16, 21⟩) ⟨8, 21⟩ ⟨0, 22⟩,
        .calling ⟨"f", ⟨23, 24⟩⟩ [(true, ⟨25, 29⟩)] ⟨23, 30⟩ ⟨23, 31⟩]⟩ = (.ok called, next) ∧
      called.code.Decodes 0 (before ++ [⟨.call, [1]⟩, ⟨.pop, []⟩]) := by
  have enough : [(true, (⟨25, 29⟩ : Span))].length = [(⟨"p", ⟨13, 14⟩⟩ : Name)].length := rfl
  obtain ⟨defined, next, compiles⟩ : ∃ defined next, new.compile ⟨[
      .defining ⟨"f", ⟨4, 5⟩⟩ [⟨"p", ⟨13, 14⟩⟩]
        (.mk [.expression (.name ⟨"p", ⟨18, 19⟩⟩) ⟨18, 19⟩] ⟨16, 21⟩) ⟨8, 21⟩ ⟨0, 22⟩]⟩ =
      (.ok defined, next) := ⟨_, _, rfl⟩
  obtain ⟨function, -, arity, -, calls, -⟩ :=
    compile_calling compiles (by rfl) enough ⟨23, 30⟩ ⟨23, 31⟩
  obtain ⟨called, before, compiled, -, read, -⟩ := calls (by decide)
  rw [arity] at read
  exact ⟨called, _, before, compiled, read⟩

/-- A function with 256 parameters compiles, and a call of it with 256 arguments does not. -/
theorem not_compile_calling_widest :
    (∃ defined next, new.compile ⟨[.defining ⟨"f", ⟨4, 5⟩⟩ (.replicate 256 ⟨"p", ⟨13, 14⟩⟩)
        (.mk [] ⟨16, 18⟩) ⟨8, 18⟩ ⟨0, 19⟩]⟩ = (.ok defined, next)) ∧
      ∃ next, new.compile ⟨[
          .defining ⟨"f", ⟨4, 5⟩⟩ (.replicate 256 ⟨"p", ⟨13, 14⟩⟩)
            (.mk [] ⟨16, 18⟩) ⟨8, 18⟩ ⟨0, 19⟩,
          .calling ⟨"f", ⟨20, 21⟩⟩ (.replicate 256 (true, ⟨22, 26⟩)) ⟨20, 27⟩ ⟨20, 28⟩]⟩ =
        (.error (.limitExceeded .callArguments ⟨20, 27⟩), next) := by
  have accepted : (new.compile ⟨[.defining ⟨"f", ⟨4, 5⟩⟩ (.replicate 256 ⟨"p", ⟨13, 14⟩⟩)
      (.mk [] ⟨16, 18⟩) ⟨8, 18⟩ ⟨0, 19⟩]⟩).1.isOk = true := by decide +kernel
  obtain ⟨defined, next, compiles⟩ := exists_of_isOk accepted
  refine ⟨⟨defined, next, compiles⟩, next, compile_calling_of_lt compiles ?_ _ _ _⟩
  rw [List.length_replicate]
  decide

end Calls

end Compiler

end MonkeyLang
