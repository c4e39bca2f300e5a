import MonkeyLang.Proofs.Compiler.Assembling
import MonkeyLang.Proofs.Compiler.History
import MonkeyLang.Proofs.Compiler.Landing

/-!
# Compiled programs are well formed

A stream is well formed if it can be read from its start exactly to its end, one instruction after
another, and if the operands on the way mean something: the index of a constant, of a global slot
or of a builtin function is one of those that there are, the index of a slot of a call is one of
the slots that the function has, and a jump leads to the start of an instruction
(`Code.WellFormed`). A compiled program is well formed if its own stream and the streams of all
functions among its constants are (`CompiledProgram.WellFormed`). The program itself has no slots
of a call, and a function has slots for its arguments and leaves with its last instruction.

What a new assembler makes of a program is well formed, and the assembler never writes outside of
its buffers on the way (`Assembler.compile_new_wellFormed`). The stream of a function is made like
that of a program, from statements, so one lemma about closed code covers both
(`Fragment.Closed.wellFormed`).
-/

set_option autoImplicit false

namespace MonkeyLang

/-- How many things of each kind there are that an operand can be the index of. -/
structure Stock where
  constants : Nat
  globals : Nat
  locals : Nat

/-- The operand of an instruction in a stream means something. -/
def Opcode.Admits (code : Code) (stock : Stock) (opcode : Opcode) (operand : Nat) : Prop :=
  match opcode with
  | .constant => operand < stock.constants
  | .getGlobal | .setGlobal => operand < stock.globals
  | .getLocal | .setLocal => operand < stock.locals
  | .getBuiltin => operand < Builtin.all.length
  | .jump | .jumpNotTruthy => code.Visits operand ∧ operand < code.size
  | _ => True

/-- The stream can be read from its start to its end, and its operands mean something. -/
structure Code.WellFormed (stock : Stock) (code : Code) : Prop where
  ends : code.Visits code.size
  reads : ∀ offset, code.Visits offset → offset < code.size → ∃ instruction width,
    code.decode offset = .ok (some (instruction, width)) ∧ instruction.Complete ∧
      ∀ operand ∈ instruction.operands, instruction.opcode.Admits code stock operand

/-- The stream of the function is well formed, there are slots for the arguments, and the last
instruction leaves the function. -/
structure Function.WellFormed (constants globals : Nat) (body : Function) : Prop where
  code : body.code.WellFormed ⟨constants, globals, body.locals⟩
  parameters : body.parameters ≤ body.locals
  locals : body.locals ≤ Limit.locals.bound
  leaves : ∃ offset opcode, (opcode = .returnValue ∨ opcode = .returnNull) ∧
    body.code.Visits offset ∧ body.code.decode offset = .ok (some (⟨opcode, []⟩, 1)) ∧
      offset + 1 = body.code.size

/-- The stream of the program, which has no slots of its own, and all its functions are well
formed. -/
structure CompiledProgram.WellFormed (globals : Nat) (compiled : CompiledProgram) : Prop where
  code : compiled.code.WellFormed ⟨compiled.constants.size, globals, 0⟩
  functions : ∀ body, .function body ∈ compiled.constants →
    body.WellFormed compiled.constants.size globals

/-! ## Closed code -/

/-- The only operand of an instruction as it is read back. -/
theorem Instruction.mem_fitted {instruction : Instruction} (complete : instruction.Complete)
    {operand : Nat} (member : operand ∈ instruction.fitted.operands) :
    ∃ written, instruction = ⟨instruction.opcode, [written]⟩ ∧
      operand = written % 256 ^ instruction.opcode.operandSize := by
  obtain ⟨opcode, operands⟩ := instruction
  rcases widths_cases opcode with widths | widths | widths <;>
    simp only [Complete, widths, List.length_nil, List.length_cons] at complete
  · obtain rfl := List.length_eq_zero_iff.mp complete
    cases member
  all_goals
    obtain ⟨written, rfl⟩ := List.length_eq_one_iff.mp complete
    refine ⟨written, rfl, ?_⟩
    simpa [fitted, widths, Opcode.operandSize] using member

theorem Instruction.complete_fitted {instruction : Instruction} (complete : instruction.Complete) :
    instruction.fitted.Complete := by
  rw [Complete] at complete
  rw [Complete, fitted, List.length_zipWith, complete, Nat.min_self]

/-- An instruction that one comes by is one of those that are read. -/
theorem Code.Visits.mem_of_decodes {code : Code} {instructions : List Instruction}
    {offset width : Nat} {instruction : Instruction} (visits : code.Visits offset)
    (reads : code.Decodes 0 instructions)
    (found : code.decode offset = .ok (some (instruction, width))) :
    instruction ∈ instructions := by
  obtain ⟨pre, rest, rfl, behind⟩ := visits.decodes reads
  cases behind with
  | stop =>
      rw [decode_size] at found
      cases found
  | next again _ =>
      rw [found] at again
      cases again
      exact List.mem_append_right _ List.mem_cons_self

section Closed

variable {loops : Prop} {compiler : Compiler} {code : Fragment}
  (closed : code.Closed loops compiler 0) (complete : code.Complete)

include closed complete

/-- The jumps of closed code come back as they were written. -/
theorem Fragment.Closed.jumps {offset width target : Nat} {instruction : Instruction}
    (visits : code.encode.Visits offset)
    (found : code.encode.decode offset = .ok (some (instruction, width)))
    (leads : instruction.target? = some target) :
    code.encode.Visits target ∧ target < code.encode.size ∧ (loops ∨ offset < target) := by
  obtain ⟨written, has, rfl, -⟩ :=
    has_of_decode complete ((visits_encode_iff complete).mp visits) found
  have whole : written.Complete := complete written has.starts.1
  have wide : written.opcode = .jump ∨ written.opcode = .jumpNotTruthy := by
    unfold Instruction.target? at leads
    split at leads
    · next same => exact .inl (congrArg Instruction.opcode same)
    · next same => exact .inr (congrArg Instruction.opcode same)
    · cases leads
  obtain ⟨opcode, operands⟩ := written
  rcases wide with rfl | rfl <;>
    · obtain ⟨goal, rfl⟩ := List.length_eq_one_iff.mp whole
      obtain ⟨⟨starts, below⟩, fits, ahead⟩ := closed.lands offset _ goal has rfl
      obtain rfl : goal % 256 ^ 2 = target := Option.some.inj leads
      rw [Nat.mod_eq_of_lt (Nat.lt_of_le_of_lt fits (by decide)), size_encode complete]
      rw [Nat.zero_add] at below
      exact ⟨(visits_encode_iff complete).mpr starts, below, ahead⟩

/-- The stream of closed code is well formed if there is enough of everything. -/
theorem Fragment.Closed.wellFormed {stock : Stock}
    (constants : compiler.constants.size ≤ stock.constants)
    (locals : compiler.scope.isGlobal = false → compiler.scope.definitions ≤ stock.locals)
    {slots : List Nat} (touches : code.encode.Touches slots)
    (globals : ∀ slot ∈ slots, slot < stock.globals) : code.encode.WellFormed stock where
  ends := by
    have last := starts_end code 0
    rw [Nat.zero_add, ← size_encode complete] at last
    exact (visits_encode_iff complete).mpr last
  reads := by
    intro offset visits below
    obtain ⟨instruction, has⟩ : ∃ instruction, code.Has 0 offset instruction := by
      rcases Instruction.Starts.has ((visits_encode_iff complete).mp visits) with last | found
      · rw [Nat.zero_add, ← code.size_eq, ← size_encode complete] at last
        omega
      · exact found
    have decoded := decode_of_has complete has
    have whole : instruction.Complete := complete instruction has.starts.1
    refine ⟨_, _, decoded, Instruction.complete_fitted whole, fun operand member => ?_⟩
    obtain ⟨written, same, rfl⟩ := Instruction.mem_fitted whole member
    obtain ⟨opcode, operands⟩ := instruction
    obtain rfl : operands = [written] := congrArg Instruction.operands same
    have suits := closed.suits offset _ has written (List.mem_singleton_self _)
    have fewer : written % 256 ^ opcode.operandSize ≤ written := Nat.mod_le _ _
    have touched : ∀ slot, (Instruction.fitted ⟨opcode, [written]⟩).slot? = some slot →
        slot < stock.globals := by
      obtain ⟨instructions, reads, rfl⟩ := touches
      exact fun slot named =>
        globals slot (List.mem_filterMap.mpr ⟨_, visits.mem_of_decodes reads decoded, named⟩)
    have jumps : (Instruction.fitted ⟨opcode, [written]⟩).target? =
        some (written % 256 ^ opcode.operandSize) →
        code.encode.Visits (written % 256 ^ opcode.operandSize) ∧
          written % 256 ^ opcode.operandSize < code.encode.size := fun leads =>
      have lands := closed.jumps complete visits decoded leads
      ⟨lands.1, lands.2.1⟩
    cases opcode with
    | constant => exact Nat.lt_of_le_of_lt fewer (Nat.lt_of_lt_of_le suits constants)
    | getLocal | setLocal =>
        exact Nat.lt_of_le_of_lt fewer (Nat.lt_of_lt_of_le suits.2 (locals suits.1))
    | getBuiltin => exact Nat.lt_of_le_of_lt fewer suits
    | getGlobal | setGlobal => exact touched _ rfl
    | jump | jumpNotTruthy => exact jumps rfl
    | _ => trivial

/-- No jump of closed code leads back if there are no loops. -/
theorem Fragment.Closed.forward (never : ¬loops) : code.encode.Forward := by
  intro offset instruction width target visits found leads
  obtain ⟨-, -, ahead⟩ := closed.jumps complete visits found leads
  exact ahead.resolve_left never

end Closed

/-! ## Functions -/

open Compiling Stateful in
/-- The last thing that the body of a function does is to leave it. -/
theorem Compiling.leave_ends : ∀ (body : List Statement) (start : Nat) (before : Fragment)
    {compiler next : Compiler} {code : Fragment},
    statements .leave body start before compiler = .ok code next →
    ∃ (rest : Fragment) (opcode : Opcode), (opcode = .returnValue ∨ opcode = .returnNull) ∧
      code = rest.push ⟨opcode, []⟩
  | [], start, before, compiler, next, code, ran => by
      simp only [statements, pure_eq_ok] at ran
      exact ⟨before, .returnNull, .inr rfl, ran.1.symm⟩
  | [.expression value span], start, before, compiler, next, code, ran => by
      simp only [statements, bind_eq_ok, pure_eq_ok] at ran
      obtain ⟨last, _, -, rfl, -⟩ := ran
      exact ⟨before ++ last, .returnValue, .inl rfl, rfl⟩
  | [.leave value span], start, before, compiler, next, code, ran => by
      simp only [statements, bind_eq_ok, pure_eq_ok] at ran
      obtain ⟨last, _, departed, rfl, -⟩ := ran
      cases value with
      | none =>
          obtain ⟨-, rfl, -⟩ := departure_none_eq_ok.mp departed
          exact ⟨before ++ .single .null [], .returnValue, .inl rfl, (Fragment.append_push ..).symm⟩
      | some value =>
          obtain ⟨-, inner, -, rfl⟩ := departure_some_eq_ok.mp departed
          exact ⟨before ++ inner, .returnValue, .inl rfl, (Fragment.append_push ..).symm⟩
  | [.bind bound], start, before, compiler, next, code, ran => by
      simp only [statements, bind_eq_ok, pure_eq_ok] at ran
      obtain ⟨last, _, -, rfl, -⟩ := ran
      exact ⟨before ++ last, .returnNull, .inr rfl, rfl⟩
  | first :: second :: rest, start, before, compiler, next, code, ran => by
      simp only [statements, bind_eq_ok] at ran
      obtain ⟨last, _, -, ran⟩ := ran
      exact leave_ends (second :: rest) start (before ++ last) ran

/-- A function that comes from a routine is well formed if what it touches are global slots. -/
theorem CompiledAs.wellFormed {routine : Routine} {body : Function} {constants : Array Value}
    (compiled : CompiledAs routine body constants) {slots : List Nat}
    (touches : body.code.Touches slots) {globals : Nat} (few : ∀ slot ∈ slots, slot < globals) :
    body.WellFormed constants.size globals := by
  have fewer := compiled.few
  obtain ⟨before, after, code, ran, reads, inner, parameters, locals, definitions, roomy, complete,
    stream, within⟩ := compiled
  obtain ⟨-, -, closed⟩ := statements_made True (.inl trivial) reads ran
  refine ⟨?_, ?_, fewer, ?_⟩
  · rw [stream] at touches ⊢
    refine closed.wellFormed complete within.size_le (fun _ => ?_) touches few
    exact Nat.le_of_eq (definitions.trans locals.symm)
  · rw [parameters, locals]
    exact roomy
  · obtain ⟨rest, opcode, leaves, rfl⟩ := Compiling.leave_ends routine.body 0 .empty ran
    have has : (rest.push ⟨opcode, []⟩).Has 0 (0 + rest.size) ⟨opcode, []⟩ :=
      Fragment.has_push.mpr (.inr ⟨rfl, rfl⟩)
    have decoded := Fragment.decode_of_has complete has
    have visits := (Fragment.visits_encode_iff complete).mpr has.starts.2.1
    refine ⟨0 + rest.size, opcode, leaves, ?_, ?_, ?_⟩
    · rwa [stream]
    · rw [stream, decoded]
      rcases leaves with rfl | rfl <;> rfl
    · rw [stream, Fragment.size_encode complete, Fragment.size_push, Nat.zero_add]
      rcases leaves with rfl | rfl <;> rfl

/-- A function that comes from a routine without loops has no jump that leads back. -/
theorem CompiledAs.forward {routine : Routine} {body : Function} {constants : Array Value}
    (compiled : CompiledAs routine body constants)
    (free : Statement.haveLoop routine.body = false) : body.code.Forward := by
  obtain ⟨before, after, code, ran, reads, inner, parameters, locals, definitions, roomy, complete,
    stream, within⟩ := compiled
  obtain ⟨-, -, closed⟩ := statements_made False (.inr free) reads ran
  rw [stream]
  exact closed.forward complete not_false

/-! ## Programs -/

namespace Compiler

/-- What a compiler makes of a program is well formed, whatever it has compiled before. -/
theorem History.wellFormed {history : History} {program : Program} {compiled : CompiledProgram}
    {next : Compiler} {walk : Walk} {routines : Nat → Routine}
    (reads : Reads walk history.compiler) (linked : Linked routines compiled.constants)
    (compiles : history.compiler.compile program = (.ok compiled, next)) :
    compiled.WellFormed next.scope.definitions := by
  have uses := uses_slot compiles
  have few : ∀ symbol, history.Mentions program compiled symbol →
      symbol.slot < next.scope.definitions := by
    intro symbol mentioned
    have known := knows_of_mentions compiles mentioned
    exact Nat.lt_of_le_of_lt (Nat.mod_le _ _)
      (index_lt_of_knows (grows_of_compile compiles) known)
  obtain ⟨code, ran, rfl⟩ := compile_eq_ok.mp compiles
  have arrived := statements_follows False .discard program.statements 0 .empty
    Fragment.complete_empty walk history.compiler ⟨reads, False.elim⟩
  rw [ran] at arrived
  obtain ⟨-, grows, closed⟩ := statements_made True (.inl trivial) reads ran
  constructor
  · refine closed.wellFormed arrived.1 (Nat.le_refl _) (fun inner => ?_) uses.own ?_
    · rw [grows.isGlobal.trans history.kept.isGlobal] at inner
      cases inner
    · intro slot member
      obtain ⟨symbol, used, rfl⟩ := List.mem_map.mp member
      exact few symbol (.inl used)
  · intro body member
    obtain ⟨number, found⟩ := Array.getElem?_of_mem member
    refine (linked.compiledAt found).wellFormed (uses.functions number body found) ?_
    intro slot member
    obtain ⟨symbol, used, rfl⟩ := List.mem_map.mp member
    exact few symbol (.inr ⟨number, body, found, used⟩)

variable {program : Program} {compiled : CompiledProgram} {next : Compiler}

/-- The functions of a program that a new compiler has compiled come from the routines that the walk
through the program knows. -/
theorem linked_of_compile (compiles : new.compile program = (.ok compiled, next)) :
    Linked (Statement.walkAll program.statements ⟨new.scope, 0, fun _ => .idle⟩).routines
      compiled.constants := by
  obtain ⟨code, ran, rfl⟩ := compile_eq_ok.mp compiles
  have arrived := statements_follows True .discard program.statements 0 .empty
    Fragment.complete_empty _ new ⟨reads_new fun _ => .idle, fun _ => linked_empty⟩
  rw [ran] at arrived
  exact arrived.2.1.linked trivial

/-- A program without loops has no jump that leads back, and neither have its functions. -/
theorem forward_of_compile (compiles : new.compile program = (.ok compiled, next))
    (free : Statement.haveLoop program.statements = false) :
    compiled.code.Forward ∧ ∀ body, .function body ∈ compiled.constants → body.code.Forward := by
  have linked := linked_of_compile compiles
  have none : Walk.LoopFree ⟨new.scope, 0, fun _ => .idle⟩ := fun _ => rfl
  have without := Statement.walkAll_loopFree program.statements none free
  obtain ⟨code, ran, rfl⟩ := compile_eq_ok.mp compiles
  constructor
  · have arrived := statements_follows False .discard program.statements 0 .empty
      Fragment.complete_empty _ new ⟨reads_new fun _ => .idle, False.elim⟩
    rw [ran] at arrived
    obtain ⟨-, -, closed⟩ := statements_made False (.inr free) (reads_new fun _ => .idle) ran
    exact closed.forward arrived.1 not_false
  · intro body member
    obtain ⟨number, comes⟩ := linked.comes member
    exact comes.forward (without number)

theorem wellFormed_of_new (program : Program) :
    (∃ compiled next, new.compile program = (.ok compiled, next) ∧ next.scope.isGlobal = true ∧
        compiled.WellFormed next.scope.definitions) ∨
      ∃ fault next, new.compile program = (.error fault, next) ∧ next.scope.isGlobal = true := by
  have outermost : (new.compile program).2.scope.isGlobal = true :=
    (History.compile .new program).kept.isGlobal
  cases compiles : new.compile program with
  | mk result next =>
  rw [compiles] at outermost
  cases result with
  | ok compiled =>
      have again : History.new.compiler.compile program = (.ok compiled, next) := compiles
      have linked := linked_of_compile compiles
      have formed := History.wellFormed (reads_new fun _ => .idle) linked again
      exact .inl ⟨compiled, next, rfl, outermost, formed⟩
  | error fault => exact .inr ⟨fault, next, rfl, outermost⟩

end Compiler

/-- **A new assembler makes well-formed programs.** Compiling any program with a new assembler comes
to an end without anything out of range, outside of all functions and with one empty buffer, and if
the program is not refused, the compiled program is well formed. -/
theorem Assembler.compile_new_wellFormed (program : Program) :
    (∃ compiled next, new.compile program = (.ok compiled, next) ∧ next.buffers = [.empty] ∧
        next.compiler.scope.isGlobal = true ∧
        compiled.WellFormed next.compiler.scope.definitions) ∨
      ∃ fault next, new.compile program = (.error (.rejected fault), next) ∧
        next.buffers = [.empty] ∧ next.compiler.scope.isGlobal = true := by
  have outer : Compiler.new.scope.isGlobal = true := (Compiler.History.kept .new).isGlobal
  have assembled := compile_start outer program
  rcases Compiler.wellFormed_of_new program with ⟨compiled, next, made, outside, formed⟩ |
    ⟨fault, next, refused, outside⟩
  · rw [made] at assembled
    exact .inl ⟨compiled, start next, assembled, rfl, outside, formed⟩
  · rw [refused] at assembled
    exact .inr ⟨fault, start next, assembled, rfl, outside⟩

end MonkeyLang
