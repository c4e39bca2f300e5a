import MonkeyLang.Proofs.Compiler.Levels
import MonkeyLang.Proofs.Machine.Nesting
import MonkeyLang.Proofs.Session.Safety

/-!
# Calls leave their callers alone

When a program of a session calls a function and the function returns, however many calls, loops and
half evaluated expressions it returns from, the calls that are going on are those from before the
call, the one that called goes on behind the instruction, the value of the function stands where the
function stood, and what is below is as it was (`Session.Reachable.call_restores`). The machine does
not see to this: a function may write any slot of the stack from the first of its own ones on, and
may take as many values as there are. The streams that are compiled take no more than they have put.
-/

set_option autoImplicit false

namespace MonkeyLang

/-- The stream of a complete fragment touches global slots that there can be. -/
theorem Fragment.exists_touches {code : Fragment} (complete : code.Complete) :
    ∃ slots, code.encode.Touches slots ∧ ∀ slot ∈ slots, slot < Limit.globals.bound := by
  refine ⟨_, touches_encode complete, fun slot member => ?_⟩
  obtain ⟨written, -, rfl⟩ := List.mem_map.mp member
  exact Nat.mod_lt written (by decide)

namespace CompiledAs

variable {routine : Routine} {body : Function} {constants : Array Value}

/-- A function that comes from a routine is well formed with the global slots that there can be. -/
theorem formed (compiled : CompiledAs routine body constants) :
    body.WellFormed constants.size Limit.globals.bound := by
  obtain ⟨slots, touches, few⟩ : ∃ slots, body.code.Touches slots ∧
      ∀ slot ∈ slots, slot < Limit.globals.bound := by
    obtain ⟨-, -, code, -, -, -, -, -, -, -, complete, stream, -⟩ := compiled
    rw [stream]
    exact code.exists_touches complete
  exact compiled.wellFormed touches few

/-- The stream of a function that comes from a routine is well formed and balanced. -/
theorem orderly (compiled : CompiledAs routine body constants) : body.code.Orderly :=
  ⟨⟨_, compiled.formed.code⟩, compiled.balanced⟩

end CompiledAs

namespace Session

variable {session : Session} {limits : Limits} {program : Program} {compiled : CompiledProgram}
  {next : Compiler}

/-- The stream of a program in a session is well formed and balanced. -/
theorem Sound.orderly (sound : session.Sound)
    (made : session.compiler.compile program = (.ok compiled, next)) : compiled.code.Orderly := by
  obtain ⟨routines, linked⟩ := sound.linked
  have reads := sound.reads routines
  obtain ⟨code, ran, rfl⟩ := Compiler.compile_eq_ok.mp made
  have arrived := statements_follows True .discard program.statements 0 .empty
    Fragment.complete_empty _ session.compiler ⟨reads, fun _ => linked⟩
  rw [ran] at arrived
  obtain ⟨-, grows, closed⟩ := statements_made True (.inl trivial) reads ran
  obtain ⟨slots, touches, few⟩ := code.exists_touches arrived.1
  refine ⟨⟨⟨next.constants.size, Limit.globals.bound, 0⟩, ?_⟩,
    Compiling.statements_balanced ran arrived.1⟩
  refine closed.wellFormed arrived.1 (Nat.le_refl _) (fun inner => ?_) touches few
  rw [grows.isGlobal.trans sound.isGlobal] at inner
  cases inner

/-- All streams of a program in a session are well formed and balanced, those of earlier programs
among them. -/
theorem Sound.tracked_loaded (sound : session.Sound)
    (made : session.compiler.compile program = (.ok compiled, next)) (limits : Limits) :
    (Machine.loaded compiled limits session.globals).Tracked Code.Orderly := by
  obtain ⟨routines, linked⟩ := sound.linked
  obtain ⟨all, within⟩ := sound.compiled linked made
  have functions : ∀ body, .function body ∈ compiled.constants → body.code.Orderly := by
    intro body member
    obtain ⟨number, comes⟩ := all.comes member
    exact comes.orderly
  refine Machine.tracked_loaded (sound.orderly made) functions ?_
  exact knows_loaded all fun value member => (sound.globals value member).mono within

end Session

/-- After a call with a number of arguments the calls are those from before, the innermost one goes
on behind the call, the value stands where the function stood, and what is below is as it was. -/
structure Machine.Restores (before after : Machine) (arguments behind : Nat) (value : Value) :
    Prop where
  callers : after.callers = before.callers
  frame : after.frame = { before.frame with position := behind }
  height : after.height = before.height - (arguments + 1) + 1
  result : after.stack[before.height - (arguments + 1)]? = some value
  below : ∀ index < before.height - (arguments + 1), after.stack[index]? = before.stack[index]?

/-- A call of a function that is left again restores the calls and the stack. -/
theorem Machine.Tracked.restores {before entered after : Machine} {arguments behind count : Nat}
    (tracked : before.Tracked Code.Orderly) (fits : before.height ≤ before.stack.size)
    (fetched : before.frame.fetch = .instruction .call arguments behind)
    (stepped : Operation.step before = .ok .goesOn entered) (enters : before.depth < entered.depth)
    (reaches : Reaches count entered after)
    (deeper : ∀ fewer between, fewer < count → Reaches fewer entered between →
      before.depth < between.depth)
    (back : after.depth ≤ before.depth) :
    ∃ body fewer last value, arguments + 1 ≤ before.height ∧
      before.stack[before.height - (arguments + 1)]? = some (.function body) ∧
      count = fewer + 1 ∧ Reaches fewer entered last ∧ last.Returns value ∧
      before.Restores after arguments behind value := by
  have depths : ∀ machine : Machine, machine.depth = machine.callers.size + 1 := fun _ => rfl
  cases Operation.step_effect fits stepped with
  | onward _ _ _ callers _ =>
      rw [depths, depths, callers] at enters
      exact absurd enters (Nat.lt_irrefl _)
  | leaves _ callers _ _ _ =>
      rw [depths, depths, callers, Array.size_push] at enters
      omega
  | @enters operand other body again enough callee frame callers height room below =>
      obtain ⟨-, rfl, rfl⟩ := Fetched.instruction.inj (fetched.symm.trans again)
      have following := tracked.step (fun _ => And.left) stepped
      have orderly : body.code.Orderly := by
        have stream := following.innermost.stream
        rwa [frame] at stream
      have nesting : Nesting (before.callers.push { before.frame with position := behind })
          (before.height - arguments) entered.callers entered.frame entered.height := by
        rw [callers, frame, height]
        exact .own rfl (.starts orderly _)
      obtain ⟨fewer, last, value, rfl, reached, ends, kept⟩ :=
        nesting.returns following room reaches
          (fun fewer between less reached => by
            rw [Array.size_push]
            exact Nat.le_of_lt_succ (deeper fewer between less reached))
          (by rw [Array.size_push]; exact back)
      have slot : before.height - arguments - 1 = before.height - (arguments + 1) :=
        Nat.sub_sub _ _ _
      obtain ⟨returns, outermost, top, result, others⟩ := ends
      rw [slot] at top result others
      obtain ⟨place, same⟩ := Array.push_eq_push.mp outermost
      refine ⟨body, fewer, last, value, enough, callee, rfl, reached, returns, same.symm,
        place.symm, top, result, fun index low => ?_⟩
      rw [others index (Nat.ne_of_lt low), kept index (by omega), below index (by omega)]

namespace Session

/-- **A call cannot disturb its caller.** Whenever a step of a program in a session enters a
function, and the run comes back to as few calls as there were, the step that comes back leaves the
function with a value and restores what the call has found. -/
theorem Reachable.call_restores {session : Session} {limits : Limits}
    (reachable : Reachable limits session) {program : Program} {compiled : CompiledProgram}
    {next : Compiler} (made : session.compiler.compile program = (.ok compiled, next))
    {steps : Nat} {before entered after : Machine}
    (came : Machine.Reaches steps (.loaded compiled limits session.globals) before)
    {arguments behind : Nat}
    (fetched : before.frame.fetch = .instruction .call arguments behind)
    (stepped : Operation.step before = .ok .goesOn entered) (enters : before.depth < entered.depth)
    {count : Nat} (reaches : Machine.Reaches count entered after)
    (deeper : ∀ fewer between, fewer < count → Machine.Reaches fewer entered between →
      before.depth < between.depth)
    (back : after.depth ≤ before.depth) :
    ∃ body fewer last value, arguments + 1 ≤ before.height ∧
      before.stack[before.height - (arguments + 1)]? = some (.function body) ∧
      count = fewer + 1 ∧ Machine.Reaches fewer entered last ∧ last.Returns value ∧
      before.Restores after arguments behind value := by
  have started := reachable.sound.tracked_loaded made limits
  have tracked := started.reaches (fun _ => And.left) came
  have fits := came.fits (Nat.zero_le _)
  exact tracked.restores fits fetched stepped enters reaches deeper back

/-- A function that returns from a loop, from the middle of a sum, and is called in the middle of
another sum: `var f = func(a) { while (true) { 1 + if (true) { return a; } } }; 5 + f(7);`. -/
def escaping : Program :=
  let name (text : String) : Name := ⟨text, .dummy⟩
  let number (value : Int64) : Expression := .literal (.integer value) .dummy
  let early : Expression :=
    .conditional (.literal (.boolean true) .dummy)
      (.mk [.leave (some (.name (name "a"))) .dummy] .dummy) none .dummy
  let loop : Expression :=
    .whileLoop (.literal (.boolean true) .dummy)
      (.mk [.expression (.binary .add (number 1) early .dummy) .dummy] .dummy) .dummy
  let escape : Expression := .function [name "a"] (.mk [.expression loop .dummy] .dummy) .dummy
  let called : Expression := .call (.name (name "f")) [number 7] .dummy
  ⟨[.bind (.mk (name "f") escape .dummy),
    .expression (.binary .add (number 5) called .dummy) .dummy]⟩

/-- What a new compiler makes of it. -/
def escapingCode : CompiledProgram :=
  ((new ⟨8, 4, 4⟩).compiler.compile escaping).1.toOption.getD ⟨#[], #[]⟩

/-- The machine that runs it, after some steps. -/
def escapingAfter (steps : Nat) : Machine :=
  (Machine.loaded escapingCode ⟨8, 4, 4⟩ (new ⟨8, 4, 4⟩).globals).advance steps

theorem compile_escaping :
    ∃ next, (new ⟨8, 4, 4⟩).compiler.compile escaping = (.ok escapingCode, next) := by
  have accepted : ((new ⟨8, 4, 4⟩).compiler.compile escaping).1.toOption.isSome = true := by
    decide +kernel
  rw [escapingCode]
  cases compiles : (new ⟨8, 4, 4⟩).compiler.compile escaping with
  | mk result next =>
      rw [compiles] at accepted
      cases result with
      | ok compiled => exact ⟨next, rfl⟩
      | error fault => cases accepted

theorem call_restores_escaping :
    (escapingAfter 5).frame.fetch = .instruction .call 1 17 ∧
      Operation.step (escapingAfter 5) = .ok .goesOn (escapingAfter 6) ∧
      Machine.Reaches 7 (escapingAfter 6) (escapingAfter 13) ∧
      ∃ value, (escapingAfter 5).Restores (escapingAfter 13) 1 17 value := by
  obtain ⟨next, made⟩ := compile_escaping
  have came : Machine.Reaches 5 _ (escapingAfter 5) := .of_running (by decide +kernel)
  obtain ⟨fetched, enters, back⟩ : (escapingAfter 5).frame.fetch = .instruction .call 1 17 ∧
      (escapingAfter 5).depth < (escapingAfter 6).depth ∧
      (escapingAfter 13).depth ≤ (escapingAfter 5).depth := by
    decide +kernel
  have stepped : Operation.step (escapingAfter 5) = .ok .goesOn (escapingAfter 6) :=
    Machine.Reaches.step_of_running (by decide +kernel)
  have entered : Machine.Reaches 6 _ (escapingAfter 6) := .of_running (by decide +kernel)
  have last : escapingAfter 13 = (escapingAfter 6).advance 7 := entered.advance 7
  have reaches : Machine.Reaches 7 (escapingAfter 6) (escapingAfter 13) := by
    rw [last]
    exact .of_running (by decide +kernel)
  have deeper : ∀ fewer between, fewer < 7 → Machine.Reaches fewer (escapingAfter 6) between →
      (escapingAfter 5).depth < between.depth := by
    have all : ∀ fewer < 7, (escapingAfter 5).depth < ((escapingAfter 6).advance fewer).depth := by
      decide +kernel
    intro fewer between few reached
    rw [← reached.advance_eq]
    exact all fewer few
  obtain ⟨-, -, -, value, -, -, -, -, -, restores⟩ := Reachable.call_restores .new made came fetched
    stepped enters reaches deeper back
  exact ⟨fetched, stepped, reaches, value, restores⟩

end Session

end MonkeyLang
