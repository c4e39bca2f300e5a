import MonkeyLang.Proofs.Simulation.Code

/-!
# The machine follows the evaluator

The code of every part of a program does what the evaluator does with that part. Each form of
expressions has a lemma that assumes this of its parts (`Host.Computes`), and the proof for all of
them goes along the tree. What a call comes to is assumed (`Host.Calls`), and follows for all calls
by induction on the fuel, since the body of a function is evaluated with less of it.
-/

set_option autoImplicit false

namespace MonkeyLang

/-- What the machine does at a call of a function is what the evaluator does. -/
def Host.Calls (host : Host) (bound : Nat) (invoke : Nat → List Value → Evaluating Value) : Prop :=
  ∀ (call : Activation) (position held : Nat) (waiting arguments : List Value) (callee : Function),
    call.code.Holds position ⟨.call, [arguments.length]⟩ →
    arguments.length ≤ Limit.callArguments.bound → held = call.floor + waiting.length →
    host.Simulates call bound held
      (host.At call position (waiting ++ .function callee :: arguments))
      (invoke callee.identity arguments) fun result =>
      host.At call (position + 2) (waiting ++ [result])

section

open Host Fragment Stateful Evaluating

variable {host : Host} {call : Activation} {bound : Nat}

/-! ## Constants -/

theorem constant_simulated {value : Value} {index position held : Nat} {waiting : List Value}
    (found : host.constants[index]? = some (host.link value))
    (few : index < Limit.constants.bound)
    (holds : call.code.Holds position ⟨.constant, [index]⟩)
    (count : held = call.floor + waiting.length) :
    host.Simulates call bound held (host.At call position waiting) (yield value) fun result =>
      host.At call (position + 3) (waiting ++ [result]) := by
  have operand : (⟨.constant, [index]⟩ : Instruction).operand = index :=
    Instruction.operand_of_lt few
  refine Simulates.push holds count fun machine constants => ?_
  rw [operand]
  refine Operation.going_congr ?_
  simp only [Operation.pushConstant, constants, found]

theorem literal_simulated {value : Literal} {span : Span} {compiler next : Compiler}
    {code : Fragment} {start held : Nat} {waiting : List Value}
    (ran : Compiling.literal value span compiler = .ok code next)
    (serves : Serves host call next) (stands : code.StandsAt call.code start)
    (count : held = call.floor + waiting.length) :
    host.Simulates call bound held (host.At call start waiting) (yield value.value) fun result =>
      host.At call (start + code.size) (waiting ++ [result]) := by
  have constant : ∀ value : Value, host.link value = value →
      Compiling.constant value span compiler = .ok code next →
      host.Simulates call bound held (host.At call start waiting) (yield value) fun result =>
        host.At call (start + code.size) (waiting ++ [result]) := by
    intro value same made
    obtain ⟨few, rfl, rfl⟩ := Compiling.constant_eq_ok.mp made
    rw [single_eq_push, standsAt_push] at stands
    refine constant_simulated (serves.constants _ _ ?_) few stands.2 count
    rw [same, Array.getElem?_push_size]
  cases value with
  | integer value => exact constant (.integer value) rfl ran
  | float value => exact constant (.float value) rfl ran
  | string value => exact constant (.string value) rfl ran
  | boolean value =>
      cases value with
      | true =>
          obtain ⟨rfl, rfl⟩ := pure_eq_ok.mp ran
          rw [single_eq_push, standsAt_push] at stands
          exact Simulates.push stands.2 count fun _ _ => rfl
      | false =>
          obtain ⟨rfl, rfl⟩ := pure_eq_ok.mp ran
          rw [single_eq_push, standsAt_push] at stands
          exact Simulates.push stands.2 count fun _ _ => rfl

theorem null_simulated {position held : Nat} {waiting : List Value}
    (holds : call.code.Holds position ⟨.null, []⟩) (count : held = call.floor + waiting.length) :
    host.Simulates call bound held (host.At call position waiting) (yield .null) fun result =>
      host.At call (position + 1) (waiting ++ [result]) :=
  Simulates.push holds count fun _ _ => rfl

/-- A function literal. -/
theorem function_simulated {name : Option String} {parameters : List Name} {span : Span}
    {body : Block} {walk : Walk} {compiler next : Compiler} {code : Fragment} {start held : Nat}
    {waiting : List Value}
    (ran : Compiling.function name parameters span body compiler = .ok code next)
    (reads : Reads walk compiler) (serves : Serves host call next)
    (stands : code.StandsAt call.code start) (count : held = call.floor + waiting.length) :
    host.Simulates call bound held (host.At call start waiting)
      (yield (Evaluator.functionValue name parameters body walk)) fun result =>
      host.At call (start + code.size) (waiting ++ [result]) := by
  obtain ⟨body, bodySpan⟩ := body
  obtain ⟨entered, inner, stream, bound, made, few, rfl, rfl⟩ := Compiling.function_eq_ok ran
  obtain ⟨-, opened, -⟩ := (Follows.parameters parameters).of_ok reads.enter bound
  obtain ⟨-, closed, -⟩ :=
    (statements_follows False .leave body 0 .empty complete_empty _).of_ok opened made
  rw [single_eq_push, standsAt_push] at stands
  have found := serves.constants _ _ Array.getElem?_push_size
  refine constant_simulated ?_ few stands.2 count
  have number : (Statement.walkAll body (walk.enter parameters)).number = inner.constants.size :=
    closed.number
  simp only [Evaluator.functionValue, link, Value.linked, Value.mapFunctions, Function.relinked,
    functionAt, number, found]

/-! ## Lists of statements -/

/-- What is done with the value of the last statement. -/
def Ending.conclude : Ending → Option Value → Evaluating (Option Value)
  | keep, last => do return some (← Evaluator.branchValue last)
  | discard, last | leave, last => pure last

theorem Ending.bind_conclude_discard (evaluation : Evaluating (Option Value)) :
    evaluation >>= Ending.discard.conclude = evaluation :=
  bind_pure evaluation

theorem Ending.bind_conclude_leave (evaluation : Evaluating (Option Value)) :
    evaluation >>= Ending.leave.conclude = evaluation :=
  bind_pure evaluation

/-- Where the machine is behind the last statement. -/
def Ending.arrives (host : Host) (call : Activation) (position : Nat) (waiting : List Value) :
    Ending → Option Value → Host.Assertion
  | discard, last => host.Behind call position waiting last
  | keep, last => host.At call position (waiting ++ [last.getD .null])
  | leave, last => host.Left call (last.getD .null)

/-- The instructions behind a list of statements whose last one is no expression. -/
theorem behindOther_simulated {ending : Ending} {before : Fragment} {start held : Nat}
    {waiting : List Value} (returns : ending = .leave → call.Inner)
    (stands : (before.emitAll ending.behindOther).StandsAt call.code start)
    (count : held = call.floor + waiting.length) :
    host.Simulates call bound held (host.At call (start + before.size) waiting)
      (ending.conclude none)
      (ending.arrives host call (start + (before.emitAll ending.behindOther).size) waiting) := by
  cases ending with
  | discard =>
      exact Simulates.ready fun _ _ there => ⟨there, fun _ none => nomatch none⟩
  | keep =>
      simp only [Ending.behindOther, emitAll_cons, emitAll_nil, standsAt_push] at stands
      exact (null_simulated stands.2 count).bind fun value => Simulates.ready fun _ _ there => there
  | leave =>
      simp only [Ending.behindOther, emitAll_cons, emitAll_nil, standsAt_push] at stands
      exact Simulates.silent (silently_returnNull (returns rfl) stands.2)

/-- The instructions behind a list of statements whose last one is an expression. -/
theorem behindExpression_simulated {ending : Ending} {before : Fragment} {start held : Nat}
    {waiting : List Value} {value : Value} (returns : ending = .leave → call.Inner)
    (stands : (before.emitAll ending.behindExpression).StandsAt call.code start) :
    host.Simulates call bound held (host.At call (start + before.size) (waiting ++ [value]))
      (ending.conclude (some value))
      (ending.arrives host call (start + (before.emitAll ending.behindExpression).size)
        waiting) := by
  cases ending with
  | discard =>
      simp only [Ending.behindExpression, emitAll_cons, emitAll_nil, standsAt_push] at stands
      exact Simulates.silent (silently_pop stands.2)
  | keep =>
      exact (Simulates.pure fun value => host.At call (start + before.size) (waiting ++ [value])).bind
        fun value => Simulates.ready fun _ _ there => there
  | leave =>
      simp only [Ending.behindExpression, emitAll_cons, emitAll_nil, standsAt_push] at stands
      exact Simulates.silent (silently_returnValue (returns rfl) stands.2)

/-! ## Branches and loops -/

section

variable {start tested chosen other stop held : Nat} {waiting : List Value}
  {condition : Evaluating Value}

/-- A condition decides between two parts of the code. -/
theorem conditional_simulated {consequence alternative : Evaluating Value}
    (branches : call.code.Holds tested ⟨.jumpNotTruthy, [other]⟩)
    (joins : call.code.Holds chosen ⟨.jump, [stop]⟩)
    (small : other ≤ Limit.instructionBytes.bound) (within : stop ≤ Limit.instructionBytes.bound)
    (tests : host.Simulates call bound held (host.At call start waiting) condition fun value =>
      host.At call tested (waiting ++ [value]))
    (chooses : host.Simulates call bound held (host.At call (tested + 3) waiting) consequence
      fun value => host.At call chosen (waiting ++ [value]))
    (falls : host.Simulates call bound held (host.At call other waiting) alternative fun value =>
      host.At call stop (waiting ++ [value])) :
    host.Simulates call bound held (host.At call start waiting)
      (do
        let test ← condition
        if test.isTruthy then consequence else alternative) fun value =>
      host.At call stop (waiting ++ [value]) := by
  refine tests.bind fun test => ?_
  have jumps : Silently (host.At call tested (waiting ++ [test]))
      (host.At call (if test.isTruthy then tested + 3 else other) waiting) :=
    silently_jumpNotTruthy branches small
  split
  · next truthy =>
      rw [if_pos truthy] at jumps
      exact ((chooses.behind fun value => silently_jump joins within).step jumps).mono
        (Nat.le_succ bound)
  · next falsy =>
      rw [if_neg falsy] at jumps
      exact (falls.step jumps).mono (Nat.le_succ bound)

/-- Turns are taken as long as a condition holds. -/
theorem loop_simulated {pass : Evaluating Bool}
    (branches : call.code.Holds tested ⟨.jumpNotTruthy, [stop]⟩)
    (joins : call.code.Holds chosen ⟨.jump, [start]⟩)
    (small : start ≤ Limit.instructionBytes.bound) (within : stop ≤ Limit.instructionBytes.bound)
    (tests : host.Simulates call bound held (host.At call start waiting) condition fun value =>
      host.At call tested (waiting ++ [value]))
    (passes : host.Simulates call bound held (host.At call (tested + 3) waiting) pass fun more =>
      if more then host.At call chosen waiting else host.At call stop waiting) :
    host.Simulates call bound held (host.At call start waiting)
      (loop bound do
        let test ← condition
        if test.isTruthy then pass else return false) fun _ =>
      host.At call stop waiting := by
  refine Simulates.loop (tests.bind fun test => ?_) (silently_jump joins small) (Nat.le_refl bound)
  have jumps : Silently (host.At call tested (waiting ++ [test]))
      (host.At call (if test.isTruthy then tested + 3 else stop) waiting) :=
    silently_jumpNotTruthy branches within
  split
  · next truthy =>
      rw [if_pos truthy] at jumps
      exact (passes.step jumps).mono (Nat.le_succ bound)
  · next falsy =>
      rw [if_neg falsy] at jumps
      exact Simulates.silent jumps

end

theorem branch_of_block {evaluation : Evaluating (Option Value)} {before : Assertion}
    {position held : Nat} {waiting : List Value}
    (simulates : host.Simulates call bound held before (evaluation >>= Ending.keep.conclude)
      (Ending.keep.arrives host call position waiting)) :
    host.Simulates call bound held before (do Evaluator.branchValue (← evaluation)) fun result =>
      host.At call position (waiting ++ [result]) := by
  have split : evaluation >>= Ending.keep.conclude =
      (evaluation >>= Evaluator.branchValue) >>= fun result => pure (some result) := by
    rw [bind_assoc]
    rfl
  rw [split] at simulates
  exact simulates.of_map

theorem pass_of_block {evaluation : Evaluating (Option Value)} {before : Assertion}
    {position held : Nat} {waiting : List Value}
    (simulates : host.Simulates call bound held before (evaluation >>= Ending.discard.conclude)
      (Ending.discard.arrives host call position waiting)) :
    host.Simulates call bound held before evaluation fun _ => host.At call position waiting := by
  rw [Ending.bind_conclude_discard] at simulates
  exact simulates.relax fun _ _ _ behind => behind.at

/-! ## Code in its place -/

/-- Code that a part of the compiler made where the walk reads it, in a call that it serves. -/
structure Made (host : Host) (call : Activation) (work : Compiling Fragment) (walk : Walk)
    (start : Nat) (code : Fragment) (compiler next : Compiler) : Prop where
  ran : work compiler = .ok code next
  reads : Reads walk compiler
  serves : Serves host call next
  stands : code.StandsAt call.code start

theorem more_held {held : Nat} {waiting : List Value} (count : held = call.floor + waiting.length)
    (value : Value) : held + 1 = call.floor + (waiting ++ [value]).length := by
  rw [List.length_append, List.length_singleton, count, Nat.add_assoc]

variable {invoke : Nat → List Value → Evaluating Value}

namespace Host

section

variable (host : Host) (call : Activation) (bound : Nat)

/-- Wherever a part of the compiler puts its code, the machine gets through it as an evaluation
says. -/
def Carries {α : Type} (work : Nat → Compiling Fragment) (evaluation : Walk → Evaluating α)
    (arrives : Nat → List Value → α → Assertion) : Prop :=
  ∀ ⦃walk : Walk⦄ ⦃compiler next : Compiler⦄ ⦃code : Fragment⦄ ⦃start held : Nat⦄
    ⦃waiting : List Value⦄,
    Made host call (work start) walk start code compiler next →
    held = call.floor + waiting.length →
    host.Simulates call bound held (host.At call start waiting) (evaluation walk)
      (arrives (start + code.size) waiting)

variable (invoke : Nat → List Value → Evaluating Value)

/-- The code of an expression puts its value above those that wait. -/
def Computes (syntaxTree : Expression) : Prop :=
  host.Carries call bound (Compiling.expression syntaxTree)
    (Evaluator.expression invoke bound syntaxTree)
    fun position waiting result => host.At call position (waiting ++ [result])

/-- The code of expressions, behind other code, puts their values one above the other. -/
def ComputesAll (items : List Expression) : Prop :=
  ∀ ⦃walk : Walk⦄ ⦃compiler next : Compiler⦄ ⦃code before : Fragment⦄ ⦃start held : Nat⦄
    ⦃waiting : List Value⦄,
    Made host call (Compiling.expressions items start before) walk start code compiler next →
    before.Complete → held = call.floor + waiting.length →
    host.Simulates call bound held (host.At call (start + before.size) waiting)
      (Evaluator.expressions invoke bound items walk) fun results store machine =>
      results.length = items.length ∧
        host.At call (start + code.size) (waiting ++ results) store machine

/-- The code of a binding leaves no value. -/
def Binds (binding : Binding) : Prop :=
  host.Carries call bound (Compiling.binding binding) (Evaluator.binding invoke bound binding)
    fun position waiting _ => host.At call position waiting

/-- The code of a block does with the value of the last statement what is done at its end. -/
def Passes (ending : Ending) (body : Block) : Prop :=
  host.Carries call bound (Compiling.block ending body)
    (fun walk => Evaluator.block invoke bound body walk >>= ending.conclude)
    fun position waiting => ending.arrives host call position waiting

end

/-! ## Forms of expressions -/

namespace Computes

theorem literal (value : Literal) (span : Span) :
    host.Computes call bound invoke (.literal value span) := by
  rintro walk compiler next code start held waiting ⟨ran, reads, serves, stands⟩ count
  simp only [Compiling.expression] at ran
  simp only [Evaluator.expression]
  exact literal_simulated ran serves stands count

theorem name (identifier : Name) : host.Computes call bound invoke (.name identifier) := by
  rintro walk compiler next code start held waiting ⟨ran, reads, serves, stands⟩ count
  simp only [Compiling.expression, bind_eq_ok, pure_eq_ok] at ran
  obtain ⟨symbol, _, resolved, rfl, rfl⟩ := ran
  obtain ⟨found, -, rfl⟩ := Compiling.resolve_eq_ok.mp resolved
  rw [standsAt_push] at stands
  simp only [Evaluator.expression, reads.resolve? found, size_push, ← Nat.add_assoc]
  exact Simulates.load stands.2 (reads.inReach serves resolved) count

theorem function (parameters : List Name) (body : Block) (span : Span) :
    host.Computes call bound invoke (.function parameters body span) := by
  rintro walk compiler next code start held waiting ⟨ran, reads, serves, stands⟩ count
  simp only [Compiling.expression] at ran
  simp only [Evaluator.expression]
  exact function_simulated ran reads serves stands count

theorem unary (operator : UnaryOperator) {operand : Expression} (span : Span)
    (inside : host.Computes call bound invoke operand) :
    host.Computes call bound invoke (.unary operator operand span) := by
  rintro walk compiler next code start held waiting ⟨ran, reads, serves, stands⟩ count
  simp only [Compiling.expression, bind_eq_ok, pure_eq_ok] at ran
  obtain ⟨inner, _, innerRan, rfl, rfl⟩ := ran
  rw [emit_eq_push, standsAt_push] at stands
  simp only [Evaluator.expression]
  refine (inside ⟨innerRan, reads, serves, stands.1⟩ count).bind fun value => ?_
  have size : (inner.emit operator.opcode []).size = inner.size + 1 := by
    cases operator <;> rfl
  rw [size, ← Nat.add_assoc]
  exact Simulates.unary operator stands.2

/-- Two expressions whose codes stand one behind the other, and what is done with their values. -/
theorem pair {α : Type} {first second : Expression} {walk : Walk}
    {compiler middle next : Compiler} {code more : Fragment} {start held : Nat}
    {waiting : List Value} {combine : Value → Value → Evaluating α} {arrives : α → Assertion}
    (one : host.Computes call bound invoke first) (other : host.Computes call bound invoke second)
    (ran : Compiling.expression first start compiler = .ok code middle)
    (running : Compiling.expression second (start + code.size) middle = .ok more next)
    (reads : Reads walk compiler) (serves : Serves host call next)
    (stands : (code ++ more).StandsAt call.code start)
    (count : held = call.floor + waiting.length)
    (combines : ∀ earlier later, host.Simulates call bound held
      (host.At call (start + (code ++ more).size) (waiting ++ [earlier, later]))
      (combine earlier later) arrives) :
    host.Simulates call bound held (host.At call start waiting)
      (do
        let earlier ← Evaluator.expression invoke bound first walk
        let later ← holding 1 (Evaluator.expression invoke bound second (first.walk walk))
        combine earlier later) arrives := by
  obtain ⟨-, between, -⟩ := (expression_follows False first _ _).of_ok reads ran
  obtain ⟨-, -, grows⟩ := (expression_follows False second _ _).of_ok between running
  obtain ⟨front, back⟩ := standsAt_append.mp stands
  refine (one ⟨ran, reads, serves.of_grows grows, front⟩ count).bind fun earlier => ?_
  refine (Simulates.holding (other ⟨running, between, serves, back⟩
    (more_held count earlier))).bind fun later => ?_
  have combined := combines earlier later
  rw [size_append, ← Nat.add_assoc, List.append_cons] at combined
  exact combined

theorem binary (operator : BinaryOperator) {left right : Expression} (span : Span)
    (one : host.Computes call bound invoke left) (other : host.Computes call bound invoke right) :
    host.Computes call bound invoke (.binary operator left right span) := by
  rintro walk compiler next code start held waiting ⟨ran, reads, serves, stands⟩ count
  simp only [Compiling.expression] at ran
  simp only [Evaluator.expression]
  -- A swapped operator finds its operands in the other order, on the stack as well.
  by_cases swapped : operator.isSwapped = true
  · rw [if_pos swapped] at ran ⊢
    simp only [bind_eq_ok, pure_eq_ok] at ran
    obtain ⟨first, middle, firstRan, second, _, secondRan, rfl, rfl⟩ := ran
    refine other.pair one firstRan secondRan reads serves
      ((begins_emitAll (first ++ second) _).standsAt stands) count fun later earlier => ?_
    have order : [later, earlier] =
        if operator.isSwapped then [later, earlier] else [earlier, later] := (if_pos swapped).symm
    rw [order]
    exact Simulates.binary operator stands
  · rw [if_neg swapped] at ran ⊢
    simp only [bind_eq_ok, pure_eq_ok] at ran
    obtain ⟨first, middle, firstRan, second, _, secondRan, rfl, rfl⟩ := ran
    refine one.pair other firstRan secondRan reads serves
      ((begins_emitAll (first ++ second) _).standsAt stands) count fun earlier later => ?_
    have order : [earlier, later] =
        if operator.isSwapped then [later, earlier] else [earlier, later] := (if_neg swapped).symm
    rw [order]
    exact Simulates.binary operator stands

theorem index {target position : Expression} (span : Span)
    (one : host.Computes call bound invoke target)
    (other : host.Computes call bound invoke position) :
    host.Computes call bound invoke (.index target position span) := by
  rintro walk compiler next code start held waiting ⟨ran, reads, serves, stands⟩ count
  simp only [Compiling.expression, bind_eq_ok, pure_eq_ok] at ran
  obtain ⟨first, middle, firstRan, second, _, secondRan, rfl, rfl⟩ := ran
  rw [emit_eq_push, standsAt_push] at stands
  simp only [Evaluator.expression, emit_eq_push, size_push, ← Nat.add_assoc]
  exact one.pair other firstRan secondRan reads serves stands.1 count fun earlier later =>
    Simulates.combining .index stands.2

/-- A conditional without another case yields null there. -/
theorem conditional {condition : Expression} {consequence : Block} (span : Span)
    (tests : host.Computes call bound invoke condition)
    (chooses : host.Passes call bound invoke .keep consequence) :
    host.Computes call bound invoke (.conditional condition consequence none span) := by
  rintro walk compiler next code start held waiting ⟨ran, reads, serves, stands⟩ count
  simp only [Compiling.expression, bind_eq_ok, pure_eq_ok, Compiling.requireTarget_eq_ok] at ran
  obtain ⟨test, middle, testRan, chosen, _, chosenRan, _, _, ⟨small, rfl⟩, _, _, ⟨rfl, rfl⟩,
    _, _, ⟨within, rfl⟩, rfl, rfl⟩ := ran
  obtain ⟨-, testReads, -⟩ := (expression_follows False condition _ _).of_ok reads testRan
  obtain ⟨-, -, grows⟩ := (block_follows False .keep consequence _ _).of_ok testReads chosenRan
  simp only [emit_eq_push, single_eq_push, standsAt_append, standsAt_push, size_append,
    size_push, ← Nat.add_assoc] at stands ⊢
  obtain ⟨⟨⟨⟨testStands, branches⟩, chosenStands⟩, joins⟩, -, nullStands⟩ := stands
  simp only [Evaluator.expression]
  exact conditional_simulated branches joins small within
    (tests ⟨testRan, reads, serves.of_grows grows, testStands⟩ count)
    (branch_of_block (chooses ⟨chosenRan, testReads, serves, chosenStands⟩ count))
    (null_simulated nullStands count)

theorem alternatives {condition : Expression} {consequence alternative : Block} (span : Span)
    (tests : host.Computes call bound invoke condition)
    (chooses : host.Passes call bound invoke .keep consequence)
    (falls : host.Passes call bound invoke .keep alternative) :
    host.Computes call bound invoke
      (.conditional condition consequence (some alternative) span) := by
  rintro walk compiler next code start held waiting ⟨ran, reads, serves, stands⟩ count
  simp only [Compiling.expression, bind_eq_ok, pure_eq_ok, Compiling.requireTarget_eq_ok] at ran
  obtain ⟨test, middle, testRan, chosen, last, chosenRan, _, _, ⟨small, rfl⟩, other, _, otherRan,
    _, _, ⟨within, rfl⟩, rfl, rfl⟩ := ran
  obtain ⟨-, testReads, -⟩ := (expression_follows False condition _ _).of_ok reads testRan
  obtain ⟨-, chosenReads, chosenGrows⟩ :=
    (block_follows False .keep consequence _ _).of_ok testReads chosenRan
  obtain ⟨-, -, grows⟩ :=
    (block_follows False .keep alternative _ _).of_ok chosenReads otherRan
  simp only [emit_eq_push, standsAt_append, standsAt_push, size_append, size_push,
    ← Nat.add_assoc] at stands ⊢
  obtain ⟨⟨⟨⟨testStands, branches⟩, chosenStands⟩, joins⟩, otherStands⟩ := stands
  simp only [Evaluator.expression]
  exact conditional_simulated branches joins small within
    (tests ⟨testRan, reads, serves.of_grows (chosenGrows.trans grows), testStands⟩ count)
    (branch_of_block (chooses ⟨chosenRan, testReads, serves.of_grows grows, chosenStands⟩ count))
    (branch_of_block (falls ⟨otherRan, chosenReads, serves, otherStands⟩ count))

theorem whileLoop {condition : Expression} {body : Block} (span : Span)
    (tests : host.Computes call bound invoke condition)
    (passes : host.Passes call bound invoke .discard body) :
    host.Computes call bound invoke (.whileLoop condition body span) := by
  rintro walk compiler next code start held waiting ⟨ran, reads, serves, stands⟩ count
  simp only [Compiling.expression, bind_eq_ok, pure_eq_ok, Compiling.requireTarget_eq_ok] at ran
  obtain ⟨test, middle, testRan, pass, _, passRan, _, _, ⟨within, rfl⟩, rfl, rfl⟩ := ran
  obtain ⟨-, testReads, -⟩ := (expression_follows False condition _ _).of_ok reads testRan
  obtain ⟨-, -, grows⟩ := (block_follows False .discard body _ _).of_ok testReads passRan
  simp only [emit_eq_push, standsAt_append, standsAt_push, size_append, size_push,
    ← Nat.add_assoc] at stands ⊢
  obtain ⟨⟨⟨⟨testStands, branches⟩, passStands⟩, joins⟩, nullStands⟩ := stands
  simp only [Evaluator.expression]
  refine (loop_simulated branches joins ?small within
    (tests ⟨testRan, reads, serves.of_grows grows, testStands⟩ count) ?turn).bind fun _ =>
    null_simulated nullStands count
  case small => exact Nat.le_trans (by omega) within
  case turn =>
    exact (pass_of_block (passes ⟨passRan, testReads, serves, passStands⟩ count)).bind fun _ =>
      Simulates.ready fun _ _ there => there

theorem forLoop {first : Binding} {condition post : Expression} {body : Block} (span : Span)
    (prepares : host.Binds call bound invoke first)
    (tests : host.Computes call bound invoke condition)
    (passes : host.Passes call bound invoke .discard body)
    (steps : host.Computes call bound invoke post) :
    host.Computes call bound invoke (.forLoop first condition post body span) := by
  rintro walk compiler next code start held waiting ⟨ran, reads, serves, stands⟩ count
  simp only [Compiling.expression, bind_eq_ok, pure_eq_ok, Compiling.requireTarget_eq_ok] at ran
  obtain ⟨preparation, middle, preparationRan, test, later, testRan, pass, last, passRan, step, _,
    stepRan, _, _, ⟨within, rfl⟩, rfl, rfl⟩ := ran
  obtain ⟨-, preparationReads, preparationGrows⟩ :=
    (binding_follows False first _ _).of_ok reads preparationRan
  obtain ⟨-, testReads, testGrows⟩ :=
    (expression_follows False condition _ _).of_ok preparationReads testRan
  obtain ⟨-, passReads, passGrows⟩ :=
    (block_follows False .discard body _ _).of_ok testReads passRan
  obtain ⟨-, -, grows⟩ := (expression_follows False post _ _).of_ok passReads stepRan
  simp only [emit_eq_push, standsAt_append, standsAt_push, size_append, size_push,
    ← Nat.add_assoc] at stands within ⊢
  obtain ⟨⟨⟨preparationStands, ⟨⟨testStands, branches⟩, passStands⟩, stepStands, pops⟩, joins⟩,
    nullStands⟩ := stands
  simp only [Evaluator.expression]
  refine (prepares ⟨preparationRan, reads,
    serves.of_grows ((testGrows.trans passGrows).trans grows), preparationStands⟩ count).bind
    fun _ => ?_
  refine (loop_simulated branches joins ?small within
    (tests ⟨testRan, preparationReads, serves.of_grows (passGrows.trans grows), testStands⟩ count)
    ?turn).bind fun _ => null_simulated nullStands count
  case small => exact Nat.le_trans (by omega) within
  case turn =>
    refine (pass_of_block (passes
      ⟨passRan, testReads, serves.of_grows grows, passStands⟩ count)).bind fun _ => ?_
    refine (steps ⟨stepRan, passReads, serves, stepStands⟩ count).bind fun value => ?_
    exact Simulates.silent ((silently_pop pops).weaken fun _ _ behind => behind.at)

/-- A call, for whatever the calls of functions are. -/
theorem invocation {callee : Expression} {arguments : List Expression} (span : Span)
    (calls : host.Calls bound invoke) (one : host.Computes call bound invoke callee)
    (others : host.ComputesAll call bound invoke arguments) :
    host.Computes call bound invoke (.call callee arguments span) := by
  rintro walk compiler next code start held waiting ⟨ran, reads, serves, stands⟩ count
  simp only [Compiling.expression, bind_eq_ok, pure_eq_ok, Compiling.require_eq_ok,
    decide_eq_true_iff] at ran
  obtain ⟨_, _, ⟨small, rfl⟩, first, middle, firstRan, all, _, allRan, rfl, rfl⟩ := ran
  obtain ⟨complete, firstReads, -⟩ := (expression_follows False callee _ _).of_ok reads firstRan
  obtain ⟨-, -, grows⟩ :=
    (expressions_follows False arguments _ _ complete _).of_ok firstReads allRan
  simp only [emit_eq_push, standsAt_push, size_push, ← Nat.add_assoc] at stands ⊢
  obtain ⟨allStands, holds⟩ := stands
  have firstStands := (Compiling.expressions_begins allRan).standsAt allStands
  simp only [Evaluator.expression]
  refine (one ⟨firstRan, reads, serves.of_grows grows, firstStands⟩ count).bind fun target => ?_
  refine (Simulates.holding (others ⟨allRan, firstReads, serves, allStands⟩ complete
    (more_held count target))).bind fun values => ?_
  refine Simulates.assuming fun same => ?_
  rw [← same] at holds small
  rw [List.append_assoc]
  exact Simulates.calling holds small fun body =>
    calls _ _ held waiting values body holds small count

theorem array {elements : List Expression} (span : Span)
    (inside : host.ComputesAll call bound invoke elements) :
    host.Computes call bound invoke (.array elements span) := by
  rintro walk compiler next code start held waiting ⟨ran, reads, serves, stands⟩ count
  simp only [Compiling.expression, bind_eq_ok, pure_eq_ok, Compiling.require_eq_ok,
    decide_eq_true_iff] at ran
  obtain ⟨_, _, ⟨small, rfl⟩, all, _, allRan, rfl, rfl⟩ := ran
  simp only [emit_eq_push, standsAt_push, size_push, ← Nat.add_assoc] at stands ⊢
  obtain ⟨allStands, holds⟩ := stands
  simp only [Evaluator.expression]
  refine (inside ⟨allRan, reads, serves, allStands⟩ complete_empty count).bind fun values => ?_
  refine Simulates.assuming fun same => ?_
  rw [← same] at holds small
  exact Simulates.collect holds small count

theorem assign (target : Name) {value : Expression} (span : Span)
    (inside : host.Computes call bound invoke value) :
    host.Computes call bound invoke (.assign target value span) := by
  rintro walk compiler next code start held waiting ⟨ran, reads, serves, stands⟩ count
  simp only [Compiling.expression, bind_eq_ok, pure_eq_ok] at ran
  obtain ⟨symbol, _, resolved, inner, _, innerRan, instruction, _, stored, rfl, rfl⟩ := ran
  obtain ⟨found, -, rfl⟩ := Compiling.resolve_eq_ok.mp resolved
  obtain ⟨rfl, stores⟩ := Compiling.store_eq_ok stored
  obtain ⟨-, -, grows⟩ := (expression_follows False value _ _).of_ok reads innerRan
  have inReach := reads.inReach (serves.of_grows grows) resolved
  simp only [standsAt_push, size_push, ← Nat.add_assoc] at stands ⊢
  obtain ⟨⟨innerStands, storeHolds⟩, loadHolds⟩ := stands
  simp only [Evaluator.expression, reads.resolve? found]
  refine (inside ⟨innerRan, reads, serves, innerStands⟩ count).bind fun result => ?_
  refine (Simulates.store storeHolds inReach stores).bind fun _ => ?_
  exact Simulates.silent (Stored.silently_load loadHolds inReach)

end Computes

theorem ComputesAll.nil : host.ComputesAll call bound invoke [] := by
  rintro walk compiler next code before start held waiting ⟨ran, reads, serves, stands⟩ - count
  simp only [Compiling.expressions, pure_eq_ok] at ran
  obtain ⟨rfl, rfl⟩ := ran
  simp only [Evaluator.expressions]
  refine Simulates.ready fun _ _ there => ⟨rfl, ?_⟩
  rwa [List.append_nil]

theorem ComputesAll.cons {item : Expression} {items : List Expression}
    (one : host.Computes call bound invoke item)
    (others : host.ComputesAll call bound invoke items) :
    host.ComputesAll call bound invoke (item :: items) := by
  rintro walk compiler next code before start held waiting ⟨ran, reads, serves, stands⟩ whole count
  simp only [Compiling.expressions, bind_eq_ok] at ran
  obtain ⟨first, middle, firstRan, restRan⟩ := ran
  obtain ⟨complete, firstReads, -⟩ := (expression_follows False item _ _).of_ok reads firstRan
  have wholes := complete_append.mpr ⟨whole, complete⟩
  obtain ⟨-, -, grows⟩ := (expressions_follows False items _ _ wholes _).of_ok firstReads restRan
  have firstStands := standsAt_append.mp ((Compiling.expressions_begins restRan).standsAt stands)
  simp only [Evaluator.expressions]
  refine (one ⟨firstRan, reads, serves.of_grows grows, firstStands.2⟩ count).bind fun value => ?_
  have rests := others ⟨restRan, firstReads, serves, stands⟩ wholes (more_held count value)
  rw [size_append, ← Nat.add_assoc] at rests
  refine rests.holding.bind fun values => ?_
  refine Simulates.ready fun _ _ there => ⟨congrArg Nat.succ there.1, ?_⟩
  have place := there.2
  rwa [List.append_assoc] at place

end Host

/-! ## The parts of a program -/

mutual

theorem expression_simulated (calls : host.Calls bound invoke) : ∀ syntaxTree : Expression,
    host.Computes call bound invoke syntaxTree
  | .literal value span => .literal value span
  | .name identifier => .name identifier
  | .unary operator operand span => .unary operator span (expression_simulated calls operand)
  | .binary operator left right span =>
    .binary operator span (expression_simulated calls left) (expression_simulated calls right)
  | .conditional condition consequence none span =>
    .conditional span (expression_simulated calls condition)
      (block_simulated calls .keep nofun consequence)
  | .conditional condition consequence (some alternative) span =>
    .alternatives span (expression_simulated calls condition)
      (block_simulated calls .keep nofun consequence)
      (block_simulated calls .keep nofun alternative)
  | .whileLoop condition body span =>
    .whileLoop span (expression_simulated calls condition)
      (block_simulated calls .discard nofun body)
  | .forLoop first condition post body span =>
    .forLoop span (binding_simulated calls first) (expression_simulated calls condition)
      (block_simulated calls .discard nofun body) (expression_simulated calls post)
  | .function parameters body span => .function parameters body span
  | .call callee arguments span =>
    .invocation span calls (expression_simulated calls callee) (expressions_simulated calls arguments)
  | .array elements span => .array span (expressions_simulated calls elements)
  | .index target index span =>
    .index span (expression_simulated calls target) (expression_simulated calls index)
  | .assign target value span => .assign target span (expression_simulated calls value)

theorem expressions_simulated (calls : host.Calls bound invoke) : ∀ items : List Expression,
    host.ComputesAll call bound invoke items
  | [] => .nil
  | item :: items => .cons (expression_simulated calls item) (expressions_simulated calls items)

theorem binding_simulated (calls : host.Calls bound invoke) : ∀ binding : Binding,
    host.Binds call bound invoke binding
  | .mk name value span, walk, compiler, next, code, start, held, waiting, made, count => by
      obtain ⟨ran, reads, serves, stands⟩ := made
      cases value with
      | function parameters body literalSpan =>
          simp only [Compiling.binding, bind_eq_ok, pure_eq_ok] at ran
          obtain ⟨symbol, middle, defined, inner, last, innerRan, instruction, _, stored, rfl, rfl⟩ :=
            ran
          obtain ⟨rfl, stores⟩ := Compiling.store_eq_ok stored
          obtain ⟨-, definedReads, -⟩ := (Follows.define name).of_ok reads defined
          obtain ⟨-, -, grows⟩ :=
            (function_follows False _ parameters _ body _).of_ok definedReads innerRan
          have inReach := Reads.inReach_define (serves.of_grows grows) defined
          simp only [standsAt_push, size_push, ← Nat.add_assoc] at stands ⊢
          simp only [Evaluator.binding, definedReads.resolve?_define defined]
          refine (function_simulated innerRan definedReads serves stands.1 count).bind
            fun result => ?_
          exact (Simulates.store stands.2 inReach stores).relax fun _ _ _ stored => stored.at
      | _ =>
          simp only [Compiling.binding, bind_eq_ok, pure_eq_ok] at ran
          obtain ⟨inner, middle, innerRan, symbol, last, defined, instruction, _, stored, rfl, rfl⟩ :=
            ran
          obtain ⟨rfl, stores⟩ := Compiling.store_eq_ok stored
          obtain ⟨-, innerReads, -⟩ := (expression_follows False _ _ _).of_ok reads innerRan
          obtain ⟨-, definedReads, grows⟩ := (Follows.define name).of_ok innerReads defined
          have inReach := Reads.inReach_define serves defined
          simp only [standsAt_push, size_push, ← Nat.add_assoc] at stands ⊢
          simp only [Evaluator.binding, definedReads.resolve?_define defined]
          refine (expression_simulated calls _
            ⟨innerRan, reads, serves.of_grows grows, stands.1⟩ count).bind fun result => ?_
          exact (Simulates.store stands.2 inReach stores).relax fun _ _ _ stored => stored.at

theorem block_simulated (calls : host.Calls bound invoke) (ending : Ending)
    (returns : ending = .leave → call.Inner) : ∀ body : Block,
    host.Passes call bound invoke ending body
  | .mk body span, walk, compiler, next, code, start, held, waiting, made, count => by
      obtain ⟨ran, reads, serves, stands⟩ := made
      simp only [Compiling.block] at ran
      simp only [Evaluator.block]
      exact statements_simulated calls ending body ⟨ran, reads, serves, stands⟩ complete_empty
        (fun _ => rfl) returns count

/-- Leaving a function in the middle of its code. -/
theorem departure_simulated (calls : host.Calls bound invoke) {arrives : Option Value → Assertion} :
    ∀ (value : Option Expression) (span : Span) {walk : Walk} {compiler next : Compiler}
    {code : Fragment} {start held : Nat} {waiting : List Value},
    Made host call (Compiling.departure value span start) walk start code compiler next →
    held = call.floor + waiting.length →
    host.Simulates call bound held (host.At call start waiting)
      (Evaluator.statement invoke bound (.leave value span) walk) arrives
  | none, span, walk, compiler, next, code, start, held, waiting, made, count => by
      obtain ⟨ran, reads, serves, stands⟩ := made
      obtain ⟨inner, rfl, rfl⟩ := Compiling.departure_none_eq_ok.mp ran
      simp only [emit_eq_push, single_eq_push, standsAt_push, size_push, ← Nat.add_assoc] at stands
      simp only [Evaluator.statement]
      refine (null_simulated stands.1.2 count).bind fun result => ?_
      exact (Simulates.leave.step (silently_returnValue (serves.inner inner).1 stands.2)).mono
        (Nat.le_succ bound)
  | some value, span, walk, compiler, next, code, start, held, waiting, made, count => by
      obtain ⟨ran, reads, serves, stands⟩ := made
      obtain ⟨inner, code, innerRan, rfl⟩ := Compiling.departure_some_eq_ok.mp ran
      obtain ⟨-, -, grows⟩ := (expression_follows False value _ _).of_ok reads innerRan
      have returns := ((serves.of_grows grows).inner inner).1
      simp only [emit_eq_push, standsAt_push] at stands
      simp only [Evaluator.statement]
      refine (expression_simulated calls value ⟨innerRan, reads, serves, stands.1⟩ count).bind
        fun result => ?_
      exact (Simulates.leave.step (silently_returnValue returns stands.2)).mono (Nat.le_succ bound)

theorem statement_simulated (calls : host.Calls bound invoke) : ∀ (first : Statement)
    {walk : Walk} {compiler next : Compiler} {code : Fragment} {start held : Nat}
    {waiting : List Value},
    Made host call (Compiling.statement first start) walk start code compiler next →
    held = call.floor + waiting.length →
    host.Simulates call bound held (host.At call start waiting)
      (Evaluator.statement invoke bound first walk) fun _ =>
      host.At call (start + code.size) waiting
  | .bind bound, walk, compiler, next, code, start, held, waiting, made, count => by
      obtain ⟨ran, reads, serves, stands⟩ := made
      simp only [Compiling.statement] at ran
      simp only [Evaluator.statement]
      exact (binding_simulated calls bound ⟨ran, reads, serves, stands⟩ count).bind fun _ =>
        Simulates.pure fun _ => _
  | .leave value span, walk, compiler, next, code, start, held, waiting, made, count => by
      obtain ⟨ran, reads, serves, stands⟩ := made
      simp only [Compiling.statement] at ran
      exact departure_simulated calls value span ⟨ran, reads, serves, stands⟩ count
  | .expression value span, walk, compiler, next, code, start, held, waiting, made, count => by
      obtain ⟨ran, reads, serves, stands⟩ := made
      simp only [Compiling.statement, bind_eq_ok, pure_eq_ok] at ran
      obtain ⟨code, _, ran, rfl, rfl⟩ := ran
      simp only [emit_eq_push, standsAt_push, size_push, ← Nat.add_assoc] at stands ⊢
      simp only [Evaluator.statement]
      refine (expression_simulated calls value ⟨ran, reads, serves, stands.1⟩ count).bind
        fun result => ?_
      exact Simulates.silent ((silently_pop stands.2).weaken fun _ _ behind => behind.at)

/-- The statements behind other code. -/
theorem statements_simulated (calls : host.Calls bound invoke) (ending : Ending) :
    ∀ (body : List Statement) {walk : Walk} {compiler next : Compiler} {code before : Fragment}
    {start held : Nat} {waiting : List Value} {last : Option Value},
    Made host call (Compiling.statements ending body start before) walk start code compiler next →
    before.Complete → (body = [] → last = none) → (ending = .leave → call.Inner) →
    held = call.floor + waiting.length →
    host.Simulates call bound held (host.At call (start + before.size) waiting)
      (Evaluator.statements invoke bound body walk last >>= ending.conclude)
      (ending.arrives host call (start + code.size) waiting)
  | [], walk, compiler, next, code, before, start, held, waiting, last, made, whole, fresh, returns,
    count => by
      obtain ⟨ran, reads, serves, stands⟩ := made
      simp only [Compiling.statements, pure_eq_ok] at ran
      obtain ⟨rfl, rfl⟩ := ran
      rw [fresh rfl, Evaluator.statements, pure_bind]
      exact behindOther_simulated returns stands count
  | [.expression value span], walk, compiler, next, code, before, start, held, waiting, last, made,
    whole, fresh, returns, count => by
      obtain ⟨ran, reads, serves, stands⟩ := made
      simp only [Compiling.statements, bind_eq_ok, pure_eq_ok] at ran
      obtain ⟨code, _, ran, rfl, rfl⟩ := ran
      have inside := standsAt_append.mp ((begins_emitAll (before ++ code) _).standsAt stands)
      simp only [Evaluator.statements, Evaluator.statement, bind_assoc, pure_bind]
      refine (expression_simulated calls value ⟨ran, reads, serves, inside.2⟩ count).bind
        fun result => ?_
      rw [Nat.add_assoc]
      exact behindExpression_simulated returns stands
  | [.leave value span], walk, compiler, next, code, before, start, held, waiting, last, made,
    whole, fresh, returns, count => by
      obtain ⟨ran, reads, serves, stands⟩ := made
      simp only [Compiling.statements, bind_eq_ok, pure_eq_ok] at ran
      obtain ⟨code, _, ran, rfl, rfl⟩ := ran
      have inside := standsAt_append.mp ((begins_emitAll (before ++ code) _).standsAt stands)
      simp only [Evaluator.statements, bind_assoc]
      have departs : host.Simulates call bound held
          (host.At call (start + before.size) waiting)
          (Evaluator.statement invoke bound (.leave value span) walk) fun _ _ _ => False :=
        departure_simulated calls value span ⟨ran, reads, serves, inside.2⟩ count
      exact departs.bind fun _ _ _ impossible => impossible.elim
  | [.bind bound], walk, compiler, next, code, before, start, held, waiting, last, made,
    whole, fresh, returns, count => by
      obtain ⟨ran, reads, serves, stands⟩ := made
      simp only [Compiling.statements, bind_eq_ok, pure_eq_ok] at ran
      obtain ⟨code, _, ran, rfl, rfl⟩ := ran
      have inside := standsAt_append.mp ((begins_emitAll (before ++ code) _).standsAt stands)
      simp only [Compiling.statement] at ran
      simp only [Evaluator.statements, Evaluator.statement, bind_assoc, pure_bind]
      refine (binding_simulated calls bound ⟨ran, reads, serves, inside.2⟩ count).bind fun _ => ?_
      rw [Nat.add_assoc]
      exact behindOther_simulated returns stands count
  | first :: second :: rest, walk, compiler, next, code, before, start, held, waiting, last, made,
    whole, fresh, returns, count => by
      obtain ⟨ran, reads, serves, stands⟩ := made
      simp only [Compiling.statements, bind_eq_ok] at ran
      obtain ⟨code, middle, ran, restRan⟩ := ran
      obtain ⟨complete, firstReads, -⟩ := (statement_follows False first _ _).of_ok reads ran
      have wholes := complete_append.mpr ⟨whole, complete⟩
      obtain ⟨-, -, grows⟩ :=
        (statements_follows False ending (second :: rest) _ _ wholes _).of_ok firstReads restRan
      have inside := standsAt_append.mp ((Compiling.statements_begins restRan).standsAt stands)
      rw [Evaluator.statements, bind_assoc]
      refine (statement_simulated calls first
        ⟨ran, reads, serves.of_grows grows, inside.2⟩ count).bind fun value => ?_
      rw [Nat.add_assoc]
      exact statements_simulated calls ending (second :: rest) ⟨restRan, firstReads, serves, stands⟩
        wholes nofun returns count

end

end

end MonkeyLang
