import MonkeyLang.Proofs.Evaluator.Program
import MonkeyLang.Proofs.Stateful

/-!
# Evaluations with more room

An evaluation that is given less room or fewer turns than another one of the same program either
comes to the same end or gives up: with a fault that names a limit, or because it is exhausted
(`Evaluating.Trails`). This is a matter of the few places where the room and the turns are looked
at, and it is handed on from the parts of a program to the whole.
-/

set_option autoImplicit false

namespace MonkeyLang

/-- Whether a fault says that something of a limited size was not large enough. -/
def Fault.isLimit : Fault → Bool
  | stackOverflow _ | frameOverflow _ | globalOutOfRange _ _ => true
  | _ => false

/-- How an evaluation with some room and turns may end that would have gone on with more. -/
structure Allowance (gaveUp : Exit → Prop) (few many : Capacity) (turns more : Nat) : Prop where
  stays : ∀ value, ¬ gaveUp (.leave value)
  stack : few.stack = many.stack ∨
    many.stack = none ∧ ∀ limit, gaveUp (.fault (.stackOverflow limit))
  frames : few.frames = many.frames ∨
    many.frames = none ∧ ∀ limit, gaveUp (.fault (.frameOverflow limit))
  globals : few.globals = many.globals ∨
    many.globals = none ∧ ∀ index limit, gaveUp (.fault (.globalOutOfRange index limit))
  turns : turns = more ∨ turns ≤ more ∧ gaveUp .exhausted

namespace Evaluating

/-- The first evaluation comes to the same end as the second one, or it gives up. -/
def Trails {α : Type} (gaveUp : Exit → Prop) (few many : Capacity)
    (first second : Evaluating α) : Prop :=
  ∀ held depth store,
    first ⟨few, held, depth⟩ store = second ⟨many, held, depth⟩ store ∨
      ∃ exit last, gaveUp exit ∧ first ⟨few, held, depth⟩ store = .error exit last

namespace Trails

variable {α β : Type} {gaveUp : Exit → Prop} {few many : Capacity}

theorem pure (result : α) : Trails gaveUp few many (pure result) (pure result) :=
  fun _ _ _ => .inl rfl

theorem throw (exit : Exit) :
    Trails (α := α) gaveUp few many (MonadExcept.throw exit) (MonadExcept.throw exit) :=
  fun _ _ _ => .inl rfl

theorem bind {first second : Evaluating α} {rest later : α → Evaluating β}
    (trails : Trails gaveUp few many first second)
    (rests : ∀ result, Trails gaveUp few many (rest result) (later result)) :
    Trails gaveUp few many (first >>= rest) (second >>= later) := by
  intro held depth store
  show (first ⟨few, held, depth⟩ >>= fun result => rest result ⟨few, held, depth⟩) store =
      (second ⟨many, held, depth⟩ >>= fun result => later result ⟨many, held, depth⟩) store ∨ _
  rcases trails held depth store with same | ⟨exit, last, given, stopped⟩
  · cases ran : second ⟨many, held, depth⟩ store with
    | ok result next =>
        rw [ran] at same
        rw [Stateful.bind_of_ok same, Stateful.bind_of_ok ran]
        rcases rests result held depth next with same' | ⟨exit, last, given, stopped⟩
        · exact .inl same'
        · exact .inr ⟨exit, last, given, (Stateful.bind_of_ok same).trans stopped⟩
    | error exit next =>
        rw [ran] at same
        rw [Stateful.bind_of_error same, Stateful.bind_of_error ran]
        exact .inl rfl
  · exact .inr ⟨exit, last, given, Stateful.bind_of_error stopped⟩

/-- Work that looks neither at the room nor at the turns. -/
theorem modify (change : Store → Store) :
    Trails gaveUp few many (modify change) (modify change) :=
  fun _ _ _ => .inl rfl

theorem get : Trails gaveUp few many MonadState.get MonadState.get := fun _ _ _ => .inl rfl

theorem require {bound : Capacity → Option Nat} {fault : Nat → Fault}
    (limited : bound few = bound many ∨ bound many = none ∧ ∀ limit, gaveUp (.fault (fault limit)))
    (amount : Nat) :
    Trails gaveUp few many (Evaluating.require bound amount fault)
      (Evaluating.require bound amount fault) := by
  intro held depth store
  simp only [Evaluating.require]
  rcases limited with same | ⟨free, given⟩
  · rw [same]
    exact .inl rfl
  · rw [free]
    cases bound few with
    | none => exact .inl rfl
    | some limit =>
        by_cases fits : amount ≤ limit
        · exact .inl (if_pos fits)
        · exact .inr ⟨_, store, given limit, if_neg fits⟩

/-- The values that wait and the calls that go on are the same for both. -/
theorem reading {rest later : Room → Evaluating α}
    (rests : ∀ held depth,
      Trails gaveUp few many (rest ⟨few, held, depth⟩) (later ⟨many, held, depth⟩)) :
    Trails gaveUp few many (read >>= rest) (read >>= later) :=
  fun held depth store => rests held depth held depth store

theorem holding {first second : Evaluating α} (count : Nat)
    (trails : Trails gaveUp few many first second) :
    Trails gaveUp few many (Evaluating.holding count first) (Evaluating.holding count second) :=
  fun held depth store => trails (held + count) depth store

theorem ofResult (result : Except Fault Value) :
    Trails gaveUp few many (Evaluating.ofResult result) (Evaluating.ofResult result) :=
  fun _ _ _ => .inl (by cases result <;> rfl)

theorem loop {turns more : Nat} {turn again : Evaluating Bool}
    (turned : turns = more ∨ turns ≤ more ∧ gaveUp .exhausted)
    (trails : Trails gaveUp few many turn again) :
    Trails gaveUp few many (Evaluating.loop turns turn) (Evaluating.loop more again) := by
  induction turns generalizing more with
  | zero =>
      rcases turned with rfl | ⟨-, given⟩
      · exact throw .exhausted
      · exact fun _ _ store => .inr ⟨.exhausted, store, given, rfl⟩
  | succ turns ih =>
      obtain ⟨more, rfl⟩ : ∃ fewer, more = fewer + 1 := by
        refine ⟨more - 1, ?_⟩
        omega
      have rest : turns = more ∨ turns ≤ more ∧ gaveUp .exhausted :=
        turned.imp Nat.succ.inj (And.imp_left Nat.le_of_succ_le_succ)
      refine trails.bind fun result => ?_
      cases result with
      | true => exact ih rest
      | false => exact pure ()

theorem inCall {first second : Evaluating (Option Value)} (stays : ∀ value, ¬ gaveUp (.leave value))
    (trails : Trails gaveUp few many first second) (parameters locals : Nat)
    (arguments : List Value) :
    Trails gaveUp few many (Evaluating.inCall parameters locals arguments first)
      (Evaluating.inCall parameters locals arguments second) := by
  intro held depth store
  have inside := trails (held + 1 + locals) (depth + 1)
    { store with locals := arguments ++ List.replicate (locals - parameters) .null }
  simp only [Evaluating.inCall]
  rcases inside with same | ⟨exit, last, given, stopped⟩
  · rw [same]
    exact .inl rfl
  · rw [stopped]
    cases exit with
    | leave value => exact absurd given (stays value)
    | fault fault => exact .inr ⟨.fault fault, last, given, rfl⟩
    | exhausted => exact .inr ⟨.exhausted, last, given, rfl⟩

end Trails

end Evaluating

/-! ## The parts of a program -/

section

open Evaluating Evaluating.Trails Evaluator

variable {gaveUp : Exit → Prop} {few many : Capacity} {turns more : Nat}
  {invokes calls : Nat → List Value → Evaluating Value}

namespace Allowance

theorem yield_trails (allowance : Allowance gaveUp few many turns more) (value : Value) :
    Trails gaveUp few many (yield value) (yield value) :=
  reading fun held _ => (Trails.require allowance.stack (held + 1)).bind fun _ => pure value

theorem require_global (allowance : Allowance gaveUp few many turns more) (index : Nat) :
    Trails gaveUp few many (Evaluating.require (·.globals) (index + 1) (.globalOutOfRange index))
      (Evaluating.require (·.globals) (index + 1) (.globalOutOfRange index)) :=
  Trails.require (allowance.globals.imp_right (And.imp_right fun given => given index)) (index + 1)

theorem valueIn_trails (allowance : Allowance gaveUp few many turns more)
    (symbol : Option Symbol) : Trails gaveUp few many (valueIn symbol) (valueIn symbol) := by
  match symbol with
  | none => exact pure _
  | some ⟨_, .global, index⟩ =>
      exact (allowance.require_global index).bind fun _ => get.bind fun _ => pure _
  | some ⟨_, .frame, index⟩ => exact get.bind fun _ => pure _
  | some ⟨_, .builtin, index⟩ => exact pure _

theorem assign_trails (allowance : Allowance gaveUp few many turns more)
    (symbol : Option Symbol) (value : Value) :
    Trails gaveUp few many (assign symbol value) (assign symbol value) := by
  match symbol with
  | none => exact pure _
  | some ⟨_, .global, index⟩ => exact (allowance.require_global index).bind fun _ => modify _
  | some ⟨_, .frame, index⟩ => exact modify _
  | some ⟨_, .builtin, index⟩ => exact pure _

theorem branchValue_trails (allowance : Allowance gaveUp few many turns more)
    (last : Option Value) : Trails gaveUp few many (branchValue last) (branchValue last) := by
  cases last with
  | none => exact allowance.yield_trails .null
  | some value => exact pure value

theorem call_trails (invoked : ∀ number arguments,
      Trails gaveUp few many (invokes number arguments) (calls number arguments))
    (callee : Value) (arguments : List Value) :
    Trails gaveUp few many (call invokes callee arguments) (call calls callee arguments) := by
  cases callee with
  | function body => exact invoked body.identity arguments
  | builtin builtin => exact (modify _).bind fun _ => pure _
  | _ => exact throw _

mutual

theorem expression_trails (allowance : Allowance gaveUp few many turns more)
    (invoked : ∀ number arguments,
      Trails gaveUp few many (invokes number arguments) (calls number arguments)) :
    ∀ (syntaxTree : Expression) (walk : Walk),
      Trails gaveUp few many (expression invokes turns syntaxTree walk)
        (expression calls more syntaxTree walk)
  | .literal value span, walk => by
      simp only [expression]
      exact allowance.yield_trails _
  | .name identifier, walk => by
      simp only [expression]
      exact (allowance.valueIn_trails _).bind fun value => allowance.yield_trails value
  | .unary operator operand span, walk => by
      simp only [expression]
      exact (expression_trails allowance invoked operand walk).bind fun _ => ofResult _
  | .binary operator left right span, walk => by
      simp only [expression]
      split
      · refine (expression_trails allowance invoked right walk).bind fun _ => ?_
        exact ((expression_trails allowance invoked left _).holding 1).bind fun _ => ofResult _
      · refine (expression_trails allowance invoked left walk).bind fun _ => ?_
        exact ((expression_trails allowance invoked right _).holding 1).bind fun _ => ofResult _
  | .conditional condition consequence none span, walk => by
      simp only [expression]
      refine (expression_trails allowance invoked condition walk).bind fun test => ?_
      split
      · exact (block_trails allowance invoked consequence _).bind allowance.branchValue_trails
      · exact allowance.yield_trails .null
  | .conditional condition consequence (some alternative) span, walk => by
      simp only [expression]
      refine (expression_trails allowance invoked condition walk).bind fun test => ?_
      split
      · exact (block_trails allowance invoked consequence _).bind allowance.branchValue_trails
      · exact (block_trails allowance invoked alternative _).bind allowance.branchValue_trails
  | .whileLoop condition body span, walk => by
      simp only [expression]
      refine (loop allowance.turns ?_).bind fun _ => allowance.yield_trails .null
      refine (expression_trails allowance invoked condition walk).bind fun test => ?_
      split
      · exact (block_trails allowance invoked body _).bind fun _ => pure true
      · exact pure false
  | .forLoop first condition post body span, walk => by
      simp only [expression]
      refine (binding_trails allowance invoked first walk).bind fun _ => ?_
      refine (loop allowance.turns ?_).bind fun _ => allowance.yield_trails .null
      refine (expression_trails allowance invoked condition _).bind fun test => ?_
      split
      · refine (block_trails allowance invoked body _).bind fun _ => ?_
        exact (expression_trails allowance invoked post _).bind fun _ => pure true
      · exact pure false
  | .function parameters body span, walk => by
      simp only [expression]
      exact allowance.yield_trails _
  | .call callee arguments span, walk => by
      simp only [expression]
      refine (expression_trails allowance invoked callee walk).bind fun target => ?_
      refine ((expressions_trails allowance invoked arguments _).holding 1).bind fun values => ?_
      exact call_trails invoked target values
  | .array elements span, walk => by
      simp only [expression]
      refine (expressions_trails allowance invoked elements walk).bind fun values => ?_
      exact allowance.yield_trails (.array values)
  | .index target index span, walk => by
      simp only [expression]
      refine (expression_trails allowance invoked target walk).bind fun _ => ?_
      exact ((expression_trails allowance invoked index _).holding 1).bind fun _ => ofResult _
  | .assign target value span, walk => by
      simp only [expression]
      refine (expression_trails allowance invoked value walk).bind fun result => ?_
      exact (allowance.assign_trails _ result).bind fun _ => pure result

theorem expressions_trails (allowance : Allowance gaveUp few many turns more)
    (invoked : ∀ number arguments,
      Trails gaveUp few many (invokes number arguments) (calls number arguments)) :
    ∀ (items : List Expression) (walk : Walk),
      Trails gaveUp few many (expressions invokes turns items walk)
        (expressions calls more items walk)
  | [], walk => by
      simp only [expressions]
      exact pure []
  | item :: items, walk => by
      simp only [expressions]
      refine (expression_trails allowance invoked item walk).bind fun value => ?_
      exact ((expressions_trails allowance invoked items _).holding 1).bind fun _ => pure _

theorem binding_trails (allowance : Allowance gaveUp few many turns more)
    (invoked : ∀ number arguments,
      Trails gaveUp few many (invokes number arguments) (calls number arguments)) :
    ∀ (bound : Binding) (walk : Walk),
      Trails gaveUp few many (binding invokes turns bound walk) (binding calls more bound walk)
  | .mk name value span, walk => by
      cases value with
      | function parameters body literalSpan =>
          simp only [binding]
          exact (allowance.yield_trails _).bind fun value => allowance.assign_trails _ value
      | _ =>
          simp only [binding]
          exact (expression_trails allowance invoked _ walk).bind fun result =>
            allowance.assign_trails _ result

theorem block_trails (allowance : Allowance gaveUp few many turns more)
    (invoked : ∀ number arguments,
      Trails gaveUp few many (invokes number arguments) (calls number arguments)) :
    ∀ (body : Block) (walk : Walk),
      Trails gaveUp few many (block invokes turns body walk) (block calls more body walk)
  | .mk body span, walk => by
      simp only [block]
      exact statements_trails allowance invoked body walk none

theorem statement_trails (allowance : Allowance gaveUp few many turns more)
    (invoked : ∀ number arguments,
      Trails gaveUp few many (invokes number arguments) (calls number arguments)) :
    ∀ (first : Statement) (walk : Walk),
      Trails gaveUp few many (statement invokes turns first walk) (statement calls more first walk)
  | .bind bound, walk => by
      simp only [statement]
      exact (binding_trails allowance invoked bound walk).bind fun _ => pure none
  | .leave none span, walk => by
      simp only [statement]
      exact (allowance.yield_trails .null).bind fun _ => throw _
  | .leave (some value) span, walk => by
      simp only [statement]
      exact (expression_trails allowance invoked value walk).bind fun _ => throw _
  | .expression value span, walk => by
      simp only [statement]
      exact (expression_trails allowance invoked value walk).bind fun _ => pure _

theorem statements_trails (allowance : Allowance gaveUp few many turns more)
    (invoked : ∀ number arguments,
      Trails gaveUp few many (invokes number arguments) (calls number arguments)) :
    ∀ (body : List Statement) (walk : Walk) (last : Option Value),
      Trails gaveUp few many (statements invokes turns body walk last)
        (statements calls more body walk last)
  | [], walk, last => by
      simp only [statements]
      exact pure last
  | first :: rest, walk, last => by
      simp only [statements]
      exact (statement_trails allowance invoked first walk).bind fun value =>
        statements_trails allowance invoked rest _ value

end

/-! ## Calls and programs -/

theorem fewer (allowance : Allowance gaveUp few many (turns + 1) (more + 1)) :
    Allowance gaveUp few many turns more :=
  { allowance with turns := allowance.turns.imp Nat.succ.inj (And.imp_left Nat.le_of_succ_le_succ) }

theorem invoke_trails (routines : Nat → Routine)
    (allowance : Allowance gaveUp few many turns more) (number : Nat) (arguments : List Value) :
    Trails gaveUp few many (invoke routines turns number arguments)
      (invoke routines more number arguments) := by
  induction turns generalizing more number arguments with
  | zero =>
      rcases allowance.turns with rfl | ⟨-, given⟩
      · exact throw .exhausted
      · exact fun _ _ store => .inr ⟨.exhausted, store, given, rfl⟩
  | succ turns ih =>
      obtain ⟨more, rfl⟩ : ∃ fewer, more = fewer + 1 := by
        refine ⟨more - 1, ?_⟩
        have := allowance.turns
        omega
      simp only [invoke]
      split
      · exact throw _
      · refine reading fun _ depth => (Trails.require allowance.frames (depth + 1)).bind fun _ => ?_
        refine reading fun held _ => (Trails.require allowance.stack _).bind fun _ => ?_
        refine Trails.inCall allowance.stays ?_ _ _ arguments
        exact statements_trails allowance.fewer (ih allowance.fewer) _ _ none

theorem run_trails (routines : Nat → Routine) (allowance : Allowance gaveUp few many turns more)
    (body : List Statement) (walk : Walk) (store : Store) :
    run routines turns few body walk store = run routines more many body walk store ∨
      ∃ exit last, gaveUp exit ∧ run routines turns few body walk store = .error exit last :=
  statements_trails allowance (allowance.invoke_trails routines) body walk none 0 1 store

end Allowance

end

namespace Evaluator

/-- A machine's room makes no difference as long as no limit is reached. -/
theorem run_unlimited (routines : Nat → Routine) (fuel : Nat) (limits : Limits)
    (body : List Statement) (walk : Walk) (store : Store) :
    run routines fuel limits.capacity body walk store =
        run routines fuel .unlimited body walk store ∨
      ∃ fault last, fault.isLimit = true ∧
        run routines fuel limits.capacity body walk store = .error (.fault fault) last := by
  have allowance : Allowance (fun exit => ∃ fault : Fault, fault.isLimit = true ∧
      exit = .fault fault) limits.capacity .unlimited fuel fuel := {
    stays := fun _ ⟨_, _, ends⟩ => Exit.noConfusion ends
    stack := .inr ⟨rfl, fun limit => ⟨.stackOverflow limit, rfl, rfl⟩⟩
    frames := .inr ⟨rfl, fun limit => ⟨.frameOverflow limit, rfl, rfl⟩⟩
    globals := .inr ⟨rfl, fun index limit => ⟨.globalOutOfRange index limit, rfl, rfl⟩⟩
    turns := .inl rfl }
  rcases allowance.run_trails routines body walk store with same | ⟨_, last, ⟨fault, limit, rfl⟩, ran⟩
  · exact .inl same
  · exact .inr ⟨fault, last, limit, ran⟩

/-- More fuel does not change how an evaluation ends. -/
theorem run_of_le {fuel more : Nat} (le : fuel ≤ more) (routines : Nat → Routine)
    (capacity : Capacity) (body : List Statement) (walk : Walk) (store : Store) :
    run routines fuel capacity body walk store = run routines more capacity body walk store ∨
      ∃ last, run routines fuel capacity body walk store = .error .exhausted last := by
  have allowance : Allowance (· = .exhausted) capacity capacity fuel more := {
    stays := nofun
    stack := .inl rfl
    frames := .inl rfl
    globals := .inl rfl
    turns := .inr ⟨le, rfl⟩ }
  rcases allowance.run_trails routines body walk store with same | ⟨_, last, rfl, ran⟩
  · exact .inl same
  · exact .inr ⟨last, ran⟩

end Evaluator

/-! ## The meaning of a program -/

/-- What a program comes to: the value of its last statement, if that is an expression, or a
fault, and what it leaves behind. -/
structure Meaning where
  result : Except Fault (Option Value)
  globals : Nat → Value
  output : String

/-- What an evaluation has come to, if it is through. -/
def Meaning.ofResult? : EStateM.Result Exit Store (Option Value) → Option Meaning
  | .ok last store => some ⟨.ok last, store.globals, store.output⟩
  | .error (.fault fault) store => some ⟨.error fault, store.globals, store.output⟩
  | .error _ _ => none

namespace Program

/-- The walk in front of a program, where only the builtin functions have names. -/
def walk : Walk := .start Compiler.new.scope 0

/-- The function literals of a program by their numbers. -/
def routines (program : Program) : Nat → Routine :=
  (Statement.walkAll program.statements walk).routines

/-- What a program comes to, if the fuel is enough to find out. -/
def meaning? (fuel : Nat) (program : Program) : Option Meaning :=
  Meaning.ofResult?
    (Evaluator.run program.routines fuel .unlimited program.statements walk .initial)

/-- The program ends, and this is what it comes to. -/
def Means (program : Program) (meaning : Meaning) : Prop :=
  ∃ fuel, program.meaning? fuel = some meaning

theorem meaning?_of_le {program : Program} {fuel more : Nat} {meaning : Meaning}
    (found : program.meaning? fuel = some meaning) (le : fuel ≤ more) :
    program.meaning? more = some meaning := by
  unfold meaning? at found ⊢
  rcases Evaluator.run_of_le le program.routines .unlimited program.statements walk .initial with
    same | ⟨last, ran⟩
  · rwa [← same]
  · rw [ran] at found
    cases found

/-- A program comes to one end only. -/
theorem Means.unique {program : Program} {first second : Meaning} (left : program.Means first)
    (right : program.Means second) : first = second := by
  obtain ⟨fuel, found⟩ := left
  obtain ⟨other, also⟩ := right
  have same := (meaning?_of_le found (Nat.le_max_left fuel other)).symm.trans
    (meaning?_of_le also (Nat.le_max_right fuel other))
  exact Option.some.inj same

end Program

end MonkeyLang
