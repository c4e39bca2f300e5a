import MonkeyLang.Proofs.Compiler.Bindings
import MonkeyLang.Proofs.Machine.Globals
import MonkeyLang.Proofs.Session.Reading

/-!
# Inputs that are rejected

An input that is no program or does not compile changes nothing but names and constants. The names
that it binds in front of its error (`Session.bound`) stay bound, and each has a new slot, in the
order in which they were bound (`Session.evaluate_of_rejects`). No program of a session has ever
named a slot that was not given out yet, so the new slots hold null (`Session.Reachable.fresh`).

So a name that a rejected input does not bind stands for what it stood for before. A name that it
does bind stands for null afterwards, also if it had a value before
(`Session.Reachable.evaluate_rejected`).
-/

set_option autoImplicit false

namespace MonkeyLang

namespace Scope

/-- A name that is bound last at a place has the new slot of that place. -/
theorem resolve?_defineAll_append {earlier later : List String} {name : String}
    (last : name ∉ later) (scope : Scope) :
    (scope.defineAll (earlier ++ name :: later)).resolve? name =
      some ⟨name, scope.storage, scope.definitions + earlier.length⟩ := by
  have slot : (scope.defineAll earlier).define name =
      (⟨name, scope.storage, scope.definitions + earlier.length⟩,
        ((scope.defineAll earlier).define name).2) := by
    rw [← definitions_defineAll, storage, ← (grows_defineAll scope earlier).isGlobal]
    rfl
  rw [defineAll_append, defineAll_cons, resolve?_defineAll last, resolve?_define, slot]

end Scope

namespace Session

variable {session : Session} {limits : Limits} {source : List Char}

/-- Whether an input is no program, or one that does not compile. -/
def rejects (session : Session) (source : List Char) : Bool :=
  match Program.ofSource source with
  | .error _ => true
  | .ok program =>
    match (session.compiler.compile program).1 with
    | .error _ => true
    | .ok _ => false

/-- The names that an input binds. -/
def binds (source : List Char) : List String :=
  match Program.ofSource source with
  | .ok program => Statement.bindsAll program.statements
  | .error _ => []

/-- The names that an input has bound when it is compiled, or in front of the error for which it is
refused. -/
def bound (session : Session) (source : List Char) : List String :=
  match Program.ofSource source with
  | .ok program => session.compiler.bound program
  | .error _ => []

/-- What a rejected input leaves behind. -/
theorem evaluate_of_rejects (rejected : session.rejects source = true) (steps : Nat) :
    session.bound source <+: binds source ∧
      (session.evaluate steps source).2.scope = session.scope.defineAll (session.bound source) ∧
      (session.evaluate steps source).2.globals = session.globals := by
  unfold rejects at rejected
  unfold evaluate binds bound
  cases read : Program.ofSource source with
  | error diagnostics => exact ⟨List.nil_prefix, rfl, rfl⟩
  | ok program =>
      rw [read] at rejected
      dsimp only at rejected
      obtain ⟨begins, scope⟩ := session.compiler.scope_compile program
      cases made : session.compiler.compile program with
      | mk result next =>
      rw [made] at rejected scope
      cases result with
      | ok compiled => cases rejected
      | error fault =>
          dsimp only
          rw [execute_of_error made]
          exact ⟨begins, scope, rfl⟩

/-! ## Slots that were not given out -/

/-- The compiler for the next input has seen all programs before. -/
theorem Reachable.history (reachable : Reachable limits session) :
    ∃ history : Compiler.History, history.compiler = session.compiler := by
  induction reachable with
  | new => exact ⟨.new, rfl⟩
  | @evaluate session _ steps source ih =>
      rcases evaluate_cases session steps source with same | ⟨program, -, same⟩
      · rw [same]
        exact ih
      · obtain ⟨history, before⟩ := ih
        refine ⟨.resume (.compile history program), ?_⟩
        rw [same, Compiler.History.compiler, Compiler.History.compiler, before]
        cases made : session.compiler.compile program with
        | mk result next =>
            cases result with
            | error fault => rw [execute_of_error made]; rfl
            | ok compiled => rw [execute_of_ok made]; rfl

/-- A slot that is not given out by a program keeps what it holds. -/
theorem Reachable.globals_execute (reachable : Reachable limits session) (steps : Nat)
    (program : Program) {slot : Nat}
    (beyond : (session.execute steps program).2.scope.definitions ≤ slot) :
    session.scope.definitions ≤ slot ∧
      (session.execute steps program).2.globals[slot]? = session.globals[slot]? := by
  have sound := reachable.sound
  obtain ⟨history, same⟩ := reachable.history
  obtain ⟨routines, linked⟩ := sound.linked
  obtain ⟨-, scope⟩ := session.compiler.scope_compile program
  have grows := Scope.grows_defineAll session.compiler.scope (session.compiler.bound program)
  rw [← scope] at grows
  cases made : session.compiler.compile program with
  | mk result next =>
  rw [made] at grows
  cases result with
  | error fault =>
      rw [execute_of_error made] at beyond ⊢
      exact ⟨Nat.le_trans grows.definitions_le beyond, rfl⟩
  | ok compiled =>
      rw [execute_of_ok made] at beyond ⊢
      refine ⟨Nat.le_trans grows.definitions_le beyond, ?_⟩
      obtain ⟨linked, within⟩ := sound.compiled linked made
      have again : history.compiler.compile program = (.ok compiled, next) := by rw [same, made]
      have reads : Reads (session.walk routines) history.compiler := same ▸ sound.reads routines
      have formed := Compiler.History.wellFormed reads linked again
      have known : (Machine.loaded compiled session.limits session.globals).Knows _ :=
        knows_loaded linked fun value member => (sound.globals value member).mono within
      have tracked : (Machine.loaded compiled session.limits session.globals).Tracked fun code =>
          ∃ stock, code.WellFormed stock ∧ stock.globals ≤ slot :=
        Machine.tracked_loaded ⟨_, formed.code, beyond⟩
          (fun body member => ⟨_, (formed.functions body member).code, beyond⟩) known
      exact tracked.globals_advance (fun _ => id) steps

/-- A slot that was not given out yet holds null. -/
theorem Reachable.fresh (reachable : Reachable limits session) {slot : Nat}
    (beyond : session.scope.definitions ≤ slot) (inside : slot < limits.globalsSize) :
    session.globals[slot]? = some .null := by
  induction reachable with
  | new =>
      rw [Session.new, Globals.ofSize, Array.getElem?_replicate, if_pos inside]
  | @evaluate session before steps source ih =>
      rcases evaluate_cases session steps source with same | ⟨program, -, same⟩
      · rw [same] at beyond ⊢
        exact ih beyond
      · rw [same] at beyond ⊢
        obtain ⟨earlier, kept⟩ := before.globals_execute steps program beyond
        exact kept.trans (ih earlier)

/-! ## Names behind a rejected input -/

/-- A name that a rejected input has bound stands for null, if its slot exists. -/
theorem Reachable.evaluate_bound (reachable : Reachable limits session)
    (rejected : session.rejects source = true) (steps : Nat) {name : String} {latest : Symbol}
    (found : (session.evaluate steps source).2.scope.resolve? name = some latest)
    (global : latest.storage = .global) (bound : session.scope.definitions ≤ latest.index)
    (accepted : latest.index < Limit.globals.bound) (inside : latest.index < limits.globalsSize)
    (room : limits.stackSize ≠ 0) {line : List Char} (asks : asked? line = some name) {many : Nat}
    (enough : 3 ≤ many) :
    ((session.evaluate steps source).2.evaluate many line).1 = ⟨some .null, [], ""⟩ := by
  have after := Reachable.evaluate reachable steps source
  obtain ⟨-, -, globals⟩ := evaluate_of_rejects rejected steps
  have unused := reachable.fresh bound inside
  rw [after.sound.evaluate_asks found asks enough, after.limits_eq, globals,
    Symbol.held_of_global global accepted unused]
  exact if_neg room

/-- **A rejected input costs exactly the names that it binds in front of its error.** These names
stay bound, one after another, and no others are. A name that is not among them and meant something
before stands for the same as if there had been no such input. A name that is among them has a new
slot, that of the place where it was bound last, and if there is such a slot, then the name stands
for null. -/
theorem Reachable.evaluate_rejected (reachable : Reachable limits session)
    (rejected : session.rejects source = true) (steps : Nat) :
    let after := (session.evaluate steps source).2
    let names := session.bound source
    names <+: binds source ∧ after.scope = session.scope.defineAll names ∧
      (∀ name symbol, name ∉ names → session.scope.resolve? name = some symbol →
        ∀ line, asked? line = some name → ∀ many, 3 ≤ many →
          (after.evaluate many line).1 = (session.evaluate many line).1) ∧
      ∀ earlier name later, names = earlier ++ name :: later → name ∉ later →
        let slot := session.scope.definitions + earlier.length
        after.scope.resolve? name = some ⟨name, .global, slot⟩ ∧
          (slot < Limit.globals.bound → slot < limits.globalsSize → limits.stackSize ≠ 0 →
            ∀ line, asked? line = some name → ∀ many, 3 ≤ many →
              (after.evaluate many line).1 = ⟨some .null, [], ""⟩) := by
  intro after names
  have reached : Reachable limits after := Reachable.evaluate reachable steps source
  obtain ⟨begins, scope, globals⟩ := evaluate_of_rejects rejected steps
  have same : after.limits = session.limits :=
    reached.limits_eq.trans reachable.limits_eq.symm
  refine ⟨begins, scope, ?_, ?_⟩
  · intro name symbol other found line asks many enough
    have still : after.scope.resolve? name = some symbol := by
      rw [scope, Scope.resolve?_defineAll other, found]
    rw [reached.sound.evaluate_asks still asks enough,
      reachable.sound.evaluate_asks found asks enough, globals, same]
  · intro earlier name later split last slot
    have latest : after.scope.resolve? name = some ⟨name, .global, slot⟩ := by
      have global : session.scope.storage = .global := if_pos reachable.sound.isGlobal
      have bound : session.bound source = earlier ++ name :: later := split
      rw [scope, bound, Scope.resolve?_defineAll_append last, global]
    refine ⟨latest, fun accepted inside room line asks many enough => ?_⟩
    exact reachable.evaluate_bound rejected steps latest rfl (Nat.le_add_right _ _) accepted inside
      room asks enough

/-! ## A variable that is lost -/

/-- The input that defines a variable. -/
def defining : List Char := "var x = 1;".toList

/-- An input that defines the variable again in front of an error. -/
def redefining : List Char := "var x = 2; y".toList

/-- The session behind the definition. -/
def defined : Session := ((new ⟨2, 1, 2⟩).evaluate 9 defining).2

theorem reachable_defined : Reachable ⟨2, 1, 2⟩ defined := .evaluate .new 9 defining

theorem rejects_redefining : defined.rejects redefining = true := by decide +kernel

/-- The builtin function `len` is not touched by the input that is rejected, and the variable, which
is bound in front of the error, is null. -/
theorem evaluate_rejected_redefining :
    defined.bound redefining = ["x"] ∧
      ((defined.evaluate 9 redefining).2.evaluate 9 "len".toList).1 =
        (defined.evaluate 9 "len".toList).1 ∧
      ((defined.evaluate 9 redefining).2.evaluate 9 "x".toList).1 = ⟨some .null, [], ""⟩ := by
  have names : defined.bound redefining = ["x"] := by decide +kernel
  have length : defined.scope.resolve? "len" = some ⟨"len", .builtin, 0⟩ := by decide +kernel
  have slots : defined.scope.definitions = 1 := by decide +kernel
  have few : 3 ≤ 9 := by decide
  obtain ⟨-, -, others, own⟩ := reachable_defined.evaluate_rejected rejects_redefining 9
  have other : "len" ∉ defined.bound redefining := by
    rw [names]
    decide
  have lost := (own [] "x" [] names (by decide)).2
  rw [slots] at lost
  exact ⟨names, others "len" _ other length "len".toList (by decide +kernel) 9 few,
    lost (by decide) (by decide) (by decide) "x".toList (by decide +kernel) 9 few⟩

/-- The variable has a value in front of the input that is rejected, and behind it no more. -/
theorem loses_variable :
    Reachable ⟨2, 1, 2⟩ defined ∧ defined.rejects redefining = true ∧
      defined.scope.resolve? "x" = some ⟨"x", .global, 0⟩ ∧ asked? "x".toList = some "x" ∧
      (defined.evaluate 9 "x".toList).1.value.map Value.text = some "1" ∧
      ((defined.evaluate 9 redefining).2.evaluate 9 "x".toList).1.value.map Value.text =
        some "null" :=
  ⟨reachable_defined, rejects_redefining, by decide +kernel⟩

end Session

end MonkeyLang
