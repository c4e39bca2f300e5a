import MonkeyLang.Proofs.Compiler.Tracking
import MonkeyLang.Proofs.Simulation.Calls

/-!
# Code that a call runs

The code of an expression is made by a compiler at a place that the walk reads, and it runs in a
call that has the constants and the slots that the compiler gave out (`Serves`). From this follows
what single instructions need: that names have their slots, and that constants are there.
-/

set_option autoImplicit false

namespace MonkeyLang

/-- A call has what code refers to that was made up to a state of the compiler. -/
structure Serves (host : Host) (call : Activation) (compiler : Compiler) : Prop where
  constants : Within compiler.constants host.constants
  inner : compiler.scope.isGlobal = false →
    call.Inner ∧ compiler.scope.definitions ≤ call.slots

theorem Serves.of_grows {host : Host} {call : Activation} {earlier later : Compiler}
    (serves : Serves host call later) (grows : Grows earlier later) : Serves host call earlier where
  constants := grows.constants.trans serves.constants
  inner := by
    intro inner
    obtain ⟨returns, slots⟩ := serves.inner (by rw [grows.isGlobal, inner])
    exact ⟨returns, Nat.le_trans grows.definitions slots⟩

namespace Reads

variable {host : Host} {call : Activation} {walk : Walk} {compiler next : Compiler} {name : Name}
  {symbol : Symbol}

/-- A name means for the walk what it means for the compiler. -/
theorem resolve? (reads : Reads walk compiler)
    (resolved : compiler.scope.resolve? name.text = some symbol) :
    walk.scope.resolve? name.text = some symbol.reached := by
  rw [reads.scope, Scope.resolve?_reached, resolved, Option.map_some]

theorem inReach (reads : Reads walk compiler) (serves : Serves host call compiler)
    (resolved : Compiling.resolve name compiler = .ok symbol next) :
    Host.InReach call symbol := by
  obtain ⟨found, own, -⟩ := Compiling.resolve_eq_ok.mp resolved
  obtain ⟨label, storage, index⟩ := symbol
  cases storage with
  | global => trivial
  | frame =>
      have member := Scope.mem_innermost_of_resolve? (own rfl) found
      obtain ⟨inner, below⟩ := reads.sound.locals _ member rfl
      exact ⟨Nat.lt_of_lt_of_le below (serves.inner inner).2,
        Nat.lt_of_lt_of_le below (reads.slots inner)⟩
  | builtin =>
      obtain ⟨table, inside, member⟩ := Scope.mem_of_resolve? found
      exact reads.sound.builtins table inside _ member rfl

/-- A name that has just been bound means its new symbol. -/
theorem resolve?_define (reads : Reads walk next)
    (defined : Compiling.define name compiler = .ok symbol next) :
    walk.scope.resolve? name.text = some symbol.reached := by
  obtain ⟨rfl, scope, -, -⟩ := Compiling.define_eq_ok defined
  refine reads.resolve? ?_
  rw [scope, Scope.resolve?_define]

theorem inReach_define (serves : Serves host call next)
    (defined : Compiling.define name compiler = .ok symbol next) :
    Host.InReach call symbol := by
  obtain ⟨rfl, scope, -, few⟩ := Compiling.define_eq_ok defined
  have storage : (compiler.scope.define name.text).1.storage = compiler.scope.storage := rfl
  rw [storage] at few
  unfold Host.InReach
  rw [storage]
  cases kind : compiler.scope.storage with
  | global => trivial
  | frame =>
      rw [kind] at few
      have inner : next.scope.isGlobal = false := by
        rw [scope, Scope.isGlobal_define]
        by_contra outer
        simp [Scope.storage, outer] at kind
      have slots := (serves.inner inner).2
      rw [scope, Scope.definitions_define] at slots
      exact ⟨slots, few⟩
  | builtin =>
      simp only [Scope.storage] at kind
      split at kind <;> cases kind

end Reads

/-! ## Code with other code in front of it -/

namespace Fragment

/-- The second fragment starts with the first one. -/
def Begins (first whole : Fragment) : Prop := ∃ rest : Fragment, whole = first ++ rest

theorem Begins.refl (fragment : Fragment) : fragment.Begins fragment :=
  ⟨empty, (append_empty fragment).symm⟩

theorem Begins.trans {first second third : Fragment} (left : first.Begins second)
    (right : second.Begins third) : first.Begins third := by
  obtain ⟨middle, rfl⟩ := left
  obtain ⟨rest, rfl⟩ := right
  exact ⟨middle ++ rest, append_assoc first middle rest⟩

theorem begins_append (first rest : Fragment) : first.Begins (first ++ rest) := ⟨rest, rfl⟩

theorem begins_push (fragment : Fragment) (instruction : Instruction) :
    fragment.Begins (fragment.push instruction) :=
  ⟨empty.push instruction, eq_of_instructions (by simp [empty])⟩

theorem begins_emitAll (fragment : Fragment) (opcodes : List Opcode) :
    fragment.Begins (fragment.emitAll opcodes) := by
  induction opcodes generalizing fragment with
  | nil => exact .refl fragment
  | cons opcode opcodes ih => exact (begins_push fragment _).trans (ih _)

theorem Begins.standsAt {first whole : Fragment} {code : Code} {offset : Nat}
    (begins : first.Begins whole) (stands : whole.StandsAt code offset) :
    first.StandsAt code offset := by
  obtain ⟨rest, rfl⟩ := begins
  exact (standsAt_append.mp stands).1

end Fragment

namespace Compiling

open Fragment Stateful

theorem expressions_begins {items : List Expression} {start : Nat} {before code : Fragment}
    {compiler next : Compiler}
    (ran : expressions items start before compiler = .ok code next) : before.Begins code := by
  induction items generalizing before compiler with
  | nil =>
      obtain ⟨rfl, -⟩ := pure_eq_ok.mp ran
      exact .refl before
  | cons item items ih =>
      simp only [expressions] at ran
      obtain ⟨first, middle, -, rested⟩ := bind_eq_ok.mp ran
      exact (begins_append before first).trans (ih rested)

theorem statements_begins {ending : Ending} {body : List Statement} {start : Nat}
    {before code : Fragment} {compiler next : Compiler}
    (ran : statements ending body start before compiler = .ok code next) :
    before.Begins code := by
  induction body generalizing before compiler with
  | nil =>
      simp only [statements] at ran
      obtain ⟨rfl, -⟩ := pure_eq_ok.mp ran
      exact begins_emitAll before _
  | cons first rest ih =>
      match first, rest with
      | .expression value span, [] =>
          simp only [statements] at ran
          obtain ⟨made, middle, -, rested⟩ := bind_eq_ok.mp ran
          obtain ⟨rfl, -⟩ := pure_eq_ok.mp rested
          exact (begins_append before made).trans (begins_emitAll _ _)
      | .leave value span, [] =>
          simp only [statements] at ran
          obtain ⟨made, middle, -, rested⟩ := bind_eq_ok.mp ran
          obtain ⟨rfl, -⟩ := pure_eq_ok.mp rested
          exact (begins_append before made).trans (begins_emitAll _ _)
      | .bind bound, [] =>
          rw [statements] at ran
          · obtain ⟨made, middle, -, rested⟩ := bind_eq_ok.mp ran
            exact (begins_append before made).trans (ih rested)
          all_goals simp
      | first, second :: rest =>
          rw [statements] at ran
          · obtain ⟨made, middle, -, rested⟩ := bind_eq_ok.mp ran
            exact (begins_append before made).trans (ih rested)
          all_goals simp

end Compiling

end MonkeyLang
