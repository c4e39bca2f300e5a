import MonkeyLang.Proofs.Compiler.Stepwise

/-!
# Faults and warnings are about names of the program

A fault about a name carries the name as it is written at one place, and so does a warning. Neither
makes up a name: the compiler blames the names of the program only (`Compiler.compile_blames`). This
holds of each of its steps, and so of every compilation.
-/

set_option autoImplicit false

namespace MonkeyLang

/-- The name that a fault is about, if it is about one. -/
def CompileFault.name? : CompileFault → Option Name
  | undefinedName name => some name
  | assignToBuiltin name => some name
  | capturedLocal name => some name
  | returnOutsideFunction _ => none
  | limitExceeded _ _ => none

/-- All warnings are about names of some sort. -/
def Compiler.Warns (named : Name → Prop) (compiler : Compiler) : Prop :=
  ∀ warning ∈ compiler.warnings, ∃ name, named name ∧ warning = shadowingWarning name

namespace Compiling

variable {α β : Type} {named : Name → Prop}

/-- An end of work that blames names of some sort only. -/
def EndsBlaming (named : Name → Prop) : EStateM.Result CompileFault Compiler α → Prop
  | .ok _ next => next.Warns named
  | .error fault next => (∀ name ∈ fault.name?, named name) ∧ next.Warns named

/-- Work whose faults and warnings are about names of some sort. -/
def Blames (named : Name → Prop) (work : Compiling α) : Prop :=
  ∀ compiler, compiler.Warns named → EndsBlaming named (work compiler)

namespace Blames

theorem pure (value : α) : Blames named (Pure.pure value : Compiling α) := fun _ warns => warns

theorem throw {fault : CompileFault} (about : ∀ name ∈ fault.name?, named name) :
    Blames named (MonadExcept.throw fault : Compiling α) := fun _ warns => ⟨about, warns⟩

theorem bind {work : Compiling α} {rest : α → Compiling β} (works : Blames named work)
    (rests : ∀ value, Blames named (rest value)) : Blames named (work >>= rest) := by
  intro compiler warns
  have worked := works compiler warns
  cases ran : work compiler with
  | ok value next =>
      rw [ran] at worked
      rw [Stateful.bind_of_ok ran]
      exact rests value next worked
  | error fault next =>
      rw [ran] at worked
      rw [Stateful.bind_of_error ran]
      exact worked

theorem get {rest : Compiler → Compiling α} (rests : ∀ compiler, Blames named (rest compiler)) :
    Blames named (MonadState.get >>= rest) := by
  intro compiler warns
  rw [Stateful.get_bind]
  exact rests compiler compiler warns

theorem modify {change : Compiler → Compiler}
    (keeps : ∀ compiler : Compiler, compiler.Warns named → (change compiler).Warns named) :
    Blames named (modify change : Compiling PUnit) := fun compiler warns => keeps compiler warns

theorem require (holds : Bool) (limit : Limit) (span : Span) :
    Blames named (Compiling.require holds limit span) := by
  cases holds with
  | true => exact pure ()
  | false => exact throw fun _ is => by cases is

theorem constant (value : Value) (span : Span) :
    Blames named (Compiling.constant value span) := by
  have added : Blames named (addConstant value span) := by
    refine get fun compiler => (require _ _ _).bind fun _ => (modify ?_).bind fun _ => pure _
    exact fun _ warns => warns
  exact added.bind fun _ => pure _

theorem resolve {name : Name} (known : named name) : Blames named (Compiling.resolve name) := by
  refine get fun compiler => ?_
  dsimp only
  cases compiler.scope.resolve? name.text with
  | none => exact throw fun _ is => Option.some.inj is ▸ known
  | some symbol =>
      dsimp only
      split
      · exact throw fun _ is => Option.some.inj is ▸ known
      · exact pure symbol

theorem define {name : Name} (known : named name) : Blames named (Compiling.define name) := by
  -- What is left of a definition, with or without a warning before it.
  have record : Blames named (MonadState.get >>= fun compiler : Compiler =>
      MonadStateOf.modifyGet (fun other : Compiler =>
        ((), { other with scope := (compiler.scope.define name.text).2 })) >>= fun _ =>
      Compiling.require ((compiler.scope.define name.text).1.index <
          (slotLimit (compiler.scope.define name.text).1.storage).bound)
        (slotLimit (compiler.scope.define name.text).1.storage) name.span >>= fun _ =>
      Pure.pure (compiler.scope.define name.text).1) := by
    refine get fun _ => (modify ?_).bind fun _ => (require _ _ _).bind fun _ => pure _
    exact fun _ warns => warns
  refine get fun compiler => ?_
  dsimp only
  split
  · refine (modify fun other warns warning member => ?_).bind fun _ => record
    rcases Array.mem_push.mp member with earlier | rfl
    · exact warns warning earlier
    · exact ⟨name, known, rfl⟩
  · exact record

theorem store {name : Name} (symbol : Symbol) (known : named name) :
    Blames named (Compiling.store name symbol) := by
  obtain ⟨text, storage, index⟩ := symbol
  cases storage with
  | global => exact pure _
  | frame => exact pure _
  | builtin => exact throw fun _ is => Option.some.inj is ▸ known

theorem inFunction {work : Compiling α} (works : Blames named work) :
    Blames named (Compiling.inFunction work) := by
  intro compiler warns
  have worked := works { compiler with scope := compiler.scope.enter } warns
  unfold Compiling.inFunction
  cases ran : work { compiler with scope := compiler.scope.enter } with
  | ok value next =>
      rw [ran] at worked
      exact worked
  | error fault next =>
      rw [ran] at worked
      exact worked

end Blames

/-- Each step of the compiler blames the names that it is about, if any. -/
theorem stepwise_blames : Stepwise named fun _ work => Blames named work where
  pure := .pure
  bind := .bind
  inFunction := .inFunction
  departs := by
    intro _ _ span rest
    refine .get fun compiler => ?_
    split
    · exact (Blames.throw fun _ is => by cases is).bind fun _ => rest
    · exact rest
  require := .require
  constant := .constant
  functionConstant _ _ span _ _ := .get fun _ => .constant _ span
  resolve _ known := .resolve known
  define _ known := .define known
  store _ symbol known := .store symbol known

end Compiling

/-- A new compiler blames names of the program only, whatever becomes of the program. -/
theorem Compiler.compile_blames {named : Name → Prop} {program : Program}
    {result : Except CompileFault CompiledProgram} {next : Compiler}
    (inside : ∀ statement ∈ program.statements, statement.outline.NamesIn named)
    (made : new.compile program = (result, next)) :
    (∀ fault, result = .error fault → ∀ name ∈ fault.name?, named name) ∧ next.Warns named := by
  have all : ∀ part ∈ Statement.outlines program.statements, part.NamesIn named := by
    rw [Statement.outlines_eq_map]
    exact List.forall_mem_map.mpr inside
  have ended := Compiling.stepwise_blames.statements .discard program.statements 0 .empty all new
    fun warning member => absurd member (Array.not_mem_empty warning)
  rw [compile] at made
  split at made
  · next ran =>
      rw [ran] at ended
      cases made
      exact ⟨fun _ same => (by cases same), ended⟩
  · next fault _ ran =>
      rw [ran] at ended
      cases made
      exact ⟨fun _ same => Except.error.inj same ▸ ended.1, ended.2⟩

end MonkeyLang
