import MonkeyLang.Proofs.Bytecode.Placement
import MonkeyLang.Proofs.Compiler.Runs
import MonkeyLang.Proofs.Compiler.Slots
import MonkeyLang.Proofs.Evaluator.Walk
import MonkeyLang.Proofs.Value.Opaque

/-!
# Compiled routines

The constants of a compiler hold its functions. A function comes from a routine if its code is
what the compiler made of the body of the routine, at a place where the names meant what they
mean for the routine (`CompiledAs`). Constants are linked to routines if every function among
them comes from the routine with its number (`Linked`).

The walk reads a compiler if both are at the same place of a program (`Reads`). A part of the
compiler follows the walk if it takes a compiler that the walk reads to one that the walk reads
behind that part, and keeps the constants linked (`Follows`). What follows the walk stays on its
way when it is put together, so it is enough to look at each step of the compiler by itself.
-/

set_option autoImplicit false

namespace MonkeyLang

/-- All constants of one pool are constants of another, with the same indices. -/
def Within (few many : Array Value) : Prop :=
  ∀ (index : Nat) (value : Value), few[index]? = some value → many[index]? = some value

namespace Within

theorem refl (constants : Array Value) : Within constants constants := fun _ _ found => found

theorem trans {first second third : Array Value} (left : Within first second)
    (right : Within second third) : Within first third :=
  fun index value found => right index value (left index value found)

theorem push (constants : Array Value) (value : Value) : Within constants (constants.push value) := by
  intro index found inside
  have below : index < constants.size := (Array.getElem?_eq_some_iff.mp inside).1
  rwa [Array.getElem?_push_lt below, ← Array.getElem?_eq_getElem below]

end Within

/-- The value of a function that does nothing. -/
def Function.idle : Function := ⟨0, none, 0, 0, (Fragment.single .returnNull []).encode⟩

/-- The function among some constants with a number, or the one that does nothing. -/
def functionAt (constants : Array Value) (number : Nat) : Function :=
  match constants[number]? with
  | some (.function body) => body
  | _ => .idle

/-- All functions inside of a value are constants with their identities as indices. -/
def Value.Genuine (constants : Array Value) (value : Value) : Prop :=
  value.All fun body => constants[body.identity]? = some (.function body)

theorem Value.Genuine.mono {few many : Array Value} (within : Within few many) {value : Value}
    (genuine : value.Genuine few) : value.Genuine many :=
  All.mono (fun body found => within body.identity (.function body) found) genuine

/-- The walk and the compiler are at the same place. -/
structure Reads (walk : Walk) (compiler : Compiler) : Prop where
  scope : walk.scope = compiler.scope.reached
  number : walk.number = compiler.constants.size
  slots : compiler.scope.isGlobal = false → compiler.scope.definitions ≤ Limit.locals.bound
  sound : compiler.scope.Sound

theorem Reads.withRoutines {walk : Walk} {compiler : Compiler} (reads : Reads walk compiler)
    (routines : Nat → Routine) : Reads { walk with routines } compiler :=
  ⟨reads.scope, reads.number, reads.slots, reads.sound⟩

theorem Reads.enter {walk : Walk} {compiler : Compiler} (reads : Reads walk compiler) :
    Reads { walk with scope := walk.scope.enter }
      { compiler with scope := compiler.scope.enter } where
  scope := by rw [Scope.reached_enter, reads.scope]
  number := reads.number
  slots _ := Nat.zero_le _
  sound := reads.sound.enter

/-- A walk that starts where nothing is defined yet. -/
theorem Compiler.reads_new (routines : Nat → Routine) : Reads ⟨new.scope, 0, routines⟩ new where
  scope := reached_new.symm
  number := rfl
  slots := by
    intro inner
    cases inner
  sound := sound_new

/-- The function is what the compiler made of the routine, with constants that are among the
given ones. -/
inductive CompiledAs (routine : Routine) (body : Function) (constants : Array Value) : Prop where
  | intro (before after : Compiler) (code : Fragment)
      (compiled : Compiling.statements .leave routine.body 0 .empty before = .ok code after)
      (reads : Reads routine.walk before)
      (inner : before.scope.isGlobal = false)
      (parameters : body.parameters = routine.parameters)
      (locals : body.locals = routine.locals)
      (definitions : after.scope.definitions = routine.locals)
      (roomy : routine.parameters ≤ routine.locals)
      (complete : code.Complete)
      (stream : body.code = code.encode)
      (within : Within after.constants constants)

theorem CompiledAs.mono {routine : Routine} {body : Function} {few many : Array Value}
    (compiled : CompiledAs routine body few) (within : Within few many) :
    CompiledAs routine body many := by
  obtain ⟨before, after, code, run, reads, inner, parameters, locals, definitions, roomy, complete,
    stream, few⟩ := compiled
  exact ⟨before, after, code, run, reads, inner, parameters, locals, definitions, roomy, complete,
    stream, few.trans within⟩

namespace CompiledAs

variable {routine : Routine} {body : Function} {constants : Array Value}

theorem parameters (compiled : CompiledAs routine body constants) :
    body.parameters = routine.parameters := by
  obtain ⟨-, -, -, -, -, -, parameters, -, -, -, -, -, -⟩ := compiled
  exact parameters

theorem locals (compiled : CompiledAs routine body constants) : body.locals = routine.locals := by
  obtain ⟨-, -, -, -, -, -, -, locals, -, -, -, -, -⟩ := compiled
  exact locals

theorem roomy (compiled : CompiledAs routine body constants) : body.parameters ≤ body.locals := by
  obtain ⟨-, -, -, -, -, -, parameters, locals, -, roomy, -, -, -⟩ := compiled
  rw [parameters, locals]
  exact roomy

end CompiledAs

theorem compiledAs_idle (constants : Array Value) : CompiledAs .idle .idle constants := by
  refine ⟨⟨Scope.empty.enter, #[], #[]⟩, ⟨Scope.empty.enter, #[], #[]⟩,
    Fragment.single .returnNull [], rfl, ?_, rfl, rfl, rfl, rfl, Nat.le_refl _, ?_, rfl, ?_⟩
  · refine ⟨rfl, rfl, fun _ => Nat.zero_le _, ?_⟩
    refine Scope.Sound.enter ⟨?_, ?_⟩
    · intro table inside symbol member
      obtain rfl := List.mem_singleton.mp inside
      cases member
    · intro symbol member
      cases member
  · simp [Fragment.single_eq_push, Instruction.Complete, Opcode.widths]
  · intro index value found
    simp at found

/-- Every function among the constants comes from the routine with its number, and no constant
holds a function from elsewhere. -/
structure Linked (routines : Nat → Routine) (constants : Array Value) : Prop where
  compiled : ∀ number, CompiledAs (routines number) (functionAt constants number) constants
  genuine : ∀ (index : Nat) (value : Value), constants[index]? = some value →
    value.Genuine constants

/-- A function among the constants comes from the routine with the number of its place. -/
theorem Linked.compiledAt {routines : Nat → Routine} {constants : Array Value} {number : Nat}
    {body : Function} (linked : Linked routines constants)
    (found : constants[number]? = some (.function body)) :
    CompiledAs (routines number) body constants := by
  have comes := linked.compiled number
  rwa [functionAt, found] at comes

/-- A function among the constants comes from one of the routines. -/
theorem Linked.comes {routines : Nat → Routine} {constants : Array Value} {body : Function}
    (linked : Linked routines constants) (member : .function body ∈ constants) :
    ∃ number, CompiledAs (routines number) body constants := by
  obtain ⟨number, found⟩ := Array.getElem?_of_mem member
  exact ⟨number, linked.compiledAt found⟩

theorem linked_empty : Linked (fun _ => .idle) #[] where
  compiled _ := compiledAs_idle _
  genuine := by
    intro index value found
    simp at found

theorem functionAt_push_of_ne {constants : Array Value} {value : Value} {number : Nat}
    (other : number ≠ constants.size) :
    functionAt (constants.push value) number = functionAt constants number := by
  simp only [functionAt, Array.getElem?_push, if_neg other]

/-- A constant that is no function changes nothing about routines. -/
theorem Linked.pushLiteral {routines : Nat → Routine} {constants : Array Value}
    (linked : Linked routines constants) {value : Value}
    (plain : ∀ body, value ≠ .function body) (genuine : value.Genuine (constants.push value)) :
    Linked routines (constants.push value) where
  compiled := by
    intro number
    have same : functionAt (constants.push value) number = functionAt constants number := by
      by_cases new : number = constants.size
      · subst new
        simp only [functionAt, Array.getElem?_push_size]
        simp only [Array.getElem?_eq_none (Nat.le_refl _)]
        cases value with
        | function body => exact absurd rfl (plain body)
        | _ => rfl
      · exact functionAt_push_of_ne new
    rw [same]
    exact (linked.compiled number).mono (Within.push _ _)
  genuine := by
    intro index found inside
    rw [Array.getElem?_push] at inside
    split at inside
    · cases inside
      exact genuine
    · exact (linked.genuine index found inside).mono (Within.push _ _)

/-- A function that is what the compiler made of a routine goes to the end of the constants. -/
theorem Linked.pushFunction {routines : Nat → Routine} {constants : Array Value}
    (linked : Linked routines constants) {routine : Routine} {body : Function}
    (identity : body.identity = constants.size) (compiled : CompiledAs routine body constants) :
    Linked (Function.update routines constants.size routine) (constants.push (.function body)) where
  compiled := by
    intro number
    by_cases new : number = constants.size
    · subst new
      simp only [Function.update_self, functionAt, Array.getElem?_push_size]
      exact compiled.mono (Within.push _ _)
    · rw [Function.update_of_ne new, functionAt_push_of_ne new]
      exact (linked.compiled number).mono (Within.push _ _)
  genuine := by
    intro index found inside
    rw [Array.getElem?_push] at inside
    split at inside
    · cases inside
      simp only [Value.Genuine, Value.All, identity, Array.getElem?_push_size]
    · exact (linked.genuine index found inside).mono (Within.push _ _)

end MonkeyLang
