import MonkeyLang.Proofs.Bytecode.Layout
import MonkeyLang.Proofs.Compiler.Loops
import MonkeyLang.Proofs.Compiler.Tracking

/-!
# Where the jumps of compiled code land

A jump is written with its target before the code at the target exists. In every fragment that the
compiler makes all jumps land where an instruction starts (`Fragment.Landed`), or behind the last
one as long as more code is to come. The code of a statement does not need any: its jumps all land
in front of its end (`Fragment.Closed`), since the last thing that it does is to pop, to store or
to leave something. So do the streams of programs and of functions, which consist of statements.

Only loops jump back. Without them every jump lands behind itself. The lemmas carry along whether
there may be loops, so that both facts come from one induction.

Along with the jumps go the operands that are indices of constants, of slots of a call or of builtin
functions: each of them is an index of something that the compiler has (`Instruction.Suits`).
-/

set_option autoImplicit false

namespace MonkeyLang

/-! ## Operands -/

theorem Within.size_le {few many : Array Value} (within : Within few many) :
    few.size ≤ many.size := by
  refine Nat.le_of_not_lt fun fewer => ?_
  have found := within many.size few[many.size] (Array.getElem?_eq_getElem fewer)
  rw [Array.getElem?_eq_none (Nat.le_refl _)] at found
  cases found

/-- A symbol that a compiler can use where it is. -/
def Symbol.Suits (compiler : Compiler) (symbol : Symbol) : Prop :=
  match symbol.storage with
  | .global => True
  | .frame => compiler.scope.isGlobal = false ∧ symbol.index < compiler.scope.definitions
  | .builtin => symbol.index < Builtin.all.length

/-- The operands of an instruction are indices of what the compiler has. -/
def Instruction.Suits (compiler : Compiler) (instruction : Instruction) : Prop :=
  ∀ operand ∈ instruction.operands,
    match instruction.opcode with
    | .constant => operand < compiler.constants.size
    | .getLocal | .setLocal =>
      compiler.scope.isGlobal = false ∧ operand < compiler.scope.definitions
    | .getBuiltin => operand < Builtin.all.length
    | _ => True

/-- An instruction that uses a symbol and does not jump. -/
structure Symbol.Stores (symbol : Symbol) (instruction : Instruction) : Prop where
  stays : instruction.target? = none
  suits : ∀ compiler, symbol.Suits compiler → instruction.Suits compiler

theorem Symbol.Suits.grow {compiler later : Compiler} {symbol : Symbol}
    (suits : symbol.Suits compiler) (grows : Grows compiler later) : symbol.Suits later := by
  unfold Symbol.Suits at suits ⊢
  split
  · trivial
  · next frame =>
      rw [frame] at suits
      exact ⟨grows.isGlobal.trans suits.1, Nat.lt_of_lt_of_le suits.2 grows.definitions⟩
  · next builtin =>
      rw [builtin] at suits
      exact suits

theorem Instruction.Suits.grow {compiler later : Compiler} {instruction : Instruction}
    (suits : instruction.Suits compiler) (grows : Grows compiler later) :
    instruction.Suits later := by
  intro operand member
  have before := suits operand member
  cases opcode : instruction.opcode with
  | constant =>
      rw [opcode] at before
      exact Nat.lt_of_lt_of_le before grows.constants.size_le
  | getLocal | setLocal =>
      rw [opcode] at before
      exact ⟨grows.isGlobal.trans before.1, Nat.lt_of_lt_of_le before.2 grows.definitions⟩
  | getBuiltin =>
      rw [opcode] at before
      exact before
  | _ => trivial

namespace Compiling

theorem suits_load {compiler : Compiler} {symbol : Symbol} (suits : symbol.Suits compiler) :
    (load symbol).Suits compiler := by
  obtain ⟨name, storage, index⟩ := symbol
  intro operand member
  cases storage <;>
    · obtain rfl := List.mem_singleton.mp member
      exact suits

theorem target?_load (symbol : Symbol) : (load symbol).target? = none := by
  obtain ⟨name, storage, index⟩ := symbol
  cases storage <;> rfl

end Compiling

theorem Instruction.suits_bare (compiler : Compiler) (opcode : Opcode) :
    (⟨opcode, []⟩ : Instruction).Suits compiler := by
  intro operand member
  cases member

/-! ## Fragments -/

/-- The jumps of code that will stand at a place have targets of a kind that fit into an operand,
the operands are indices of what the compiler has, and only loops jump back. -/
structure Fragment.Laid (loops : Prop) (targets : Nat → Prop) (compiler : Compiler) (start : Nat)
    (code : Fragment) : Prop where
  lands : ∀ place instruction target, code.Has start place instruction →
    instruction.target? = some target →
      targets target ∧ target ≤ Limit.instructionBytes.bound ∧ (loops ∨ place < target)
  suits : ∀ place instruction, code.Has start place instruction → instruction.Suits compiler

/-- All jumps land inside of the code or right behind it. -/
def Fragment.Landed (loops : Prop) (compiler : Compiler) (start : Nat) (code : Fragment) : Prop :=
  code.Laid loops (code.Starts start) compiler start

/-- All jumps land inside of the code. -/
def Fragment.Closed (loops : Prop) (compiler : Compiler) (start : Nat) (code : Fragment) : Prop :=
  code.Laid loops (fun target => code.Starts start target ∧ target < start + code.size) compiler
    start

namespace Fragment

variable {loops : Prop} {targets wider : Nat → Prop} {compiler later : Compiler}
  {start target : Nat} {code rest : Fragment} {instruction : Instruction}

namespace Laid

theorem empty : Laid loops targets compiler start .empty :=
  ⟨fun _ _ _ has => has.elim, fun _ _ has => has.elim⟩

theorem grow (laid : code.Laid loops targets compiler start) (grows : Grows compiler later) :
    code.Laid loops targets later start :=
  ⟨laid.lands, fun place instruction has => (laid.suits place instruction has).grow grows⟩

theorem widen (laid : code.Laid loops targets compiler start)
    (wide : ∀ target, targets target → wider target) : code.Laid loops wider compiler start where
  lands := by
    intro place instruction target has jumps
    obtain ⟨lands, fits, ahead⟩ := laid.lands place instruction target has jumps
    exact ⟨wide target lands, fits, ahead⟩
  suits := laid.suits

theorem append (first : code.Laid loops targets compiler start)
    (second : rest.Laid loops targets compiler (start + code.size)) :
    (code ++ rest).Laid loops targets compiler start where
  lands := by
    intro place instruction target has
    rcases has_append.mp has with has | has
    · exact first.lands place instruction target has
    · exact second.lands place instruction target has
  suits := by
    intro place instruction has
    rcases has_append.mp has with has | has
    · exact first.suits place instruction has
    · exact second.suits place instruction has

theorem push (laid : code.Laid loops targets compiler start) (suits : instruction.Suits compiler)
    (stays : instruction.target? = none) :
    (code.push instruction).Laid loops targets compiler start where
  lands := by
    intro place other target has jumps
    rcases has_push.mp has with has | ⟨-, rfl⟩
    · exact laid.lands place other target has jumps
    · rw [stays] at jumps
      cases jumps
  suits := by
    intro place other has
    rcases has_push.mp has with has | ⟨-, rfl⟩
    · exact laid.suits place other has
    · exact suits

/-- An instruction without operands. -/
theorem emit (laid : code.Laid loops targets compiler start) (opcode : Opcode) :
    (code.emit opcode []).Laid loops targets compiler start :=
  laid.push (Instruction.suits_bare compiler opcode) (by cases opcode <;> rfl)

theorem emitAll (laid : code.Laid loops targets compiler start) (opcodes : List Opcode) :
    (code.emitAll opcodes).Laid loops targets compiler start := by
  induction opcodes generalizing code with
  | nil => exact laid
  | cons opcode opcodes ih => exact ih (laid.emit opcode)

/-- A jump behind the code. -/
theorem jump {opcode : Opcode} (laid : code.Laid loops targets compiler start)
    (jumps : opcode = .jump ∨ opcode = .jumpNotTruthy) (lands : targets target)
    (fits : target ≤ Limit.instructionBytes.bound) (ahead : loops ∨ start + code.size < target) :
    (code.emit opcode [target]).Laid loops targets compiler start where
  lands := by
    intro place other goal has leads
    rcases has_push.mp has with has | ⟨rfl, rfl⟩
    · exact laid.lands place other goal has leads
    · rcases jumps with rfl | rfl <;>
        · obtain rfl := Option.some.inj leads
          exact ⟨lands, fits, ahead⟩
  suits := by
    intro place other has
    rcases has_push.mp has with has | ⟨rfl, rfl⟩
    · exact laid.suits place other has
    · rcases jumps with rfl | rfl <;> exact fun _ _ => trivial

end Laid

theorem Landed.grow (landed : code.Landed loops compiler start) (grows : Grows compiler later) :
    code.Landed loops later start := Laid.grow landed grows

theorem Closed.grow (closed : code.Closed loops compiler start) (grows : Grows compiler later) :
    code.Closed loops later start := Laid.grow closed grows

theorem Closed.landed (closed : code.Closed loops compiler start) :
    code.Landed loops compiler start := Laid.widen closed fun _ => And.left

theorem closed_empty : Closed loops compiler start .empty := Laid.empty

/-- Where a part of some code starts an instruction, the code does. -/
theorem Landed.append (first : code.Landed loops compiler start)
    (second : rest.Landed loops compiler (start + code.size)) :
    (code ++ rest).Landed loops compiler start :=
  (Laid.widen first fun _ starts => starts_append.mpr (.inl starts)).append
    (Laid.widen second fun _ starts => starts_append.mpr (.inr starts))

theorem Closed.append (first : code.Closed loops compiler start)
    (second : rest.Closed loops compiler (start + code.size)) :
    (code ++ rest).Closed loops compiler start := by
  refine (Laid.widen first ?_).append (Laid.widen second ?_)
  · rintro target ⟨starts, below⟩
    exact ⟨starts_append.mpr (.inl starts), by rw [size_append]; omega⟩
  · rintro target ⟨starts, below⟩
    exact ⟨starts_append.mpr (.inr starts), by rw [size_append]; omega⟩

/-- What was right behind the code is inside of it when an instruction follows. -/
theorem Landed.close (landed : code.Landed loops compiler start)
    (suits : instruction.Suits compiler) (stays : instruction.target? = none) :
    (code.push instruction).Closed loops compiler start := by
  refine Laid.push (Laid.widen landed fun target starts => ?_) suits stays
  refine ⟨starts_push.mpr (.inl starts), ?_⟩
  have bounds := starts.le
  have pos : 0 < instruction.size := Nat.lt_of_lt_of_le Nat.one_pos (Nat.le_add_right _ _)
  rw [size_push]
  omega

theorem Landed.emit (landed : code.Landed loops compiler start) (opcode : Opcode) :
    (code.emit opcode []).Closed loops compiler start :=
  landed.close (Instruction.suits_bare compiler opcode) (by cases opcode <;> rfl)

theorem Landed.load (landed : code.Landed loops compiler start) {symbol : Symbol}
    (suits : symbol.Suits compiler) :
    (code.push (Compiling.load symbol)).Landed loops compiler start :=
  (landed.close (Compiling.suits_load suits) (Compiling.target?_load symbol)).landed

theorem Landed.emitAll (landed : code.Landed loops compiler start) (opcodes : List Opcode) :
    (code.emitAll opcodes).Landed loops compiler start := by
  induction opcodes generalizing code with
  | nil => exact landed
  | cons opcode opcodes ih => exact ih (landed.emit opcode).landed

theorem Closed.emitAll (closed : code.Closed loops compiler start) (opcodes : List Opcode) :
    (code.emitAll opcodes).Closed loops compiler start := by
  induction opcodes generalizing code with
  | nil => exact closed
  | cons opcode opcodes ih => exact ih (closed.landed.emit opcode)

/-! ## Code with jumps in it -/

theorem place_emit_jump (code : Fragment) (start target : Nat) :
    start + (code.emit .jump [target]).size = start + code.size + Compiling.jumpSize :=
  (Nat.add_assoc _ _ _).symm

theorem place_emit_jumpNotTruthy (code : Fragment) (start target : Nat) :
    start + (code.emit .jumpNotTruthy [target]).size = start + code.size + Compiling.jumpSize :=
  (Nat.add_assoc _ _ _).symm

/-- A test with a part behind it that is jumped over if the test fails. -/
theorem Laid.guarded {test pass : Fragment} (first : test.Laid loops targets compiler start)
    (second : pass.Laid loops targets compiler (start + test.size + Compiling.jumpSize))
    (lands : targets target) (fits : target ≤ Limit.instructionBytes.bound)
    (ahead : start + test.size < target) :
    (test.emit .jumpNotTruthy [target] ++ pass).Laid loops targets compiler start := by
  refine (first.jump (.inr rfl) lands fits (.inr ahead)).append ?_
  rwa [place_emit_jumpNotTruthy]

/-- A test that decides between two parts. -/
theorem Landed.conditional {test chosen other : Fragment}
    (first : test.Landed loops compiler start)
    (second : chosen.Landed loops compiler (start + test.size + Compiling.jumpSize))
    (third : other.Landed loops compiler
      (start + test.size + Compiling.jumpSize + chosen.size + Compiling.jumpSize))
    (fits : start + test.size + Compiling.jumpSize + chosen.size + Compiling.jumpSize + other.size ≤
      Limit.instructionBytes.bound) :
    ((test.emit .jumpNotTruthy
        [start + test.size + Compiling.jumpSize + chosen.size + Compiling.jumpSize] ++ chosen).emit
      .jump [start + test.size + Compiling.jumpSize + chosen.size + Compiling.jumpSize +
        other.size] ++ other).Landed loops compiler start := by
  generalize turn : start + test.size + Compiling.jumpSize + chosen.size + Compiling.jumpSize =
    otherStart at third fits ⊢
  have jump : Compiling.jumpSize = 3 := rfl
  have passed : start + (test.emit .jumpNotTruthy [otherStart] ++ chosen).size =
      start + test.size + Compiling.jumpSize + chosen.size := by
    rw [size_append, ← Nat.add_assoc, place_emit_jumpNotTruthy]
  have place : start + ((test.emit .jumpNotTruthy [otherStart] ++ chosen).emit .jump
      [otherStart + other.size]).size = otherStart := by
    rw [place_emit_jump, passed, turn]
  have branches : ∀ target, (test.emit .jumpNotTruthy [otherStart] ++ chosen).Starts start target →
      ((test.emit .jumpNotTruthy [otherStart] ++ chosen).emit .jump [otherStart + other.size] ++
        other).Starts start target :=
    fun target starts => starts_append.mpr (.inl (starts_push.mpr (.inl starts)))
  have remaining : ∀ target, other.Starts otherStart target →
      ((test.emit .jumpNotTruthy [otherStart] ++ chosen).emit .jump [otherStart + other.size] ++
        other).Starts start target :=
    fun target starts => starts_append.mpr (.inr (place.symm ▸ starts))
  refine Laid.append (Laid.jump (Laid.guarded (Laid.widen first ?_) (Laid.widen second ?_) ?_ ?_ ?_)
    (.inl rfl) ?_ fits (.inr ?_)) ?_
  · intro target starts
    exact branches target (starts_append.mpr (.inl (starts_push.mpr (.inl starts))))
  · intro target starts
    refine branches target (starts_append.mpr (.inr ?_))
    rwa [place_emit_jumpNotTruthy]
  · exact remaining _ (starts_place other otherStart)
  · omega
  · omega
  · exact remaining _ (starts_end other otherStart)
  · rw [passed]
    omega
  · rw [place]
    exact Laid.widen third remaining

/-- A loop, with null behind it. The jump back to the test is the only one that needs a loop. -/
theorem Landed.loop {test pass : Fragment} (back : loops) (first : test.Landed loops compiler start)
    (second : pass.Closed loops compiler (start + test.size + Compiling.jumpSize))
    (fits : start + test.size + Compiling.jumpSize + pass.size + Compiling.jumpSize ≤
      Limit.instructionBytes.bound) :
    (((test.emit .jumpNotTruthy
        [start + test.size + Compiling.jumpSize + pass.size + Compiling.jumpSize] ++ pass).emit
      .jump [start]).emit .null []).Closed loops compiler start := by
  generalize turn : start + test.size + Compiling.jumpSize + pass.size + Compiling.jumpSize =
    stop at fits ⊢
  have jump : Compiling.jumpSize = 3 := rfl
  have passed : start + (test.emit .jumpNotTruthy [stop] ++ pass).size =
      start + test.size + Compiling.jumpSize + pass.size := by
    rw [size_append, ← Nat.add_assoc, place_emit_jumpNotTruthy]
  have place :
      start + ((test.emit .jumpNotTruthy [stop] ++ pass).emit .jump [start]).size = stop := by
    rw [place_emit_jump, passed, turn]
  have size : start + (((test.emit .jumpNotTruthy [stop] ++ pass).emit .jump [start]).emit .null
      []).size = stop + 1 := by
    rw [emit_eq_push _ .null, size_push, ← Nat.add_assoc, place]
    rfl
  have inside : ∀ target, (test.emit .jumpNotTruthy [stop] ++ pass).Starts start target →
      target ≤ stop → (((test.emit .jumpNotTruthy [stop] ++ pass).emit .jump [start]).emit .null
        []).Starts start target ∧
      target < start + (((test.emit .jumpNotTruthy [stop] ++ pass).emit .jump [start]).emit .null
        []).size := by
    intro target starts low
    rw [size]
    exact ⟨starts_push.mpr (.inl (starts_push.mpr (.inl starts))), Nat.lt_succ_of_le low⟩
  refine Laid.emit (Laid.jump (Laid.guarded (Laid.widen first ?_) (Laid.widen second ?_) ?_ fits ?_)
    (.inl rfl) ?_ ?_ (.inl back)) .null
  · intro target starts
    have bounds := starts.le
    exact inside target (starts_append.mpr (.inl (starts_push.mpr (.inl starts)))) (by omega)
  · rintro target ⟨starts, below⟩
    refine inside target (starts_append.mpr (.inr ?_)) (by omega)
    rwa [place_emit_jumpNotTruthy]
  · have last := starts_end ((test.emit .jumpNotTruthy [stop] ++ pass).emit .jump [start]) start
    rw [place] at last
    exact ⟨starts_push.mpr (.inl last), by rw [size]; exact Nat.lt_succ_self _⟩
  · omega
  · exact inside start (starts_place _ start) (by omega)
  · omega

/-- A loop with a name of its own that is bound in front of it. -/
theorem Closed.forLoop {preparation test pass step : Fragment} (back : loops)
    (first : preparation.Closed loops compiler start)
    (second : test.Landed loops compiler (start + preparation.size))
    (third : pass.Closed loops compiler (start + preparation.size + test.size + Compiling.jumpSize))
    (fourth : step.Landed loops compiler
      (start + preparation.size + test.size + Compiling.jumpSize + pass.size))
    (fits : start + preparation.size + test.size + Compiling.jumpSize + pass.size +
      (step.emit .pop []).size + Compiling.jumpSize ≤ Limit.instructionBytes.bound) :
    (((preparation ++ (test.emit .jumpNotTruthy [start + preparation.size + test.size +
        Compiling.jumpSize + pass.size + (step.emit .pop []).size + Compiling.jumpSize] ++ pass ++
        step.emit .pop [])).emit .jump [start + preparation.size]).emit .null []).Closed loops
      compiler start := by
  have cycle := second.loop back (third.append (fourth.emit .pop))
  rw [size_append, ← Nat.add_assoc] at cycle
  have whole := first.append (cycle fits)
  simp only [emit_eq_push, ← append_push, append_assoc] at whole ⊢
  exact whole

end Fragment

/-! ## Parts of the compiler -/

/-- A part of the compiler that succeeds goes along with the walk and makes something good. -/
def Lays {α : Type} (good : Compiler → α → Prop) (work : Compiling α) (before behind : Walk) :
    Prop :=
  ∀ (compiler next : Compiler) (result : α), Reads before compiler →
    work compiler = .ok result next → Reads behind next ∧ Grows compiler next ∧ good next result

/-- What stays good while the compiler grows. -/
def Lasting {α : Type} (good : Compiler → α → Prop) : Prop :=
  ∀ (compiler later : Compiler) (result : α), Grows compiler later → good compiler result →
    good later result

namespace Lays

open Stateful

variable {α β : Type} {good : Compiler → α → Prop} {well : Compiler → β → Prop}
  {walk before middle behind : Walk}

theorem of_follows {fine : α → Prop} {work : Compiling α}
    (follows : Follows False fine work before behind) :
    Lays (fun _ result => fine result) work before behind := by
  intro compiler next result reads ran
  obtain ⟨holds, later, grows⟩ := follows.of_ok reads ran
  exact ⟨later, grows, holds⟩

theorem pure {result : α} (holds : ∀ compiler, Reads walk compiler → good compiler result) :
    Lays good (pure result) walk walk := by
  intro compiler next _ reads ran
  obtain ⟨rfl, rfl⟩ := pure_eq_ok.mp ran
  exact ⟨reads, .refl _, holds compiler reads⟩

theorem throw (fault : CompileFault) : Lays good (throw fault) before behind :=
  fun _ _ _ _ ran => absurd ran throw_ne_ok

theorem mono {better : Compiler → α → Prop} {work : Compiling α}
    (lays : Lays good work before behind)
    (implies : ∀ compiler result, good compiler result → better compiler result) :
    Lays better work before behind := by
  intro compiler next result reads ran
  obtain ⟨there, grows, holds⟩ := lays compiler next result reads ran
  exact ⟨there, grows, implies next result holds⟩

/-- What the first part has made is still good when the second one is done. -/
theorem bind {work : Compiling α} {rest : α → Compiling β} (lasting : Lasting good)
    (works : Lays good work before middle)
    (rests : ∀ result, Lays (fun next value => good next result → well next value) (rest result)
      middle behind) : Lays well (work >>= rest) before behind := by
  intro compiler next value reads ran
  obtain ⟨result, between, worked, rested⟩ := bind_eq_ok.mp ran
  obtain ⟨there, grown, made⟩ := works compiler between result reads worked
  obtain ⟨arrived, grows, holds⟩ := rests result between next value there rested
  exact ⟨arrived, grown.trans grows, holds (lasting between next result grows made)⟩

/-- A part that makes nothing of interest. -/
theorem skip {work : Compiling α} {rest : α → Compiling β}
    (works : Follows.Any False work before middle)
    (rests : ∀ result, Lays well (rest result) middle behind) :
    Lays well (work >>= rest) before behind :=
  bind (fun _ _ _ _ => id) (of_follows works) fun result compiler next value reads ran => by
    obtain ⟨arrived, grows, holds⟩ := rests result compiler next value reads ran
    exact ⟨arrived, grows, fun _ => holds⟩

theorem requireTarget (target : Nat) (span : Span) :
    Lays (fun _ _ => target ≤ Limit.instructionBytes.bound) (Compiling.requireTarget target span)
      walk walk := by
  intro compiler next _ reads ran
  obtain ⟨fits, rfl⟩ := Compiling.requireTarget_eq_ok.mp ran
  exact ⟨reads, .refl _, fits⟩

theorem resolve (name : Name) :
    Lays (fun compiler symbol => symbol.Suits compiler) (Compiling.resolve name) walk walk := by
  intro compiler next symbol reads ran
  obtain ⟨found, own, rfl⟩ := Compiling.resolve_eq_ok.mp ran
  refine ⟨reads, .refl _, ?_⟩
  obtain ⟨table, inside, member⟩ := Scope.mem_of_resolve? found
  unfold Symbol.Suits
  split
  · trivial
  · next frame =>
      exact reads.sound.locals symbol (Scope.mem_innermost_of_resolve? (own frame) found) frame
  · next builtin => exact reads.sound.builtins table inside symbol member builtin

theorem define (name : Name) :
    Lays (fun compiler symbol => symbol.Suits compiler) (Compiling.define name) walk
      (walk.define name) := by
  intro compiler next symbol reads ran
  obtain ⟨-, there, grows⟩ := (Follows.define name).of_ok reads ran
  refine ⟨there, grows, ?_⟩
  obtain ⟨rfl, scope, -, -⟩ := Compiling.define_eq_ok ran
  unfold Symbol.Suits
  rw [Scope.storage_define, scope, Scope.isGlobal_define, Scope.definitions_define,
    Scope.index_define]
  cases outer : compiler.scope.isGlobal with
  | true =>
      have storage : compiler.scope.storage = .global := if_pos outer
      rw [storage]
      trivial
  | false =>
      have storage : compiler.scope.storage = .frame :=
        if_neg (by rw [outer]; exact Bool.false_ne_true)
      rw [storage]
      exact ⟨rfl, Nat.lt_succ_self _⟩

theorem store (name : Name) (symbol : Symbol) :
    Lays (fun _ instruction => symbol.Stores instruction) (Compiling.store name symbol) walk
      walk := by
  intro compiler next instruction reads ran
  obtain ⟨rfl, stored⟩ := Compiling.store_eq_ok ran
  refine ⟨reads, .refl _, ?_⟩
  rcases stored with ⟨global, rfl⟩ | ⟨frame, rfl⟩
  · exact ⟨rfl, fun _ _ _ _ => trivial⟩
  · refine ⟨rfl, fun compiler suits operand member => ?_⟩
    obtain rfl := List.mem_singleton.mp member
    unfold Symbol.Suits at suits
    rw [frame] at suits
    exact suits

variable {loops : Prop} {start : Nat}

theorem null : Lays (fun compiler code => code.Landed loops compiler start)
    (Pure.pure (Fragment.single .null []) : Compiling Fragment) walk walk :=
  pure fun _ _ => (Fragment.closed_empty.landed.emit .null).landed

/-- The code that pushes a constant that was added last. -/
theorem landed_constant {compiler : Compiler} {index : Nat}
    (inside : index < compiler.constants.size) :
    (Fragment.single .constant [index]).Landed loops compiler start := by
  refine (Fragment.closed_empty.landed.close ?_ rfl).landed
  intro operand member
  obtain rfl := List.mem_singleton.mp member
  exact inside

theorem literal (value : Literal) (span : Span) :
    Lays (fun compiler code => code.Landed loops compiler start) (Compiling.literal value span) walk
      (value.walk walk) := by
  intro compiler next code reads ran
  obtain ⟨-, there, grows⟩ := (Follows.literal value span).of_ok reads ran
  refine ⟨there, grows, ?_⟩
  have pushed : ∀ constant : Value, Compiling.constant constant span compiler = .ok code next →
      code.Landed loops next start := by
    intro constant added
    obtain ⟨-, rfl, rfl⟩ := Compiling.constant_eq_ok.mp added
    exact landed_constant (by rw [Array.size_push]; exact Nat.lt_succ_self _)
  cases value with
  | integer value => exact pushed _ ran
  | float value => exact pushed _ ran
  | string value => exact pushed _ ran
  | boolean value =>
      cases value <;>
        · obtain ⟨rfl, rfl⟩ := pure_eq_ok.mp ran
          exact (Fragment.closed_empty.landed.emit _).landed

/-- The body of a function has a stream of its own. -/
theorem function (name : Option String) (parameters : List Name) (span : Span) (body : Block) :
    Lays (fun compiler code => code.Landed loops compiler start)
      (Compiling.function name parameters span body) walk (body.walkFunction parameters walk) := by
  intro compiler next code reads ran
  have follows := function_follows False name parameters span body walk
  obtain ⟨-, there, grows⟩ := follows.of_ok reads ran
  refine ⟨there, grows, ?_⟩
  obtain ⟨statements, bodySpan⟩ := body
  obtain ⟨_, inner, _, -, -, -, rfl, rfl⟩ := Compiling.function_eq_ok ran
  exact landed_constant (by rw [Array.size_push]; exact Nat.lt_succ_self _)

end Lays

/-! ## The parts of a program -/

/-- The code of statements is closed but for the value of a branch, which ends in an expression. -/
def Ending.Makes (ending : Ending) (loops : Prop) (compiler : Compiler) (start : Nat)
    (code : Fragment) : Prop :=
  match ending with
  | .keep => code.Landed loops compiler start
  | _ => code.Closed loops compiler start

theorem lasting_landed (loops : Prop) (start : Nat) :
    Lasting fun compiler (code : Fragment) => code.Landed loops compiler start :=
  fun _ _ _ grows landed => landed.grow grows

theorem lasting_closed (loops : Prop) (start : Nat) :
    Lasting fun compiler (code : Fragment) => code.Closed loops compiler start :=
  fun _ _ _ grows closed => closed.grow grows

/-- What stays good of the part that was put behind other code. -/
theorem lasting_behind {good : Compiler → Fragment → Prop} (lasting : Lasting good)
    (before : Fragment) :
    Lasting fun compiler code => ∃ rest, code = before ++ rest ∧ good compiler rest := by
  rintro compiler later _ grows ⟨rest, rfl, holds⟩
  exact ⟨rest, rfl, lasting compiler later rest grows holds⟩

theorem lasting_always {α : Type} (holds : α → Prop) : Lasting fun _ result => holds result :=
  fun _ _ _ _ => id

theorem lasting_suits : Lasting fun compiler (symbol : Symbol) => symbol.Suits compiler :=
  fun _ _ _ grows suits => suits.grow grows

namespace Ending

variable {loops : Prop} {compiler : Compiler} {start : Nat} {code : Fragment}

theorem makes_append {rest : Fragment} (ending : Ending) (closed : code.Closed loops compiler start)
    (made : ending.Makes loops compiler (start + code.size) rest) :
    ending.Makes loops compiler start (code ++ rest) := by
  cases ending with
  | keep => exact closed.landed.append made
  | discard | leave => exact Fragment.Closed.append closed made

theorem makes_behindOther (ending : Ending) (closed : code.Closed loops compiler start) :
    ending.Makes loops compiler start (code.emitAll ending.behindOther) := by
  cases ending with
  | keep => exact (closed.emitAll _).landed
  | discard | leave => exact closed.emitAll _

theorem makes_behindLeave (ending : Ending) (closed : code.Closed loops compiler start) :
    ending.Makes loops compiler start (code.emitAll ending.behindLeave) := by
  cases ending with
  | keep => exact (closed.emitAll _).landed
  | discard | leave => exact closed.emitAll _

theorem makes_behindExpression (ending : Ending) (landed : code.Landed loops compiler start) :
    ending.Makes loops compiler start (code.emitAll ending.behindExpression) := by
  cases ending with
  | keep => exact landed
  | discard | leave => exact landed.emit _

end Ending

open Lays Fragment

mutual

theorem expression_lays (loops : Prop) : ∀ (syntaxTree : Expression) (start : Nat) (walk : Walk),
    loops ∨ syntaxTree.hasLoop = false →
    Lays (fun compiler code => code.Landed loops compiler start)
      (Compiling.expression syntaxTree start) walk (syntaxTree.walk walk)
  | .literal value span, start, walk, _ => by
      simp only [Compiling.expression, Expression.walk]
      exact literal value span
  | .name identifier, start, walk, _ => by
      simp only [Compiling.expression, Expression.walk]
      refine bind lasting_suits (resolve identifier) fun symbol => ?_
      exact Lays.pure fun _ _ suits => closed_empty.landed.load suits
  | .unary operator operand span, start, walk, free => by
      simp only [Expression.hasLoop] at free
      simp only [Compiling.expression, Expression.walk]
      refine bind (lasting_landed loops start) (expression_lays loops operand start walk free)
        fun code => Lays.pure fun _ _ landed => ?_
      exact (landed.emit _).landed
  | .binary operator left right span, start, walk, free => by
      simp only [Expression.hasLoop, Bool.or_eq_false_iff] at free
      simp only [Compiling.expression, Expression.walk]
      split
      · refine bind (lasting_landed loops start)
          (expression_lays loops right start walk (free.imp_right And.right)) fun first => ?_
        refine bind (lasting_landed loops _)
          (expression_lays loops left _ _ (free.imp_right And.left)) fun second => ?_
        exact Lays.pure fun _ _ behind before => (before.append behind).emitAll _
      · refine bind (lasting_landed loops start)
          (expression_lays loops left start walk (free.imp_right And.left)) fun first => ?_
        refine bind (lasting_landed loops _)
          (expression_lays loops right _ _ (free.imp_right And.right)) fun second => ?_
        exact Lays.pure fun _ _ behind before => (before.append behind).emitAll _
  | .conditional condition consequence none span, start, walk, free => by
      simp only [Expression.hasLoop, Bool.or_eq_false_iff] at free
      simp only [Compiling.expression, Expression.walk]
      refine bind (lasting_landed loops start)
        (expression_lays loops condition start walk (free.imp_right And.left)) fun test => ?_
      refine bind (lasting_landed loops _)
        (block_lays loops .keep consequence _ _ (free.imp_right And.right)) fun chosen => ?_
      refine skip (Follows.requireTarget _ _) fun _ => ?_
      refine bind (lasting_landed loops
        (start + test.size + Compiling.jumpSize + chosen.size + Compiling.jumpSize)) null
        fun other => ?_
      refine bind (lasting_always _) (requireTarget _ _) fun _ => ?_
      exact Lays.pure fun _ _ fits third second first => first.conditional second third fits
  | .conditional condition consequence (some alternative) span, start, walk, free => by
      simp only [Expression.hasLoop, Bool.or_eq_false_iff] at free
      simp only [Compiling.expression, Expression.walk]
      refine bind (lasting_landed loops start)
        (expression_lays loops condition start walk (free.imp_right fun free => free.1.1))
        fun test => ?_
      refine bind (lasting_landed loops _)
        (block_lays loops .keep consequence _ _ (free.imp_right fun free => free.1.2))
        fun chosen => ?_
      refine skip (Follows.requireTarget _ _) fun _ => ?_
      refine bind (lasting_landed loops _)
        (block_lays loops .keep alternative _ _ (free.imp_right And.right)) fun other => ?_
      refine bind (lasting_always _) (requireTarget _ _) fun _ => ?_
      exact Lays.pure fun _ _ fits third second first => first.conditional second third fits
  | .whileLoop condition body span, start, walk, free => by
      simp only [Expression.hasLoop, Bool.true_eq_false, or_false] at free
      simp only [Compiling.expression, Expression.walk]
      refine bind (lasting_landed loops start)
        (expression_lays loops condition start walk (.inl free)) fun test => ?_
      refine bind (lasting_closed loops _)
        (block_lays loops .discard body _ _ (.inl free)) fun pass => ?_
      refine bind (lasting_always _) (requireTarget _ _) fun _ => ?_
      exact Lays.pure fun _ _ fits second first => (first.loop free second fits).landed
  | .forLoop bound condition post body span, start, walk, free => by
      simp only [Expression.hasLoop, Bool.true_eq_false, or_false] at free
      simp only [Compiling.expression, Expression.walk]
      refine bind (lasting_closed loops start)
        (binding_lays loops bound start walk (.inl free)) fun preparation => ?_
      refine bind (lasting_landed loops _)
        (expression_lays loops condition _ _ (.inl free)) fun test => ?_
      refine bind (lasting_closed loops _)
        (block_lays loops .discard body _ _ (.inl free)) fun pass => ?_
      refine bind (lasting_landed loops _)
        (expression_lays loops post _ _ (.inl free)) fun step => ?_
      refine bind (lasting_always _) (requireTarget _ _) fun _ => ?_
      refine Lays.pure fun _ _ fits fourth third second first => ?_
      exact (first.forLoop free second third fourth fits).landed
  | .function parameters body span, start, walk, _ => by
      simp only [Compiling.expression, Expression.walk]
      exact Lays.function none parameters span body
  | .call callee arguments span, start, walk, free => by
      simp only [Expression.hasLoop, Bool.or_eq_false_iff] at free
      simp only [Compiling.expression, Expression.walk]
      refine skip (Follows.require _ _ _) fun _ => ?_
      refine bind (lasting_landed loops start)
        (expression_lays loops callee start walk (free.imp_right And.left)) fun code => ?_
      refine bind (lasting_behind (lasting_landed loops _) code)
        (expressions_lays loops arguments start code _ (free.imp_right And.right)) fun all => ?_
      refine Lays.pure fun _ _ behind before => ?_
      obtain ⟨rest, rfl, landed⟩ := behind
      exact ((before.append landed).close (fun _ _ => trivial) rfl).landed
  | .array elements span, start, walk, free => by
      simp only [Expression.hasLoop] at free
      simp only [Compiling.expression, Expression.walk]
      refine skip (Follows.require _ _ _) fun _ => ?_
      refine bind (lasting_behind (lasting_landed loops _) .empty)
        (expressions_lays loops elements start .empty _ free) fun all => ?_
      refine Lays.pure fun _ _ behind => ?_
      obtain ⟨rest, rfl, landed⟩ := behind
      exact ((closed_empty.landed.append landed).close (fun _ _ => trivial) rfl).landed
  | .index target index span, start, walk, free => by
      simp only [Expression.hasLoop, Bool.or_eq_false_iff] at free
      simp only [Compiling.expression, Expression.walk]
      refine bind (lasting_landed loops start)
        (expression_lays loops target start walk (free.imp_right And.left)) fun first => ?_
      refine bind (lasting_landed loops _)
        (expression_lays loops index _ _ (free.imp_right And.right)) fun second => ?_
      exact Lays.pure fun _ _ behind before => ((before.append behind).emit _).landed
  | .assign target value span, start, walk, free => by
      simp only [Expression.hasLoop] at free
      simp only [Compiling.expression, Expression.walk]
      refine bind lasting_suits (resolve target) fun symbol => ?_
      refine bind (lasting_landed loops start) (expression_lays loops value start walk free)
        fun code => ?_
      refine bind (lasting_always _) (store target symbol) fun instruction => ?_
      refine Lays.pure fun compiler _ stores landed suits => ?_
      have stored := landed.close (stores.suits compiler suits) stores.stays
      exact stored.landed.load suits

theorem expressions_lays (loops : Prop) : ∀ (items : List Expression) (start : Nat)
    (before : Fragment) (walk : Walk), loops ∨ Expression.haveLoop items = false →
    Lays (fun compiler code => ∃ rest, code = before ++ rest ∧
        rest.Landed loops compiler (start + before.size))
      (Compiling.expressions items start before) walk (Expression.walkAll items walk)
  | [], start, before, walk, _ => by
      simp only [Compiling.expressions, Expression.walkAll]
      exact Lays.pure fun _ _ => ⟨.empty, (append_empty before).symm, closed_empty.landed⟩
  | item :: items, start, before, walk, free => by
      simp only [Expression.haveLoop, Bool.or_eq_false_iff] at free
      simp only [Compiling.expressions, Expression.walkAll]
      refine bind (lasting_landed loops _)
        (expression_lays loops item _ walk (free.imp_right And.left)) fun code => ?_
      refine (expressions_lays loops items start (before ++ code) _
        (free.imp_right And.right)).mono ?_
      rintro compiler _ ⟨rest, rfl, landed⟩ first
      refine ⟨code ++ rest, append_assoc before code rest, first.append ?_⟩
      rwa [size_append, ← Nat.add_assoc] at landed

theorem binding_lays (loops : Prop) : ∀ (bound : Binding) (start : Nat) (walk : Walk),
    loops ∨ bound.hasLoop = false →
    Lays (fun compiler code => code.Closed loops compiler start) (Compiling.binding bound start)
      walk (bound.walk walk)
  | .mk name value span, start, walk, free => by
      simp only [Binding.hasLoop] at free
      cases value with
      | function parameters body literalSpan =>
          simp only [Compiling.binding, Binding.walk]
          refine bind lasting_suits (define name) fun symbol => ?_
          refine bind (lasting_landed loops start)
            (Lays.function (some name.text) parameters literalSpan body) fun code => ?_
          refine bind (lasting_always _) (store name symbol) fun instruction => ?_
          refine Lays.pure fun compiler _ stores landed suits => ?_
          exact landed.close (stores.suits compiler suits) stores.stays
      | _ =>
          simp only [Compiling.binding, Binding.walk]
          refine bind (lasting_landed loops start) (expression_lays loops _ start walk free)
            fun code => ?_
          refine bind lasting_suits (define name) fun symbol => ?_
          refine bind (lasting_always _) (store name symbol) fun instruction => ?_
          refine Lays.pure fun compiler _ stores suits landed => ?_
          exact landed.close (stores.suits compiler suits) stores.stays

theorem block_lays (loops : Prop) (ending : Ending) : ∀ (body : Block) (start : Nat) (walk : Walk),
    loops ∨ body.hasLoop = false →
    Lays (fun compiler code => ending.Makes loops compiler start code)
      (Compiling.block ending body start) walk (body.walk walk)
  | .mk body span, start, walk, free => by
      simp only [Block.hasLoop] at free
      simp only [Compiling.block, Block.walk]
      refine (statements_lays loops ending body start .empty walk free).mono ?_
      rintro compiler _ ⟨rest, rfl, made⟩
      rwa [empty_append]

theorem statement_lays (loops : Prop) : ∀ (first : Statement) (start : Nat) (walk : Walk),
    loops ∨ first.hasLoop = false →
    Lays (fun compiler code => code.Closed loops compiler start) (Compiling.statement first start)
      walk (first.walk walk)
  | .bind bound, start, walk, free => by
      simp only [Compiling.statement, Statement.walk]
      simp only [Statement.hasLoop] at free
      exact binding_lays loops bound start walk free
  | .leave value span, start, walk, free => by
      simp only [Compiling.statement]
      exact departure_lays loops value span start walk free
  | .expression value span, start, walk, free => by
      simp only [Statement.hasLoop] at free
      simp only [Compiling.statement, Statement.walk]
      refine bind (lasting_landed loops start) (expression_lays loops value start walk free)
        fun code => ?_
      exact Lays.pure fun _ _ landed => landed.emit _

theorem departure_lays (loops : Prop) : ∀ (value : Option Expression) (span : Span) (start : Nat)
    (walk : Walk), loops ∨ (Statement.leave value span).hasLoop = false →
    Lays (fun compiler code => code.Closed loops compiler start)
      (Compiling.departure value span start) walk ((Statement.leave value span).walk walk)
  | none, span, start, walk, _ => by
      simp only [Compiling.departure, Statement.walk]
      refine skip Follows.get fun compiler => ?_
      split
      · exact Lays.throw _
      · refine bind (lasting_landed loops start) null fun code => ?_
        exact Lays.pure fun _ _ landed => landed.emit _
  | some value, span, start, walk, free => by
      simp only [Statement.hasLoop] at free
      simp only [Compiling.departure, Statement.walk]
      refine skip Follows.get fun compiler => ?_
      split
      · exact Lays.throw _
      · refine bind (lasting_landed loops start) (expression_lays loops value start walk free)
          fun code => ?_
        exact Lays.pure fun _ _ landed => landed.emit _

theorem statements_lays (loops : Prop) (ending : Ending) : ∀ (body : List Statement) (start : Nat)
    (before : Fragment) (walk : Walk), loops ∨ Statement.haveLoop body = false →
    Lays (fun compiler code => ∃ rest, code = before ++ rest ∧
        ending.Makes loops compiler (start + before.size) rest)
      (Compiling.statements ending body start before) walk (Statement.walkAll body walk)
  | [], start, before, walk, _ => by
      simp only [Compiling.statements, Statement.walkAll]
      refine Lays.pure fun _ _ => ⟨Fragment.empty.emitAll ending.behindOther, ?_, ?_⟩
      · rw [← emitAll_append, append_empty]
      · exact ending.makes_behindOther closed_empty
  | [.expression value span], start, before, walk, free => by
      simp only [Statement.haveLoop, Statement.hasLoop, Bool.or_false] at free
      simp only [Compiling.statements, Statement.walkAll, Statement.walk]
      refine bind (lasting_landed loops _) (expression_lays loops value _ walk free) fun code => ?_
      refine Lays.pure fun _ _ landed => ⟨code.emitAll ending.behindExpression, ?_, ?_⟩
      · rw [emitAll_append]
      · exact ending.makes_behindExpression landed
  | [.leave value span], start, before, walk, free => by
      simp only [Statement.haveLoop, Bool.or_false] at free
      simp only [Compiling.statements, Statement.walkAll]
      refine bind (lasting_closed loops _) (departure_lays loops value span _ walk free)
        fun code => ?_
      refine Lays.pure fun _ _ closed => ⟨code.emitAll ending.behindLeave, ?_, ?_⟩
      · rw [emitAll_append]
      · exact ending.makes_behindLeave closed
  | [.bind bound], start, before, walk, free => by
      simp only [Statement.haveLoop, Bool.or_false] at free
      simp only [Compiling.statements, Statement.walkAll]
      refine bind (lasting_closed loops _) (statement_lays loops (.bind bound) _ walk free)
        fun code => ?_
      refine Lays.pure fun _ _ closed => ⟨code.emitAll ending.behindOther, ?_, ?_⟩
      · rw [emitAll_append]
      · exact ending.makes_behindOther closed
  | first :: second :: rest, start, before, walk, free => by
      rw [Statement.haveLoop, Bool.or_eq_false_iff] at free
      simp only [Compiling.statements]
      rw [Statement.walkAll]
      refine bind (lasting_closed loops _)
        (statement_lays loops first _ walk (free.imp_right And.left)) fun code => ?_
      refine (statements_lays loops ending (second :: rest) start (before ++ code) _
        (free.imp_right And.right)).mono ?_
      rintro compiler _ ⟨rest, rfl, made⟩ closed
      refine ⟨code ++ rest, append_assoc before code rest, ending.makes_append closed ?_⟩
      rwa [size_append, ← Nat.add_assoc] at made

end

/-- The code of statements with no other code in front of it. -/
theorem statements_made (loops : Prop) {ending : Ending} {body : List Statement} {walk : Walk}
    {compiler next : Compiler} {code : Fragment} (free : loops ∨ Statement.haveLoop body = false)
    (reads : Reads walk compiler)
    (ran : Compiling.statements ending body 0 .empty compiler = .ok code next) :
    Reads (Statement.walkAll body walk) next ∧ Grows compiler next ∧
      ending.Makes loops next 0 code := by
  obtain ⟨behind, grows, rest, same, made⟩ :=
    statements_lays loops ending body 0 .empty walk free compiler next code reads ran
  rw [empty_append] at same
  subst same
  exact ⟨behind, grows, made⟩

end MonkeyLang
