import MonkeyLang.Compiler.Assembler
import MonkeyLang.Proofs.Bytecode.Streams
import MonkeyLang.Proofs.Compiler.Runs
import MonkeyLang.Proofs.Compiler.Tracking

/-!
# Code in buffers and code in fragments

Code can be generated in pieces that are put together when their sizes are known, or it can be
written into buffers, where jumps are patched and trailing instructions are taken back. What a buffer
had before stays, and behind it stands the fragment that is generated for that place
(`Buffer.Wrote`). The two ways of work meet if both come to such an end, or both to the same fault
(`Meets`); work that consists of steps that meet one by one does so as a whole (`Meets.bind`).

An error leaves the assembler somewhere inside of functions. To leave these one by one comes back to
the names, constants and warnings that the generator is left with (`Assembler.Within`).
-/

set_option autoImplicit false

namespace MonkeyLang

/-! ## Buffers -/

/-- Behind the code of a buffer a fragment was written. -/
structure Buffer.Wrote (buffer : Buffer) (fragment : Fragment) (longer : Buffer) : Prop where
  complete : fragment.Complete
  bytes : longer.code.toList = buffer.code.toList ++ fragment.encode.toList

/-- The last instruction is none of those that are taken back or written over. -/
structure Buffer.Settled (buffer : Buffer) : Prop where
  keeps : buffer.endsWith .pop = false
  stays : buffer.endsWith .returnValue = false

theorem Buffer.Settled.of_last {buffer other : Buffer} (same : other.last = buffer.last)
    (settled : buffer.Settled) : other.Settled := by
  obtain ⟨keeps, stays⟩ := settled
  unfold Buffer.endsWith at keeps stays
  rw [← same] at keeps stays
  exact ⟨keeps, stays⟩

namespace Fragment

theorem toList_encode_push (fragment : Fragment) (instruction : Instruction) :
    (fragment.push instruction).encode.toList = fragment.encode.toList ++ instruction.encode := by
  simp [encode_toList]

theorem toList_encode_append (first second : Fragment) :
    (first ++ second).encode.toList = first.encode.toList ++ second.encode.toList := by
  simp [encode_toList]

end Fragment

namespace Buffer

variable {buffer longer last : Buffer} {fragment before after : Fragment}

theorem settled_emit (buffer : Buffer) {instruction : Instruction}
    (other : instruction.opcode ≠ .pop) (another : instruction.opcode ≠ .returnValue) :
    (buffer.emit instruction).2.Settled :=
  ⟨beq_eq_false_iff_ne.mpr other, beq_eq_false_iff_ne.mpr another⟩

/-- An instruction that was put into a buffer can be taken back. -/
theorem code_removeLast_emit (buffer : Buffer) (instruction : Instruction) :
    (buffer.emit instruction).2.removeLast.code = buffer.code :=
  Array.toList_inj.mp (by simp [removeLast, emit, Code.emit, Code.append, Code.truncate])

namespace Wrote

theorem refl (buffer : Buffer) : buffer.Wrote .empty buffer :=
  ⟨Fragment.complete_empty, (List.append_nil _).symm⟩

theorem append {second : Fragment} (wrote : buffer.Wrote fragment longer)
    (more : longer.Wrote second last) : buffer.Wrote (fragment ++ second) last where
  complete := Fragment.complete_append.mpr ⟨wrote.complete, more.complete⟩
  bytes := by
    rw [more.bytes, wrote.bytes, Fragment.toList_encode_append, List.append_assoc]

theorem emit {instruction : Instruction} (wrote : buffer.Wrote fragment longer)
    (complete : instruction.Complete) :
    buffer.Wrote (fragment.push instruction) (longer.emit instruction).2 where
  complete := Fragment.complete_push.mpr ⟨wrote.complete, complete⟩
  bytes := by
    rw [Fragment.toList_encode_push, ← List.append_assoc, ← wrote.bytes]
    simp [Buffer.emit, Code.emit, Code.append]

theorem size (wrote : buffer.Wrote fragment longer) :
    longer.code.size = buffer.code.size + fragment.size := by
  have lengths := congrArg List.length wrote.bytes
  rw [List.length_append, Array.length_toList, Array.length_toList, Array.length_toList] at lengths
  rw [lengths, Fragment.size_encode wrote.complete]

theorem code_eq {other : Buffer} (wrote : buffer.Wrote fragment longer)
    (same : other.code = longer.code) : buffer.Wrote fragment other :=
  ⟨wrote.complete, by rw [same, wrote.bytes]⟩

theorem encode_eq (wrote : Buffer.empty.Wrote fragment longer) : longer.code = fragment.encode :=
  Array.toList_inj.mp (wrote.bytes.trans (List.nil_append _))

/-- An instruction in a buffer can be written over by one of its size. -/
theorem replace {old : Instruction} (new : Instruction)
    (wrote : buffer.Wrote (before.push old ++ after) longer) (same : new.size = old.size)
    (complete : new.Complete) :
    ∃ code, longer.replace? (buffer.code.size + before.size) new = some { longer with code } ∧
      buffer.Wrote (before.push new ++ after) { longer with code } := by
  obtain ⟨⟨first, whole⟩, rest⟩ := by
    simpa only [Fragment.complete_append, Fragment.complete_push] using wrote.complete
  have lengths : new.encode.length = old.encode.length := by
    rw [Instruction.encode_length complete, Instruction.encode_length whole, same]
  have place : (buffer.code.toList ++ before.encode.toList).length =
      buffer.code.size + before.size := by
    rw [List.length_append, Array.length_toList, Array.length_toList, Fragment.size_encode first]
  have bytes : longer.code.toList =
      (buffer.code.toList ++ before.encode.toList) ++ old.encode ++ after.encode.toList := by
    rw [wrote.bytes, Fragment.toList_encode_append, Fragment.toList_encode_push]
    simp only [List.append_assoc]
  have inside : buffer.code.size + before.size + new.encode.length ≤ longer.code.size := by
    have total := congrArg List.length bytes
    rw [List.length_append, List.length_append, place, Array.length_toList] at total
    omega
  have written := Code.overwrite_eq _ _ lengths bytes
  rw [place] at written
  refine ⟨_, if_pos inside, Fragment.complete_append.mpr
    ⟨Fragment.complete_push.mpr ⟨first, complete⟩, rest⟩, ?_⟩
  rw [written, Fragment.toList_encode_append, Fragment.toList_encode_push]
  simp only [List.append_assoc]

end Wrote

end Buffer

/-! ## Two ways to work -/

/-- The assembler stands inside of functions; behind all of them its compiler is the one given, and
the other buffers are there below the innermost one. -/
inductive Assembler.Within (others : List Buffer) : Assembler → Compiler → Prop
  | here {compiler : Compiler} {buffer : Buffer} : Within others ⟨compiler, buffer :: others⟩ compiler
  | inside {compiler outer : Compiler} {buffer next : Buffer} {buffers : List Buffer}
      (later : Within others ⟨compiler.leave, next :: buffers⟩ outer) :
      Within others ⟨compiler, buffer :: next :: buffers⟩ outer

namespace Assembler.Within

variable {others : List Buffer} {buffer : Buffer} {assembler : Assembler} {compiler : Compiler}

/-- One more function is left behind those inside of it. -/
theorem leave (within : Within (buffer :: others) assembler compiler) :
    Within others assembler compiler.leave := by
  induction within with
  | here => exact .inside .here
  | inside later ih => exact .inside ih

/-- To unwind comes back to the program. -/
theorem unwind_eq (within : Within [] assembler compiler) :
    unwind? assembler.compiler assembler.buffers = some (start compiler) := by
  induction within with
  | here => rfl
  | inside later ih => exact ih

end Assembler.Within

/-- The generator and the assembler come to the same end, in front of the given tables and above the
given buffers: the same is collected, and what they yield goes together, or both are refused for the
same fault. -/
inductive Meets (tables : List SymbolTable) (others : List Buffer) {α β : Type}
    (good : α → β → Buffer → Prop) :
    EStateM.Result CompileFault Compiler α → EStateM.Result Obstacle Assembler β → Prop
  | ok {value : α} {other : β} {next : Compiler} {buffer : Buffer}
      (inside : next.scope.enclosing = tables) (holds : good value other buffer) :
      Meets tables others good (.ok value next) (.ok other ⟨next, buffer :: others⟩)
  | error {fault : CompileFault} {next : Compiler} {assembler : Assembler}
      (inside : next.scope.enclosing = tables) (within : assembler.Within others next) :
      Meets tables others good (.error fault next) (.error (.rejected fault) assembler)

/-- The work has ended with the same tables around the innermost one. -/
def Compiling.EndsIn (tables : List SymbolTable) {α : Type} :
    EStateM.Result CompileFault Compiler α → Prop
  | .ok _ next | .error _ next => next.scope.enclosing = tables

namespace Meets

variable {tables : List SymbolTable} {others : List Buffer} {α β γ δ : Type}
  {good : α → β → Buffer → Prop} {well : γ → δ → Buffer → Prop}
  {compiler : Compiler} {assembler : Assembler} {buffer : Buffer}

theorem bind {work : Compiling α} {rest : α → Compiling γ} {assembling : Assembling β}
    {further : β → Assembling δ}
    (meets : Meets tables others good (work compiler) (assembling assembler))
    (rests : ∀ value other next buffer, next.scope.enclosing = tables → good value other buffer →
      Meets tables others well (rest value next) (further other ⟨next, buffer :: others⟩)) :
    Meets tables others well ((work >>= rest) compiler) ((assembling >>= further) assembler) := by
  generalize worked : work compiler = result at meets
  generalize assembled : assembling assembler = answer at meets
  cases meets with
  | ok inside holds =>
      rw [Stateful.bind_of_ok worked, Stateful.bind_of_ok assembled]
      exact rests _ _ _ _ inside holds
  | error inside within =>
      rw [Stateful.bind_of_error worked, Stateful.bind_of_error assembled]
      exact .error inside within

/-- The generator puts together what it yields. -/
theorem answer {work : Compiling α} {yields : α → γ} {well : γ → β → Buffer → Prop}
    {result : EStateM.Result Obstacle Assembler β}
    (meets : Meets tables others good (work compiler) result)
    (fits : ∀ value other buffer, good value other buffer → well (yields value) other buffer) :
    Meets tables others well ((work >>= fun value => pure (yields value)) compiler) result := by
  generalize worked : work compiler = outcome at meets
  cases meets with
  | ok inside holds =>
      rw [Stateful.bind_of_ok worked]
      exact .ok inside (fits _ _ _ holds)
  | error inside within =>
      rw [Stateful.bind_of_error worked]
      exact .error inside within

theorem mono {well : α → β → Buffer → Prop} {outcome : EStateM.Result CompileFault Compiler α}
    {result : EStateM.Result Obstacle Assembler β} (meets : Meets tables others good outcome result)
    (fits : ∀ value other buffer, good value other buffer → well value other buffer) :
    Meets tables others well outcome result := by
  cases meets with
  | ok inside holds => exact .ok inside (fits _ _ _ holds)
  | error inside within => exact .error inside within

theorem ok_of_inBuffer {work : Buffer → Option (β × Buffer)} {value : β} {longer : Buffer}
    (worked : work buffer = some (value, longer)) :
    Assembling.inBuffer work ⟨compiler, buffer :: others⟩ =
      .ok value ⟨compiler, longer :: others⟩ := by
  simp only [Assembling.inBuffer, worked]

theorem emit_bind (opcode : Opcode) (operands : List Nat) (further : Nat → Assembling δ) :
    (Assembling.emit opcode operands >>= further) ⟨compiler, buffer :: others⟩ =
      further buffer.code.size ⟨compiler, (buffer.emit ⟨opcode, operands⟩).2 :: others⟩ := rfl

theorem position_bind (further : Nat → Assembling δ) :
    (Assembling.position >>= further) ⟨compiler, buffer :: others⟩ =
      further buffer.code.size ⟨compiler, buffer :: others⟩ := rfl

theorem endsWith_bind (opcode : Opcode) (further : Bool → Assembling δ) :
    (Assembling.endsWith opcode >>= further) ⟨compiler, buffer :: others⟩ =
      further (buffer.endsWith opcode) ⟨compiler, buffer :: others⟩ := rfl

/-! ### Steps that touch no code -/

/-- A step that opens and closes no function collects the same in both ways. -/
theorem collecting {work : Compiling α}
    (keeps : Compiling.EndsIn tables (work compiler)) :
    Meets tables others (fun value other longer => value = other ∧ longer = buffer) (work compiler)
      (Assembling.collecting work ⟨compiler, buffer :: others⟩) := by
  unfold Assembling.collecting
  cases ran : work compiler with
  | ok value next =>
      rw [ran] at keeps
      exact .ok keeps ⟨rfl, rfl⟩
  | error fault next =>
      rw [ran] at keeps
      exact .error keeps .here

theorem require (inside : compiler.scope.enclosing = tables) (holds : Bool) (limit : Limit)
    (span : Span) :
    Meets tables others (fun _ _ longer => longer = buffer)
      (Compiling.require holds limit span compiler)
      (Assembling.collecting (Compiling.require holds limit span) ⟨compiler, buffer :: others⟩) := by
  cases holds with
  | true => exact .ok inside rfl
  | false => exact .error inside .here

theorem resolve (inside : compiler.scope.enclosing = tables) (name : Name) :
    Meets tables others (fun value other longer => value = other ∧ longer = buffer)
      (Compiling.resolve name compiler)
      (Assembling.collecting (Compiling.resolve name) ⟨compiler, buffer :: others⟩) := by
  refine collecting ?_
  have looked : Compiling.resolve name compiler = _ := Stateful.get_bind _ _
  rw [looked]
  cases compiler.scope.resolve? name.text with
  | none => exact inside
  | some symbol =>
      dsimp only
      split
      · exact inside
      · exact inside

theorem define (inside : compiler.scope.enclosing = tables) (name : Name) :
    Meets tables others (fun value other longer => value = other ∧ longer = buffer)
      (Compiling.define name compiler)
      (Assembling.collecting (Compiling.define name) ⟨compiler, buffer :: others⟩) := by
  refine collecting ?_
  obtain ⟨warnings, run⟩ := Compiling.define_cases name compiler
  rw [run]
  split
  · exact inside
  · exact inside

theorem parameters (inside : compiler.scope.enclosing = tables) (names : List Name) :
    Meets tables others (fun _ _ longer => longer = buffer)
      ((names.forM fun name => discard (Compiling.define name)) compiler)
      ((names.forM fun name => discard (Assembling.collecting (Compiling.define name)))
        ⟨compiler, buffer :: others⟩) := by
  induction names generalizing compiler with
  | nil => exact .ok inside rfl
  | cons name names ih =>
      have first : Meets tables others (fun _ _ longer => longer = buffer)
          ((discard (Compiling.define name) : Compiling Unit) compiler)
          ((discard (Assembling.collecting (Compiling.define name)) : Assembling Unit)
            ⟨compiler, buffer :: others⟩) := by
        refine (define inside name).bind fun symbol _ next longer inside same => ?_
        exact .ok inside same.2
      refine first.bind fun _ _ next longer inside same => ?_
      subst same
      exact ih inside

/-! ### Steps that write code -/

theorem constant (inside : compiler.scope.enclosing = tables) (value : Value) (span : Span) :
    Meets tables others (fun fragment _ longer => buffer.Wrote fragment longer)
      (Compiling.constant value span compiler)
      (Assembling.constant value span ⟨compiler, buffer :: others⟩) := by
  have added : Meets tables others (fun value other longer => value = other ∧ longer = buffer)
      (Compiling.addConstant value span compiler)
      (Assembling.collecting (Compiling.addConstant value span) ⟨compiler, buffer :: others⟩) := by
    refine collecting ?_
    rw [Compiling.addConstant_cases]
    split
    · exact inside
    · exact inside
  refine added.bind fun index _ next longer inside same => ?_
  obtain ⟨rfl, rfl⟩ := same
  exact .ok inside ((Buffer.Wrote.refl _).emit rfl)

theorem literal (inside : compiler.scope.enclosing = tables) (value : Literal) (span : Span) :
    Meets tables others (fun fragment _ longer => buffer.Wrote fragment longer)
      (Compiling.literal value span compiler)
      (Assembling.literal value span ⟨compiler, buffer :: others⟩) := by
  cases value with
  | boolean value =>
      cases value with
      | true => exact .ok inside ((Buffer.Wrote.refl _).emit rfl)
      | false => exact .ok inside ((Buffer.Wrote.refl _).emit rfl)
  | _ => exact constant inside _ span

theorem store (inside : compiler.scope.enclosing = tables) (name : Name) (symbol : Symbol) :
    Meets tables others
      (fun instruction _ longer => instruction.Complete ∧ longer.Settled ∧
        longer = (buffer.emit instruction).2)
      (Compiling.store name symbol compiler)
      (Assembling.store name symbol ⟨compiler, buffer :: others⟩) := by
  unfold Compiling.store Assembling.store
  cases symbol.storage with
  | global => exact .ok inside ⟨rfl, Buffer.settled_emit _ nofun nofun, rfl⟩
  | frame => exact .ok inside ⟨rfl, Buffer.settled_emit _ nofun nofun, rfl⟩
  | builtin => exact .error inside .here

/-- A jump that was written with a placeholder gets its target if this is not too large. -/
theorem patch (inside : compiler.scope.enclosing = tables) {longer : Buffer}
    {before after : Fragment} {opcode : Opcode} {old target position : Nat}
    (wrote : buffer.Wrote (before.push ⟨opcode, [old]⟩ ++ after) longer)
    (wide : opcode.widths.length = 1) (place : position = buffer.code.size + before.size)
    (span : Span) :
    Meets tables others
      (fun _ _ patched => buffer.Wrote (before.push ⟨opcode, [target]⟩ ++ after) patched ∧
        patched.last = longer.last)
      (Compiling.requireTarget target span compiler)
      (Assembling.patch position opcode target span ⟨compiler, longer :: others⟩) := by
  subst place
  obtain ⟨code, replaced, written⟩ :=
    wrote.replace ⟨opcode, [target]⟩ rfl wide.symm
  have required : Meets tables others (fun _ _ kept => kept = longer)
      (Compiling.requireTarget target span compiler)
      (Assembling.collecting (Compiling.requireTarget target span)
        ⟨compiler, longer :: others⟩) := require inside _ _ span
  rw [← bind_pure (Compiling.requireTarget target span)]
  unfold Assembling.patch
  refine required.bind fun _ _ next kept inside same => ?_
  subst same
  rw [ok_of_inBuffer (congrArg (Option.map ((), ·)) replaced)]
  exact .ok inside ⟨written, rfl⟩

/-- In a function of its own the same is done; it is left with its slots and its code. -/
theorem inFunction {work : Compiling α} {assembling : Assembling β}
    (meets : Meets (compiler.scope.innermost :: tables) (buffer :: others) good
      (work { compiler with scope := compiler.scope.enter })
      (assembling (Assembler.enter ⟨compiler, buffer :: others⟩)))
    (inside : compiler.scope.enclosing = tables) :
    Meets tables others
      (fun function left longer => longer = buffer ∧ function.2 = left.2 ∧
        ∃ other inner, good function.1 other inner ∧ inner.code = left.1)
      (Compiling.inFunction work compiler)
      ((do Assembling.enter; let _ ← assembling; Assembling.leave) ⟨compiler, buffer :: others⟩) := by
  have back : ∀ {next : Compiler}, next.scope.enclosing = compiler.scope.innermost :: tables →
      next.leave = { next with scope := compiler.scope } := by
    intro next around
    unfold Compiler.leave Scope.leave?
    rw [around, ← inside]
    rfl
  have entered : (do Assembling.enter; let _ ← assembling; Assembling.leave : Assembling _)
      ⟨compiler, buffer :: others⟩ =
        (assembling >>= fun _ => Assembling.leave) (Assembler.enter ⟨compiler, buffer :: others⟩) :=
    rfl
  rw [entered]
  unfold Compiling.inFunction
  generalize worked : work { compiler with scope := compiler.scope.enter } = result at meets ⊢
  generalize assembled : assembling (Assembler.enter ⟨compiler, buffer :: others⟩) = answer at meets
  cases meets with
  | @ok value other next inner around holds =>
      rw [Stateful.bind_of_ok assembled]
      show Meets _ _ _ _ (.ok (inner.code, next.scope.definitions) ⟨next.leave, buffer :: others⟩)
      rw [back around]
      exact .ok inside ⟨rfl, rfl, other, inner, holds, rfl⟩
  | error around within =>
      rw [Stateful.bind_of_error assembled]
      have outer := within.leave
      rw [back around] at outer
      exact .error inside outer

end Meets

/-! ## Behind the last statement -/

/-- What is done behind the last of some statements. -/
def Assembling.finish : Ending → Assembling Unit
  | .discard => pure ()
  | .keep => keepLast
  | .leave => leaveLast

section

variable {tables : List SymbolTable} {others : List Buffer} {compiler : Compiler}
  {origin buffer : Buffer} {code : Fragment}

theorem leaveLast_of_not_pop (keeps : buffer.endsWith .pop = false) :
    Assembling.leaveLast ⟨compiler, buffer :: others⟩ =
      (if !buffer.endsWith .returnValue then discard (Assembling.emit .returnNull []) else pure ())
        ⟨compiler, buffer :: others⟩ := by
  rw [Assembling.leaveLast, Meets.endsWith_bind, keeps]
  rfl

/-- The value of the last statement is not popped, or it leaves the function. -/
theorem Meets.finish_pop (inside : compiler.scope.enclosing = tables)
    (wrote : origin.Wrote code buffer) (ending : Ending) :
    Meets tables others (fun fragment _ longer => origin.Wrote fragment longer)
      (.ok (code.emitAll ending.behindExpression) compiler)
      (Assembling.finish ending ⟨compiler, (buffer.emit ⟨.pop, []⟩).2 :: others⟩) := by
  have popped : (buffer.emit ⟨.pop, []⟩).2.endsWith .pop = true := rfl
  cases ending with
  | discard => exact .ok inside (wrote.emit rfl)
  | keep =>
      rw [Assembling.finish, Assembling.keepLast, endsWith_bind, popped]
      exact .ok inside (wrote.code_eq (Buffer.code_removeLast_emit _ _))
  | leave =>
      have ended : origin.Wrote (code.push ⟨.pop, []⟩ ++ .empty) (buffer.emit ⟨.pop, []⟩).2 := by
        rw [Fragment.append_empty]
        exact wrote.emit rfl
      obtain ⟨bytes, replaced, written⟩ := ended.replace ⟨.returnValue, []⟩ rfl rfl
      rw [← wrote.size] at replaced
      have left : (buffer.emit ⟨.pop, []⟩).2.replaceLast? .returnValue =
          some ⟨bytes, some ⟨.returnValue, buffer.code.size⟩, buffer.last⟩ :=
        congrArg (Option.map _) replaced
      have run : Assembling.replaceLast .returnValue
          ⟨compiler, (buffer.emit ⟨.pop, []⟩).2 :: others⟩ = .ok () ⟨compiler, _ :: others⟩ :=
        ok_of_inBuffer (congrArg (Option.map ((), ·)) left)
      rw [Assembling.finish, Assembling.leaveLast, endsWith_bind, popped, if_pos rfl,
        Stateful.bind_of_ok run]
      rw [Fragment.append_empty] at written
      exact .ok inside (written.code_eq rfl)

/-- Behind a binding, or if there is no statement, nothing is on the stack. -/
theorem Meets.finish_settled (inside : compiler.scope.enclosing = tables)
    (wrote : origin.Wrote code buffer) (settled : buffer.Settled) (ending : Ending) :
    Meets tables others (fun fragment _ longer => origin.Wrote fragment longer)
      (.ok (code.emitAll ending.behindOther) compiler)
      (Assembling.finish ending ⟨compiler, buffer :: others⟩) := by
  obtain ⟨keeps, stays⟩ := settled
  cases ending with
  | discard => exact .ok inside wrote
  | keep =>
      rw [Assembling.finish, Assembling.keepLast, endsWith_bind, keeps]
      exact .ok inside (wrote.emit rfl)
  | leave =>
      rw [Assembling.finish, leaveLast_of_not_pop keeps, stays]
      exact .ok inside (wrote.emit rfl)

/-- Behind a statement that leaves the function nothing else is needed for that. -/
theorem Meets.finish_leave (inside : compiler.scope.enclosing = tables)
    (wrote : origin.Wrote code buffer) (ending : Ending) :
    Meets tables others (fun fragment _ longer => origin.Wrote fragment longer)
      (.ok ((code.push ⟨.returnValue, []⟩).emitAll ending.behindLeave) compiler)
      (Assembling.finish ending ⟨compiler, (buffer.emit ⟨.returnValue, []⟩).2 :: others⟩) := by
  have keeps : (buffer.emit ⟨.returnValue, []⟩).2.endsWith .pop = false := rfl
  have leaves : (buffer.emit ⟨.returnValue, []⟩).2.endsWith .returnValue = true := rfl
  have ended : origin.Wrote (code.push ⟨.returnValue, []⟩)
      (buffer.emit ⟨.returnValue, []⟩).2 := wrote.emit rfl
  cases ending with
  | discard => exact .ok inside ended
  | keep =>
      rw [Assembling.finish, Assembling.keepLast, endsWith_bind, keeps]
      exact .ok inside (ended.emit rfl)
  | leave =>
      rw [Assembling.finish, leaveLast_of_not_pop keeps, leaves]
      exact .ok inside ended

end

end MonkeyLang
