import MonkeyLang.Proofs.Compiler.Buffers

/-!
# The assembler writes the code that is generated

Whatever stands in a buffer, the assembler writes behind it what is generated for that place. This
is shown of every part of a program by one induction over the tree
(`Assembling.expression_writes` and its companions). What the generator does with the last statement
of a branch or of a function, by what the statements are for, the assembler does by a look at the
instruction that was written last; for that it matters which instruction a statement ends with, and
which stands in front of an empty block. On the way nothing is ever written over bytes that are not
there, and there always is a buffer.

So an assembler that has one empty buffer and the table of a program compiles any program like the
generator, and has one empty buffer again (`Assembler.compile_start`).
-/

set_option autoImplicit false

namespace MonkeyLang

/-- Whatever the targets are, the code with a jump between its parts and one behind them ends
there. -/
theorem Buffer.Wrote.size_around {test chosen : Fragment} {exit target start : Nat}
    {buffer longer : Buffer}
    (wrote : buffer.Wrote
      (test.push ⟨.jumpNotTruthy, [exit]⟩ ++ chosen.push ⟨.jump, [target]⟩) longer)
    (here : buffer.code.size = start) :
    longer.code.size = start + test.size + Compiling.jumpSize + chosen.size + Compiling.jumpSize := by
  have exits : Instruction.size ⟨.jumpNotTruthy, [exit]⟩ = Compiling.jumpSize := rfl
  have jumps : Instruction.size ⟨.jump, [target]⟩ = Compiling.jumpSize := rfl
  rw [wrote.size, here, Fragment.size_append, Fragment.size_push, Fragment.size_push, exits, jumps]
  simp only [Nat.add_assoc]

namespace Assembling

open Meets

/-! ## The parts of a program -/

/-- The assembler writes behind any code what is generated for that place. Outside of all functions
there is the buffer of the program only. -/
def Writes (assembling : Assembling Unit) (compiling : Nat → Compiling Fragment) : Prop :=
  ∀ ⦃tables : List SymbolTable⦄ ⦃others : List Buffer⦄, (others = [] ↔ tables = []) →
    ∀ ⦃compiler : Compiler⦄ ⦃buffer : Buffer⦄ ⦃start : Nat⦄, compiler.scope.enclosing = tables →
      buffer.code.size = start →
        Meets tables others (fun fragment _ longer => buffer.Wrote fragment longer)
          (compiling start compiler) (assembling ⟨compiler, buffer :: others⟩)

/-- The same behind code that does not end with an instruction that would be taken back. -/
def WritesSettled (assembling : Assembling Unit) (compiling : Nat → Compiling Fragment) : Prop :=
  ∀ ⦃tables : List SymbolTable⦄ ⦃others : List Buffer⦄, (others = [] ↔ tables = []) →
    ∀ ⦃compiler : Compiler⦄ ⦃buffer : Buffer⦄ ⦃start : Nat⦄, compiler.scope.enclosing = tables →
      buffer.code.size = start → buffer.Settled →
        Meets tables others (fun fragment _ longer => buffer.Wrote fragment longer)
          (compiling start compiler) (assembling ⟨compiler, buffer :: others⟩)

section

variable {tables : List SymbolTable} {others : List Buffer} {compiler : Compiler}
  {origin buffer : Buffer} {code : Fragment}

theorem opcodes_writes (inside : compiler.scope.enclosing = tables) {opcodes : List Opcode}
    (plain : ∀ opcode ∈ opcodes, opcode.widths = []) (wrote : origin.Wrote code buffer) :
    Meets tables others (fun fragment _ longer => origin.Wrote fragment longer)
      (.ok (code.emitAll opcodes) compiler)
      ((opcodes.forM fun opcode => discard (emit opcode [])) ⟨compiler, buffer :: others⟩) := by
  induction opcodes generalizing code buffer with
  | nil => exact .ok inside wrote
  | cons opcode opcodes ih =>
      obtain ⟨first, rest⟩ := List.forall_mem_cons.mp plain
      exact ih rest (wrote.emit (congrArg List.length first).symm)

theorem isGlobal_ne_true {other : Buffer} (level : other :: others = [] ↔ tables = [])
    (inside : compiler.scope.enclosing = tables) : ¬compiler.scope.isGlobal = true := by
  intro outside
  rw [Scope.isGlobal, inside, List.isEmpty_iff] at outside
  exact List.cons_ne_nil _ _ (level.mpr outside)

theorem load_writes (inside : compiler.scope.enclosing = tables) (symbol : Symbol)
    (wrote : origin.Wrote code buffer) :
    Meets tables others (fun fragment _ longer => origin.Wrote fragment longer)
      (.ok (code.push (Compiling.load symbol)) compiler)
      (load symbol ⟨compiler, buffer :: others⟩) := by
  unfold load Compiling.load
  cases symbol.storage with
  | global => exact .ok inside (wrote.emit rfl)
  | frame => exact .ok inside (wrote.emit rfl)
  | builtin => exact .ok inside (wrote.emit rfl)

end

/-! ### Jumps -/

section

variable {condition chosen alternative body post : Assembling Unit}
  {test branch other pass step : Nat → Compiling Fragment}

/-- Of two branches one is jumped over. -/
theorem conditional_writes (tests : Writes condition test) (chooses : WritesSettled chosen branch)
    (falls : WritesSettled alternative other) (span : Span) :
    Writes
      (do
        condition
        let exit ← emit .jumpNotTruthy [Instruction.placeholder]
        chosen
        let beyond ← emit .jump [Instruction.placeholder]
        patch exit .jumpNotTruthy (← position) span
        alternative
        patch beyond .jump (← position) span)
      (fun start => do
        let test ← test start
        let chosen ← branch (start + test.size + Compiling.jumpSize)
        let otherStart := start + test.size + Compiling.jumpSize + chosen.size + Compiling.jumpSize
        Compiling.requireTarget otherStart span
        let other ← other otherStart
        let stop := otherStart + other.size
        Compiling.requireTarget stop span
        return ((test.emit .jumpNotTruthy [otherStart]) ++ chosen).emit .jump [stop] ++ other) := by
  intro tables others level compiler buffer start inside here
  refine (tests level inside here).bind fun test _ next longer inside tested => ?_
  rw [emit_bind]
  have opened : buffer.Wrote (test.push ⟨.jumpNotTruthy, [Instruction.placeholder]⟩)
      (longer.emit ⟨.jumpNotTruthy, [Instruction.placeholder]⟩).2 := tested.emit rfl
  have settled : (longer.emit ⟨.jumpNotTruthy, [Instruction.placeholder]⟩).2.Settled :=
    Buffer.settled_emit _ nofun nofun
  refine (chooses level inside (by rw [opened.size, here]; rfl) settled).bind
    fun chosen _ next middle inside chose => ?_
  rw [emit_bind, position_bind]
  have closed : buffer.Wrote (test.push ⟨.jumpNotTruthy, [Instruction.placeholder]⟩ ++
      chosen.push ⟨.jump, [Instruction.placeholder]⟩)
      (middle.emit ⟨.jump, [Instruction.placeholder]⟩).2 := by
    rw [← Fragment.append_push]
    exact (opened.append chose).emit rfl
  have there := closed.size_around here
  rw [there]
  refine (Meets.patch inside closed rfl tested.size span).bind
    fun _ _ next patched inside aims => ?_
  obtain ⟨aimed, same⟩ := aims
  have further : patched.code.size = _ := aimed.size.trans (closed.size.symm.trans there)
  have settled : patched.Settled := Buffer.Settled.of_last same (Buffer.settled_emit _ nofun nofun)
  refine (falls level inside further settled).bind fun other _ next last inside fell => ?_
  rw [position_bind, fell.size, further]
  have beyond := aimed.append fell
  rw [← Fragment.append_push] at beyond
  exact (Meets.patch inside beyond rfl (opened.append chose).size span).answer
    fun _ _ _ wrote => wrote.1

/-- The body of a loop is jumped over at the end, and jumped back behind. -/
theorem whileLoop_writes (tests : Writes condition test) (passes : Writes body pass) (span : Span) :
    Writes
      (do
        let again ← position
        condition
        let exit ← emit .jumpNotTruthy [Instruction.placeholder]
        body
        let _ ← emit .jump [again]
        patch exit .jumpNotTruthy (← position) span
        let _ ← emit .null [])
      (fun start => do
        let test ← test start
        let pass ← pass (start + test.size + Compiling.jumpSize)
        let stop := start + test.size + Compiling.jumpSize + pass.size + Compiling.jumpSize
        Compiling.requireTarget stop span
        return (((test.emit .jumpNotTruthy [stop]) ++ pass).emit .jump [start]).emit .null []) := by
  intro tables others level compiler buffer start inside here
  rw [position_bind, here]
  refine (tests level inside here).bind fun test _ next longer inside tested => ?_
  rw [emit_bind]
  have opened : buffer.Wrote (test.push ⟨.jumpNotTruthy, [Instruction.placeholder]⟩)
      (longer.emit ⟨.jumpNotTruthy, [Instruction.placeholder]⟩).2 := tested.emit rfl
  refine (passes level inside (by rw [opened.size, here]; rfl)).bind
    fun pass _ next middle inside passed => ?_
  rw [emit_bind, position_bind]
  have closed : buffer.Wrote (test.push ⟨.jumpNotTruthy, [Instruction.placeholder]⟩ ++
      pass.push ⟨.jump, [start]⟩) (middle.emit ⟨.jump, [start]⟩).2 := by
    rw [← Fragment.append_push]
    exact (opened.append passed).emit rfl
  rw [closed.size_around here]
  refine (Meets.patch inside closed rfl tested.size span).bind
    fun _ _ next patched inside aimed => ?_
  have code := aimed.1
  rw [← Fragment.append_push] at code
  exact .ok inside (code.emit rfl)

/-- One piece of code is written behind another. -/
theorem Writes.andThen (firsts : Writes condition test) (seconds : Writes body pass) :
    Writes (do condition; body) (fun start => do
      let first ← test start
      let second ← pass (start + first.size)
      return first ++ second) := by
  intro tables others level compiler buffer start inside here
  refine (firsts level inside here).bind fun first _ next longer inside wrote => ?_
  exact (seconds level inside (by rw [wrote.size, here])).answer fun _ _ _ more =>
    wrote.append more

/-- An instruction without operands is written behind code. -/
theorem Writes.emit (writes : Writes body pass) (opcode : Opcode) (plain : opcode.widths = []) :
    Writes (do body; let _ ← Assembling.emit opcode []) (fun start => do
      return (← pass start).emit opcode []) := by
  intro tables others level compiler buffer start inside here
  refine (writes level inside here).bind fun code _ next longer inside wrote => ?_
  exact .ok inside (wrote.emit (congrArg List.length plain).symm)

/-- A loop with a header is a loop with a condition behind its first part, whose body ends with the
last part. -/
theorem forLoop_writes {first : Assembling Unit} {preparation : Nat → Compiling Fragment}
    (prepares : Writes first preparation) (tests : Writes condition test) (passes : Writes body pass)
    (steps : Writes post step) (span : Span) :
    Writes
      (do
        first
        let again ← position
        condition
        let exit ← emit .jumpNotTruthy [Instruction.placeholder]
        body
        post
        let _ ← emit .pop []
        let _ ← emit .jump [again]
        patch exit .jumpNotTruthy (← position) span
        let _ ← emit .null [])
      (fun start => do
        let preparation ← preparation start
        let again := start + preparation.size
        let test ← test again
        let bodyStart := again + test.size + Compiling.jumpSize
        let pass ← pass bodyStart
        let step ← step (bodyStart + pass.size)
        let next := step.emit .pop []
        let stop := bodyStart + pass.size + next.size + Compiling.jumpSize
        Compiling.requireTarget stop span
        let cycle := (test.emit .jumpNotTruthy [stop]) ++ pass ++ next
        return ((preparation ++ cycle).emit .jump [again]).emit .null []) := by
  have cycle := whileLoop_writes tests (passes.andThen (steps.emit .pop rfl)) span
  have whole := prepares.andThen cycle
  -- the steps of both, then the sizes as sums, then the codes as appended and pushed
  simp only [bind_assoc, pure_bind, Fragment.emit_eq_push, Fragment.append_push] at whole ⊢
  simp only [Fragment.size_append, Fragment.size_push, Nat.add_assoc] at whole ⊢
  simp only [← Fragment.append_push, Fragment.append_assoc] at whole ⊢
  exact whole

end

mutual

theorem expression_writes : ∀ value : Expression,
    Writes (expression value) (Compiling.expression value)
  | .literal value span => by
      intro tables others level compiler buffer start inside here
      simp only [Compiling.expression, expression]
      exact Meets.literal inside value span
  | .name identifier => by
      intro tables others level compiler buffer start inside here
      simp only [Compiling.expression, expression]
      refine (Meets.resolve inside identifier).bind fun symbol _ next longer inside same => ?_
      obtain ⟨rfl, rfl⟩ := same
      exact load_writes inside symbol (.refl _)
  | .unary operator operand span => by
      intro tables others level compiler buffer start inside here
      simp only [Compiling.expression, expression]
      refine (expression_writes operand level inside here).bind
        fun code _ next longer inside wrote => ?_
      exact .ok inside (wrote.emit (by cases operator <;> rfl))
  | .binary operator left right span => by
      intro tables others level compiler buffer start inside here
      simp only [Compiling.expression, expression]
      cases operator.isSwapped with
      | true =>
          refine (expression_writes right level inside here).bind
            fun first _ next longer inside wrote => ?_
          refine (expression_writes left level inside (by rw [wrote.size, here])).bind
            fun second _ next last inside more => ?_
          exact opcodes_writes inside operator.widths_opcodes (wrote.append more)
      | false =>
          refine (expression_writes left level inside here).bind
            fun first _ next longer inside wrote => ?_
          refine (expression_writes right level inside (by rw [wrote.size, here])).bind
            fun second _ next last inside more => ?_
          exact opcodes_writes inside operator.widths_opcodes (wrote.append more)
  | .conditional condition consequence none span => by
      intro tables others level compiler buffer start inside here
      simp only [Compiling.expression, expression]
      have falls : WritesSettled (discard (emit .null [])) fun _ => pure (.single .null []) :=
        fun _ _ _ _ _ _ inside _ _ => .ok inside ((Buffer.Wrote.refl _).emit rfl)
      exact conditional_writes (expression_writes condition) (branch_writes consequence) falls span
        level inside here
  | .conditional condition consequence (some alternative) span => by
      intro tables others level compiler buffer start inside here
      simp only [Compiling.expression, expression]
      exact conditional_writes (expression_writes condition) (branch_writes consequence)
        (branch_writes alternative) span level inside here
  | .whileLoop condition body span => by
      intro tables others level compiler buffer start inside here
      simp only [Compiling.expression, expression]
      exact whileLoop_writes (expression_writes condition) (block_writes body) span level inside here
  | .forLoop first condition post body span => by
      intro tables others level compiler buffer start inside here
      simp only [Compiling.expression, expression]
      have prepares : Writes (binding first) (Compiling.binding first) :=
        fun _ _ level _ _ _ inside here =>
          (binding_writes first level inside here).mono fun _ _ _ wrote => wrote.1
      exact forLoop_writes prepares (expression_writes condition) (block_writes body)
        (expression_writes post) span level inside here
  | .function parameters body span => by
      simp only [Compiling.expression, expression]
      exact function_writes none parameters span body
  | .call callee arguments span => by
      intro tables others level compiler buffer start inside here
      simp only [Compiling.expression, expression]
      refine (Meets.require inside _ _ _).bind fun _ _ next longer inside same => ?_
      subst same
      refine (expression_writes callee level inside here).bind
        fun code _ next longer inside wrote => ?_
      refine (expressions_writes arguments level inside here wrote).bind
        fun all _ next last inside wrote => ?_
      exact .ok inside (wrote.emit rfl)
  | .array elements span => by
      intro tables others level compiler buffer start inside here
      simp only [Compiling.expression, expression]
      refine (Meets.require inside _ _ _).bind fun _ _ next longer inside same => ?_
      subst same
      refine (expressions_writes elements level inside here (.refl _)).bind
        fun all _ next last inside wrote => ?_
      exact .ok inside (wrote.emit rfl)
  | .index target index span => by
      intro tables others level compiler buffer start inside here
      simp only [Compiling.expression, expression]
      refine (expression_writes target level inside here).bind
        fun first _ next longer inside wrote => ?_
      refine (expression_writes index level inside (by rw [wrote.size, here])).bind
        fun second _ next last inside more => ?_
      exact .ok inside ((wrote.append more).emit rfl)
  | .assign target value span => by
      intro tables others level compiler buffer start inside here
      simp only [Compiling.expression, expression]
      refine (Meets.resolve inside target).bind fun symbol _ next longer inside same => ?_
      obtain ⟨rfl, rfl⟩ := same
      refine (expression_writes value level inside here).bind
        fun code _ next longer inside wrote => ?_
      refine (Meets.store inside target symbol).bind fun instruction _ next last inside stored => ?_
      obtain ⟨complete, -, rfl⟩ := stored
      exact load_writes inside symbol (wrote.emit complete)

theorem expressions_writes : ∀ (items : List Expression) {tables : List SymbolTable}
    {others : List Buffer}, (others = [] ↔ tables = []) →
    ∀ {compiler : Compiler} {origin buffer : Buffer} {start : Nat} {before : Fragment},
      compiler.scope.enclosing = tables → origin.code.size = start →
      origin.Wrote before buffer →
        Meets tables others (fun fragment _ longer => origin.Wrote fragment longer)
          (Compiling.expressions items start before compiler)
          (expressions items ⟨compiler, buffer :: others⟩)
  | [], tables, others, level, compiler, origin, buffer, start, before, inside, here, wrote => by
      simp only [Compiling.expressions, expressions]
      exact .ok inside wrote
  | item :: items, tables, others, level, compiler, origin, buffer, start, before, inside, here,
      wrote => by
      simp only [Compiling.expressions, expressions]
      refine (expression_writes item level inside (by rw [wrote.size, here])).bind
        fun code _ next longer inside more => ?_
      exact expressions_writes items level inside here (wrote.append more)

theorem function_writes (name : Option String) (parameters : List Name) (span : Span) :
    ∀ body : Block, Writes (function name parameters span body)
      (fun _ => Compiling.function name parameters span body)
  | .mk body blockSpan => by
      intro tables others level compiler buffer start inside here
      have shape : function name parameters span (.mk body blockSpan) =
          ((enter >>= fun _ =>
              (do
                parameters.forM fun parameter => discard (collecting (Compiling.define parameter))
                statements body
                finish .leave) >>= fun _ => leave) >>= fun left =>
            functionConstant name parameters span left.1 left.2) := by
        simp only [function, finish, bind_assoc]
      have inner : Meets (compiler.scope.innermost :: tables) (buffer :: others)
          (fun fragment _ longer => Buffer.empty.Wrote fragment longer)
          ((do
              parameters.forM fun parameter => discard (Compiling.define parameter)
              Compiling.statements .leave body 0 .empty : Compiling Fragment)
            { compiler with scope := compiler.scope.enter })
          ((do
              parameters.forM fun parameter => discard (collecting (Compiling.define parameter))
              statements body
              finish .leave : Assembling Unit)
            (Assembler.enter ⟨compiler, buffer :: others⟩)) := by
        refine (Meets.parameters (congrArg (compiler.scope.innermost :: ·) inside) parameters).bind
          fun _ _ next longer inside same => ?_
        subst same
        exact statements_writes .leave body (by simp) inside rfl (.refl _)
          fun _ => .inr ⟨rfl, rfl⟩
      rw [shape]
      simp only [Compiling.function]
      refine (inner.inFunction inside).bind fun made left next longer inside came => ?_
      obtain ⟨rfl, slots, _, last, wrote, stream⟩ := came
      obtain ⟨fragment, locals⟩ := made
      obtain ⟨code, counted⟩ := left
      obtain rfl : locals = counted := slots
      obtain rfl : fragment.encode = code := wrote.encode_eq.symm.trans stream
      exact Meets.constant inside _ span

theorem binding_writes : ∀ (bound : Binding) {tables : List SymbolTable} {others : List Buffer},
    (others = [] ↔ tables = []) →
    ∀ {compiler : Compiler} {buffer : Buffer} {start : Nat},
      compiler.scope.enclosing = tables → buffer.code.size = start →
        Meets tables others
          (fun fragment _ longer => buffer.Wrote fragment longer ∧ longer.Settled)
          (Compiling.binding bound start compiler) (binding bound ⟨compiler, buffer :: others⟩)
  | .mk name value span, tables, others, level, compiler, buffer, start, inside, here => by
      cases value with
      | function parameters body literalSpan =>
          simp only [Compiling.binding, binding]
          refine (Meets.define inside name).bind fun symbol _ next longer inside same => ?_
          obtain ⟨rfl, rfl⟩ := same
          refine (function_writes (some name.text) parameters literalSpan body level inside here).bind
            fun code _ next longer inside wrote => ?_
          refine (Meets.store inside name symbol).answer fun instruction _ last stored => ?_
          obtain ⟨complete, settled, rfl⟩ := stored
          exact ⟨wrote.emit complete, settled⟩
      | _ =>
          simp only [Compiling.binding, binding]
          refine (expression_writes _ level inside here).bind
            fun code _ next longer inside wrote => ?_
          refine (Meets.define inside name).bind fun symbol _ next longer inside same => ?_
          obtain ⟨rfl, rfl⟩ := same
          refine (Meets.store inside name symbol).answer fun instruction _ last stored => ?_
          obtain ⟨complete, settled, rfl⟩ := stored
          exact ⟨wrote.emit complete, settled⟩

theorem branch_writes : ∀ body : Block,
    WritesSettled (branch body) (Compiling.block .keep body)
  | .mk body span => by
      intro tables others level compiler buffer start inside here settled
      simp only [Compiling.block, branch]
      exact statements_writes .keep body level inside here (.refl _) fun _ => .inr settled

theorem block_writes : ∀ body : Block, Writes (block body) (Compiling.block .discard body)
  | .mk body span => by
      intro tables others level compiler buffer start inside here
      simp only [Compiling.block, block]
      rw [← bind_pure (statements body)]
      exact statements_writes .discard body level inside here (.refl _) fun _ => .inl rfl

theorem departure_writes : ∀ (value : Option Expression) (span : Span) {tables : List SymbolTable}
    {others : List Buffer}, (others = [] ↔ tables = []) →
    ∀ {compiler : Compiler} {buffer : Buffer} {start : Nat},
      compiler.scope.enclosing = tables → buffer.code.size = start →
        Meets tables others
          (fun fragment _ longer => ∃ inner middle, buffer.Wrote inner middle ∧
            fragment = inner.push ⟨.returnValue, []⟩ ∧
            longer = (middle.emit ⟨.returnValue, []⟩).2)
          (Compiling.departure value span start compiler)
          (departure value span ⟨compiler, buffer :: others⟩)
  | value, span, tables, [], level, compiler, buffer, start, inside, here => by
      have outside : compiler.scope.isGlobal = true := by
        rw [Scope.isGlobal, inside, level.mp rfl]
        rfl
      simp only [Compiling.departure, departure]
      rw [Stateful.get_bind, if_pos outside]
      exact .error inside .here
  | none, span, tables, other :: others, level, compiler, buffer, start, inside, here => by
      simp only [Compiling.departure, departure]
      rw [Stateful.get_bind, if_neg (isGlobal_ne_true level inside)]
      have wrote : buffer.Wrote (.single .null []) (buffer.emit ⟨.null, []⟩).2 :=
        (Buffer.Wrote.refl buffer).emit rfl
      exact .ok inside ⟨_, _, wrote, rfl, rfl⟩
  | some value, span, tables, other :: others, level, compiler, buffer, start, inside, here => by
      simp only [Compiling.departure, departure]
      rw [Stateful.get_bind, if_neg (isGlobal_ne_true level inside)]
      refine (expression_writes value level inside here).bind
        fun code _ next longer inside wrote => ?_
      exact .ok inside ⟨_, _, wrote, rfl, rfl⟩

theorem statement_writes : ∀ first : Statement,
    Writes (statement first) (Compiling.statement first)
  | .bind bound => by
      intro tables others level compiler buffer start inside here
      simp only [Compiling.statement, statement]
      exact (binding_writes bound level inside here).mono fun _ _ _ wrote => wrote.1
  | .leave value span => by
      intro tables others level compiler buffer start inside here
      simp only [Compiling.statement, statement]
      refine (departure_writes value span level inside here).mono fun fragment _ longer left => ?_
      obtain ⟨inner, middle, wrote, rfl, rfl⟩ := left
      exact wrote.emit rfl
  | .expression value span => by
      intro tables others level compiler buffer start inside here
      simp only [Compiling.statement, statement]
      refine (expression_writes value level inside here).bind
        fun code _ next longer inside wrote => ?_
      exact .ok inside (wrote.emit rfl)

theorem statements_writes (ending : Ending) : ∀ (body : List Statement) {tables : List SymbolTable}
    {others : List Buffer}, (others = [] ↔ tables = []) →
    ∀ {compiler : Compiler} {origin buffer : Buffer} {start : Nat} {before : Fragment},
      compiler.scope.enclosing = tables → origin.code.size = start →
      origin.Wrote before buffer → (body = [] → ending = .discard ∨ buffer.Settled) →
        Meets tables others (fun fragment _ longer => origin.Wrote fragment longer)
          (Compiling.statements ending body start before compiler)
          ((do statements body; finish ending) ⟨compiler, buffer :: others⟩)
  | [], tables, others, level, compiler, origin, buffer, start, before, inside, here, wrote,
      empty => by
      simp only [Compiling.statements, statements]
      rcases empty rfl with rfl | settled
      · exact .ok inside wrote
      · exact finish_settled inside wrote settled ending
  | [.expression value span], tables, others, level, compiler, origin, buffer, start, before,
      inside, here, wrote, empty => by
      simp only [Compiling.statements, statements, statement, bind_assoc, pure_bind]
      refine (expression_writes value level inside (by rw [wrote.size, here])).bind
        fun code _ next longer inside more => ?_
      exact finish_pop inside (wrote.append more) ending
  | [.leave value span], tables, others, level, compiler, origin, buffer, start, before, inside,
      here, wrote, empty => by
      simp only [Compiling.statements, statements, statement, bind_assoc, pure_bind]
      refine (departure_writes value span level inside (by rw [wrote.size, here])).bind
        fun code _ next longer inside left => ?_
      obtain ⟨inner, middle, more, rfl, rfl⟩ := left
      rw [← Fragment.append_push]
      exact finish_leave inside (wrote.append more) ending
  | [.bind bound], tables, others, level, compiler, origin, buffer, start, before, inside, here,
      wrote, empty => by
      simp only [Compiling.statements, Compiling.statement, statements, statement, bind_assoc,
        pure_bind]
      refine (binding_writes bound level inside (by rw [wrote.size, here])).bind
        fun code _ next longer inside more => ?_
      exact finish_settled inside (wrote.append more.1) more.2 ending
  | first :: second :: rest, tables, others, level, compiler, origin, buffer, start, before, inside,
      here, wrote, empty => by
      simp only [Compiling.statements]
      rw [statements, bind_assoc]
      refine (statement_writes first level inside (by rw [wrote.size, here])).bind
        fun code _ next longer inside more => ?_
      exact statements_writes ending (second :: rest) level inside here (wrote.append more) nofun

end

end Assembling

namespace Assembler

/-- **The assembler compiles what the generator does.** Starting outside of all functions it comes to
the same code and constants or to the same fault, has the same names, constants and warnings behind
it, and one buffer without code. So nothing ever was out of range. -/
theorem compile_start {compiler : Compiler} (outer : compiler.scope.isGlobal = true)
    (program : Program) : (start compiler).compile program =
      ((compiler.compile program).1.mapError .rejected, start (compiler.compile program).2) := by
  have level : ([] : List Buffer) = [] ↔ ([] : List SymbolTable) = [] := by simp
  have meets : Meets [] [] (fun fragment _ longer => Buffer.empty.Wrote fragment longer)
      (Compiling.statements .discard program.statements 0 .empty compiler)
      ((Assembling.statements program.statements >>= pure) (start compiler)) :=
    Assembling.statements_writes .discard program.statements level (List.isEmpty_iff.mp outer) rfl
      (Buffer.Wrote.refl .empty) fun _ => .inl rfl
  rw [bind_pure] at meets
  unfold compile Compiler.compile
  generalize Compiling.statements .discard program.statements 0 .empty compiler = result at meets ⊢
  generalize Assembling.statements program.statements (start compiler) = answer at meets ⊢
  cases meets with
  | ok inside wrote =>
      have code := wrote.encode_eq
      simp only [takeCode?, List.getLast?_singleton, Option.map_some, code]
      rfl
  | error inside within =>
      simp only [within.unwind_eq]
      rfl

end Assembler

end MonkeyLang
