import MonkeyLang.Compiler.Generate
import MonkeyLang.Proofs.Stateful

/-!
# Compilations that succeed

What a part of the compiler has done when it succeeds: each of its steps has succeeded, and the
state was handed from one to the next. These facts take a successful compilation apart.
-/

set_option autoImplicit false

namespace MonkeyLang.Compiling

open Stateful

variable {α β : Type} {compiler next : Compiler}

theorem require_eq_ok {holds : Bool} {limit : Limit} {span : Span} {result : Unit} :
    require holds limit span compiler = .ok result next ↔ holds = true ∧ compiler = next := by
  unfold require
  split
  · next yes => simp only [pure_eq_ok, yes, true_and]
  · next no => simp only [throw_ne_ok, no, Bool.false_eq_true, false_and]

theorem requireTarget_eq_ok {target : Nat} {span : Span} {result : Unit} :
    requireTarget target span compiler = .ok result next ↔ target ≤ 65535 ∧ compiler = next := by
  rw [requireTarget, require_eq_ok, decide_eq_true_iff]
  rfl

theorem require_bind_of_true {holds : Bool} (fits : holds = true) (limit : Limit)
    (span : Span) (rest : PUnit → Compiling α) (compiler : Compiler) :
    (require holds limit span >>= rest) compiler = rest () compiler := by
  subst fits
  rfl

theorem require_bind_of_false {holds : Bool} (exceeds : holds = false) (limit : Limit)
    (span : Span) (rest : PUnit → Compiling α) (compiler : Compiler) :
    (require holds limit span >>= rest) compiler = .error (.limitExceeded limit span) compiler := by
  subst exceeds
  rfl

/-- A constant is added as long as there is room for its index. -/
theorem addConstant_cases (value : Value) (span : Span) (compiler : Compiler) :
    addConstant value span compiler =
      if compiler.constants.size < 65536 then
        .ok compiler.constants.size { compiler with constants := compiler.constants.push value }
      else .error (.limitExceeded .constants span) compiler := by
  refine (get_bind _ _).trans ?_
  split
  · next few => exact require_bind_of_true (decide_eq_true few) _ _ _ _
  · next many => exact require_bind_of_false (decide_eq_false many) _ _ _ _

theorem resolve_eq_ok {name : Name} {symbol : Symbol} :
    resolve name compiler = .ok symbol next ↔
      compiler.scope.resolve? name.text = some symbol ∧
        (symbol.storage = .frame → compiler.scope.definesLocally name.text = true) ∧
        compiler = next := by
  simp only [resolve, bind_eq_ok, get_eq_ok]
  constructor
  · rintro ⟨_, _, ⟨rfl, rfl⟩, resolved⟩
    cases found : compiler.scope.resolve? name.text with
    | none =>
        simp only [found] at resolved
        exact absurd resolved throw_ne_ok
    | some meant =>
        simp only [found] at resolved
        by_cases captured : (meant.storage = .frame && !compiler.scope.definesLocally name.text) = true
        · rw [if_pos captured] at resolved
          exact absurd resolved throw_ne_ok
        · rw [if_neg captured] at resolved
          obtain ⟨rfl, rfl⟩ := pure_eq_ok.mp resolved
          exact ⟨rfl, fun frame => by simpa [frame] using captured, rfl⟩
  · rintro ⟨found, own, rfl⟩
    refine ⟨_, _, ⟨rfl, rfl⟩, ?_⟩
    have free : ¬(symbol.storage = .frame && !compiler.scope.definesLocally name.text) = true := by
      simpa using own
    simp only [found]
    rw [if_neg free]
    rfl

/-- What is left of a definition once it has been warned about. -/
theorem record_eq (name : Name) (middle : Compiler) :
    (do
        let (symbol, scope) := (← get).scope.define name.text
        modify fun compiler => { compiler with scope }
        let limit := slotLimit symbol.storage
        require (symbol.index < limit.bound) limit name.span
        return symbol : Compiling Symbol) middle =
      if (middle.scope.define name.text).1.index <
          (slotLimit (middle.scope.define name.text).1.storage).bound then
        .ok (middle.scope.define name.text).1
          { middle with scope := (middle.scope.define name.text).2 }
      else
        .error (.limitExceeded (slotLimit (middle.scope.define name.text).1.storage) name.span)
          { middle with scope := (middle.scope.define name.text).2 } := by
  by_cases few : (middle.scope.define name.text).1.index <
      (slotLimit (middle.scope.define name.text).1.storage).bound
  · rw [if_pos few]
    have accepted := decide_eq_true few
    refine (get_bind _ _).trans ?_
    refine (modify_bind _ _ _).trans ?_
    exact require_bind_of_true accepted _ _ _ _
  · rw [if_neg few]
    have refused := decide_eq_false few
    refine (get_bind _ _).trans ?_
    refine (modify_bind _ _ _).trans ?_
    exact require_bind_of_false refused _ _ _ _

/-- What defining a name does, apart from a warning: the name is bound, and then the slot is
accepted or refused. -/
theorem define_cases (name : Name) (compiler : Compiler) : ∃ warnings,
    define name compiler =
      if (compiler.scope.define name.text).1.index <
          (slotLimit (compiler.scope.define name.text).1.storage).bound then
        .ok (compiler.scope.define name.text).1
          { compiler with scope := (compiler.scope.define name.text).2, warnings }
      else
        .error (.limitExceeded (slotLimit (compiler.scope.define name.text).1.storage) name.span)
          { compiler with scope := (compiler.scope.define name.text).2, warnings } := by
  have started : define name compiler = _ := get_bind _ _
  rw [started]
  cases compiler.scope.resolve? name.text with
  | none => exact ⟨compiler.warnings, record_eq name compiler⟩
  | some meant =>
      obtain ⟨_, storage, _⟩ := meant
      cases storage with
      | builtin =>
          refine ⟨compiler.warnings.push (shadowingWarning name), ?_⟩
          exact (modify_bind _ _ _).trans (record_eq name _)
      | _ => exact ⟨compiler.warnings, record_eq name compiler⟩

theorem define_eq_ok {name : Name} {symbol : Symbol}
    (defined : define name compiler = .ok symbol next) :
    symbol = (compiler.scope.define name.text).1 ∧
      next.scope = (compiler.scope.define name.text).2 ∧
      next.constants = compiler.constants ∧
      symbol.index < (slotLimit symbol.storage).bound := by
  obtain ⟨warnings, run⟩ := define_cases name compiler
  rw [run] at defined
  split at defined
  · next few =>
      cases defined
      exact ⟨rfl, rfl, rfl, few⟩
  · cases defined

theorem store_eq_ok {name : Name} {symbol : Symbol} {instruction : Instruction}
    (stored : store name symbol compiler = .ok instruction next) :
    compiler = next ∧
      ((symbol.storage = .global ∧ instruction = ⟨.setGlobal, [symbol.index]⟩) ∨
        (symbol.storage = .frame ∧ instruction = ⟨.setLocal, [symbol.index]⟩)) := by
  unfold store at stored
  cases storage : symbol.storage with
  | global =>
      rw [storage] at stored
      obtain ⟨rfl, rfl⟩ := pure_eq_ok.mp stored
      exact ⟨rfl, .inl ⟨rfl, rfl⟩⟩
  | frame =>
      rw [storage] at stored
      obtain ⟨rfl, rfl⟩ := pure_eq_ok.mp stored
      exact ⟨rfl, .inr ⟨rfl, rfl⟩⟩
  | builtin =>
      rw [storage] at stored
      exact absurd stored throw_ne_ok

theorem inFunction_eq_ok {work : Compiling α} {result : α} {locals : Nat} :
    inFunction work compiler = .ok (result, locals) next ↔
      ∃ inner, work { compiler with scope := compiler.scope.enter } = .ok result inner ∧
        inner.scope.definitions = locals ∧ { inner with scope := compiler.scope } = next := by
  unfold inFunction
  cases ran : work { compiler with scope := compiler.scope.enter } with
  | ok value inner =>
      constructor
      · rintro ⟨⟩
        exact ⟨inner, rfl, rfl, rfl⟩
      · rintro ⟨_, ⟨⟩, rfl, rfl⟩
        rfl
  | error fault inner => simp

theorem constant_cases (value : Value) (span : Span) (compiler : Compiler) :
    constant value span compiler =
      if compiler.constants.size < 65536 then
        .ok (.single .constant [compiler.constants.size])
          { compiler with constants := compiler.constants.push value }
      else .error (.limitExceeded .constants span) compiler := by
  have added := addConstant_cases value span compiler
  split
  · next few => exact bind_of_ok (by rw [added, if_pos few])
  · next many => exact bind_of_error (by rw [added, if_neg many])

theorem constant_eq_ok {value : Value} {span : Span} {code : Fragment} :
    constant value span compiler = .ok code next ↔
      compiler.constants.size < 65536 ∧ .single .constant [compiler.constants.size] = code ∧
        { compiler with constants := compiler.constants.push value } = next := by
  rw [constant_cases]
  split <;> simp [*]

/-- What compiling a function literal does: its parameters are bound and its body is compiled in
a scope of their own, and the function becomes the last constant. -/
theorem function_eq_ok {name : Option String} {parameters : List Name} {span bodySpan : Span}
    {body : List Statement} {code : Fragment}
    (compiled : function name parameters span (.mk body bodySpan) compiler = .ok code next) :
    ∃ start inner stream,
      (parameters.forM fun parameter => discard (define parameter) : Compiling Unit)
          { compiler with scope := compiler.scope.enter } = .ok () start ∧
        statements .leave body 0 .empty start = .ok stream inner ∧
        inner.constants.size < 65536 ∧
        code = .single .constant [inner.constants.size] ∧
        next = { inner with
          scope := compiler.scope
          constants := inner.constants.push (.function ⟨inner.constants.size, name,
            parameters.length, inner.scope.definitions, stream.encode⟩) } := by
  simp only [function, bind_eq_ok] at compiled
  obtain ⟨⟨stream, locals⟩, _, entered, added⟩ := compiled
  obtain ⟨inner, worked, rfl, rfl⟩ := inFunction_eq_ok.mp entered
  obtain ⟨_, start, bound, ran⟩ := bind_eq_ok.mp worked
  obtain ⟨_, _, got, added⟩ := bind_eq_ok.mp added
  obtain ⟨rfl, rfl⟩ := get_eq_ok.mp got
  obtain ⟨few, rfl, rfl⟩ := constant_eq_ok.mp added
  exact ⟨start, inner, stream, bound, ran, few, rfl, rfl⟩

theorem departure_none_eq_ok {span : Span} {start : Nat} {code : Fragment} :
    departure none span start compiler = .ok code next ↔
      compiler.scope.isGlobal = false ∧ (Fragment.single .null []).emit .returnValue [] = code ∧
        compiler = next := by
  simp only [departure, get_bind]
  cases compiler.scope.isGlobal with
  | true => simp only [if_pos, bind_eq_ok, throw_ne_ok, false_and, exists_false, reduceCtorEq]
  | false =>
      simp only [Bool.false_eq_true, if_false, bind_eq_ok, pure_eq_ok, true_and]
      simp only [exists_and_left, exists_eq_left', and_assoc]

theorem departure_some_eq_ok {value : Expression} {span : Span} {start : Nat} {code : Fragment} :
    departure (some value) span start compiler = .ok code next ↔
      compiler.scope.isGlobal = false ∧ ∃ inner, expression value start compiler = .ok inner next ∧
        inner.emit .returnValue [] = code := by
  simp only [departure, get_bind]
  cases compiler.scope.isGlobal with
  | true => simp only [if_pos, bind_eq_ok, throw_ne_ok, false_and, exists_false, reduceCtorEq]
  | false =>
      simp only [Bool.false_eq_true, if_false, bind_eq_ok, pure_eq_ok, true_and]
      constructor
      · rintro ⟨inner, _, ran, rfl, rfl⟩
        exact ⟨inner, ran, rfl⟩
      · rintro ⟨inner, ran, rfl⟩
        exact ⟨inner, next, ran, rfl, rfl⟩

end MonkeyLang.Compiling

namespace MonkeyLang.Compiler

theorem compile_eq_ok {compiler next : Compiler} {program : Program} {compiled : CompiledProgram} :
    compiler.compile program = (.ok compiled, next) ↔
      ∃ code, Compiling.statements .discard program.statements 0 .empty compiler = .ok code next ∧
        compiled = ⟨code.encode, next.constants⟩ := by
  unfold compile
  cases Compiling.statements .discard program.statements 0 .empty compiler with
  | ok code last =>
      constructor
      · rintro ⟨⟩
        exact ⟨code, rfl, rfl⟩
      · rintro ⟨_, ⟨⟩, rfl⟩
        rfl
  | error fault last => simp

end MonkeyLang.Compiler
