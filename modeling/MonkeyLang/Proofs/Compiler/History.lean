import MonkeyLang.Proofs.Compiler.Relocation
import MonkeyLang.Proofs.Compiler.Resolution

/-!
# The global slots of one compiler

A compiler may compile one program after another, and whether a program compiles or not, the next
one meets the names of all of them (`Compiler.History`). A definition beyond the last global slot
is refused, but its symbol stays, and from then on the latest symbol has an index that does not
fit into an instruction.

Instructions read and write the slots of the symbols that names stand for as long as no program
has been refused for the number of its global names, and after such a program they do not: there
is always a program whose instructions reach another slot
(`Compiler.History.exact_iff_not_refused`).
-/

set_option autoImplicit false

namespace MonkeyLang

/-- The slot that instructions reach which name a global symbol. -/
def Symbol.slot (symbol : Symbol) : Nat := symbol.index % Limit.globals.bound

namespace Scope

/-- A scope with more names bound, one after another. -/
def defineAll (scope : Scope) (names : List String) : Scope :=
  names.foldl (fun scope name => (scope.define name).2) scope

theorem defineAll_cons (scope : Scope) (name : String) (names : List String) :
    scope.defineAll (name :: names) = (scope.define name).2.defineAll names := rfl

theorem defineAll_append_singleton (scope : Scope) (names : List String) (last : String) :
    scope.defineAll (names ++ [last]) = ((scope.defineAll names).define last).2 := by
  rw [defineAll, List.foldl_append]
  rfl

theorem grows_defineAll (scope : Scope) (names : List String) :
    scope.Grows (scope.defineAll names) := by
  induction names generalizing scope with
  | nil => exact .refl
  | cons name names ih => exact (Grows.refl.define name).trans (ih _)

theorem definitions_defineAll (scope : Scope) (names : List String) :
    (scope.defineAll names).definitions = scope.definitions + names.length := by
  induction names generalizing scope with
  | nil => rfl
  | cons name names ih =>
      rw [defineAll_cons, ih, definitions_define, List.length_cons]
      omega

theorem resolve?_defineAll {names : List String} {name : String} (other : name ∉ names)
    (scope : Scope) : (scope.defineAll names).resolve? name = scope.resolve? name := by
  induction names generalizing scope with
  | nil => rfl
  | cons first rest ih =>
      obtain ⟨differs, beyond⟩ := not_or.mp (List.mem_cons.not.mp other)
      rw [defineAll_cons, ih beyond, resolve?_define_of_ne differs]

end Scope

/-! ## The global symbols of a compiler -/

namespace Compiler

theorem not_knows_new (symbol : Symbol) : ¬new.scope.Knows symbol := by
  rintro ⟨global, table, inside, member⟩
  obtain rfl := List.mem_singleton.mp inside
  rw [(builtin_of_mem_new symbol member).1] at global
  cases global

variable {scope : Scope}

theorem index_lt_of_knows (grows : new.scope.Grows scope) {symbol : Symbol}
    (known : scope.Knows symbol) : symbol.index < scope.definitions := by
  induction grows with
  | refl => exact absurd known (not_knows_new symbol)
  | define _ name ih =>
      rw [Scope.definitions_define]
      rcases Scope.knows_define.mp known with ⟨-, rfl⟩ | earlier
      · exact Nat.lt_succ_self _
      · exact Nat.lt_succ_of_lt (ih earlier)

/-- No two global symbols have the same index. -/
theorem eq_of_index_eq (grows : new.scope.Grows scope) {first second : Symbol}
    (known : scope.Knows first) (also : scope.Knows second)
    (same : first.index = second.index) : first = second := by
  induction grows with
  | refl => exact absurd known (not_knows_new first)
  | define grows name ih =>
      rcases Scope.knows_define.mp known with ⟨-, rfl⟩ | earlier <;>
        rcases Scope.knows_define.mp also with ⟨-, rfl⟩ | before
      · rfl
      · exact absurd same.symm (Nat.ne_of_lt (index_lt_of_knows grows before))
      · exact absurd same (Nat.ne_of_lt (index_lt_of_knows grows earlier))
      · exact ih earlier before

/-- The name that was bound last has the last slot. -/
theorem exists_latest (grows : new.scope.Grows scope) (some : 0 < scope.definitions) :
    ∃ symbol, scope.resolve? symbol.name = .some symbol ∧ symbol.storage = .global ∧
      symbol.index + 1 = scope.definitions := by
  cases grows with
  | refl => exact absurd some (Nat.lt_irrefl 0)
  | @define earlier grows name =>
      refine ⟨(earlier.define name).1, Scope.resolve?_define _ _, ?_, rfl⟩
      exact if_pos (grows.isGlobal.trans rfl)

end Compiler

/-! ## Histories -/

/-- What a compiler has done so far. -/
inductive Compiler.History where
  | new
  /-- A program was compiled or refused. -/
  | compile (history : History) (program : Program)
  /-- The names and the constants went over to another compiler. -/
  | resume (history : History)

namespace Compiler.History

/-- The compiler with this history. -/
def compiler : History → Compiler
  | new => Compiler.new
  | compile history program => (history.compiler.compile program).2
  | resume history => .resume history.compiler.scope history.compiler.constants

/-- The function literals of all programs, those of refused programs included. -/
def routines : History → Nat → Routine
  | new => fun _ => .idle
  | compile history program => (Statement.walkAll program.statements
      ⟨history.compiler.scope, history.compiler.constants.size, history.routines⟩).routines
  | resume history => history.routines

/-- The walk in front of the next program. -/
def walk (history : History) : Walk :=
  ⟨history.compiler.scope, history.compiler.constants.size, history.routines⟩

theorem scope_walk (history : History) : history.walk.scope = history.compiler.scope := rfl

/-- Whether a program was refused because of too many global names. -/
def refused : History → Bool
  | new => false
  | compile history program =>
    history.refused ||
      match (history.compiler.compile program).1 with
      | .ok _ => false
      | .error fault => fault.isGlobalLimit
  | resume history => history.refused

/-- The streams of a compiled program, which are its own one and those of the functions among its
constants, touch the slots that the global symbols they use have in a numbering. -/
structure Uses (history : History) (program : Program) (compiled : CompiledProgram)
    (slot : Symbol → Nat) : Prop where
  own : compiled.code.Touches ((Statement.globalsAll program.statements history.walk).map slot)
  functions : ∀ (number : Nat) (body : Function), compiled.constants[number]? = some (.function body) →
    body.code.Touches
      (((Statement.walkAll program.statements history.walk).routines number).globals.map slot)

/-- A global symbol that one of the streams of a compiled program uses. -/
def Mentions (history : History) (program : Program) (compiled : CompiledProgram)
    (symbol : Symbol) : Prop :=
  symbol ∈ Statement.globalsAll program.statements history.walk ∨
    ∃ (number : Nat) (body : Function), compiled.constants[number]? = some (.function body) ∧
      symbol ∈ ((Statement.walkAll program.statements history.walk).routines number).globals

/-! ## What a history keeps -/

/-- What is true of a compiler whatever it has done. -/
structure Kept (history : History) : Prop where
  grows : Compiler.new.scope.Grows history.compiler.scope
  refused : history.refused = true ↔ Limit.globals.bound < history.compiler.scope.definitions
  resolved : Resolved history.routines history.compiler.constants history.compiler.scope

theorem Kept.beside {history : History} (kept : Kept history) :
    Beside True history.walk history.compiler :=
  ⟨rfl, rfl, fun _ => kept.resolved⟩

theorem Kept.isGlobal {history : History} (kept : Kept history) :
    history.compiler.scope.isGlobal = true := kept.grows.isGlobal

theorem Kept.compile {history : History} (kept : Kept history) (program : Program) :
    Kept (history.compile program) := by
  have settles := statements_resolve True .discard program.statements 0 .empty [] history.walk
    (.empty _) history.compiler kept.beside
  have outer := kept.isGlobal
  have before := kept.refused
  cases ran : Compiling.statements .discard program.statements 0 .empty history.compiler with
  | ok code next =>
      rw [ran] at settles
      obtain ⟨-, behind, accepted⟩ := settles
      have compiled : history.compiler.compile program = (.ok ⟨code.encode, next.constants⟩, next) :=
        Compiler.compile_eq_ok.mpr ⟨code, ran, rfl⟩
      have few := accepted.slots outer
      have more := accepted.grows.definitions_le
      refine ⟨?_, ?_, ?_⟩ <;> simp only [compiler, History.refused, routines, compiled]
      · exact kept.grows.trans accepted.grows
      · rw [Bool.or_false, before]
        omega
      · exact behind.resolved trivial
  | error fault next =>
      rw [ran] at settles
      obtain ⟨resolved, -, stopped⟩ := settles
      have compiled : history.compiler.compile program = (.error fault, next) := by
        simp only [Compiler.compile, ran]
      have more := stopped.grows.definitions_le
      refine ⟨?_, ?_, ?_⟩ <;> simp only [compiler, History.refused, routines, compiled]
      · exact kept.grows.trans stopped.grows
      · cases limit : fault.isGlobalLimit with
        | true => simpa using (stopped.refused limit).2
        | false =>
            have few := stopped.otherwise limit outer
            rw [Bool.or_false, before]
            omega
      · exact resolved trivial

theorem kept : ∀ history : History, Kept history
  | new => by
      refine ⟨.refl, by decide, ?_⟩
      intro number body found
      cases found
  | compile history program => history.kept.compile program
  | resume history => ⟨history.kept.grows, history.kept.refused, history.kept.resolved⟩

/-! ## Programs that compile -/

section Compiled

variable {history : History} {program : Program} {compiled : CompiledProgram} {next : Compiler}

theorem names_of_compile (compiles : history.compiler.compile program = (.ok compiled, next)) :
    ∃ code : Fragment, compiled.code = code.encode ∧
      code.Names (Statement.globalsAll program.statements history.walk) next.scope ∧
      Resolved (Statement.walkAll program.statements history.walk).routines compiled.constants
        next.scope ∧
      Accepted history.compiler.scope next.scope := by
  have settles := statements_resolve True .discard program.statements 0 .empty [] history.walk
    (.empty _) history.compiler history.kept.beside
  obtain ⟨code, ran, rfl⟩ := Compiler.compile_eq_ok.mp compiles
  rw [ran] at settles
  obtain ⟨names, behind, accepted⟩ := settles
  rw [behind.scope] at names
  exact ⟨code, rfl, names, behind.resolved trivial, accepted⟩

/-- Instructions reach the slots of the symbols that they name, whatever has happened before. -/
theorem uses_slot (compiles : history.compiler.compile program = (.ok compiled, next)) :
    history.Uses program compiled Symbol.slot := by
  have touches : ∀ {code : Fragment} {symbols : List Symbol} {scope : Scope},
      code.Names symbols scope → code.encode.Touches (symbols.map Symbol.slot) := by
    intro code symbols scope names
    have touched := Fragment.touches_encode names.complete
    rwa [names.slots, List.map_map] at touched
  obtain ⟨code, stream, names, resolved, -⟩ := names_of_compile compiles
  refine ⟨stream ▸ touches names, fun number body found => ?_⟩
  obtain ⟨code, stream, names⟩ := resolved number body found
  exact stream ▸ touches names

theorem knows_of_mentions (compiles : history.compiler.compile program = (.ok compiled, next))
    {symbol : Symbol} (mentioned : history.Mentions program compiled symbol) :
    next.scope.Knows symbol := by
  obtain ⟨code, -, names, resolved, -⟩ := names_of_compile compiles
  rcases mentioned with member | ⟨number, body, found, member⟩
  · exact names.known symbol member
  · obtain ⟨code, -, names⟩ := resolved number body found
    exact names.known symbol member

theorem grows_of_compile (compiles : history.compiler.compile program = (.ok compiled, next)) :
    Compiler.new.scope.Grows next.scope := by
  obtain ⟨-, -, -, -, accepted⟩ := names_of_compile compiles
  exact history.kept.grows.trans accepted.grows

/-- As long as no program was refused every index fits into its instruction. -/
theorem slot_eq_index (accepted : history.refused = false)
    (compiles : history.compiler.compile program = (.ok compiled, next)) {symbol : Symbol}
    (mentioned : history.Mentions program compiled symbol) : symbol.slot = symbol.index := by
  obtain ⟨-, -, -, -, settled⟩ := names_of_compile compiles
  have few : history.compiler.scope.definitions ≤ Limit.globals.bound := by
    refine Nat.le_of_not_lt fun many => ?_
    rw [history.kept.refused.mpr many] at accepted
    cases accepted
  have below := Compiler.index_lt_of_knows (grows_of_compile compiles)
    (knows_of_mentions compiles mentioned)
  have slots := settled.slots history.kept.isGlobal
  exact Nat.mod_eq_of_lt (by omega)

theorem uses_index (accepted : history.refused = false)
    (compiles : history.compiler.compile program = (.ok compiled, next)) :
    history.Uses program compiled Symbol.index := by
  obtain ⟨own, functions⟩ := uses_slot compiles
  constructor
  · rwa [List.map_congr_left fun symbol member =>
      slot_eq_index accepted compiles (.inl member)] at own
  · intro number body found
    have touches := functions number body found
    rwa [List.map_congr_left fun symbol member =>
      slot_eq_index accepted compiles (.inr ⟨number, body, found, member⟩)] at touches

/-- As long as no program was refused no two global symbols share a slot. -/
theorem eq_of_slot_eq (accepted : history.refused = false)
    (compiles : history.compiler.compile program = (.ok compiled, next)) {first second : Symbol}
    (mentioned : history.Mentions program compiled first)
    (also : history.Mentions program compiled second) (same : first.slot = second.slot) :
    first = second := by
  rw [slot_eq_index accepted compiles mentioned, slot_eq_index accepted compiles also] at same
  exact Compiler.eq_of_index_eq (grows_of_compile compiles) (knows_of_mentions compiles mentioned)
    (knows_of_mentions compiles also) same

end Compiled

/-! ## Programs that mention names -/

/-- The statement that mentions a name and does nothing else, with its spans left out. -/
def mention (name : String) : Statement := .expression (.name ⟨name, .dummy⟩) .dummy

section Mentions

variable {scope : Scope} {symbols : List Symbol}
  (meant : ∀ symbol ∈ symbols, scope.resolve? symbol.name = some symbol ∧ symbol.storage = .global)

include meant

/-- A program that mentions global names always compiles. -/
theorem compile_mentions {compiler : Compiler} (known : compiler.scope = scope) :
    ∃ compiled, compiler.compile ⟨symbols.map fun symbol => mention symbol.name⟩ =
      (.ok compiled, compiler) := by
  have key : ∀ before : Fragment, ∃ code, Compiling.statements .discard
      (symbols.map fun symbol => mention symbol.name) 0 before compiler = .ok code compiler := by
    induction symbols with
    | nil => exact fun before => ⟨before, by rw [List.map_nil, Compiling.statements]; rfl⟩
    | cons symbol symbols ih =>
        intro before
        obtain ⟨found, global⟩ := meant symbol List.mem_cons_self
        have resolved : Compiling.resolve ⟨symbol.name, .dummy⟩ compiler = .ok symbol compiler := by
          refine Compiling.resolve_eq_ok.mpr ⟨known ▸ found, fun frame => ?_, rfl⟩
          rw [global] at frame
          cases frame
        have first : ∀ start, Compiling.statement (mention symbol.name) start compiler =
            .ok ((Fragment.empty.push (Compiling.load symbol)).emit .pop []) compiler := by
          intro start
          simp only [mention, Compiling.statement, Compiling.expression]
          exact Stateful.bind_of_ok (Stateful.bind_of_ok resolved)
        rw [List.map_cons, Compiling.statements_discard_cons, Stateful.bind_of_ok (first _)]
        exact ih (fun other member => meant other (List.mem_cons_of_mem _ member)) _
  obtain ⟨code, ran⟩ := key .empty
  exact ⟨_, Compiler.compile_eq_ok.mpr ⟨code, ran, rfl⟩⟩

theorem globalsAll_mentions {walk : Walk} (known : walk.scope = scope) :
    Statement.globalsAll (symbols.map fun symbol => mention symbol.name) walk = symbols := by
  induction symbols generalizing walk with
  | nil => rfl
  | cons symbol symbols ih =>
      obtain ⟨found, global⟩ := meant symbol List.mem_cons_self
      have first : Statement.globals (mention symbol.name) walk = [symbol] := by
        simp only [mention, Statement.globals, Expression.globals, Scope.globals, known, found,
          Option.elim_some, Symbol.globals, global]
      rw [List.map_cons, Statement.globalsAll, first]
      exact congrArg (symbol :: ·)
        (ih (fun other member => meant other (List.mem_cons_of_mem _ member)) known)

end Mentions

/-- Once a program was refused the latest name has lost its slot. -/
theorem exists_not_uses_index {history : History} (refused : history.refused = true) :
    ∃ program compiled next, history.compiler.compile program = (.ok compiled, next) ∧
      ¬history.Uses program compiled Symbol.index := by
  have many := history.kept.refused.mp refused
  obtain ⟨symbol, found, global, latest⟩ :=
    Compiler.exists_latest history.kept.grows (Nat.zero_lt_of_lt many)
  have meant : ∀ other ∈ [symbol], history.compiler.scope.resolve? other.name = some other ∧
      other.storage = .global := by
    intro other member
    obtain rfl := List.mem_singleton.mp member
    exact ⟨found, global⟩
  obtain ⟨compiled, compiles⟩ := compile_mentions meant rfl
  refine ⟨_, compiled, _, compiles, fun exact => ?_⟩
  have used := globalsAll_mentions meant history.scope_walk
  have same : [symbol].map Symbol.index = [symbol].map Symbol.slot := by
    rw [← used]
    exact exact.own.unique (uses_slot compiles).own
  have kept : symbol.index = symbol.slot := List.head_eq_of_cons_eq same
  have below : symbol.slot < Limit.globals.bound := Nat.mod_lt _ (by decide)
  omega

/-- **Global names keep their slots until a program is refused for their number.** After any
history, the instructions of a program that compiles reach the slots of the symbols that its names
stand for, without the high bits of their indices. They reach exactly the slots with these indices
if no program of the history was refused because of too many global names, and only then; and then
no two symbols share a slot. -/
theorem exact_iff_not_refused (history : History) :
    (∀ program compiled next, history.compiler.compile program = (.ok compiled, next) →
      history.Uses program compiled Symbol.slot) ∧
    ((∀ program compiled next, history.compiler.compile program = (.ok compiled, next) →
      history.Uses program compiled Symbol.index) ↔ history.refused = false) ∧
    (history.refused = false →
      ∀ program compiled next, history.compiler.compile program = (.ok compiled, next) →
        ∀ first second, history.Mentions program compiled first →
          history.Mentions program compiled second → first.slot = second.slot →
            first = second) := by
  refine ⟨fun _ _ _ => uses_slot, ⟨fun exact => ?_, fun accepted _ _ _ => uses_index accepted⟩,
    fun accepted _ _ _ compiles _ _ => eq_of_slot_eq accepted compiles⟩
  cases refused : history.refused with
  | false => rfl
  | true =>
      obtain ⟨program, compiled, next, compiles, other⟩ := exists_not_uses_index refused
      exact absurd (exact program compiled next compiles) other

/-! ## One name too many -/

/-- The definition of a name, with its spans left out. -/
def definition (name : String) : Statement :=
  .bind (.mk ⟨name, .dummy⟩ (.literal (.boolean true) .dummy) .dummy)

theorem statement_definition (name : String) (start : Nat) :
    Compiling.statement (definition name) start =
      Compiling.define ⟨name, .dummy⟩ >>= fun symbol =>
        Compiling.store ⟨name, .dummy⟩ symbol >>= fun instruction =>
          pure ((Fragment.single .true []).push instruction) := by
  simp only [definition, Compiling.statement, Compiling.binding, Compiling.expression,
    Compiling.literal, pure_bind]

section Definitions

variable {compiler : Compiler}

theorem definition_accepted (outer : compiler.scope.isGlobal = true)
    (few : compiler.scope.definitions < Limit.globals.bound) (name : String) (start : Nat) :
    ∃ code next, Compiling.statement (definition name) start compiler = .ok code next ∧
      next.scope = (compiler.scope.define name).2 := by
  obtain ⟨warnings, run⟩ := Compiling.define_cases ⟨name, .dummy⟩ compiler
  have storage : (compiler.scope.define name).1.storage = .global := if_pos outer
  rw [storage] at run
  have stored : ∀ next, Compiling.store ⟨name, .dummy⟩ (compiler.scope.define name).1 next =
      .ok ⟨.setGlobal, [(compiler.scope.define name).1.index]⟩ next := by
    intro next
    rw [Compiling.store, storage]
    rfl
  rw [statement_definition, Stateful.bind_of_ok (run.trans (if_pos few)),
    Stateful.bind_of_ok (stored _)]
  exact ⟨_, _, rfl, rfl⟩

theorem definition_refused (outer : compiler.scope.isGlobal = true)
    (many : Limit.globals.bound ≤ compiler.scope.definitions) (name : String) (start : Nat) :
    ∃ next, Compiling.statement (definition name) start compiler =
        .error (.limitExceeded .globals .dummy) next ∧
      next.scope = (compiler.scope.define name).2 := by
  obtain ⟨warnings, run⟩ := Compiling.define_cases ⟨name, .dummy⟩ compiler
  have storage : (compiler.scope.define name).1.storage = .global := if_pos outer
  rw [storage] at run
  rw [statement_definition, Stateful.bind_of_error (run.trans (if_neg (Nat.not_lt.mpr many)))]
  exact ⟨_, rfl, rfl⟩

/-- Of definitions that take all slots and one more the last one is refused, and bound. -/
theorem definitions_refused (outer : compiler.scope.isGlobal = true) {names : List String}
    (all : compiler.scope.definitions + names.length = Limit.globals.bound) (last : String)
    (before : Fragment) :
    ∃ next, Compiling.statements .discard ((names ++ [last]).map definition) 0 before compiler =
        .error (.limitExceeded .globals .dummy) next ∧
      next.scope = compiler.scope.defineAll (names ++ [last]) := by
  induction names generalizing compiler before with
  | nil =>
      obtain ⟨next, refused, scope⟩ := definition_refused outer (Nat.le_of_eq all.symm) last
        (0 + before.size)
      refine ⟨next, ?_, scope⟩
      rw [List.nil_append, List.map_cons, Compiling.statements_discard_cons]
      exact Stateful.bind_of_error refused
  | cons name names ih =>
      rw [List.length_cons] at all
      obtain ⟨code, next, accepted, scope⟩ := definition_accepted outer
        (by omega) name (0 + before.size)
      have still : next.scope.isGlobal = true := by rw [scope]; exact outer
      have remaining : next.scope.definitions + names.length = Limit.globals.bound := by
        rw [scope, Scope.definitions_define]
        omega
      obtain ⟨final, refused, last_scope⟩ := ih still remaining (before ++ code)
      refine ⟨final, ?_, ?_⟩
      · rw [List.cons_append, List.map_cons, Compiling.statements_discard_cons,
          Stateful.bind_of_ok accepted]
        exact refused
      · rw [last_scope, scope]
        rfl

end Definitions

/-- The names of the first program are known although it was refused. -/
theorem scope_refused {names : List String} (all : names.length = Limit.globals.bound)
    (last : String) :
    (compile new ⟨(names ++ [last]).map definition⟩).compiler.scope =
      Compiler.new.scope.defineAll (names ++ [last]) := by
  have none : Compiler.new.scope.definitions = 0 := rfl
  obtain ⟨next, refused, scope⟩ :=
    definitions_refused rfl (by rw [none, Nat.zero_add, all]) last .empty
  have compiled : Compiler.new.compile ⟨(names ++ [last]).map definition⟩ =
      (.error (.limitExceeded .globals .dummy), next) := by
    rw [Compiler.compile, refused]
  rw [compiler, compiler, compiled, scope]

/-- A name that was bound first and never again has the first slot, and the name that was bound
last has the last one. -/
theorem resolve?_refused {first last : String} {names : List String}
    (all : (first :: names).length = Limit.globals.bound) (once : first ∉ names ++ [last]) :
    (compile new ⟨(first :: names ++ [last]).map definition⟩).compiler.scope.resolve? first =
        some ⟨first, .global, 0⟩ ∧
      (compile new ⟨(first :: names ++ [last]).map definition⟩).compiler.scope.resolve? last =
        some ⟨last, .global, Limit.globals.bound⟩ := by
  rw [scope_refused all last]
  constructor
  · rw [List.cons_append, Scope.defineAll_cons, Scope.resolve?_defineAll once,
      Scope.resolve?_define]
    rfl
  · have none : Compiler.new.scope.definitions = 0 := rfl
    have index : (Compiler.new.scope.defineAll (first :: names)).definitions =
        Limit.globals.bound := by
      rw [Scope.definitions_defineAll, none, Nat.zero_add, all]
    have storage : (Compiler.new.scope.defineAll (first :: names)).storage = .global :=
      if_pos (Scope.grows_defineAll _ _).isGlobal
    rw [Scope.defineAll_append_singleton, Scope.resolve?_define, ← index, ← storage]
    rfl

/-- The history of a compiler that has refused a program which defines `x`, then 65535 times `z`
and at last `y`. -/
def crowded : History :=
  .compile .new ⟨("x" :: List.replicate 65535 "z" ++ ["y"]).map definition⟩

theorem resolve?_crowded :
    crowded.compiler.scope.resolve? "x" = some ⟨"x", .global, 0⟩ ∧
      crowded.compiler.scope.resolve? "y" = some ⟨"y", .global, Limit.globals.bound⟩ := by
  refine resolve?_refused ?_ fun member => ?_
  · rw [List.length_cons, List.length_replicate]
    rfl
  · rcases List.mem_append.mp member with member | member
    · exact absurd (List.eq_of_mem_replicate member) (by decide)
    · exact absurd (List.mem_singleton.mp member) (by decide)

theorem shares_slot {history : History} {first second : Symbol}
    (meant : ∀ symbol ∈ [first, second],
      history.compiler.scope.resolve? symbol.name = some symbol ∧ symbol.storage = .global)
    (differs : second.index ≠ second.slot) :
    ∃ compiled next,
      history.compiler.compile ⟨[mention first.name, mention second.name]⟩ = (.ok compiled, next) ∧
      Statement.globalsAll [mention first.name, mention second.name] history.walk =
        [first, second] ∧
      compiled.code.Touches [first.slot, second.slot] ∧
      ¬history.Uses ⟨[mention first.name, mention second.name]⟩ compiled Symbol.index := by
  have used := globalsAll_mentions meant history.scope_walk
  obtain ⟨compiled, compiles⟩ := compile_mentions meant rfl
  have touches : compiled.code.Touches ([first, second].map Symbol.slot) := by
    rw [← used]
    exact (uses_slot compiles).own
  refine ⟨compiled, _, compiles, used, touches, fun exact => differs ?_⟩
  have same : [first, second].map Symbol.index = [first, second].map Symbol.slot := by
    refine Code.Touches.unique ?_ touches
    rw [← used]
    exact exact.own
  exact List.head_eq_of_cons_eq (List.tail_eq_of_cons_eq same)

/-- The names `x` and `y` stand for different symbols then, and a program that mentions both reads
the same slot twice. -/
theorem not_uses_index_crowded :
    ∃ compiled next,
      crowded.compiler.compile ⟨[mention "x", mention "y"]⟩ = (.ok compiled, next) ∧
      Statement.globalsAll [mention "x", mention "y"] crowded.walk =
        [⟨"x", .global, 0⟩, ⟨"y", .global, Limit.globals.bound⟩] ∧
      compiled.code.Touches [0, 0] ∧
      ¬crowded.Uses ⟨[mention "x", mention "y"]⟩ compiled Symbol.index := by
  obtain ⟨first, last⟩ := resolve?_crowded
  have meant : ∀ symbol ∈ ([⟨"x", .global, 0⟩, ⟨"y", .global, Limit.globals.bound⟩] : List Symbol),
      crowded.compiler.scope.resolve? symbol.name = some symbol ∧ symbol.storage = .global := by
    intro symbol member
    rcases List.mem_cons.mp member with rfl | member
    · exact ⟨first, rfl⟩
    · obtain rfl := List.mem_singleton.mp member
      exact ⟨last, rfl⟩
  obtain ⟨compiled, next, compiles, used, touches, differs⟩ := shares_slot meant (by decide)
  exact ⟨compiled, next, compiles, used, touches, differs⟩

end Compiler.History

end MonkeyLang
