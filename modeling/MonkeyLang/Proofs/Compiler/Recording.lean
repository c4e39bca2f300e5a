import Mathlib.Data.List.Forall2
import MonkeyLang.Proofs.Compiler.Journal
import MonkeyLang.Proofs.Compiler.Tracking

/-!
# Compilers that a journal describes

A journal describes a compiler if the tables of the compiler hold what is written on the open
pages, and if the functions among the constants are those whose pages were closed, in the same
order, with the instructions that are written there (`Journal.Describes`).

A part of the compiler records some visits if the journal behind them describes the compiler
behind that part, and the code of the part has the instructions that were written down
meanwhile. If the part fails, the journal comes to a visit that is refused with the same fault
(`Records`). There is one rule for each way in which parts are put together.
-/

set_option autoImplicit false

namespace MonkeyLang

/-! ## The instructions in a stream -/

/-- The instructions of the stream that read and write what names refer to. -/
def Code.Accesses (code : Code) (accesses : List Instruction) : Prop :=
  ∃ instructions, code.Decodes 0 instructions ∧
    instructions.filter Instruction.isAccess = accesses

/-- The instructions of the fragment that read and write what names refer to. -/
structure Fragment.Accesses (code : Fragment) (accesses : List Instruction) : Prop where
  complete : code.Complete
  filtered : code.instructions.toList.filter Instruction.isAccess = accesses

namespace Fragment.Accesses

variable {code rest : Fragment} {accesses others : List Instruction}

theorem empty : Accesses .empty [] := ⟨complete_empty, rfl⟩

theorem append (first : code.Accesses accesses) (second : rest.Accesses others) :
    (code ++ rest).Accesses (accesses ++ others) where
  complete := complete_append.mpr ⟨first.complete, second.complete⟩
  filtered := by
    rw [instructions_append, Array.toList_append, List.filter_append, first.filtered,
      second.filtered]

/-- An instruction that has to do with a name is put behind the code. -/
theorem access {instruction : Instruction} (has : code.Accesses accesses)
    (complete : instruction.Complete) (names : instruction.isAccess = true) :
    (code.push instruction).Accesses (accesses ++ [instruction]) where
  complete := complete_push.mpr ⟨has.complete, complete⟩
  filtered := by
    rw [instructions_push, Array.toList_push, List.filter_append, has.filtered,
      List.filter_cons_of_pos names, List.filter_nil]

theorem load (has : code.Accesses accesses) (referent : Referent) :
    (code.push referent.load).Accesses (accesses ++ [referent.load]) := by
  cases referent <;> exact has.access rfl rfl

theorem store (has : code.Accesses accesses) {referent : Referent} {instruction : Instruction}
    (stores : referent.store? = some instruction) :
    (code.push instruction).Accesses (accesses ++ [instruction]) := by
  cases referent <;> cases stores <;> exact has.access rfl rfl

/-- Any other instruction is put behind the code. -/
theorem emit (has : code.Accesses accesses) (opcode : Opcode) (operands : List Nat)
    (complete : operands.length = opcode.widths.length)
    (other : Instruction.isAccess ⟨opcode, operands⟩ = false) :
    (code.emit opcode operands).Accesses accesses where
  complete := complete_emit has.complete complete
  filtered := by
    rw [Fragment.emit, instructions_push, Array.toList_push, List.filter_append, has.filtered,
      List.filter_cons_of_neg (by simp [other]), List.filter_nil, List.append_nil]

theorem emitAll {opcodes : List Opcode} (has : code.Accesses accesses)
    (plain : ∀ opcode ∈ opcodes, opcode.widths = []) :
    (code.emitAll opcodes).Accesses accesses := by
  induction opcodes generalizing code with
  | nil => exact has
  | cons opcode opcodes ih =>
      have bare := plain opcode List.mem_cons_self
      refine ih (has.emit opcode [] (by rw [bare]) ?_) fun other member =>
        plain other (List.mem_cons_of_mem _ member)
      cases opcode <;> first | rfl | cases bare

theorem single (opcode : Opcode) (operands : List Nat)
    (complete : operands.length = opcode.widths.length)
    (other : Instruction.isAccess ⟨opcode, operands⟩ = false) :
    Accesses (.single opcode operands) [] :=
  empty.emit opcode operands complete other

theorem jump (has : code.Accesses accesses) (target : Nat) :
    (code.emit .jump [target]).Accesses accesses :=
  has.emit .jump [target] rfl rfl

/-- A test with a part behind it that is jumped over if the test fails. -/
theorem guarded (test : code.Accesses accesses) (pass : rest.Accesses others) (target : Nat) :
    (code.emit .jumpNotTruthy [target] ++ rest).Accesses (accesses ++ others) :=
  (test.emit .jumpNotTruthy [target] rfl rfl).append pass

/-- The instructions are read back from the stream if no operand loses bits. -/
theorem encode (has : code.Accesses accesses)
    (fitted : ∀ access ∈ accesses, access.fitted = access) : code.encode.Accesses accesses := by
  refine ⟨_, has.complete.decodes, ?_⟩
  have same : Instruction.isAccess ∘ Instruction.fitted = Instruction.isAccess := rfl
  rw [List.filter_map, same, has.filtered]
  exact (List.map_congr_left fitted).trans (List.map_id _)

end Fragment.Accesses

/-! ## Tables and pages -/

/-- What a symbol refers to. -/
def Symbol.referent (symbol : Symbol) : Referent :=
  match symbol.storage with
  | .global => .global symbol.index
  | .frame => .frame symbol.index
  | .builtin => .builtin symbol.index

namespace Compiling

theorem load_eq (symbol : Symbol) : load symbol = symbol.referent.load := by
  obtain ⟨_, storage, _⟩ := symbol
  cases storage <;> rfl

theorem store_cases (name : Name) (symbol : Symbol) (compiler : Compiler) :
    store name symbol compiler =
      match symbol.referent.store? with
      | some instruction => .ok instruction compiler
      | none => .error (.assignToBuiltin name) compiler := by
  obtain ⟨_, storage, _⟩ := symbol
  cases storage <;> rfl

theorem resolve_cases (name : Name) (compiler : Compiler) :
    resolve name compiler =
      match compiler.scope.resolve? name.text with
      | none => .error (.undefinedName name) compiler
      | some symbol =>
        if symbol.storage = .frame && !compiler.scope.definesLocally name.text then
          .error (.capturedLocal name) compiler
        else .ok symbol compiler := by
  refine (Stateful.get_bind _ _).trans ?_
  cases compiler.scope.resolve? name.text with
  | none => rfl
  | some symbol =>
      dsimp only
      split <;> rfl

/-- What is compiled inside of a function: its parameters, then its body. -/
def inside (parameters : List Name) (body : List Statement) : Compiling Fragment := do
  parameters.forM fun parameter => discard (define parameter)
  statements .leave body 0 .empty

section

variable {parameters : List Name} {body : List Statement} {compiler inner : Compiler}
  (name : Option String) (span bodySpan : Span)

theorem function_of_error {fault : CompileFault}
    (ran : inside parameters body { compiler with scope := compiler.scope.enter } =
      .error fault inner) :
    function name parameters span (.mk body bodySpan) compiler =
      .error fault { inner with scope := compiler.scope } :=
  Stateful.bind_of_error (by
    rw [inside] at ran
    simp only [inFunction, ran])

/-- The function becomes a constant, and the names around it are in place again. -/
theorem function_of_ok {code : Fragment}
    (ran : inside parameters body { compiler with scope := compiler.scope.enter } =
      .ok code inner) :
    function name parameters span (.mk body bodySpan) compiler =
      constant (.function ⟨inner.constants.size, name, parameters.length,
        inner.scope.definitions, code.encode⟩) span { inner with scope := compiler.scope } :=
  Stateful.bind_of_ok (inFunction_eq_ok.mpr ⟨inner, ran, rfl, rfl⟩)

end

end Compiling

namespace Page

/-- The table that holds what is written on a page with these pages around it. -/
def table (page : Page) : List Page → SymbolTable
  | [] => .ofLog .global builtinSymbols page.log
  | _ :: _ => .ofLog .frame [] page.log

/-- The tables of pages, each of them with those behind it around it. -/
def tables : List Page → List SymbolTable
  | [] => []
  | page :: pages => page.table pages :: tables pages

/-- What a name refers to is what the tables of the pages say. -/
theorem meaningAround_eq (page : Page) (pages : List Page) (name : Name) :
    meaningAround (page :: pages) name =
      match (tables (page :: pages)).findSome? (·.lookup? name.text) with
      | none => .error (.undefinedName name)
      | some symbol =>
        if symbol.storage = .frame then .error (.capturedLocal name) else .ok symbol.referent := by
  induction pages generalizing page with
  | nil =>
      rw [tables, List.findSome?_cons, meaningAround, table]
      cases found : latest? page.log name.text with
      | some slot =>
          rw [SymbolTable.lookup?_ofLog_of_some found]
          rfl
      | none =>
          rw [SymbolTable.lookup?_ofLog_of_none found, find?_builtinSymbols]
          dsimp only
          rw [meaningAround]
          cases Builtin.names.idxOf? name.text <;> rfl
  | cons next pages ih =>
      rw [tables, List.findSome?_cons, meaningAround, table]
      cases found : latest? page.log name.text with
      | some slot =>
          have bound : name.text ∈ page.log := by
            by_contra unbound
            rw [latest?_eq_none.mpr unbound] at found
            cases found
          rw [SymbolTable.lookup?_ofLog_of_some found, if_pos bound]
          rfl
      | none =>
          rw [SymbolTable.lookup?_ofLog_of_none found, if_neg (latest?_eq_none.mp found)]
          exact ih next

end Page

/-! ## Journals that describe a compiler -/

namespace Journal

variable {journal after : Journal} {compiler : Compiler}

/-- The scope that holds what is written on the open pages. -/
def scope (journal : Journal) : Scope :=
  ⟨journal.page.table journal.around, Page.tables journal.around⟩

theorem isGlobal_scope (journal : Journal) :
    journal.scope.isGlobal = true ↔ journal.around = [] := by
  rw [Scope.isGlobal, scope]
  cases journal.around <;> simp [Page.tables]

/-- The scope gives a name the next slot of the page. -/
theorem define_scope (journal : Journal) (name : String) (accesses : List Instruction) :
    ∃ symbol, journal.scope.define name =
        (symbol, { journal with page := ⟨name :: journal.page.log, accesses⟩ }.scope) ∧
      symbol.index = journal.page.log.length ∧
      symbol.referent = Page.own journal.around journal.page.log.length ∧
      Compiling.slotLimit symbol.storage = Page.limit journal.around := by
  obtain ⟨page, around, targets, closed⟩ := journal
  cases around <;> exact ⟨_, rfl, rfl, rfl, rfl⟩

theorem definitions_scope (journal : Journal) :
    journal.scope.definitions = journal.page.log.length := by
  rw [Scope.definitions, scope]
  cases journal.around <;> rfl

/-- What a name refers to is what the scope says. -/
theorem meaning_eq (journal : Journal) (name : Name) :
    journal.meaning name =
      match journal.scope.resolve? name.text with
      | none => .error (.undefinedName name)
      | some symbol =>
        if symbol.storage = .frame && !journal.scope.definesLocally name.text then
          .error (.capturedLocal name)
        else .ok symbol.referent := by
  obtain ⟨page, around, targets, closed⟩ := journal
  simp only [meaning, scope, Scope.resolve?, Scope.definesLocally, List.findSome?_cons]
  cases around with
  | nil =>
      simp only [Page.table, Page.tables]
      cases found : latest? page.log name.text with
      | some slot =>
          simp only [SymbolTable.lookup?_ofLog_of_some found]
          rfl
      | none =>
          simp only [SymbolTable.lookup?_ofLog_of_none found, find?_builtinSymbols,
            Page.meaningAround]
          cases Builtin.names.idxOf? name.text <;> rfl
  | cons next around =>
      simp only [Page.table]
      cases found : latest? page.log name.text with
      | some slot =>
          simp only [SymbolTable.lookup?_ofLog_of_some found]
          rfl
      | none =>
          simp only [SymbolTable.lookup?_ofLog_of_none found, List.find?_nil, Option.isSome_none,
            Bool.not_false, Bool.and_true, decide_eq_true_eq]
          exact Page.meaningAround_eq next around name

end Journal

/-- The functions among constants, in their order. -/
def functionsAmong (constants : Array Value) : List Function :=
  constants.toList.filterMap fun
    | .function body => some body
    | _ => none

theorem functionsAmong_push_function (constants : Array Value) (body : Function) :
    functionsAmong (constants.push (.function body)) = functionsAmong constants ++ [body] := by
  simp [functionsAmong]

theorem functionsAmong_push_plain (constants : Array Value) {value : Value}
    (plain : ∀ body, value ≠ .function body) :
    functionsAmong (constants.push value) = functionsAmong constants := by
  cases value with
  | function body => exact absurd rfl (plain body)
  | _ => simp [functionsAmong]

/-- The function has the slots and the instructions that are written on its page. -/
structure ClosedPage.Describes (ended : ClosedPage) (body : Function) : Prop where
  parameters : body.parameters = ended.parameters
  locals : body.locals = ended.page.log.length
  accesses : body.code.Accesses ended.page.accesses

namespace Journal

/-- The compiler has the names and the functions that are written down in the journal. -/
structure Describes (journal : Journal) (compiler : Compiler) : Prop where
  scope : compiler.scope = journal.scope
  functions : List.Forall₂ ClosedPage.Describes journal.closed (functionsAmong compiler.constants)
  fits : journal.Fits

theorem start_describes : start.Describes Compiler.new where
  scope := withBuiltins_eq
  functions := .nil
  fits := fits_start

/-- Instructions were written down, and apart from names nothing else that concerns what is still
open. -/
structure Extends (journal : Journal) (accesses : List Instruction) (after : Journal) : Prop where
  around : after.around = journal.around
  targets : after.targets = journal.targets
  accesses : after.page.accesses = journal.page.accesses ++ accesses

namespace Extends

theorem refl (journal : Journal) : journal.Extends [] journal :=
  ⟨rfl, rfl, (List.append_nil _).symm⟩

theorem trans {journal middle after : Journal} {accesses others : List Instruction}
    (first : journal.Extends accesses middle) (second : middle.Extends others after) :
    journal.Extends (accesses ++ others) after where
  around := second.around.trans first.around
  targets := second.targets.trans first.targets
  accesses := by rw [second.accesses, first.accesses, List.append_assoc]

end Extends

/-- The journal inside of a function literal that starts here. -/
def entered (journal : Journal) : Journal :=
  { journal with page := .blank, around := journal.page :: journal.around }

/-- The journal behind a function literal, with so many parameters, that has ended as another
journal says. -/
def behindFunction (journal : Journal) (parameters : Nat) (ended : Journal) : Journal :=
  { journal with closed := ended.closed ++ [⟨parameters, ended.page⟩] }

theorem Extends.behindFunction (journal : Journal) (parameters : Nat) (ended : Journal) :
    journal.Extends [] (journal.behindFunction parameters ended) :=
  ⟨rfl, rfl, (List.append_nil _).symm⟩

/-- The visits of a function close the page that they have opened, and change nothing else of the
journal. -/
theorem run_function {journal after : Journal} {visits : List Visit} {accesses : List Instruction}
    (ran : journal.entered.run visits = .ok after)
    (extended : journal.entered.Extends accesses after) (parameters : Nat) :
    journal.run (.enter :: (visits ++ [.leave parameters])) =
      .ok (journal.behindFunction parameters after) := by
  have left : after.visit (.leave parameters) = .ok (journal.behindFunction parameters after) := by
    simp only [visit, extended.around, extended.targets, entered, behindFunction]
  exact (run_cons_of_ok rfl).trans ((run_append_of_ok ran).trans (run_cons_of_ok left))

end Journal

theorem Journal.Describes.definitions {journal : Journal} {compiler : Compiler}
    (describes : journal.Describes compiler) :
    compiler.scope.definitions = journal.page.log.length := by
  rw [describes.scope, journal.definitions_scope]

theorem Journal.Describes.entered {journal : Journal} {compiler : Compiler}
    (describes : journal.Describes compiler) :
    journal.entered.Describes { compiler with scope := compiler.scope.enter } where
  scope := by
    rw [describes.scope]
    rfl
  functions := describes.functions
  fits := describes.fits.enter

/-- What is written on the page is read back from the code that it was written down for. -/
theorem Journal.Describes.encode {journal : Journal} {compiler : Compiler} {code : Fragment}
    {accesses : List Instruction} (describes : journal.Describes compiler)
    (written : journal.page.accesses = accesses) (has : code.Accesses accesses) :
    code.encode.Accesses journal.page.accesses := by
  subst written
  exact has.encode describes.fits.pages.1.accesses

/-- The compiler looks a name up as the journal does. -/
theorem Journal.Describes.resolve_cases {journal : Journal} {compiler : Compiler}
    (describes : journal.Describes compiler) (name : Name) :
    (∃ symbol : Symbol, journal.meaning name = .ok symbol.referent ∧
      Compiling.resolve name compiler = .ok symbol compiler) ∨
    ∃ fault, journal.meaning name = .error fault ∧
      Compiling.resolve name compiler = .error fault compiler := by
  rw [journal.meaning_eq, Compiling.resolve_cases, describes.scope]
  cases journal.scope.resolve? name.text with
  | none => exact .inr ⟨_, rfl, rfl⟩
  | some symbol =>
      dsimp only
      split
      · exact .inr ⟨_, rfl, rfl⟩
      · exact .inl ⟨symbol, rfl, rfl⟩

/-! ## Parts of the compiler -/

/-- How a part of the compiler ends if the journal was at its start. -/
def Recorded {α : Type} (good : List Instruction → α → Prop) (journal : Journal)
    (visits : List Visit) : EStateM.Result CompileFault Compiler α → Prop
  | .ok value next => ∃ after accesses, journal.run visits = .ok after ∧ after.Describes next ∧
      journal.Extends accesses after ∧ good accesses value
  | .error fault _ => journal.Stops visits fault

/-- A part of the compiler does what a journal writes down for the visits. -/
def Records {α : Type} (good : List Instruction → α → Prop) (work : Compiling α)
    (visits : List Visit) : Prop :=
  ∀ (journal : Journal) (compiler : Compiler), journal.Describes compiler →
    Recorded good journal visits (work compiler)

/-- Visits in front of a part. -/
theorem Recorded.behind {α : Type} {good : List Instruction → α → Prop} {journal middle : Journal}
    {visits others : List Visit} {accesses : List Instruction}
    {result : EStateM.Result CompileFault Compiler α}
    (recorded : Recorded (fun more => good (accesses ++ more)) middle others result)
    (ran : journal.run visits = .ok middle) (extended : journal.Extends accesses middle) :
    Recorded good journal (visits ++ others) result := by
  cases result with
  | error fault next => exact Journal.Stops.behind ran recorded
  | ok value next =>
      obtain ⟨after, more, rerun, described, grown, holds⟩ := recorded
      exact ⟨after, accesses ++ more, (Journal.run_append_of_ok ran).trans rerun, described,
        extended.trans grown, holds⟩

theorem Recorded.cons {α : Type} {good : List Instruction → α → Prop} {journal middle : Journal}
    {visit : Visit} {visits : List Visit} {accesses : List Instruction}
    {result : EStateM.Result CompileFault Compiler α}
    (recorded : Recorded (fun more => good (accesses ++ more)) middle visits result)
    (visited : journal.visit visit = .ok middle) (extended : journal.Extends accesses middle) :
    Recorded good journal (visit :: visits) result := by
  have front : journal.run [visit] = .ok middle := Journal.run_cons_of_ok visited
  exact recorded.behind front extended

namespace Records

open Journal

variable {α β : Type} {good : List Instruction → α → Prop} {well : List Instruction → β → Prop}
  {visits others : List Visit}

theorem pure {value : α} (holds : good [] value) : Records good (pure value) [] :=
  fun journal _ describes => ⟨journal, [], rfl, describes, .refl _, holds⟩

theorem bind {work : Compiling α} {rest : α → Compiling β} (works : Records good work visits)
    (rests : ∀ accesses value, good accesses value →
      Records (fun more => well (accesses ++ more)) (rest value) others) :
    Records well (work >>= rest) (visits ++ others) := by
  intro journal compiler describes
  have worked := works journal compiler describes
  cases ran : work compiler with
  | error fault next =>
      rw [ran] at worked
      rw [Stateful.bind_of_error ran]
      exact Stops.append worked others
  | ok value between =>
      rw [ran] at worked
      obtain ⟨middle, accesses, run, described, extended, fine⟩ := worked
      rw [Stateful.bind_of_ok ran]
      exact (rests accesses value fine middle between described).behind run extended

theorem weaken {relaxed : List Instruction → α → Prop} {work : Compiling α}
    (records : Records good work visits)
    (implies : ∀ accesses value, good accesses value → relaxed accesses value) :
    Records relaxed work visits := by
  intro journal compiler describes
  have worked := records journal compiler describes
  cases ran : work compiler with
  | error fault next =>
      rw [ran] at worked
      exact worked
  | ok value next =>
      rw [ran] at worked
      obtain ⟨after, accesses, run, described, extended, fine⟩ := worked
      exact ⟨after, accesses, run, described, extended, implies _ _ fine⟩

theorem bind_cons {visit : Visit} {work : Compiling α} {rest : α → Compiling β}
    (works : Records good work [visit])
    (rests : ∀ accesses value, good accesses value →
      Records (fun more => well (accesses ++ more)) (rest value) visits) :
    Records well (work >>= rest) (visit :: visits) :=
  bind works rests

/-- There are no visits behind the first part. -/
theorem last {work : Compiling α} {rest : α → Compiling β} (works : Records good work visits)
    (rests : ∀ accesses value, good accesses value →
      Records (fun more => well (accesses ++ more)) (rest value) []) :
    Records well (work >>= rest) visits := by
  have both := bind works rests
  rwa [List.append_nil] at both

/-- Behind the first part something is only made of its value. -/
theorem map {work : Compiling α} {change : α → β} (works : Records good work visits)
    (holds : ∀ accesses value, good accesses value → well accesses (change value)) :
    Records well (work >>= fun value => Pure.pure (change value)) visits :=
  last works fun accesses value fine => pure (by simpa using holds accesses value fine)

/-- A check in front of a part changes nothing if it succeeds. -/
theorem check {rest : Unit → Compiling α} {holds : Bool} {limit : Limit} {span : Span}
    (rests : Records good (rest ()) visits) :
    Records good (Compiling.require holds limit span >>= rest) (.check limit span :: visits) := by
  intro journal compiler describes
  cases holds with
  | false =>
      rw [Compiling.require_bind_of_false rfl]
      exact Stops.check limit span visits
  | true =>
      rw [Compiling.require_bind_of_true rfl]
      exact (rests journal compiler describes).cons rfl (.refl _)

theorem read (name : Name) :
    Records (fun accesses symbol => accesses = [symbol.referent.load]) (Compiling.resolve name)
      [.read name] := by
  intro journal compiler describes
  rcases describes.resolve_cases name with ⟨symbol, means, resolved⟩ | ⟨fault, means, resolved⟩
  · have visited : journal.visit (.read name) = .ok (journal.note [symbol.referent.load]) := by
      rw [Journal.visit, means]
      rfl
    rw [resolved]
    refine ⟨_, _, run_cons_of_ok visited, ?_, ⟨rfl, rfl, rfl⟩, rfl⟩
    exact ⟨describes.scope, describes.functions, describes.fits.visit visited⟩
  · have refused : journal.visit (.read name) = .error fault := by
      rw [Journal.visit, means]
      rfl
    rw [resolved]
    exact .refused refused []

/-- A name is bound, and what is done with its slot is written down. -/
theorem define (visit : Visit) (name : Name) (noted : Referent → List Instruction)
    (visits : ∀ journal : Journal, journal.visit visit = journal.define name noted) :
    Records (fun accesses symbol => accesses = noted symbol.referent ∧
        symbol.referent.store?.isSome = true)
      (Compiling.define name) [visit] := by
  intro journal compiler describes
  obtain ⟨warnings, run⟩ := Compiling.define_cases name compiler
  obtain ⟨symbol, bound, index, refers, limit⟩ := journal.define_scope name.text
    (journal.page.accesses ++ noted (Page.own journal.around journal.page.log.length))
  rw [run, describes.scope, bound, index, limit]
  split
  case isTrue few =>
    have visited : journal.visit visit = .ok { journal with page :=
        ⟨name.text :: journal.page.log,
          journal.page.accesses ++ noted (Page.own journal.around journal.page.log.length)⟩ } := by
      rw [visits, Journal.define, if_pos few]
    refine ⟨_, _, run_cons_of_ok visited, ⟨rfl, describes.functions, describes.fits.visit visited⟩,
      ⟨rfl, rfl, rfl⟩, by rw [refers], ?_⟩
    rw [refers]
    cases journal.around <;> rfl
  case isFalse many =>
    have refused : journal.visit visit =
        .error (.limitExceeded (Page.limit journal.around) name.span) := by
      rw [visits, Journal.define, if_neg many]
    exact .refused refused []

/-- The parameters of a function are bound, and nothing is done with their slots yet. -/
theorem parameters (names : List Name) :
    Records (fun accesses _ => accesses = [])
      (names.forM fun name => discard (Compiling.define name)) (names.map Visit.parameter) := by
  induction names with
  | nil => exact pure rfl
  | cons name names ih =>
      have defined : Records (fun accesses _ => accesses = []) (discard (Compiling.define name))
          [.parameter name] :=
        map (define (.parameter name) name (fun _ => []) fun _ => rfl) fun _ _ fine => fine.1
      exact bind_cons defined fun _ _ none =>
        ih.weaken fun _ _ more => by rw [none, more, List.append_nil]

/-- Any value that is bound goes to the slot of its name. -/
theorem bound (name : Name) :
    Records (fun accesses symbol => ∃ instruction,
        symbol.referent.store? = some instruction ∧ accesses = [instruction])
      (Compiling.define name) [.bind name] := by
  refine (define (.bind name) name (fun referent => referent.store?.toList) fun _ => rfl).weaken
    fun accesses symbol fine => ?_
  obtain ⟨noted, stores⟩ := fine
  obtain ⟨instruction, stored⟩ := Option.isSome_iff_exists.mp stores
  exact ⟨instruction, stored, by rw [noted, stored]; rfl⟩

/-- The instruction for a slot is known when the slot is. -/
theorem store {rest : Instruction → Compiling α} {symbol : Symbol} {instruction : Instruction}
    (name : Name) (stores : symbol.referent.store? = some instruction)
    (rests : Records good (rest instruction) visits) :
    Records good (Compiling.store name symbol >>= rest) visits := by
  intro journal compiler describes
  have stored : Compiling.store name symbol compiler = .ok instruction compiler := by
    rw [Compiling.store_cases, stores]
  rw [Stateful.bind_of_ok stored]
  exact rests journal compiler describes

/-- A part of the compiler whose code has the instructions that are written down for it. -/
abbrev Code (work : Compiling Fragment) (visits : List Visit) : Prop :=
  Records (fun accesses code => code.Accesses accesses) work visits

/-- A value that is no function becomes a constant. -/
theorem constant {value : Value} (plain : ∀ body, value ≠ .function body) (span : Span) :
    Code (Compiling.constant value span) [.check .constants span] := by
  intro journal compiler describes
  rw [Compiling.constant_cases]
  split
  · refine ⟨journal, [], rfl, ⟨describes.scope, ?_, describes.fits⟩, .refl _, ?_⟩
    · rw [functionsAmong_push_plain _ plain]
      exact describes.functions
    · exact .single _ _ rfl rfl
  · exact .check .constants span []

theorem literal (value : Literal) (span : Span) :
    Code (Compiling.literal value span) (value.visits span) := by
  cases value with
  | boolean value => cases value <;> exact pure (.single _ _ rfl rfl)
  | _ =>
      refine constant ?_ span
      intro _ same
      cases same

/-- The inside of a function, if its body is recorded. -/
theorem inside {body : List Statement}
    (records : Code (Compiling.statements .leave body 0 .empty) (Statement.visitsAll body))
    (names : List Name) :
    Code (Compiling.inside names body) (names.map Visit.parameter ++ Statement.visitsAll body) := by
  refine bind (Records.parameters names) fun accesses _ none => ?_
  subst none
  exact records

/-- A function literal, if its body is recorded. Nothing is written down on the page around it. -/
theorem function {body : List Statement}
    (records : Code (Compiling.statements .leave body 0 .empty) (Statement.visitsAll body))
    (name : Option String) (parameters : List Name) (span bodySpan : Span) :
    Records (fun accesses code => accesses = [] ∧ code.Accesses [])
      (Compiling.function name parameters span (.mk body bodySpan))
      (Block.visitsOfFunction (.mk body bodySpan) parameters span) := by
  intro journal compiler describes
  have worked := inside records parameters _ _ describes.entered
  cases ran : Compiling.inside parameters body
      { compiler with scope := compiler.scope.enter } with
  | error fault inner =>
      rw [ran] at worked
      rw [Compiling.function_of_error name span bodySpan ran]
      exact Stops.cons rfl (Stops.append worked _)
  | ok code inner =>
      rw [ran] at worked
      obtain ⟨after, accesses, run, described, extended, has⟩ := worked
      have closed := run_function run extended parameters.length
      have ended : ClosedPage.Describes ⟨parameters.length, after.page⟩
          ⟨inner.constants.size, name, parameters.length, inner.scope.definitions, code.encode⟩ :=
        ⟨rfl, described.definitions, described.encode extended.accesses has⟩
      have apart : Block.visitsOfFunction (.mk body bodySpan) parameters span =
          (.enter :: ((parameters.map Visit.parameter ++ Statement.visitsAll body) ++
            [.leave parameters.length])) ++ [.check .constants span] := by
        simp [Block.visitsOfFunction]
      rw [Compiling.function_of_ok name span bodySpan ran, Compiling.constant_cases, apart]
      split
      · refine Recorded.behind ?_ closed (.behindFunction journal _ after)
        refine ⟨_, [], rfl, ⟨describes.scope, ?_, describes.fits.run closed⟩, .refl _, rfl,
          .single _ _ rfl rfl⟩
        rw [functionsAmong_push_function]
        exact List.rel_append described.functions (.cons ended .nil)
      · exact Stops.behind closed (.check .constants span [])

/-- The value of an assignment goes to the target that is pending. A builtin function is none. -/
theorem pending {journal : Journal} {compiler : Compiler} {symbol : Symbol} {code : Fragment}
    {targets : List Referent} {accesses : List Instruction} (target : Name)
    (describes : journal.Describes compiler)
    (awaits : journal.targets = symbol.referent :: targets) (has : code.Accesses accesses) :
    match (do
      let instruction ← Compiling.store target symbol
      return (code.push instruction).push (Compiling.load symbol) : Compiling Fragment) compiler with
    | .ok whole next => ∃ after more, journal.visit (.store target) = .ok after ∧
        after.Describes next ∧ Extends { journal with targets } more after ∧
        whole.Accesses (accesses ++ more)
    | .error fault _ => journal.visit (.store target) = .error fault := by
  have stored := Compiling.store_cases target symbol compiler
  cases stores : symbol.referent.store? with
  | none =>
      rw [stores] at stored
      rw [Stateful.bind_of_error stored]
      simp only [Journal.visit, awaits, stores]
  | some instruction =>
      rw [stores] at stored
      have visited : journal.visit (.store target) =
          .ok ({ journal with targets }.note [instruction, symbol.referent.load]) := by
        simp only [Journal.visit, awaits, stores]
      have both := (has.store stores).load symbol.referent
      rw [List.append_assoc] at both
      rw [Stateful.bind_of_ok stored, Compiling.load_eq]
      exact ⟨_, [instruction, symbol.referent.load], visited,
        ⟨describes.scope, describes.functions, describes.fits.visit visited⟩,
        ⟨rfl, rfl, rfl⟩, both⟩

/-- The target of an assignment is looked up in front of the value. -/
theorem assign {value : Compiling Fragment} (target : Name) (records : Code value visits) :
    Code
      (do
        let symbol ← Compiling.resolve target
        let code ← value
        let instruction ← Compiling.store target symbol
        return (code.push instruction).push (Compiling.load symbol))
      (.target target :: (visits ++ [.store target])) := by
  intro journal compiler describes
  rcases describes.resolve_cases target with ⟨symbol, means, resolved⟩ | ⟨fault, means, resolved⟩
  · have visited : journal.visit (.target target) =
        .ok { journal with targets := symbol.referent :: journal.targets } := by
      rw [Journal.visit, means]
      rfl
    have worked := records { journal with targets := symbol.referent :: journal.targets } compiler
      ⟨describes.scope, describes.functions, describes.fits.visit visited⟩
    rw [Stateful.bind_of_ok resolved]
    cases ran : value compiler with
    | error fault next =>
        rw [ran] at worked
        rw [Stateful.bind_of_error ran]
        exact Stops.cons visited (Stops.append worked [.store target])
    | ok code next =>
        rw [ran] at worked
        obtain ⟨after, accesses, run, described, extended, has⟩ := worked
        have reached : journal.run (.target target :: visits) = .ok after :=
          (run_cons_of_ok visited).trans run
        have stored := pending target described extended.targets has
        rw [Stateful.bind_of_ok ran]
        split at stored
        · next whole last is =>
          rw [is]
          obtain ⟨final, more, visited, holds, grown, all⟩ := stored
          have back : journal.Extends accesses { after with targets := journal.targets } :=
            ⟨extended.around, rfl, extended.accesses⟩
          exact ⟨final, accesses ++ more, (run_append_of_ok reached).trans (run_cons_of_ok visited),
            holds, back.trans grown, all⟩
        · next fault last is =>
          rw [is]
          exact Stops.behind reached (.refused stored [])
  · have refused : journal.visit (.target target) = .error fault := by
      rw [Journal.visit, means]
      rfl
    rw [Stateful.bind_of_error resolved]
    exact .refused refused _

/-- A statement that leaves a function stands inside of one. -/
theorem depart {rest : Compiling α} (span : Span) (records : Records good rest visits) :
    Records good
      (do
        if (← MonadState.get).scope.isGlobal then throw (.returnOutsideFunction span)
        rest)
      (.depart span :: visits) := by
  intro journal compiler describes
  have outside := journal.isGlobal_scope
  rw [← describes.scope] at outside
  refine (congrArg (Recorded good journal _) (Stateful.get_bind _ compiler)).mpr ?_
  cases isGlobal : compiler.scope.isGlobal with
  | true =>
      have refused : journal.visit (.depart span) = .error (.returnOutsideFunction span) := by
        rw [Journal.visit, if_pos (outside.mp isGlobal)]
      exact .refused refused visits
  | false =>
      have visited : journal.visit (.depart span) = .ok journal := by
        rw [Journal.visit, if_neg (fun top => by simp [outside.mpr top] at isGlobal)]
      exact (records journal compiler describes).cons visited (.refl _)

end Records

end MonkeyLang
