import MonkeyLang.Compiler.Generate
import MonkeyLang.Proofs.Bytecode.Decoding
import MonkeyLang.Proofs.Compiler.Logs
import MonkeyLang.Proofs.Stateful

/-!
# What the names of a program refer to

A journal goes through the names of a program in the order in which they are compiled. It has a
page for each function that is open, and one for the top level. A page keeps the names that were
bound there (the k-th of them has slot k) and the instructions that read and write what the names
refer to. When a function ends its page is closed.

A name refers to its latest definition in the innermost function; without one there, to nothing
at all if a function further out binds it, else to its latest definition at the top level, and
else to the builtin function of that name (`Journal.meaning`).

The order is that of the visits of a program (`Program.visits`). A journal refuses a visit with a
fault, and the first visit that is refused is where compiling stops (`Journal.Stops`). There are
visits that a journal has no opinion on (`Visit.check`): whether there is room for the constants,
the operands and the jumps of a program has nothing to do with its names.

Slots are only given out as long as they fit into an operand, so no operand that a journal writes
down loses bits (`Journal.Fits`). One visit preserves this, and so does a run.
-/

set_option autoImplicit false

namespace MonkeyLang

/-! ## What a name refers to -/

/-- What a name may refer to. -/
inductive Referent where
  | global (slot : Nat)
  | frame (slot : Nat)
  | builtin (index : Nat)
  deriving DecidableEq, Repr

namespace Referent

/-- The instruction that pushes the value. -/
def load : Referent → Instruction
  | global slot => ⟨.getGlobal, [slot]⟩
  | frame slot => ⟨.getLocal, [slot]⟩
  | builtin index => ⟨.getBuiltin, [index]⟩

/-- The instruction that pops a value into the slot. A builtin function has none. -/
def store? : Referent → Option Instruction
  | global slot => some ⟨.setGlobal, [slot]⟩
  | frame slot => some ⟨.setLocal, [slot]⟩
  | builtin _ => none

/-- The slot or the index fits into an operand. -/
def Fits : Referent → Prop
  | global slot => slot < Limit.globals.bound
  | frame slot => slot < Limit.locals.bound
  | builtin index => index < Builtin.names.length

theorem Fits.load {referent : Referent} (fits : referent.Fits) :
    referent.load.fitted = referent.load := by
  cases referent with
  | builtin index =>
      have few : index < 256 := Nat.lt_trans fits (by decide)
      simp [Referent.load, Instruction.fitted, Opcode.widths, Nat.mod_eq_of_lt few]
  | _ slot =>
      simp only [Fits, Limit.bound] at fits
      simp [Referent.load, Instruction.fitted, Opcode.widths, Nat.mod_eq_of_lt fits]

theorem Fits.store {referent : Referent} (fits : referent.Fits) {instruction : Instruction}
    (stores : referent.store? = some instruction) : instruction.fitted = instruction := by
  cases referent with
  | builtin index => cases stores
  | _ slot =>
      cases stores
      simp only [Fits, Limit.bound] at fits
      simp [Instruction.fitted, Opcode.widths, Nat.mod_eq_of_lt fits]

end Referent

/-- Whether an instruction reads or writes what a name refers to. -/
def Instruction.isAccess (instruction : Instruction) : Bool :=
  match instruction.opcode with
  | .getGlobal | .setGlobal | .getLocal | .setLocal | .getBuiltin => true
  | _ => false

/-- What a journal knows of a function, or of the top level. -/
structure Page where
  /-- The names that were bound, the latest first. -/
  log : List String
  /-- The instructions that read and write what names refer to, in their order. -/
  accesses : List Instruction
  deriving DecidableEq, Repr

/-- The page of a function that has ended. -/
structure ClosedPage where
  parameters : Nat
  page : Page
  deriving DecidableEq, Repr

namespace Page

/-- The page on which nothing is written. -/
def blank : Page := ⟨[], []⟩

/-- The slots of the names on a page that has these pages around it. -/
def limit : List Page → Limit
  | [] => .globals
  | _ :: _ => .locals

/-- What the definition with a number refers to, on a page that has these pages around it. -/
def own : List Page → Nat → Referent
  | [] => .global
  | _ :: _ => .frame

/-- What a name refers to that has no definition on the pages inside of these: the last of them
is the top level, and names of the other ones are out of reach. -/
def meaningAround : List Page → Name → Except CompileFault Referent
  | [], name =>
    match Builtin.names.idxOf? name.text with
    | some index => .ok (.builtin index)
    | none => .error (.undefinedName name)
  | [top], name =>
    match latest? top.log name.text with
    | some slot => .ok (.global slot)
    | none => meaningAround [] name
  | page :: next :: pages, name =>
    if name.text ∈ page.log then .error (.capturedLocal name)
    else meaningAround (next :: pages) name

/-- The slots of a page exist, and its instructions are read as they were written. -/
structure Fits (limit : Limit) (page : Page) : Prop where
  slots : page.log.length ≤ limit.bound
  accesses : ∀ access ∈ page.accesses, access.fitted = access

/-- All pages fit, each of them with those behind it around it. -/
def AllFit : List Page → Prop
  | [] => True
  | page :: pages => page.Fits (limit pages) ∧ AllFit pages

theorem fits_blank (limit : Limit) : blank.Fits limit := ⟨Nat.zero_le _, nofun⟩

theorem fits_own {around : List Page} {slot : Nat} (few : slot < (limit around).bound) :
    (own around slot).Fits := by
  cases around <;> exact few

theorem fits_meaningAround {pages : List Page} (fit : AllFit pages) {name : Name}
    {referent : Referent} (means : meaningAround pages name = .ok referent) : referent.Fits := by
  induction pages with
  | nil =>
      rw [meaningAround] at means
      split at means
      case h_1 index found =>
        cases means
        exact (List.idxOf?_eq_some_iff.mp found).1
      case h_2 => cases means
  | cons page pages ih =>
      cases pages with
      | nil =>
          rw [meaningAround] at means
          split at means
          case h_1 slot found =>
            cases means
            exact Nat.lt_of_lt_of_le (latest?_lt found) fit.1.slots
          case h_2 => exact ih trivial means
      | cons next pages =>
          rw [meaningAround] at means
          split at means
          · cases means
          · exact ih fit.2 means

end Page

/-! ## Visits -/

/-- A step of the compiler that has to do with names, or may fail. -/
inductive Visit where
  /-- The value of a name is pushed. -/
  | read (name : Name)
  /-- The target of an assignment is looked up, before the value is computed. -/
  | target (name : Name)
  /-- The value of an assignment goes to its target, and is pushed again. -/
  | store (name : Name)
  | parameter (name : Name)
  /-- A value goes to a name that is bound here. -/
  | bind (name : Name)
  /-- A function literal starts. -/
  | enter
  /-- A function literal ends that has so many parameters. -/
  | leave (parameters : Nat)
  /-- A statement that leaves the function. -/
  | depart (span : Span)
  /-- There has to be room for something else than slots. -/
  | check (limit : Limit) (span : Span)

/-- The visits of a literal. -/
def Literal.visits : Literal → Span → List Visit
  | .boolean _, _ => []
  | _, span => [.check .constants span]

mutual

/-- The visits of an expression. The operands of `<` and `>=` are compiled in the opposite
order. -/
def Expression.visits : Expression → List Visit
  | .literal value span => value.visits span
  | .name identifier => [.read identifier]
  | .unary _ operand _ => operand.visits
  | .binary operator left right _ =>
    if operator.isSwapped then right.visits ++ left.visits else left.visits ++ right.visits
  | .conditional condition consequence none span =>
    condition.visits ++ (consequence.visits ++
      [.check .instructionBytes span, .check .instructionBytes span])
  | .conditional condition consequence (some alternative) span =>
    condition.visits ++ (consequence.visits ++ .check .instructionBytes span ::
      (alternative.visits ++ [.check .instructionBytes span]))
  | .whileLoop condition body span =>
    condition.visits ++ (body.visits ++ [.check .instructionBytes span])
  | .forLoop first condition post body span =>
    first.visits ++ (condition.visits ++ (body.visits ++ (post.visits ++
      [.check .instructionBytes span])))
  | .function parameters body span => body.visitsOfFunction parameters span
  | .call callee arguments span =>
    .check .callArguments span :: (callee.visits ++ Expression.visitsAll arguments)
  | .array elements span => .check .arrayElements span :: Expression.visitsAll elements
  | .index target index _ => target.visits ++ index.visits
  | .assign target value _ => .target target :: (value.visits ++ [.store target])

/-- The visits of expressions, one after another. -/
def Expression.visitsAll : List Expression → List Visit
  | [] => []
  | item :: items => item.visits ++ Expression.visitsAll items

/-- The visits of a binding. A function knows its own name; any other value is computed before
its name is bound. -/
def Binding.visits : Binding → List Visit
  | .mk name (.function parameters body span) _ =>
    .bind name :: body.visitsOfFunction parameters span
  | .mk name value _ => value.visits ++ [.bind name]

/-- The visits of a function literal with this body. -/
def Block.visitsOfFunction : Block → List Name → Span → List Visit
  | .mk body _, parameters, span =>
    .enter :: ((parameters.map Visit.parameter ++ Statement.visitsAll body) ++
      [.leave parameters.length, .check .constants span])

/-- The visits of a block. What it binds is bound in the function around it. -/
def Block.visits : Block → List Visit
  | .mk body _ => Statement.visitsAll body

/-- The visits of a statement. -/
def Statement.visits : Statement → List Visit
  | .bind bound => bound.visits
  | .leave none span => [.depart span]
  | .leave (some value) span => .depart span :: value.visits
  | .expression value _ => value.visits

/-- The visits of statements, one after another. -/
def Statement.visitsAll : List Statement → List Visit
  | [] => []
  | first :: rest => first.visits ++ Statement.visitsAll rest

end

/-- The visits of a program. -/
def Program.visits (program : Program) : List Visit := Statement.visitsAll program.statements

/-! ## The journal -/

/-- What is known at a place of a program about the names that were visited so far. -/
structure Journal where
  /-- The page of the innermost function, or of the top level. -/
  page : Page
  /-- The pages around it, the nearest first; the last one is the top level. -/
  around : List Page
  /-- What the targets refer to whose values are being computed, the innermost first. -/
  targets : List Referent
  /-- The pages of the functions that have ended, in the order in which they did. -/
  closed : List ClosedPage
  deriving DecidableEq, Repr

namespace Journal

/-- The journal at the start of a program. -/
def start : Journal := ⟨.blank, [], [], []⟩

/-- What a name refers to. -/
def meaning (journal : Journal) (name : Name) : Except CompileFault Referent :=
  match latest? journal.page.log name.text with
  | some slot => .ok (Page.own journal.around slot)
  | none => Page.meaningAround journal.around name

/-- Writes down instructions. -/
def note (journal : Journal) (accesses : List Instruction) : Journal :=
  { journal with page := { journal.page with accesses := journal.page.accesses ++ accesses } }

/-- Binds a name to the next slot, and writes down what is done with the slot. -/
def define (journal : Journal) (name : Name) (accesses : Referent → List Instruction) :
    Except CompileFault Journal :=
  let slot := journal.page.log.length
  let limit := Page.limit journal.around
  if slot < limit.bound then
    .ok { journal with page :=
      ⟨name.text :: journal.page.log,
        journal.page.accesses ++ accesses (Page.own journal.around slot)⟩ }
  else .error (.limitExceeded limit name.span)

/-- What a visit changes, or why it is refused. -/
def visit (journal : Journal) : Visit → Except CompileFault Journal
  | .read name => do return journal.note [(← journal.meaning name).load]
  | .target name => do
    return { journal with targets := (← journal.meaning name) :: journal.targets }
  | .store name =>
    match journal.targets with
    | [] => .ok journal
    | referent :: targets =>
      match referent.store? with
      | some instruction =>
        .ok ({ journal with targets }.note [instruction, referent.load])
      | none => .error (.assignToBuiltin name)
  | .parameter name => journal.define name fun _ => []
  | .bind name => journal.define name fun referent => referent.store?.toList
  | .enter => .ok { journal with page := .blank, around := journal.page :: journal.around }
  | .leave parameters =>
    match journal.around with
    | [] => .ok journal
    | page :: around =>
      .ok { journal with page, around, closed := journal.closed ++ [⟨parameters, journal.page⟩] }
  | .depart span => if journal.around = [] then .error (.returnOutsideFunction span) else .ok journal
  | .check _ _ => .ok journal

/-- The journal behind some visits, or why the first of them is refused that is. -/
def run (journal : Journal) : List Visit → Except CompileFault Journal
  | [] => .ok journal
  | visit :: visits => do
    let next ← journal.visit visit
    next.run visits

theorem run_append (first second : List Visit) (journal : Journal) :
    journal.run (first ++ second) = journal.run first >>= fun middle => middle.run second := by
  induction first generalizing journal with
  | nil => rfl
  | cons visit first ih =>
      simp only [List.cons_append, run]
      cases journal.visit visit with
      | error fault => rfl
      | ok next => exact ih next

theorem run_append_of_ok {first second : List Visit} {journal middle : Journal}
    (ran : journal.run first = .ok middle) :
    journal.run (first ++ second) = middle.run second := by
  rw [run_append, ran]
  rfl

theorem run_cons_of_ok {visit : Visit} {visits : List Visit} {journal middle : Journal}
    (visited : journal.visit visit = .ok middle) :
    journal.run (visit :: visits) = middle.run visits := by
  rw [run, visited]
  rfl

/-- The compiler may refuse a visit with a fault: for a check if there is no room, for any other
visit only if the journal refuses it. -/
def Refuses (journal : Journal) (fault : CompileFault) : Visit → Prop
  | .check limit span => fault = .limitExceeded limit span
  | visit => journal.visit visit = .error fault

/-- The journal comes to a visit that is refused with a fault. -/
def Stops (journal : Journal) (visits : List Visit) (fault : CompileFault) : Prop :=
  ∃ before visit after reached, visits = before ++ visit :: after ∧
    journal.run before = .ok reached ∧ reached.Refuses fault visit

namespace Stops

variable {journal middle : Journal} {first second : List Visit} {fault : CompileFault}

/-- The journal refuses the first visit. -/
theorem refused {visit : Visit} (refused : journal.visit visit = .error fault)
    (visits : List Visit) : journal.Stops (visit :: visits) fault := by
  refine ⟨[], visit, visits, journal, rfl, rfl, ?_⟩
  cases visit with
  | check limit span => cases refused
  | _ => exact refused

/-- There is no room for what the first visit is about. -/
theorem check (limit : Limit) (span : Span) (visits : List Visit) :
    journal.Stops (.check limit span :: visits) (.limitExceeded limit span) :=
  ⟨[], .check limit span, visits, journal, rfl, rfl, rfl⟩

theorem cons {visit : Visit} {visits : List Visit} (visited : journal.visit visit = .ok middle)
    (stops : middle.Stops visits fault) : journal.Stops (visit :: visits) fault := by
  obtain ⟨before, last, after, reached, rfl, ran, refuses⟩ := stops
  exact ⟨visit :: before, last, after, reached, rfl, (run_cons_of_ok visited).trans ran, refuses⟩

theorem append (stops : journal.Stops first fault) (second : List Visit) :
    journal.Stops (first ++ second) fault := by
  obtain ⟨before, visit, after, reached, rfl, ran, refuses⟩ := stops
  exact ⟨before, visit, after ++ second, reached, by simp, ran, refuses⟩

theorem behind (ran : journal.run first = .ok middle) (stops : middle.Stops second fault) :
    journal.Stops (first ++ second) fault := by
  obtain ⟨before, visit, after, reached, rfl, reran, refuses⟩ := stops
  refine ⟨first ++ before, visit, after, reached, by simp, ?_, refuses⟩
  rw [run_append_of_ok ran, reran]

end Stops

/-! ## Operands keep their bits -/

/-- No operand of the instructions of a journal loses bits. -/
structure Fits (journal : Journal) : Prop where
  pages : Page.AllFit (journal.page :: journal.around)
  targets : ∀ referent ∈ journal.targets, referent.Fits
  closed : ∀ ended ∈ journal.closed, ended.page.Fits .locals

theorem fits_start : start.Fits := ⟨⟨Page.fits_blank _, trivial⟩, nofun, nofun⟩

namespace Fits

variable {journal next : Journal}

theorem meaning (fits : journal.Fits) {name : Name} {referent : Referent}
    (means : journal.meaning name = .ok referent) : referent.Fits := by
  rw [Journal.meaning] at means
  split at means
  case h_1 slot found =>
    cases means
    exact Page.fits_own (Nat.lt_of_lt_of_le (latest?_lt found) fits.pages.1.slots)
  case h_2 => exact Page.fits_meaningAround fits.pages.2 means

theorem note (fits : journal.Fits) {accesses : List Instruction}
    (fitted : ∀ access ∈ accesses, access.fitted = access) : (journal.note accesses).Fits where
  pages := by
    refine ⟨⟨fits.pages.1.slots, fun access member => ?_⟩, fits.pages.2⟩
    rcases List.mem_append.mp member with member | member
    · exact fits.pages.1.accesses access member
    · exact fitted access member
  targets := fits.targets
  closed := fits.closed

theorem define (fits : journal.Fits) {name : Name} {accesses : Referent → List Instruction}
    (fitted : ∀ referent : Referent, referent.Fits →
      ∀ access ∈ accesses referent, access.fitted = access)
    (defined : journal.define name accesses = .ok next) : next.Fits := by
  rw [Journal.define] at defined
  split at defined
  case isTrue few =>
    cases defined
    have noted := fits.note (fitted _ (Page.fits_own few))
    exact ⟨⟨⟨few, noted.pages.1.accesses⟩, fits.pages.2⟩, fits.targets, fits.closed⟩
  case isFalse => cases defined

theorem enter (fits : journal.Fits) :
    Fits { journal with page := .blank, around := journal.page :: journal.around } :=
  ⟨⟨Page.fits_blank _, fits.pages⟩, fits.targets, fits.closed⟩

theorem leave (fits : journal.Fits) {page : Page} {around : List Page}
    (inside : journal.around = page :: around) (parameters : Nat) :
    Fits { journal with page, around, closed := journal.closed ++ [⟨parameters, journal.page⟩] } := by
  obtain ⟨own, outer⟩ := fits.pages
  rw [inside] at own outer
  refine ⟨outer, fits.targets, fun ended member => ?_⟩
  rcases List.mem_append.mp member with member | member
  · exact fits.closed ended member
  · obtain rfl := List.mem_singleton.mp member
    exact own

theorem store (fits : journal.Fits) {referent : Referent} {targets : List Referent}
    {instruction : Instruction} (pending : journal.targets = referent :: targets)
    (stores : referent.store? = some instruction) :
    ({ journal with targets }.note [instruction, referent.load]).Fits := by
  have few : ∀ other ∈ referent :: targets, other.Fits := pending ▸ fits.targets
  have room := few referent List.mem_cons_self
  have popped : Fits { journal with targets } :=
    ⟨fits.pages, fun other member => few other (List.mem_cons_of_mem _ member), fits.closed⟩
  refine popped.note fun access member => ?_
  simp only [List.mem_cons, List.not_mem_nil, or_false] at member
  rcases member with rfl | rfl
  · exact room.store stores
  · exact room.load

/-- What a visit leaves of a journal that fits does fit. -/
theorem visit (fits : journal.Fits) {visit : Visit} (visited : journal.visit visit = .ok next) :
    next.Fits := by
  cases visit with
  | read name =>
      obtain ⟨referent, means, ⟨⟩⟩ := Failing.bind_eq_ok.mp visited
      refine fits.note fun access member => ?_
      obtain rfl := List.mem_singleton.mp member
      exact (fits.meaning means).load
  | target name =>
      obtain ⟨referent, means, ⟨⟩⟩ := Failing.bind_eq_ok.mp visited
      refine ⟨fits.pages, fun other member => ?_, fits.closed⟩
      rcases List.mem_cons.mp member with rfl | member
      · exact fits.meaning means
      · exact fits.targets other member
  | store name =>
      rw [Journal.visit] at visited
      split at visited
      case h_1 =>
        cases visited
        exact fits
      case h_2 referent targets pending =>
        split at visited
        case h_1 instruction stores =>
          cases visited
          exact fits.store pending stores
        case h_2 => cases visited
  | parameter name =>
      rw [Journal.visit] at visited
      exact fits.define (fun _ _ _ member => absurd member List.not_mem_nil) visited
  | bind name =>
      rw [Journal.visit] at visited
      refine fits.define (fun referent room access member => ?_) visited
      exact room.store (Option.mem_toList.mp member)
  | enter =>
      cases visited
      exact fits.enter
  | leave parameters =>
      rw [Journal.visit] at visited
      split at visited
      case h_1 =>
        cases visited
        exact fits
      case h_2 page around inside =>
        cases visited
        exact fits.leave inside parameters
  | depart span =>
      rw [Journal.visit] at visited
      split at visited
      · cases visited
      · cases visited
        exact fits
  | check limit span =>
      cases visited
      exact fits

/-- What a run leaves of a journal that fits does fit. -/
theorem run (fits : journal.Fits) {visits : List Visit} (ran : journal.run visits = .ok next) :
    next.Fits := by
  induction visits generalizing journal with
  | nil =>
      cases ran
      exact fits
  | cons visit visits ih =>
      obtain ⟨middle, visited, rest⟩ := Failing.bind_eq_ok.mp ran
      exact ih (fits.visit visited) rest

end Fits

end Journal

end MonkeyLang
