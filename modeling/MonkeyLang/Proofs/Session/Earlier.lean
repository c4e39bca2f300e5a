import MonkeyLang.Proofs.Machine.Pools
import MonkeyLang.Proofs.Session.Calls

/-!
# Earlier functions stay valid

A session only ever adds to its constants, whatever becomes of an input: one that is rejected may
leave constants behind that nothing uses, and no input takes any away (`Session.Leads.within`). A
function that a global slot holds, however deep inside of an array, was compiled with the constants
that there were, and so were all functions among them, be it that they call each other through the
constants or through global slots. So later inputs make no difference to a call of such a function
(`Session.Reachable.keeps_functions`).
-/

set_option autoImplicit false

namespace MonkeyLang

/-- To have all constants of a pool with the same indices is to begin with them. -/
theorem Within.begins {few many : Array Value} (within : Within few many) :
    few.toList <+: many.toList := by
  rw [List.prefix_iff_getElem?]
  intro index inside
  rw [Array.getElem?_toList]
  exact within index _ (Array.getElem?_eq_getElem inside)

/-- The constants of a function are among those that it was compiled with. -/
theorem Linked.covered {routines : Nat → Routine} {constants : Array Value}
    (linked : Linked routines constants) {body : Function} (member : .function body ∈ constants) :
    body.code.Covered constants.size := by
  obtain ⟨number, comes⟩ := linked.comes member
  exact ⟨_, comes.formed.code, Nat.le_refl _⟩

namespace Session

/-- The second session is the first one after some more inputs. -/
inductive Leads (first : Session) : Session → Prop where
  | refl : Leads first first
  | evaluate {last : Session} (leads : Leads first last) (steps : Nat) (source : List Char) :
      Leads first (last.evaluate steps source).2

variable {session later : Session} {limits : Limits}

/-- A program adds constants, whether it is compiled or not. -/
theorem Sound.within_execute (sound : session.Sound) (steps : Nat) (program : Program) :
    Within session.constants (session.execute steps program).2.constants := by
  have grows := (sound.survives program).2.constants
  match made : session.compiler.compile program with
  | (.error fault, next) =>
      rw [made] at grows
      rw [execute_of_error made]
      exact grows
  | (.ok compiled, next) =>
      rw [made] at grows
      rw [execute_of_ok made]
      exact grows

theorem Leads.reachable (leads : session.Leads later) (reachable : Reachable limits session) :
    Reachable limits later := by
  induction leads with
  | refl => exact reachable
  | evaluate _ steps source ih => exact ih.evaluate steps source

/-- No input takes a constant away or changes its index. -/
theorem Leads.within (leads : session.Leads later) (reachable : Reachable limits session) :
    Within session.constants later.constants := by
  induction leads with
  | refl => exact .refl _
  | @evaluate last leads steps source ih =>
      rcases evaluate_cases last steps source with same | ⟨program, -, same⟩
      · rw [same]
        exact ih
      · rw [same]
        exact ih.trans ((leads.reachable reachable).sound.within_execute steps program)

/-- **Functions stay valid.** Behind any further inputs the constants of a session begin with those
from before. With either, a function inside of what a global slot held before answers the same to
the same arguments, with the same contents of the global slots and the same limits, as long as the
functions in these were constants before. -/
theorem Reachable.keeps_functions (reachable : Reachable limits session)
    (leads : session.Leads later) :
    session.constants.toList <+: later.constants.toList ∧
      ∀ value ∈ session.globals, value.All fun body =>
        ∀ (limits : Limits) (globals : Globals) (arguments : List Value),
          (∀ held ∈ globals, held.All fun other => .function other ∈ session.constants) →
          (∀ given ∈ arguments, given.All fun other => .function other ∈ session.constants) →
          ∀ steps, body.answer later.constants limits globals arguments steps =
            body.answer session.constants limits globals arguments steps := by
  have sound := reachable.sound
  have within := leads.within reachable
  obtain ⟨routines, linked⟩ := sound.linked
  have covered : ∀ value : Value,
      (value.All fun other => .function other ∈ session.constants) →
        value.All fun other => other.code.Covered session.constants.size :=
    fun _ => Value.All.mono fun _ => linked.covered
  have genuine : ∀ value : Value, value.Genuine session.constants →
      value.All fun other => .function other ∈ session.constants :=
    fun _ => Value.All.mono fun _ => Array.mem_of_getElem?
  have constants : ∀ value ∈ session.constants,
      value.All fun other => other.code.Covered session.constants.size := by
    intro value member
    obtain ⟨index, found⟩ := Array.mem_iff_getElem?.mp member
    exact covered value (genuine value (linked.genuine index value found))
  refine ⟨within.begins, fun value member => ?_⟩
  refine Value.All.mono (fun body known => ?_) (genuine value (sound.globals value member))
  intro limits globals arguments held given steps
  exact Function.answer_eq within constants (fun other inside => covered other (held other inside))
    (fun other inside => covered other (given other inside)) (linked.covered known) limits steps

/-- A function that adds a constant, and one that calls its argument and adds another. -/
def adding : List Char := "var up = func(n) { n + 20 }; var twice = func(f, n) { f(f(n)) + 3 };".toList

/-- The session behind these definitions. -/
def begun : Session := ((new ⟨9, 4, 4⟩).evaluate 9 adding).2

/-- The session behind an input that is no program, one with a name that means nothing, which
leaves a constant behind, one that ends in a fault, and one that hides the first function. -/
def continued : Session :=
  let after (session : Session) (source : String) := (session.evaluate 9 source.toList).2
  after (after (after (after begun ")") "5; missing") "var k = 6; k()") "var up = 7;"

/-- The function that a global slot holds after the definitions. -/
def functionIn? (slot : Nat) : Option Function :=
  match begun.globals[slot]? with
  | some (.function body) => some body
  | _ => none

theorem mem_of_functionIn? {slot : Nat} {body : Function} (holds : functionIn? slot = some body) :
    .function body ∈ begun.globals := by
  -- The unapplied name is unfolded, since an applied one has the session evaluated.
  generalize unfolded : functionIn? = lookup at holds
  delta functionIn? at unfolded
  subst unfolded
  dsimp only at holds
  generalize begun.globals = globals at holds ⊢
  split at holds
  · next found =>
      cases holds
      exact Array.mem_of_getElem? found
  · cases holds

/-- The first function. -/
def up : Function := (functionIn? 0).getD .idle

/-- The second function. -/
def twice : Function := (functionIn? 1).getD .idle

/-- In the later session, which has three more constants, the second function still adds the old
ones, also those of the function that it is given. -/
theorem keeps_functions_adding :
    begun.Leads continued ∧ begun.constants.size + 3 = continued.constants.size ∧
      (∀ steps,
        twice.answer continued.constants ⟨9, 4, 4⟩ begun.globals [.function up, .integer 1] steps =
          twice.answer begun.constants ⟨9, 4, 4⟩ begun.globals [.function up, .integer 1] steps) ∧
      ((twice.answer continued.constants ⟨9, 4, 4⟩ begun.globals [.function up, .integer 1]
        40).result.bind Except.toOption).join.map Value.text = some "44" := by
  have reachable : Reachable ⟨9, 4, 4⟩ begun := .evaluate .new 9 adding
  have leads : begun.Leads continued :=
    .evaluate (.evaluate (.evaluate (.evaluate .refl _ _) _ _) _ _) _ _
  -- The inputs are evaluated once for all that is asked of them.
  have seen : (functionIn? 0).isSome = true ∧ (functionIn? 1).isSome = true ∧
      begun.constants.size + 3 = continued.constants.size ∧
      ((twice.answer continued.constants ⟨9, 4, 4⟩ begun.globals [.function up, .integer 1]
        40).result.bind Except.toOption).join.map Value.text = some "44" := by decide +kernel
  obtain ⟨first, second, more, sum⟩ := seen
  obtain ⟨body, holds⟩ := Option.isSome_iff_exists.mp first
  obtain ⟨other, holdsToo⟩ := Option.isSome_iff_exists.mp second
  have here : .function up ∈ begun.globals := by
    rw [up, holds]
    exact mem_of_functionIn? holds
  have there : .function twice ∈ begun.globals := by
    rw [twice, holdsToo]
    exact mem_of_functionIn? holdsToo
  have shared : ∀ held ∈ begun.globals,
      held.All fun other => .function other ∈ begun.constants := fun held member =>
    Value.All.mono (fun _ => Array.mem_of_getElem?) (reachable.sound.globals held member)
  have given : ∀ given ∈ [Value.function up, .integer 1],
      given.All fun other => .function other ∈ begun.constants := by
    intro value member
    rcases List.mem_cons.mp member with rfl | member
    · exact shared _ here
    · obtain rfl := List.mem_singleton.mp member
      trivial
  have same := (reachable.keeps_functions leads).2 _ there ⟨9, 4, 4⟩ begun.globals _ shared given
  exact ⟨leads, more, same, sum⟩

end Session

end MonkeyLang
