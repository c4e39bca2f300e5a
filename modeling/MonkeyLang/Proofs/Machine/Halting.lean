import MonkeyLang.Proofs.Machine.Overrunning
import MonkeyLang.Proofs.Machine.Tracked
import MonkeyLang.Proofs.Session.Safety

/-!
# Programs without loops halt

A call that never jumps back runs towards the end of its stream: with every step it has fewer
bytes before it (`Frame.ahead`). The calls that it makes in between may be calls of the same
function, but each of them leaves room for one call less. So by induction on that room, and for
each depth on the bytes that the innermost call has before it, every call is left sooner or later
or the run ends on the way (`Machine.Tracked.settles`). No call is around the program itself, so
its run ends.

What the compiler makes of a program without loops never jumps back, so the run of such a program
ends whatever functions call each other in it (`Compiler.compile_halts`).
-/

set_option autoImplicit false

namespace MonkeyLang

/-- How many bytes of its stream a call has before it. -/
def Frame.ahead (frame : Frame) : Nat := frame.code.size - frame.position

namespace Machine

/-- The innermost call is left, if the run does not end before. -/
def Settles (machine : Machine) : Prop :=
  (∃ count fault last, Finishes count machine fault last) ∨
    ∃ count next, Reaches count machine next ∧ machine.callers = next.callers.push next.frame

/-- No step changes how many calls there may be. -/
theorem Reaches.maxFrames {count : Nat} {machine next : Machine}
    (reaches : Reaches count machine next) : next.maxFrames = machine.maxFrames := by
  induction reaches with
  | refl => rfl
  | step stepped _ ih => exact ih.trans (Operation.step_moves stepped).2

/-- Steps in front of a run that end in the same call. -/
theorem Reaches.settles {count : Nat} {machine next : Machine}
    (reaches : Reaches count machine next)
    (callers : next.callers = machine.callers) (settles : next.Settles) : machine.Settles := by
  rcases settles with ⟨more, fault, last, middle, goes, ended⟩ | ⟨more, back, goes, left⟩
  · exact .inl ⟨count + more, fault, last, middle, reaches.trans goes, ended⟩
  · exact .inr ⟨count + more, back, reaches.trans goes, callers.symm.trans left⟩

namespace Tracked

variable {good : Code → Prop} {machine next : Machine}
  (sound : ∀ code, good code → ∃ stock, code.WellFormed stock)
  (forward : ∀ code, good code → code.Forward)

include sound forward

/-- An instruction takes the innermost call forward. -/
theorem ahead_lt (tracked : machine.Tracked good) {opcode : Opcode} {operand behind position : Nat}
    (fetched : machine.frame.fetch = .instruction opcode operand behind)
    (place : position = behind ∨ position = operand ∧ (opcode = .jump ∨ opcode = .jumpNotTruthy)) :
    ({ machine.frame with position } : Frame).ahead < machine.frame.ahead := by
  obtain ⟨stream, visits⟩ := tracked.innermost
  obtain ⟨stock, formed⟩ := sound _ stream
  obtain ⟨operands, width, found, rfl, admits⟩ := formed.fetched visits fetched
  have below : machine.frame.position < machine.frame.code.size := by
    refine Nat.lt_of_not_le fun beyond => ?_
    rw [Frame.fetch, Array.getElem?_eq_none beyond] at fetched
    cases fetched
  have further : machine.frame.position < position := by
    rcases place with rfl | ⟨rfl, leads⟩
    · exact Nat.lt_add_of_pos_right (Code.width_pos_of_decode found)
    · rcases leads with rfl | rfl <;>
        · rcases admits with none | ⟨rfl, -⟩
          · cases none
          · exact forward _ stream _ _ _ _ visits found rfl
  unfold Frame.ahead
  dsimp only
  omega

/-- Every call is left, if the run does not end before. -/
theorem settles (room bytes : Nat) (tracked : machine.Tracked good)
    (few : machine.Knows fun body => body.locals ≤ Limit.locals.bound)
    (shallow : machine.maxFrames ≤ machine.depth + room) (near : machine.frame.ahead ≤ bytes) :
    machine.Settles := by
  induction room using Nat.strongRecOn generalizing machine bytes with
  | ind room deeper =>
  induction bytes using Nat.strongRecOn generalizing machine with
  | ind bytes closer =>
  cases stepped : Operation.step machine with
  | error fault last => exact .inl ⟨0, some fault, last, machine, .refl machine, stepped⟩
  | ok progress next =>
  cases progress with
  | ends => exact .inl ⟨0, none, next, machine, .refl machine, stepped⟩
  | crashes => exact absurd stepped (Operation.step_ne_crashes few)
  | goesOn =>
  obtain ⟨moves, limit⟩ := Operation.step_moves stepped
  have going := tracked.step sound stepped
  have still := ((Reaches.single stepped).kept few).1
  cases moves with
  | onward fetched place frame callers =>
      have less := tracked.ahead_lt sound forward fetched place
      rw [← frame] at less
      have depth : next.depth = machine.depth := congrArg (·.size + 1) callers
      refine (Reaches.single stepped).settles callers ?_
      exact closer _ (Nat.lt_of_lt_of_le less near) going still (by rwa [limit, depth])
        (Nat.le_refl _)
  | @enters operand behind base body fetched free known frame callers =>
      have depth : next.depth = machine.depth + 1 := by
        rw [depth, callers, Array.size_push, Machine.depth]
      -- The call leaves room for one call less, so it is left, and then bytes have been read.
      have inner : next.Settles := by
        refine deeper (room - 1) ?_ next.frame.ahead going still ?_ (Nat.le_refl _) <;> omega
      rcases inner with ⟨count, fault, last, middle, goes, ended⟩ | ⟨count, back, goes, left⟩
      · exact .inl ⟨count + 1, fault, last, middle, .step stepped goes, ended⟩
      · obtain ⟨returned, others⟩ := Array.push_eq_push.mp (callers.symm.trans left)
        have reaches := Reaches.step stepped goes
        have less := tracked.ahead_lt sound forward fetched (.inl rfl)
        rw [returned] at less
        have same : back.depth = machine.depth := congrArg (·.size + 1) others.symm
        refine reaches.settles others.symm ?_
        have tracked := tracked.reaches sound reaches
        refine closer _ (Nat.lt_of_lt_of_le less near) tracked (reaches.kept few).1 ?_
          (Nat.le_refl _)
        rwa [reaches.maxFrames, same]
  | leaves callers => exact .inr ⟨1, next, .single stepped, callers⟩

/-- A program whose functions never jump back comes to an end. -/
theorem finishes (tracked : machine.Tracked good)
    (few : machine.Knows fun body => body.locals ≤ Limit.locals.bound) (outermost : machine.callers = #[]) :
    ∃ count fault last, Finishes count machine fault last := by
  have shallow : machine.maxFrames ≤ machine.depth + machine.maxFrames := Nat.le_add_left _ _
  rcases tracked.settles sound forward _ _ few shallow (Nat.le_refl _) with ended | ⟨-, next, -, left⟩
  · exact ended
  · rw [outermost] at left
    exact (Array.push_ne_empty left.symm).elim

end Tracked

end Machine

namespace Compiler

/-- **Programs without loops halt.** If a program without loops compiles, then its run ends after
some number of steps, at its end or with a fault, however small or large the limits are, and no
further steps make a difference. -/
theorem compile_halts {program : Program} {compiled : CompiledProgram} {next : Compiler}
    (accepted : new.compile program = (.ok compiled, next))
    (free : Statement.haveLoop program.statements = false) (limits : Limits) :
    ∃ steps outcome machine, ∀ more,
      (Machine.load compiled limits (.ofSize limits.globalsSize)).run (steps + more) =
        (some outcome, machine) := by
  have linked := linked_of_compile accepted
  have again : History.new.compiler.compile program = (.ok compiled, next) := accepted
  have formed := History.wellFormed (reads_new fun _ => .idle) linked again
  obtain ⟨own, functions⟩ := forward_of_compile accepted free
  have blank : ∀ value ∈ Globals.ofSize limits.globalsSize, value.Genuine compiled.constants := by
    intro value member
    obtain rfl := Array.eq_of_mem_replicate member
    trivial
  have known := @Session.knows_loaded _ _ limits _ linked blank
  have tracked : (Machine.loaded compiled limits (.ofSize limits.globalsSize)).Tracked
      fun code => (∃ stock, code.WellFormed stock) ∧ code.Forward :=
    Machine.tracked_loaded ⟨⟨_, formed.code⟩, own⟩
      (fun body member => ⟨⟨_, (formed.functions body member).code⟩, functions body member⟩)
      known
  have few := known.mono fun body found => (linked.compiledAt found).few
  obtain ⟨count, fault, last, finishes⟩ :=
    tracked.finishes (fun _ => And.left) (fun _ => And.right) few rfl
  refine ⟨count + 1, fault.elim (.ok ()) .error, { last with status := .halted fault }, ?_⟩
  intro more
  rw [Machine.run_load, finishes.advance_of_lt (by omega)]
  cases fault <;> rfl

/-- The program `var chase = fn(x) { chase(x); }; chase(1);`, with spans left out. -/
def chasing : Program :=
  let meant (text : String) : Expression := .name ⟨text, .dummy⟩
  let body : List Statement := [.expression (.call (meant "chase") [meant "x"] .dummy) .dummy]
  ⟨[.bind (.mk ⟨"chase", .dummy⟩ (.function [⟨"x", .dummy⟩] (.mk body .dummy) .dummy) .dummy),
    .expression (.call (meant "chase") [.literal (.integer 1) .dummy] .dummy) .dummy]⟩

/-- A function that calls itself without end reaches a limit. -/
theorem compile_halts_chasing : ∃ compiled next, new.compile chasing = (.ok compiled, next) ∧
    Statement.haveLoop chasing.statements = false ∧
    ∃ steps outcome machine, ∀ more,
      (Machine.load compiled .default (.ofSize Limits.default.globalsSize)).run (steps + more) =
        (some outcome, machine) := by
  have free : Statement.haveLoop chasing.statements = false := by decide
  exact ⟨_, _, rfl, free, compile_halts rfl free .default⟩

end Compiler

end MonkeyLang
