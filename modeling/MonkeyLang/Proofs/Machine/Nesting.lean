import MonkeyLang.Proofs.Machine.Effects
import MonkeyLang.Proofs.Machine.Tracked

/-!
# Calls inside of a call

While a function that was called is going on, calls may start inside of it and end again. All of
them have their slots above those of the function, and each of them rests at the height that its
stream tells, so that what it takes from the stack is its own (`Nesting`). Nothing below the
slots of the function changes until the function itself is left, and then only the slot of what was
called does (`Nesting.step`, `Nesting.returns`).
-/

set_option autoImplicit false

namespace MonkeyLang

/-- A stream that is well formed and balanced. -/
def Code.Orderly (code : Code) : Prop :=
  (∃ stock, code.WellFormed stock) ∧ ∃ level, code.Balanced level

/-- The stack is as high as the stream of the call says for the place where the call goes on. -/
def Frame.Rests (frame : Frame) (height : Nat) : Prop :=
  ∃ level, frame.code.Balanced level ∧ height = frame.base + frame.locals + level frame.position

/-- The innermost call, with the height of the stack, and the calls around it, are going on inside
of a call whose slots start at a base and which has some calls around it. A call that waits for one
inside of it rests at the height at which that one ends. -/
inductive Nesting (outer : Array Frame) (base : Nat) : Array Frame → Frame → Nat → Prop where
  | own {frame : Frame} {height : Nat} (start : frame.base = base) (rests : frame.Rests height) :
      Nesting outer base outer frame height
  | nested {callers : Array Frame} {caller frame : Frame} {height : Nat}
      (around : Nesting outer base callers caller frame.base)
      (above : caller.base + caller.locals < frame.base) (rests : frame.Rests height) :
      Nesting outer base (callers.push caller) frame height

namespace Nesting

variable {outer callers : Array Frame} {base height : Nat} {frame : Frame}

theorem rests (nesting : Nesting outer base callers frame height) : frame.Rests height := by
  cases nesting with
  | own _ rests => exact rests
  | nested _ _ rests => exact rests

theorem base_le (nesting : Nesting outer base callers frame height) : base ≤ frame.base := by
  induction nesting with
  | own start _ => exact Nat.le_of_eq start.symm
  | nested _ above _ ih => omega

theorem size_le (nesting : Nesting outer base callers frame height) :
    outer.size ≤ callers.size := by
  induction nesting with
  | own => exact Nat.le_refl _
  | nested _ _ _ ih =>
      rw [Array.size_push]
      exact Nat.le_succ_of_le ih

/-- The innermost call goes on at another place and another height. -/
theorem onward (nesting : Nesting outer base callers frame height) {other : Frame}
    {level : Nat} (same : other.base = frame.base) (rests : other.Rests level) :
    Nesting outer base callers other level := by
  cases nesting with
  | own start _ => exact .own (same.trans start) rests
  | nested around above _ => exact .nested (same ▸ around) (same ▸ above) rests

/-- When the innermost call is left, either that was the whole call, or it is still going on. -/
theorem leave {rest : Array Frame} {caller : Frame}
    (nesting : Nesting outer base callers frame height) (called : callers = rest.push caller) :
    outer = rest.push caller ∧ frame.base = base ∨
      Nesting outer base rest caller frame.base ∧ base < frame.base := by
  cases nesting with
  | own start _ => exact .inl ⟨called, start⟩
  | nested around above _ =>
      obtain ⟨rfl, rfl⟩ := Array.push_eq_push.mp called
      have low := around.base_le
      exact .inr ⟨around, by omega⟩

end Nesting

/-- The innermost call of a machine goes on at a height that its stream has for the place. -/
theorem Frame.Rests.onward {machine next : Machine} (rests : machine.frame.Rests machine.height)
    (visits : machine.frame.code.Visits machine.frame.position) {opcode : Opcode}
    {operand behind position : Nat}
    (fetched : machine.frame.fetch = .instruction opcode operand behind)
    (place : position = behind ∧ opcode.Continues ∨ position = operand ∧ opcode.Jumps)
    (shifts : machine.Shifts (opcode.takes operand) opcode.puts next) :
    ({ machine.frame with position } : Frame).Rests next.height ∧
      machine.frame.base + machine.frame.locals ≤ machine.height - opcode.takes operand := by
  obtain ⟨level, balanced, height⟩ := rests
  have steps := balanced.steps machine.frame rfl visits opcode operand behind fetched
  have enough := steps.enough
  have goes : level position =
      level machine.frame.position - opcode.takes operand + opcode.puts := by
    rcases place with ⟨rfl, continues⟩ | ⟨rfl, jumps⟩
    · exact steps.onward continues
    · exact steps.lands jumps
  refine ⟨⟨level, balanced, ?_⟩, by omega⟩
  show next.height = machine.frame.base + machine.frame.locals + level position
  rw [shifts.height, goes, height]
  omega

/-- A call waits at the height at which the call inside of it ends: its own values without the
arguments and what was called, and the result. -/
theorem Frame.Rests.waits {frame : Frame} {height operand behind : Nat} (rests : frame.Rests height)
    (visits : frame.code.Visits frame.position)
    (fetched : frame.fetch = .instruction .call operand behind) :
    ({ frame with position := behind } : Frame).Rests (height - operand) ∧
      frame.base + frame.locals < height - operand := by
  obtain ⟨level, balanced, rfl⟩ := rests
  have steps := balanced.steps frame rfl visits _ operand behind fetched
  have enough : operand + 1 ≤ level frame.position := steps.enough
  have goes : level behind = level frame.position - (operand + 1) + 1 := steps.onward trivial
  refine ⟨⟨level, balanced, ?_⟩, by omega⟩
  show _ = frame.base + frame.locals + level behind
  rw [goes]
  omega

/-- A call starts with nothing but its slots. -/
theorem Frame.Rests.starts {body : Function} (orderly : body.code.Orderly) (base : Nat) :
    ({ code := body.code, position := 0, base, locals := body.locals } : Frame).Rests
      (base + body.locals) := by
  obtain ⟨-, level, balanced⟩ := orderly
  refine ⟨level, balanced, ?_⟩
  show _ = base + body.locals + level 0
  rw [balanced.start, Nat.add_zero]

/-- The stack has room for its height. -/
theorem Machine.Reaches.fits {count : Nat} {machine next : Machine}
    (reaches : Reaches count machine next) (fits : machine.height ≤ machine.stack.size) :
    next.height ≤ next.stack.size := by
  induction reaches with
  | refl => exact fits
  | step stepped _ ih => exact ih ((Operation.step_effect fits stepped).fits fits)

namespace Nesting

variable {outer : Array Frame} {base : Nat} {machine next : Machine}

/-- What the last step of a call does. -/
structure Ends (outer : Array Frame) (base : Nat) (machine next : Machine) (value : Value) :
    Prop where
  returns : machine.Returns value
  callers : outer = next.callers.push next.frame
  height : next.height = base - 1 + 1
  result : next.stack[base - 1]? = some value
  others : ∀ index, index ≠ base - 1 → next.stack[index]? = machine.stack[index]?

/-- One step inside of a call leaves what is below the slots of the call as it is, or the call
ends. -/
theorem step (nesting : Nesting outer base machine.callers machine.frame machine.height)
    (tracked : machine.Tracked Code.Orderly) (fits : machine.height ≤ machine.stack.size)
    (stepped : Operation.step machine = .ok .goesOn next) :
    (Nesting outer base next.callers next.frame next.height ∧
        ∀ index < base, next.stack[index]? = machine.stack[index]?) ∨
      ∃ value, Ends outer base machine next value := by
  have low := nesting.base_le
  have visits := tracked.innermost.visits
  cases Operation.step_effect fits stepped with
  | onward fetched place frame callers shifts =>
      obtain ⟨rests, above⟩ := nesting.rests.onward visits fetched place shifts
      refine .inl ⟨?_, fun index below => shifts.below index (by omega) (by omega)⟩
      rw [callers, frame]
      exact nesting.onward rfl rests
  | @enters operand behind body fetched enough callee frame callers height _ below =>
      obtain ⟨rests, above⟩ := nesting.rests.waits visits fetched
      have orderly : body.code.Orderly := by
        have stream := (tracked.step (fun _ => And.left) stepped).innermost.stream
        rwa [frame] at stream
      refine .inl ⟨?_, fun index lower => below index (by omega)⟩
      rw [callers, frame, height]
      exact .nested (nesting.onward rfl rests) above (.starts orderly _)
  | @leaves value returns callers height result others =>
      rcases nesting.leave callers with ⟨outermost, start⟩ | ⟨around, above⟩
      · rw [start] at height result others
        exact .inr ⟨value, returns, outermost, height, result, others⟩
      · refine .inl ⟨?_, fun index lower => others index (by omega)⟩
        rw [height, Nat.sub_add_cancel (by omega)]
        exact around

/-- A run inside of a call that comes back to the calls around it does so with its last step, and
leaves everything below what was called as it was. -/
theorem returns {count : Nat}
    (nesting : Nesting outer base machine.callers machine.frame machine.height)
    (tracked : machine.Tracked Code.Orderly) (fits : machine.height ≤ machine.stack.size)
    (reaches : Machine.Reaches count machine next)
    (deeper : ∀ fewer between, fewer < count → Machine.Reaches fewer machine between →
      outer.size ≤ between.callers.size)
    (back : next.callers.size < outer.size) :
    ∃ fewer last value, count = fewer + 1 ∧ Machine.Reaches fewer machine last ∧
      Ends outer base last next value ∧
        ∀ index < base, last.stack[index]? = machine.stack[index]? := by
  induction reaches with
  | refl => exact absurd nesting.size_le (Nat.not_le_of_lt back)
  | @step count machine second next stepped rest ih =>
      rcases nesting.step tracked fits stepped with ⟨inside, same⟩ | ⟨value, ends⟩
      · obtain ⟨fewer, last, value, rfl, reached, ends, kept⟩ :=
          ih inside (tracked.step (fun _ => And.left) stepped)
            ((Operation.step_effect fits stepped).fits fits)
            (fun fewer between less reached =>
              deeper (fewer + 1) between (Nat.succ_lt_succ less) (.step stepped reached)) back
        exact ⟨fewer + 1, last, value, rfl, .step stepped reached, ends,
          fun index low => (kept index low).trans (same index low)⟩
      · cases rest with
        | refl => exact ⟨0, machine, value, rfl, .refl machine, ends, fun _ _ => rfl⟩
        | step again later =>
            have many := deeper 1 second (by omega) (.single stepped)
            rw [ends.callers, Array.size_push] at many
            exact absurd many (Nat.not_succ_le_self _)

end Nesting

end MonkeyLang
