import MonkeyLang.Machine.Run
import MonkeyLang.Proofs.Stateful
import MonkeyLang.Proofs.Value.Opaque

/-!
# What no step changes

A step changes neither the constants nor the sizes of the stack and of the global slots, and it
does not halt the machine by itself. And it makes no functions: whatever holds of all functions
that a machine knows before a step holds of all that it knows afterwards, whether the step ends
in a fault or not (`Operation.keeps_step`).
-/

set_option autoImplicit false

namespace MonkeyLang

/-- All functions that a machine can get at have a property. -/
structure Machine.Knows (holds : Function → Prop) (machine : Machine) : Prop where
  stack : ∀ value ∈ machine.stack, value.All holds
  globals : ∀ value ∈ machine.globals, value.All holds
  constants : ∀ value ∈ machine.constants, value.All holds

theorem Machine.Knows.mono {holds other : Function → Prop} {machine : Machine}
    (weaker : ∀ body, holds body → other body) (knows : machine.Knows holds) :
    machine.Knows other where
  stack value member := Value.All.mono weaker (knows.stack value member)
  globals value member := Value.All.mono weaker (knows.globals value member)
  constants value member := Value.All.mono weaker (knows.constants value member)

/-- Two states of one run. -/
structure Machine.SameRun (earlier later : Machine) : Prop where
  constants : later.constants = earlier.constants
  status : later.status = earlier.status
  stackSize : later.stack.size = earlier.stack.size
  globalsSize : later.globals.size = earlier.globals.size

namespace Machine.SameRun

theorem refl (machine : Machine) : SameRun machine machine := ⟨rfl, rfl, rfl, rfl⟩

theorem trans {first second third : Machine} (left : SameRun first second)
    (right : SameRun second third) : SameRun first third where
  constants := right.constants.trans left.constants
  status := right.status.trans left.status
  stackSize := right.stackSize.trans left.stackSize
  globalsSize := right.globalsSize.trans left.globalsSize

end Machine.SameRun

namespace Operation

/-- How an operation ends that started at a machine all of whose functions have a property. -/
def Kept {α : Type} (holds : Function → Prop) (good : α → Prop) (machine : Machine) :
    EStateM.Result Fault Machine α → Prop
  | .ok result next => good result ∧ next.Knows holds ∧ machine.SameRun next
  | .error _ next => next.Knows holds ∧ machine.SameRun next

/-- An operation brings no functions into play. -/
def Keeps {α : Type} (holds : Function → Prop) (good : α → Prop) (operation : Operation α) :
    Prop :=
  ∀ machine : Machine, machine.Knows holds → Kept holds good machine (operation machine)

namespace Keeps

variable {α β : Type} {holds : Function → Prop} {good : α → Prop} {well : β → Prop}

theorem pure {result : α} (fine : good result) : Keeps holds good (Pure.pure result) :=
  fun machine knows => ⟨fine, knows, .refl machine⟩

theorem throw (fault : Fault) : Keeps holds good (MonadExcept.throw fault) :=
  fun machine knows => ⟨knows, .refl machine⟩

theorem bind {operation : Operation α} {rest : α → Operation β}
    (first : Keeps holds good operation) (second : ∀ result, good result → Keeps holds well (rest result)) :
    Keeps holds well (operation >>= rest) := by
  intro machine knows
  have kept := first machine knows
  cases ran : operation machine with
  | error fault next =>
      rw [ran] at kept
      rw [Stateful.bind_of_error ran]
      exact kept
  | ok result middle =>
      rw [ran] at kept
      obtain ⟨fine, known, same⟩ := kept
      have rested := second result fine middle known
      rw [Stateful.bind_of_ok ran]
      cases reran : rest result middle with
      | error fault next =>
          rw [reran] at rested
          exact ⟨rested.1, same.trans rested.2⟩
      | ok other next =>
          rw [reran] at rested
          exact ⟨rested.1, rested.2.1, same.trans rested.2.2⟩

theorem get : Keeps holds (fun machine : Machine => machine.Knows holds) MonadState.get :=
  fun machine knows => ⟨knows, knows, .refl machine⟩

theorem ofModify {change : Machine → Machine}
    (known : ∀ machine : Machine, machine.Knows holds → (change machine).Knows holds)
    (same : ∀ machine : Machine, machine.SameRun (change machine)) :
    Keeps holds (fun _ => True) (modify change : Operation PUnit) :=
  fun machine knows => ⟨trivial, known machine knows, same machine⟩

end Keeps

/-! ## Operations one by one -/

variable {holds : Function → Prop}

theorem all_null : Value.null.All holds := trivial

theorem all_getD {items : Array Value} (all : ∀ value ∈ items, value.All holds) (index : Nat) :
    (items.getD index .null).All holds := by
  rw [Array.getD_eq_getD_getElem?]
  cases found : items[index]? with
  | none => trivial
  | some value => exact all value (Array.mem_of_getElem? found)

theorem all_setIfInBounds {items : Array Value} (all : ∀ value ∈ items, value.All holds)
    {value : Value} (new : value.All holds) (index : Nat) :
    ∀ item ∈ items.setIfInBounds index value, item.All holds := by
  intro item member
  rcases Array.mem_or_eq_of_mem_setIfInBounds member with member | rfl
  · exact all item member
  · exact new

theorem all_set {items : Array Value} (all : ∀ value ∈ items, value.All holds) {value : Value}
    (new : value.All holds) {index : Nat} (inside : index < items.size) :
    ∀ item ∈ items.set index value inside, item.All holds := by
  intro item member
  rcases Array.mem_or_eq_of_mem_set member with member | rfl
  · exact all item member
  · exact new

theorem keeps_push {value : Value} (all : value.All holds) :
    Keeps holds (fun _ => True) (push value) := by
  intro machine knows
  unfold push
  split
  · next room =>
      exact ⟨trivial, ⟨all_set knows.stack all room, knows.globals, knows.constants⟩, rfl, rfl,
        Array.size_set room, rfl⟩
  · exact ⟨knows, .refl machine⟩

theorem keeps_pop : Keeps holds (fun value => value.All holds) pop := by
  intro machine knows
  unfold pop
  split
  · exact ⟨knows, .refl machine⟩
  · exact ⟨all_getD knows.stack _, ⟨knows.stack, knows.globals, knows.constants⟩, rfl, rfl, rfl, rfl⟩

theorem keeps_pushResult {result : Except Fault Value}
    (all : ∀ value, result = .ok value → value.All holds) :
    Keeps holds (fun _ => True) (pushResult result) := by
  cases result with
  | ok value => exact keeps_push (all value rfl)
  | error fault => exact Keeps.throw fault

theorem keeps_jump (position : Nat) : Keeps holds (fun _ => True) (jump position) :=
  Keeps.ofModify (fun _ knows => ⟨knows.stack, knows.globals, knows.constants⟩)
    fun _ => ⟨rfl, rfl, rfl, rfl⟩

theorem keeps_pushConstant (index : Nat) : Keeps holds (fun _ => True) (pushConstant index) := by
  intro machine knows
  unfold pushConstant
  split
  · next value found => exact keeps_push (knows.constants value (Array.mem_of_getElem? found)) machine knows
  · exact ⟨knows, .refl machine⟩

theorem keeps_localSlot (index : Nat) : Keeps holds (fun _ => True) (localSlot index) := by
  intro machine knows
  unfold localSlot
  split
  · exact ⟨trivial, knows, .refl machine⟩
  · exact ⟨knows, .refl machine⟩

theorem keeps_pushLocal (index : Nat) : Keeps holds (fun _ => True) (pushLocal index) :=
  Keeps.bind (keeps_localSlot index) fun slot _ => Keeps.bind Keeps.get fun _ knows =>
    keeps_push (all_getD knows.stack slot)

theorem keeps_popLocal (index : Nat) : Keeps holds (fun _ => True) (popLocal index) := by
  refine Keeps.bind (keeps_localSlot index) fun slot _ => Keeps.bind keeps_pop fun value all => ?_
  exact Keeps.ofModify
    (fun _ knows => ⟨all_setIfInBounds knows.stack all slot, knows.globals, knows.constants⟩)
    fun _ => ⟨rfl, rfl, Array.size_setIfInBounds, rfl⟩

theorem keeps_pushGlobal (index : Nat) : Keeps holds (fun _ => True) (pushGlobal index) := by
  intro machine knows
  unfold pushGlobal
  split
  · next value found =>
      exact keeps_push (knows.globals value (Array.mem_of_getElem? found)) machine knows
  · exact ⟨knows, .refl machine⟩

theorem keeps_popGlobal (index : Nat) : Keeps holds (fun _ => True) (popGlobal index) := by
  refine Keeps.bind keeps_pop fun value all machine knows => ?_
  by_cases inside : index < machine.globals.size
  · rw [dif_pos inside]
    exact ⟨trivial, ⟨knows.stack, all_set knows.globals all inside, knows.constants⟩, rfl, rfl, rfl,
      Array.size_set inside⟩
  · rw [dif_neg inside]
    exact ⟨knows, .refl machine⟩

theorem keeps_pushBuiltin (index : Nat) : Keeps holds (fun _ => True) (pushBuiltin index) := by
  unfold pushBuiltin
  split
  · exact keeps_push trivial
  · exact Keeps.throw _

/-- Values that are taken from the stack for a use of their own. -/
theorem all_extract {items : Array Value} (all : ∀ value ∈ items, value.All holds)
    (first last : Nat) : ∀ value ∈ (items.extract first last).toList, value.All holds := by
  intro value member
  rw [Array.toList_extract, List.extract_eq_take_drop] at member
  exact all value (Array.mem_toList_iff.mp (List.mem_of_mem_drop (List.mem_of_mem_take member)))

theorem keeps_collect (count : Nat) : Keeps holds (fun _ => True) (collect count) := by
  refine Keeps.bind Keeps.get fun machine knows => ?_
  split
  · exact Keeps.throw _
  · refine Keeps.bind (Keeps.ofModify (fun _ known => ⟨known.stack, known.globals, known.constants⟩)
      fun _ => ⟨rfl, rfl, rfl, rfl⟩) fun _ _ => keeps_push ?_
    exact Value.allItems_iff.mpr (all_extract knows.stack _ _)

theorem keeps_combine {function : Value → Value → Except Fault Value}
    (closed : ∀ left right value, left.All holds → right.All holds →
      function left right = .ok value → value.All holds) :
    Keeps holds (fun _ => True) (combine function) :=
  Keeps.bind keeps_pop fun right rightAll => Keeps.bind keeps_pop fun left leftAll =>
    keeps_pushResult fun value found => closed left right value leftAll rightAll found

theorem all_fold_null {items : Array Value} (all : ∀ value ∈ items, value.All holds)
    (count start : Nat) :
    (∀ value ∈ count.fold (fun offset _ stack => stack.setIfInBounds (start + offset) Value.null)
        items, value.All holds) ∧
      (count.fold (fun offset _ stack => stack.setIfInBounds (start + offset) Value.null)
        items).size = items.size := by
  induction count with
  | zero => exact ⟨all, rfl⟩
  | succ count ih =>
      rw [Nat.fold_succ]
      exact ⟨all_setIfInBounds ih.1 all_null _, Array.size_setIfInBounds.trans ih.2⟩

theorem keeps_enter (body : Function) (count : Nat) :
    Keeps holds (fun _ => True) (enter body count) := by
  intro machine knows
  simp only [enter]
  split
  · exact ⟨knows, .refl machine⟩
  · split
    · exact ⟨knows, .refl machine⟩
    · split
      · exact ⟨knows, .refl machine⟩
      · obtain ⟨all, size⟩ := all_fold_null knows.stack _ machine.height
        exact ⟨trivial, ⟨all, knows.globals, knows.constants⟩, rfl, rfl, size, rfl⟩

theorem keeps_going {operation : Operation Unit}
    (kept : Keeps holds (fun _ => True) operation) :
    Keeps holds (fun _ => True) (going operation) :=
  Keeps.bind kept fun _ _ => Keeps.pure trivial

theorem keeps_callFunction (body : Function) (count : Nat) :
    Keeps holds (fun _ => True) (callFunction body count) := by
  intro machine knows
  rw [callFunction]
  split
  · exact ⟨trivial, knows, .refl machine⟩
  · exact keeps_going (keeps_enter body count) machine knows

theorem keeps_callBuiltin (builtin : Builtin) (slot : Nat) :
    Keeps holds (fun _ => True) (callBuiltin builtin slot) := by
  refine Keeps.bind Keeps.get fun machine knows => ?_
  refine Keeps.bind (Keeps.ofModify (fun _ known => ⟨known.stack, known.globals, known.constants⟩)
    fun _ => ⟨rfl, rfl, rfl, rfl⟩) fun _ _ => keeps_push ?_
  exact builtin.all_result (all_extract knows.stack _ _)

theorem keeps_call (count : Nat) : Keeps holds (fun _ => True) (call count) := by
  intro machine knows
  simp only [call]
  split
  · exact ⟨knows, .refl machine⟩
  · split
    · exact keeps_callFunction _ count machine knows
    · exact keeps_going (keeps_callBuiltin _ _) machine knows
    · exact ⟨knows, .refl machine⟩

theorem keeps_leave {value : Value} (all : value.All holds) :
    Keeps holds (fun _ => True) (leave value) := by
  refine Keeps.bind Keeps.get fun machine knows => ?_
  split
  · exact Keeps.bind (keeps_push all) fun _ _ => Keeps.bind
      (Keeps.ofModify (fun _ known => ⟨known.stack, known.globals, known.constants⟩)
        fun _ => ⟨rfl, rfl, rfl, rfl⟩) fun _ _ => Keeps.pure trivial
  · exact Keeps.bind (Keeps.ofModify (fun _ known => ⟨known.stack, known.globals, known.constants⟩)
        fun _ => ⟨rfl, rfl, rfl, rfl⟩) fun _ _ => Keeps.bind (keeps_push all)
      fun _ _ => Keeps.pure trivial

theorem keeps_execute (opcode : Opcode) (operand : Nat) :
    Keeps holds (fun _ => True) (execute opcode operand) := by
  have arithmetic : ∀ operator, Keeps holds (fun _ => True) (combine (Value.arithmetic operator)) :=
    fun operator => keeps_combine fun _ _ _ _ _ found => Value.all_of_arithmetic found
  have compare : ∀ operator, Keeps holds (fun _ => True) (combine (Value.compare operator)) :=
    fun operator => keeps_combine fun _ _ _ _ _ found => Value.all_of_compare found
  cases opcode with
  | constant => exact keeps_going (keeps_pushConstant operand)
  | null | true | false => exact keeps_going (keeps_push trivial)
  | getLocal => exact keeps_going (keeps_pushLocal operand)
  | setLocal => exact keeps_going (keeps_popLocal operand)
  | getGlobal => exact keeps_going (keeps_pushGlobal operand)
  | setGlobal => exact keeps_going (keeps_popGlobal operand)
  | getBuiltin => exact keeps_going (keeps_pushBuiltin operand)
  | add | sub | mul | div => exact keeps_going (arithmetic _)
  | equal | notEqual | greater => exact keeps_going (compare _)
  | negate =>
      exact keeps_going (Keeps.bind keeps_pop fun _ _ =>
        keeps_pushResult fun _ found => Value.all_of_negated found)
  | not => exact keeps_going (Keeps.bind keeps_pop fun _ _ => keeps_push trivial)
  | jump => exact keeps_going (keeps_jump operand)
  | jumpNotTruthy =>
      refine keeps_going (Keeps.bind keeps_pop fun condition _ => ?_)
      split
      · exact keeps_jump operand
      · exact Keeps.pure trivial
  | call => exact keeps_call operand
  | returnValue => exact Keeps.bind keeps_pop fun _ all => keeps_leave all.unwrapped
  | returnNull => exact keeps_leave all_null
  | array => exact keeps_going (keeps_collect operand)
  | index =>
      exact keeps_going (keeps_combine fun _ _ _ targetAll _ found =>
        Value.all_of_indexed targetAll found)
  | pop => exact keeps_going (Keeps.bind keeps_pop fun _ _ => Keeps.pure trivial)

/-- No step brings a function into play. -/
theorem keeps_step : Keeps holds (fun _ => True) step := by
  intro machine knows
  unfold step
  split
  · split
    · exact ⟨trivial, knows, .refl machine⟩
    · exact keeps_leave all_null machine knows
  · exact ⟨knows, .refl machine⟩
  · next opcode operand next _ =>
      have jumped : machine.SameRun (machine.jump next) := ⟨rfl, rfl, rfl, rfl⟩
      have kept := keeps_execute opcode operand (machine.jump next)
        ⟨knows.stack, knows.globals, knows.constants⟩
      cases ran : execute opcode operand (machine.jump next) with
      | ok result behind =>
          rw [ran] at kept
          exact ⟨trivial, kept.2.1, jumped.trans kept.2.2⟩
      | error fault behind =>
          rw [ran] at kept
          exact ⟨kept.1, jumped.trans kept.2⟩

end Operation

/-- A run brings no function into play, however far it gets. -/
theorem Machine.knows_advance {holds : Function → Prop} (steps : Nat) {machine : Machine}
    (knows : machine.Knows holds) :
    (machine.advance steps).Knows holds ∧
      (machine.advance steps).globals.size = machine.globals.size := by
  induction steps generalizing machine with
  | zero => exact ⟨knows, rfl⟩
  | succ steps ih =>
      have kept := Operation.keeps_step machine knows
      rw [Machine.advance]
      match stepped : Operation.step machine with
      | .ok .goesOn next =>
          rw [stepped] at kept
          obtain ⟨known, size⟩ := ih kept.2.1
          exact ⟨known, size.trans kept.2.2.globalsSize⟩
      | .ok .ends next | .ok .crashes next =>
          rw [stepped] at kept
          obtain ⟨-, known, same⟩ := kept
          exact ⟨⟨known.stack, known.globals, known.constants⟩, same.globalsSize⟩
      | .error fault next =>
          rw [stepped] at kept
          obtain ⟨known, same⟩ := kept
          exact ⟨⟨known.stack, known.globals, known.constants⟩, same.globalsSize⟩

end MonkeyLang
