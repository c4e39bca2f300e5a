import MonkeyLang.Machine.Run

/-!
# Machines within their limits

A machine is confined if the values in use and the slots of all calls are slots of its stack, if
there are not more calls than there may be, and if below the slots of each call there is one more
slot, for the result of the call. Here is what keeps a machine confined: to enter a call whose
slots are there, to leave a call, and to change the values in use. All of this is about numbers
only, so it does not matter which instructions do it.
-/

set_option autoImplicit false

namespace MonkeyLang

/-- The arguments of a function fit into its slots. -/
def Function.Roomy (body : Function) : Prop := body.parameters ≤ body.locals

/-- The calls that are going on, the program itself first. -/
def Machine.frames (machine : Machine) : List Frame := machine.callers.toList ++ [machine.frame]

/-- A machine within its limits. -/
structure Machine.Confined (limits : Limits) (machine : Machine) : Prop where
  stackSize : machine.stack.size = limits.stackSize
  maxFrames : machine.maxFrames = limits.maxFrames
  height : machine.height ≤ limits.stackSize
  nonempty : machine.frames ≠ []
  depth : machine.frames.length ≤ max 1 limits.maxFrames
  above : ∀ frame ∈ machine.frames.tail, 1 ≤ frame.base
  inside : ∀ frame ∈ machine.frames, frame.base + frame.locals ≤ limits.stackSize

namespace Machine.Confined

variable {limits : Limits} {machine next : Machine}

/-- A change of the values in use and of what they are. -/
theorem withStack (confined : machine.Confined limits) {stack : Array Value} {height : Nat}
    (size : stack.size = machine.stack.size) (low : height ≤ machine.stack.size) :
    ({ machine with stack, height } : Machine).Confined limits where
  stackSize := size.trans confined.stackSize
  maxFrames := confined.maxFrames
  height := confined.stackSize ▸ low
  nonempty := confined.nonempty
  depth := confined.depth
  above := confined.above
  inside := confined.inside

/-- A change of what is not the stack and not the calls. -/
theorem withGlobals (confined : machine.Confined limits) (globals : Globals) :
    ({ machine with globals } : Machine).Confined limits :=
  ⟨confined.stackSize, confined.maxFrames, confined.height, confined.nonempty, confined.depth,
    confined.above, confined.inside⟩

theorem withOutput (confined : machine.Confined limits) (output : String) :
    ({ machine with output } : Machine).Confined limits :=
  ⟨confined.stackSize, confined.maxFrames, confined.height, confined.nonempty, confined.depth,
    confined.above, confined.inside⟩

theorem withStatus (confined : machine.Confined limits) (status : Status) :
    ({ machine with status } : Machine).Confined limits :=
  ⟨confined.stackSize, confined.maxFrames, confined.height, confined.nonempty, confined.depth,
    confined.above, confined.inside⟩

theorem height_le (confined : machine.Confined limits) : machine.height ≤ machine.stack.size :=
  confined.stackSize ▸ confined.height

/-- The slots of the innermost call are slots of the stack. -/
theorem frame_le (confined : machine.Confined limits) :
    machine.frame.base + machine.frame.locals ≤ machine.stack.size := by
  rw [confined.stackSize]
  exact confined.inside _ (List.mem_append_right _ List.mem_cons_self)

/-- A call that is not the program itself has a slot below its own ones. -/
theorem base_pos (confined : machine.Confined limits) {caller : Frame}
    (called : machine.callers.back? = some caller) : 1 ≤ machine.frame.base := by
  apply confined.above
  rw [Array.back?_eq_getElem?] at called
  have nonempty : machine.callers.toList ≠ [] := by
    intro empty
    rw [Array.toList_eq_nil_iff.mp empty] at called
    cases called
  rw [Machine.frames, List.tail_append_of_ne_nil nonempty]
  exact List.mem_append_right _ List.mem_cons_self

/-- The offset at which a call goes on does not matter. -/
theorem jump (confined : machine.Confined limits) (position : Nat) :
    (machine.jump position).Confined limits := by
  have moved : (machine.jump position).frames =
      machine.callers.toList ++ [{ machine.frame with position }] := rfl
  refine ⟨confined.stackSize, confined.maxFrames, confined.height, by simp [moved], ?_, ?_, ?_⟩
  · have depth := confined.depth
    rw [Machine.frames, List.length_append] at depth
    rw [moved, List.length_append]
    exact depth
  · intro frame member
    cases callers : machine.callers.toList with
    | nil =>
        rw [moved, callers] at member
        cases member
    | cons first rest =>
        have above := confined.above
        rw [Machine.frames, callers] at above
        rw [moved, callers] at member
        rcases List.mem_append.mp member with member | member
        · exact above frame (List.mem_append_left _ member)
        · obtain rfl := List.mem_singleton.mp member
          exact above machine.frame (List.mem_append_right _ List.mem_cons_self)
  · intro frame member
    rw [moved] at member
    rcases List.mem_append.mp member with member | member
    · exact confined.inside frame (List.mem_append_left _ member)
    · obtain rfl := List.mem_singleton.mp member
      exact confined.inside machine.frame (List.mem_append_right _ List.mem_cons_self)

/-- A call whose slots are slots of the stack, with a slot below them. -/
theorem enter (confined : machine.Confined limits) {frame : Frame} {stack : Array Value}
    (size : stack.size = machine.stack.size) (shallow : machine.depth < machine.maxFrames)
    (above : 1 ≤ frame.base) (inside : frame.base + frame.locals ≤ machine.stack.size) :
    ({ machine with
      stack
      height := frame.base + frame.locals
      callers := machine.callers.push machine.frame
      frame } : Machine).Confined limits := by
  have deeper : ({ machine with
      stack
      height := frame.base + frame.locals
      callers := machine.callers.push machine.frame
      frame } : Machine).frames = machine.frames ++ [frame] := by
    simp [Machine.frames]
  refine ⟨size.trans confined.stackSize, confined.maxFrames, confined.stackSize ▸ inside,
    by simp [deeper], ?_, ?_, ?_⟩
  · have depth : machine.frames.length = machine.depth := by simp [Machine.frames, Machine.depth]
    rw [deeper, List.length_append, depth, List.length_singleton, ← confined.maxFrames]
    omega
  · intro other member
    rw [deeper, List.tail_append_of_ne_nil confined.nonempty] at member
    rcases List.mem_append.mp member with member | member
    · exact confined.above other member
    · obtain rfl := List.mem_singleton.mp member
      exact above
  · intro other member
    rw [deeper] at member
    rcases List.mem_append.mp member with member | member
    · exact confined.inside other member
    · obtain rfl := List.mem_singleton.mp member
      rw [← confined.stackSize]
      exact inside

/-- The end of a call. -/
theorem leave (confined : machine.Confined limits) {caller : Frame}
    (called : machine.callers.back? = some caller) {height : Nat}
    (low : height ≤ machine.stack.size) :
    ({ machine with
      height
      frame := caller
      callers := machine.callers.pop } : Machine).Confined limits := by
  have split : machine.callers = machine.callers.pop.push caller := by
    obtain ⟨callers, pushed⟩ := Array.back?_eq_some_iff.mp called
    rw [pushed, Array.pop_push]
  have shallower : machine.frames = (machine.callers.pop.toList ++ [caller]) ++ [machine.frame] := by
    rw [Machine.frames, split]
    simp
  have depth := confined.depth
  have above := confined.above
  have inside := confined.inside
  rw [shallower] at depth above inside
  rw [List.tail_append_of_ne_nil (by simp)] at above
  refine ⟨confined.stackSize, confined.maxFrames, confined.stackSize ▸ low, by simp [Machine.frames],
    ?_, ?_, ?_⟩
  · rw [List.length_append] at depth
    exact Nat.le_of_succ_le depth
  · exact fun frame member => above frame (List.mem_append_left _ member)
  · exact fun frame member => inside frame (List.mem_append_left _ member)

end Machine.Confined

end MonkeyLang
