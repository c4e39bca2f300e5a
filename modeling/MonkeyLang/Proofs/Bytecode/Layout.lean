import MonkeyLang.Proofs.Bytecode.Decoding

/-!
# Where instructions start

A stream is read one instruction after another from its start. The offsets that one comes by on the
way are those where an instruction starts, and the end of the stream if the way leads there
(`Code.Visits`). A jump to any other offset would go on in the middle of an instruction.

For a list of instructions that stand one behind the other these offsets are known beforehand
(`Fragment.Starts`), and so is which instruction stands at which of them (`Fragment.Has`). Both are
told of a fragment that is put together by its parts, and what is told of a fragment is true of its
stream (`Fragment.visits_encode_iff`).
-/

set_option autoImplicit false

namespace MonkeyLang

namespace Code

/-- The offsets that one comes by when the stream is read from its start. -/
inductive Visits (code : Code) : Nat → Prop where
  | start : Visits code 0
  | next {offset width : Nat} {instruction : Instruction} (visits : Visits code offset)
      (found : code.decode offset = .ok (some (instruction, width))) : Visits code (offset + width)

/-- A stream that is read to its end is read through all offsets that one comes by. -/
theorem Visits.decodes {code : Code} {instructions : List Instruction} {offset : Nat}
    (visits : code.Visits offset) (reads : code.Decodes 0 instructions) :
    ∃ pre rest, instructions = pre ++ rest ∧ code.Decodes offset rest := by
  induction visits with
  | start => exact ⟨[], instructions, rfl, reads⟩
  | next _ found ih =>
      obtain ⟨pre, rest, rfl, behind⟩ := ih
      cases behind with
      | stop =>
          rw [decode_size] at found
          cases found
      | next again behind =>
          rw [found] at again
          cases again
          exact ⟨pre ++ [_], _, by rw [List.append_assoc]; rfl, behind⟩

end Code

/-! ## Lists of instructions -/

namespace Instruction

/-- An offset where an instruction of a list starts that stands at a place, or the one behind the
last instruction. -/
def Starts : List Instruction → Nat → Nat → Prop
  | [], place, offset => offset = place
  | instruction :: rest, place, offset =>
    offset = place ∨ Starts rest (place + instruction.size) offset

/-- The list has an instruction at an offset. -/
def Has : List Instruction → Nat → Nat → Instruction → Prop
  | [], _, _, _ => False
  | first :: rest, place, offset, instruction =>
    offset = place ∧ instruction = first ∨ Has rest (place + first.size) offset instruction

/-- Where a jump goes. -/
def target? : Instruction → Option Nat
  | ⟨.jump, [target]⟩ => some target
  | ⟨.jumpNotTruthy, [target]⟩ => some target
  | _ => none

variable {first second : List Instruction} {instruction : Instruction} {place offset : Nat}

theorem starts_append :
    Starts (first ++ second) place offset ↔
      Starts first place offset ∨ Starts second (place + totalSize first) offset := by
  induction first generalizing place with
  | nil =>
      simp only [List.nil_append, Starts, totalSize, Nat.add_zero]
      constructor
      · exact Or.inr
      · rintro (rfl | starts)
        · cases second with
          | nil => rfl
          | cons => exact .inl rfl
        · exact starts
  | cons head rest ih =>
      simp only [List.cons_append, Starts, ih, totalSize, Nat.add_assoc, or_assoc]

theorem has_append :
    Has (first ++ second) place offset instruction ↔
      Has first place offset instruction ∨
        Has second (place + totalSize first) offset instruction := by
  induction first generalizing place with
  | nil => simp only [List.nil_append, Has, totalSize, Nat.add_zero, false_or]
  | cons head rest ih => simp only [List.cons_append, Has, ih, totalSize, Nat.add_assoc, or_assoc]

theorem starts_place (instructions : List Instruction) (place : Nat) :
    Starts instructions place place := by
  cases instructions with
  | nil => rfl
  | cons => exact .inl rfl

theorem Starts.le (starts : Starts first place offset) :
    place ≤ offset ∧ offset ≤ place + totalSize first := by
  induction first generalizing place with
  | nil =>
      obtain rfl := starts
      exact ⟨Nat.le_refl _, Nat.le_add_right _ _⟩
  | cons head rest ih =>
      rw [totalSize]
      rcases starts with rfl | behind
      · omega
      · have bounds := ih behind
        omega

/-- An instruction starts where it stands, and the next one behind it. -/
theorem Has.starts (has : Has first place offset instruction) :
    instruction ∈ first ∧ Starts first place offset ∧
      Starts first place (offset + instruction.size) := by
  induction first generalizing place with
  | nil => cases has
  | cons head rest ih =>
      rcases has with ⟨rfl, rfl⟩ | behind
      · exact ⟨List.mem_cons_self, .inl rfl, .inr (starts_place _ _)⟩
      · obtain ⟨member, here, next⟩ := ih behind
        exact ⟨List.mem_cons_of_mem _ member, .inr here, .inr next⟩

/-- Where an instruction starts there is one, except at the end. -/
theorem Starts.has (starts : Starts first place offset) :
    offset = place + totalSize first ∨ ∃ instruction, Has first place offset instruction := by
  induction first generalizing place with
  | nil => exact .inl starts
  | cons head rest ih =>
      rcases starts with rfl | behind
      · exact .inr ⟨head, .inl ⟨rfl, rfl⟩⟩
      · rcases ih behind with last | ⟨instruction, has⟩
        · exact .inl (by rw [last, totalSize, Nat.add_assoc])
        · exact .inr ⟨instruction, .inr has⟩

end Instruction

/-! ## Jumps -/

/-- No jump leads back. -/
def Code.Forward (code : Code) : Prop :=
  ∀ offset instruction width target, code.Visits offset →
    code.decode offset = .ok (some (instruction, width)) → instruction.target? = some target →
      offset < target

/-! ## Fragments -/

namespace Fragment

/-- An offset where an instruction of a fragment starts that stands at a place, or the one behind
the fragment. -/
def Starts (fragment : Fragment) (place offset : Nat) : Prop :=
  Instruction.Starts fragment.instructions.toList place offset

/-- The fragment has an instruction at an offset. -/
def Has (fragment : Fragment) (place offset : Nat) (instruction : Instruction) : Prop :=
  Instruction.Has fragment.instructions.toList place offset instruction

variable {first second fragment : Fragment} {instruction other : Instruction} {place offset : Nat}

@[simp] theorem starts_append :
    (first ++ second).Starts place offset ↔
      first.Starts place offset ∨ second.Starts (place + first.size) offset := by
  simp only [Starts, instructions_append, Array.toList_append, Instruction.starts_append,
    first.size_eq]

@[simp] theorem starts_push :
    (fragment.push instruction).Starts place offset ↔
      fragment.Starts place offset ∨ offset = place + fragment.size + instruction.size := by
  simp only [Starts, instructions_push, Array.toList_push, Instruction.starts_append,
    Instruction.Starts, fragment.size_eq]
  constructor
  · rintro (here | rfl | last)
    · exact .inl here
    · refine .inl ?_
      have behind := Instruction.starts_place []
        (place + Instruction.totalSize fragment.instructions.toList)
      have last := Instruction.starts_append.mpr (.inr behind)
      rwa [List.append_nil] at last
    · exact .inr last
  · rintro (here | last)
    · exact .inl here
    · exact .inr (.inr last)

@[simp] theorem starts_empty : empty.Starts place offset ↔ offset = place := Iff.rfl

@[simp] theorem has_append :
    (first ++ second).Has place offset instruction ↔
      first.Has place offset instruction ∨ second.Has (place + first.size) offset instruction := by
  simp only [Has, instructions_append, Array.toList_append, Instruction.has_append, first.size_eq]

@[simp] theorem has_push :
    (fragment.push instruction).Has place offset other ↔
      fragment.Has place offset other ∨ offset = place + fragment.size ∧ other = instruction := by
  simp only [Has, instructions_push, Array.toList_push, Instruction.has_append, Instruction.Has,
    fragment.size_eq, or_false]

@[simp] theorem has_empty : empty.Has place offset instruction ↔ False := Iff.rfl

theorem starts_place (fragment : Fragment) (place : Nat) : fragment.Starts place place :=
  Instruction.starts_place _ _

/-- The end of a fragment. -/
theorem starts_end (fragment : Fragment) (place : Nat) :
    fragment.Starts place (place + fragment.size) := by
  have last := starts_append.mpr (.inr (starts_place empty (place + fragment.size)))
  rwa [append_empty] at last

theorem Starts.le (starts : fragment.Starts place offset) :
    place ≤ offset ∧ offset ≤ place + fragment.size := by
  rw [fragment.size_eq]
  exact Instruction.Starts.le starts

/-! ## The stream of a fragment -/

section Encode

variable (complete : fragment.Complete)

include complete

/-- What a stream has at an offset is read there. -/
theorem decode_of_has (has : fragment.Has 0 offset instruction) :
    fragment.encode.decode offset = .ok (some (instruction.fitted, instruction.size)) := by
  have key : ∀ (instructions : List Instruction) (pre : List UInt8),
      (∀ instruction ∈ instructions, instruction.Complete) →
      fragment.encode.toList = pre ++ instructions.flatMap Instruction.encode →
      Instruction.Has instructions pre.length offset instruction →
      fragment.encode.decode offset = .ok (some (instruction.fitted, instruction.size)) := by
    intro instructions
    induction instructions with
    | nil =>
        intro _ _ _ has
        cases has
    | cons head rest ih =>
        intro pre whole bytes has
        have first : head.Complete := whole _ List.mem_cons_self
        have split : fragment.encode.toList =
            pre ++ head.encode ++ rest.flatMap Instruction.encode := by
          simpa using bytes
        rcases has with ⟨rfl, rfl⟩ | behind
        · exact Code.decode_encode pre _ first split
        · rw [← Instruction.encode_length first, ← List.length_append] at behind
          exact ih _ (fun other member => whole other (List.mem_cons_of_mem _ member)) split behind
  exact key _ [] complete (by rw [encode_toList, List.nil_append]) has

/-- What is read where an instruction of a fragment starts is one that was written there. -/
theorem has_of_decode (starts : fragment.Starts 0 offset) {width : Nat}
    (found : fragment.encode.decode offset = .ok (some (instruction, width))) :
    ∃ written, fragment.Has 0 offset written ∧ instruction = written.fitted ∧
      width = written.size := by
  rcases Instruction.Starts.has starts with last | ⟨written, has⟩
  · rw [Nat.zero_add, ← fragment.size_eq, ← size_encode complete] at last
    rw [last, Code.decode_size] at found
    cases found
  · rw [decode_of_has complete has] at found
    cases found
    exact ⟨written, has, rfl, rfl⟩

/-- One comes by the offsets where the instructions of a fragment start, and by no others. -/
theorem visits_encode_iff : fragment.encode.Visits offset ↔ fragment.Starts 0 offset := by
  constructor
  · intro visits
    induction visits with
    | start => exact starts_place _ 0
    | next visits found ih =>
        obtain ⟨written, has, -, rfl⟩ := has_of_decode complete ih found
        exact has.starts.2.2
  · have key : ∀ (instructions : List Instruction) (place : Nat),
        (∀ other instruction, Instruction.Has instructions place other instruction →
          fragment.Has 0 other instruction) →
        fragment.encode.Visits place → Instruction.Starts instructions place offset →
        fragment.encode.Visits offset := by
      intro instructions
      induction instructions with
      | nil =>
          rintro place - visits rfl
          exact visits
      | cons head rest ih =>
          rintro place whole visits (rfl | behind)
          · exact visits
          · refine ih _ (fun other instruction has => whole other instruction (.inr has)) ?_ behind
            exact visits.next (decode_of_has complete (whole _ _ (.inl ⟨rfl, rfl⟩)))
    exact key _ 0 (fun _ _ has => has) .start

end Encode

end Fragment

end MonkeyLang
