import MonkeyLang.Compiler.Generate
import MonkeyLang.Proofs.Program.Documents
import MonkeyLang.Proofs.Program.FloatLiterals
import MonkeyLang.Proofs.Program.Offsets

/-!
# Accepted programs are loaded again

The text of a program that was accepted is loaded again as the program, if its doubles are finite,
and is refused otherwise, since a double that is not finite is written as null
(`Program.ofSource_reloads`). Everything else that could be too large for the reader is small
enough: the whole numbers have sixty-four bits, and the offsets lie in the text that was accepted.

A double that is written with enough digits is infinite, and it is accepted nevertheless
(`Program.not_reloads_overlong`).
-/

set_option autoImplicit false

namespace MonkeyLang

/-! ## Data with nulls is refused -/

/-- One of the literals is a double that is not finite. -/
def Unwritable (literals : List Literal) : Prop :=
  ∃ value, .float value ∈ literals ∧ ¬Binary64.IsFinite value

theorem unwritable_append {left right : List Literal} :
    Unwritable (left ++ right) ↔ Unwritable left ∨ Unwritable right := by
  simp only [Unwritable, List.mem_append, or_and_right, exists_or]

/-- A null is no double. -/
theorem Literal.ofJson?_asWritten {literal : Literal} (unwritable : Unwritable [literal]) :
    Literal.ofJson? literal.toJson.asWritten = none := by
  obtain ⟨value, member, not_finite⟩ := unwritable
  obtain rfl := List.mem_singleton.1 member
  simp [Literal.ofJson?, Literal.toJson, Json.asWritten, Json.membersAsWritten, Json.member?,
    not_finite]

theorem Json.asWritten_node (kind : String) (parts : List (String × Json)) :
    (Json.node kind parts).asWritten = .node kind (Json.membersAsWritten parts) := rfl

section

-- What the text of a node says, and what a node is read as.
attribute [local simp] Expression.toJson Binding.toJson Block.toJson Statement.toJson
attribute [local simp] Json.asWritten_node Json.asWritten Json.itemsAsWritten Json.membersAsWritten
attribute [local simp] expressionsToJson statementsToJson
attribute [local simp] Expression.ofJson?_literalNode Expression.ofJson?_unaryNode
attribute [local simp] Expression.ofJson?_binaryNode Expression.ofJson?_conditionalNode
attribute [local simp] Expression.ofJson?_conditionalElseNode Expression.ofJson?_whileLoopNode
attribute [local simp] Expression.ofJson?_forLoopNode Expression.ofJson?_functionNode
attribute [local simp] Expression.ofJson?_callNode Expression.ofJson?_arrayNode
attribute [local simp] Expression.ofJson?_indexNode Expression.ofJson?_assignNode
attribute [local simp] Binding.ofJson?_object Block.ofJson?_object Statement.ofJson?_bindNode
attribute [local simp] Statement.ofJson?_leaveWithNode Statement.ofJson?_expressionNode

mutual

/-- An expression with a double that is not finite is not read back from what its text says. -/
theorem Expression.ofJson?_asWritten : ∀ (expression : Expression) (fuel : Nat),
    Unwritable expression.literals →
    Expression.ofJson? fuel expression.toJson.asWritten = none
  | _, 0, _ => rfl
  | .literal value span, fuel + 1, unwritable => by
    have refused := Literal.ofJson?_asWritten unwritable
    simp [refused]
  | .name _, _ + 1, unwritable => by
    obtain ⟨value, member, -⟩ := unwritable
    cases member
  | .unary operator operand span, fuel + 1, unwritable => by
    have refused := operand.ofJson?_asWritten fuel unwritable
    simp [refused]
  | .binary operator left right span, fuel + 1, unwritable => by
    rcases unwritable_append.1 unwritable with first | second
    · have refused := left.ofJson?_asWritten fuel first
      simp [refused]
    · have refused := right.ofJson?_asWritten fuel second
      simp [refused]
  | .conditional condition consequence none span, fuel + 1, unwritable => by
    rcases unwritable_append.1 unwritable with first | second
    · have refused := condition.ofJson?_asWritten fuel first
      simp [refused]
    · have refused := consequence.ofJson?_asWritten fuel second
      simp [refused]
  | .conditional condition consequence (some alternative) span, fuel + 1, unwritable => by
    -- the data of a block is an object, so it is not taken for a missing one
    obtain ⟨members, object⟩ := alternative.toJson_eq_object
    rcases unwritable_append.1 unwritable with first | unwritable
    · have refused := condition.ofJson?_asWritten fuel first
      simp [refused, object]
    · rcases unwritable_append.1 unwritable with second | third
      · have refused := consequence.ofJson?_asWritten fuel second
        simp [refused, object]
      · have refused := alternative.ofJson?_asWritten fuel third
        rw [object, Json.asWritten] at refused
        simp [refused, object]
  | .whileLoop condition body span, fuel + 1, unwritable => by
    rcases unwritable_append.1 unwritable with first | second
    · have refused := condition.ofJson?_asWritten fuel first
      simp [refused]
    · have refused := body.ofJson?_asWritten fuel second
      simp [refused]
  | .forLoop start condition post body span, fuel + 1, unwritable => by
    rcases unwritable_append.1 unwritable with first | unwritable
    · have refused := start.ofJson?_asWritten fuel first
      simp [refused]
    · rcases unwritable_append.1 unwritable with second | unwritable
      · have refused := condition.ofJson?_asWritten fuel second
        simp [refused]
      · rcases unwritable_append.1 unwritable with third | fourth
        · have refused := post.ofJson?_asWritten fuel third
          simp [refused]
        · have refused := body.ofJson?_asWritten fuel fourth
          simp [refused]
  | .function parameters body span, fuel + 1, unwritable => by
    have refused := body.ofJson?_asWritten fuel unwritable
    simp [refused]
  | .call callee arguments span, fuel + 1, unwritable => by
    rcases unwritable_append.1 unwritable with first | second
    · have refused := callee.ofJson?_asWritten fuel first
      simp [refused]
    · have refused := Expression.mapM_ofJson?_asWritten arguments fuel second
      simp [refused]
  | .array elements span, fuel + 1, unwritable => by
    have refused := Expression.mapM_ofJson?_asWritten elements fuel unwritable
    simp [refused]
  | .index target index span, fuel + 1, unwritable => by
    rcases unwritable_append.1 unwritable with first | second
    · have refused := target.ofJson?_asWritten fuel first
      simp [refused]
    · have refused := index.ofJson?_asWritten fuel second
      simp [refused]
  | .assign target value span, fuel + 1, unwritable => by
    have refused := value.ofJson?_asWritten fuel unwritable
    simp [refused]

theorem Expression.mapM_ofJson?_asWritten : ∀ (items : List Expression) (fuel : Nat),
    Unwritable (Expression.listLiterals items) →
    (Json.itemsAsWritten (expressionsToJson items)).mapM (Expression.ofJson? fuel) = none
  | [], _, unwritable => by
    obtain ⟨value, member, -⟩ := unwritable
    cases member
  | item :: items, fuel, unwritable => by
    rcases unwritable_append.1 unwritable with first | rest
    · have refused := item.ofJson?_asWritten fuel first
      simp [refused]
    · have refused := Expression.mapM_ofJson?_asWritten items fuel rest
      simp [refused]

theorem Binding.ofJson?_asWritten : ∀ (binding : Binding) (fuel : Nat),
    Unwritable binding.literals → Binding.ofJson? fuel binding.toJson.asWritten = none
  | _, 0, _ => rfl
  | .mk name value span, fuel + 1, unwritable => by
    have refused := value.ofJson?_asWritten fuel unwritable
    simp [refused]

theorem Block.ofJson?_asWritten : ∀ (block : Block) (fuel : Nat),
    Unwritable block.literals → Block.ofJson? fuel block.toJson.asWritten = none
  | _, 0, _ => rfl
  | .mk statements span, fuel + 1, unwritable => by
    have refused := Statement.mapM_ofJson?_asWritten statements fuel unwritable
    simp [refused]

theorem Statement.ofJson?_asWritten : ∀ (statement : Statement) (fuel : Nat),
    Unwritable statement.literals → Statement.ofJson? fuel statement.toJson.asWritten = none
  | _, 0, _ => rfl
  | .bind binding, fuel + 1, unwritable => by
    have refused := binding.ofJson?_asWritten fuel unwritable
    simp [refused]
  | .leave none span, fuel + 1, unwritable => by
    obtain ⟨value, member, -⟩ := unwritable
    cases member
  | .leave (some value) span, fuel + 1, unwritable => by
    obtain ⟨members, object⟩ := value.toJson_eq_object
    have refused := value.ofJson?_asWritten fuel unwritable
    rw [object, Json.asWritten] at refused
    simp [object, refused]
  | .expression value span, fuel + 1, unwritable => by
    have refused := value.ofJson?_asWritten fuel unwritable
    simp [refused]

theorem Statement.mapM_ofJson?_asWritten : ∀ (statements : List Statement) (fuel : Nat),
    Unwritable (Statement.listLiterals statements) →
    (Json.itemsAsWritten (statementsToJson statements)).mapM (Statement.ofJson? fuel) = none
  | [], _, unwritable => by
    obtain ⟨value, member, -⟩ := unwritable
    cases member
  | statement :: statements, fuel, unwritable => by
    rcases unwritable_append.1 unwritable with first | rest
    · have refused := statement.ofJson?_asWritten fuel first
      simp [refused]
    · have refused := Statement.mapM_ofJson?_asWritten statements fuel rest
      simp [refused]

end

end

/-! ## Documents with any doubles -/

namespace ProgramDocument

/-- What the text of a document with a double that is not finite says is no document. -/
theorem ofJson?_asWritten {document : ProgramDocument}
    (unwritable : Unwritable document.program.literals) :
    ofJson? document.toJson.asWritten = none := by
  have refused : (Json.array (Json.itemsAsWritten
      (statementsToJson document.program.statements))).listOf? (Statement.ofJson? (Json.array
        (Json.itemsAsWritten (statementsToJson document.program.statements))).depth) = none :=
    Statement.mapM_ofJson?_asWritten _ _ unwritable
  rw [toJson, Json.asWritten, Json.membersAsWritten, Json.membersAsWritten, Json.membersAsWritten,
    Json.asWritten, ofJson?_object, refused]
  cases Json.naturalUpTo? greatestVersion _ <;> rfl

/-- A document with a double that is not finite is refused. -/
theorem read_write_of_unwritable (library : Json.Library) (lawful : library.Lawful)
    (document : ProgramDocument) (version : document.version ≤ greatestVersion)
    (fits : ∀ span ∈ document.program.spans, span.Fits)
    (reads : ∀ value, .float value ∈ document.program.literals → Binary64.IsFinite value →
      library.ReadsBack value)
    (shallow : document.toJson.depth < library.depthLimit)
    (unwritable : Unwritable document.program.literals) :
    read library (document.write library).toList = .error .misshapen := by
  rw [read_write_eq library lawful document version fits reads shallow,
    ofJson?_asWritten unwritable]

end ProgramDocument

/-! ## Accepted programs -/

namespace Program

open ProgramDocument (currentVersion)

/-- With this library the text of the program is loaded as a program that is compiled in the same
way. -/
def Reloads (library : Json.Library) (program : Program) : Prop :=
  ∃ document, ProgramDocument.read library (program.write library).toList = .ok document ∧
    document.version = currentVersion ∧ document.program = program ∧
    Compiler.new.compile document.program = Compiler.new.compile program

/-- The offsets in an accepted program are sizes, if the text is no longer than there are. -/
theorem spans_fit {source : List Char} {program : Program}
    (accepted : ofSource source = .ok program)
    (short : source.length ≤ Number.greatestSize) : ∀ span ∈ program.spans, span.Fits := by
  intro span member
  have inside := ofSource_inside accepted span member
  have stop := Nat.le_trans inside.stop short
  exact ⟨Nat.le_trans inside.ordered stop, stop⟩

theorem shallow_ofFloat (value : Float) (length : Nat) :
    (ofFloat value length).document.toJson.depth < Json.Library.standard.depthLimit := by
  have depth : (ofFloat value length).document.toJson.depth = 7 := rfl
  rw [depth]
  decide

/-- **Accepted programs are loaded again if their doubles are finite**, and are compiled as before.
A program with a double that is not finite is refused. -/
theorem ofSource_reloads (library : Json.Library) (lawful : library.Lawful) (source : List Char)
    (program : Program) (accepted : ofSource source = .ok program)
    (short : source.length ≤ Number.greatestSize)
    (shallow : program.document.toJson.depth < library.depthLimit)
    (reads : ∀ value, .float value ∈ program.literals → Binary64.IsFinite value →
      library.ReadsBack value) :
    ((∀ value, .float value ∈ program.literals → Binary64.IsFinite value) →
      program.Reloads library) ∧
    ((∃ value, .float value ∈ program.literals ∧ ¬Binary64.IsFinite value) →
      ProgramDocument.read library (program.write library).toList = .error .misshapen) := by
  have version : program.document.version ≤ ProgramDocument.greatestVersion :=
    (by decide : currentVersion ≤ ProgramDocument.greatestVersion)
  have fits := spans_fit accepted short
  refine ⟨fun finite => ?_, fun unwritable => ?_⟩
  · have loaded := ProgramDocument.read_write library lawful program.document version fits reads
      shallow finite
    exact ⟨_, loaded, rfl, rfl, rfl⟩
  · exact ProgramDocument.read_write_of_unwritable library lawful program.document version fits
      reads shallow unwritable

/-- The program `2.5` is loaded again. -/
theorem ofSource_reloads_half : ∃ program, ofSource ['2', '.', '5'] = .ok program ∧
    program.Reloads .standard := by
  have half : pointed ['2'] ['5'] = Float.ofBits 0x4004000000000000 := by decide +kernel
  have accepted := ofSource_float (isDigits_singleton (c := '2') rfl)
    (isDigits_singleton (c := '5') rfl)
  rw [half] at accepted
  refine ⟨_, accepted, (ofSource_reloads .standard Json.Library.standard_lawful _ _ accepted
    (by decide) (shallow_ofFloat _ _) ?_).1 ?_⟩
  · intro value member _
    rw [eq_of_mem_literals_ofFloat member]
    exact ProgramDocument.readsBack_half
  · intro value member
    rw [eq_of_mem_literals_ofFloat member]
    decide +kernel

/-- Digits of a whole number that is too large for a double. -/
def overlong : List Char := List.replicate 310 '9'

/-- These digits with a point and a zero are accepted, but the program is not loaded again, although
the library is lawful and reads the finite doubles back. -/
theorem not_reloads_overlong : Json.Library.standard.Lawful ∧
    ∃ program, ofSource (overlong ++ ['.', '0']) = .ok program ∧
      program.document.toJson.depth < Json.Library.standard.depthLimit ∧
      (∀ value, .float value ∈ program.literals → Binary64.IsFinite value →
        Json.Library.standard.ReadsBack value) ∧
      ¬program.Reloads .standard := by
  have infinite : ¬Binary64.IsFinite (pointed overlong ['0']) := by decide +kernel
  have digits : overlong.length = 310 := List.length_replicate
  have front : IsDigits overlong :=
    ⟨List.ne_nil_of_length_pos (digits ▸ by decide),
      fun c member => List.eq_of_mem_replicate member ▸ by decide⟩
  have behind : IsDigits ['0'] := isDigits_singleton rfl
  have short : (overlong ++ ['.', '0']).length ≤ Number.greatestSize := by
    rw [List.length_append, digits]
    decide
  have accepted := ofSource_float front behind
  have shallow := shallow_ofFloat (pointed overlong ['0']) (overlong ++ ['.', '0']).length
  have reads : ∀ value,
      .float value ∈ (ofFloat (pointed overlong ['0']) (overlong ++ ['.', '0']).length).literals →
      Binary64.IsFinite value → Json.Library.standard.ReadsBack value := by
    intro value member finite
    rw [eq_of_mem_literals_ofFloat member] at finite
    exact absurd finite infinite
  refine ⟨Json.Library.standard_lawful, _, accepted, shallow, reads, ?_⟩
  rintro ⟨document, loaded, -⟩
  have refused := ProgramDocument.read_write_of_unwritable .standard Json.Library.standard_lawful
    (ofFloat (pointed overlong ['0']) (overlong ++ ['.', '0']).length).document
    (by decide : currentVersion ≤ ProgramDocument.greatestVersion) (spans_fit accepted short) reads
    shallow ⟨_, List.mem_singleton_self _, infinite⟩
  cases refused.symm.trans loaded

end Program

end MonkeyLang
