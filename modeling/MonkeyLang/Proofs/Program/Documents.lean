import MonkeyLang.Proofs.Json.Standard
import MonkeyLang.Proofs.Program.Data

/-!
# Documents are read back

With a lawful library the text of a program in the form in which it is exchanged is read back as
that program, with its version (`ProgramDocument.read_write`). What is asked of it is what its types
hold elsewhere, a version of thirty-two bits and offsets of sixty-four, that the doubles among its
literals are finite and each read back from its text, and that its data is no deeper than the reader
allows.

Whatever its doubles are, the text is read as the document that it says, or refused if it says none
(`ProgramDocument.read_write_eq`).
-/

set_option autoImplicit false

namespace MonkeyLang

/-! ## The numbers in the data -/

/-- The literal is such as doubles are asked to be, if it is a double. -/
def Literal.FloatIn (real : Float → Prop) : Literal → Prop
  | float value => real value
  | _ => True

theorem Literal.floatIn_of {real : Float → Prop} {literals : List Literal}
    (all : ∀ value, .float value ∈ literals → real value) :
    ∀ literal ∈ literals, literal.FloatIn real := by
  intro literal member
  cases literal with
  | float value => exact all value member
  | _ => trivial

section

variable {real : Float → Prop}

theorem Json.natural_numbersIn {value : Nat} (small : value ≤ Number.greatestSize) :
    (Json.natural value).NumbersIn real := by
  have positive : -(Number.twoTo 63 : Int) ≤ 0 := by decide
  exact ⟨Int.le_trans positive (Int.natCast_nonneg value), Int.ofNat_le.2 small⟩

theorem Span.toJson_numbersIn {span : Span} (fits : span.Fits) : span.toJson.NumbersIn real :=
  ⟨Json.natural_numbersIn fits.start, Json.natural_numbersIn fits.stop, trivial⟩

theorem Name.toJson_numbersIn {name : Name} (fits : name.span.Fits) : name.toJson.NumbersIn real :=
  ⟨trivial, Span.toJson_numbersIn fits, trivial⟩

theorem Name.items_numbersIn {names : List Name} (fit : ∀ span ∈ names.map Name.span, span.Fits) :
    Json.ItemsIn real (names.map Name.toJson) := by
  induction names with
  | nil => trivial
  | cons name names ih =>
    obtain ⟨first, rest⟩ := List.forall_mem_cons.1 fit
    exact ⟨Name.toJson_numbersIn first, ih rest⟩

theorem Literal.toJson_numbersIn {literal : Literal} (reads : literal.FloatIn real) :
    literal.toJson.NumbersIn real := by
  cases literal with
  | integer value =>
    have low : -(Number.twoTo 63 : Int) ≤ value.toInt := Int64.le_toInt value
    have high : value.toInt ≤ Number.greatestSize :=
      Int.le_trans (Int64.toInt_le value) (by decide)
    exact ⟨⟨low, high⟩, trivial⟩
  | float value => exact ⟨reads, trivial⟩
  | string value => exact ⟨trivial, trivial⟩
  | boolean value => exact ⟨trivial, trivial⟩

mutual

theorem Expression.toJson_numbersIn : ∀ expression : Expression,
    (∀ span ∈ expression.spans, span.Fits) →
    (∀ literal ∈ expression.literals, literal.FloatIn real) → expression.toJson.NumbersIn real
  | .literal value span, fits, reads =>
    ⟨⟨Literal.toJson_numbersIn (reads value List.mem_cons_self),
      Span.toJson_numbersIn (fits span List.mem_cons_self), trivial⟩, trivial⟩
  | .name identifier, fits, _ =>
    ⟨Name.toJson_numbersIn (fits identifier.span List.mem_cons_self), trivial⟩
  | .unary _ operand _, fits, reads =>
    have all := List.forall_mem_cons.1 fits
    ⟨⟨trivial, operand.toJson_numbersIn all.2 reads, Span.toJson_numbersIn all.1, trivial⟩, trivial⟩
  | .binary _ left right _, fits, reads =>
    have all := List.forall_mem_cons.1 fits
    have both := List.forall_mem_append.1 all.2
    have literals := List.forall_mem_append.1 reads
    ⟨⟨trivial, left.toJson_numbersIn both.1 literals.1, right.toJson_numbersIn both.2 literals.2,
      Span.toJson_numbersIn all.1, trivial⟩, trivial⟩
  | .conditional condition consequence none _, fits, reads =>
    have all := List.forall_mem_cons.1 fits
    have both := List.forall_mem_append.1 all.2
    have literals := List.forall_mem_append.1 reads
    ⟨⟨condition.toJson_numbersIn both.1 literals.1, consequence.toJson_numbersIn both.2 literals.2,
      trivial, Span.toJson_numbersIn all.1, trivial⟩, trivial⟩
  | .conditional condition consequence (some alternative) _, fits, reads =>
    have all := List.forall_mem_cons.1 fits
    have both := List.forall_mem_append.1 all.2
    have blocks := List.forall_mem_append.1 both.2
    have literals := List.forall_mem_append.1 reads
    have block_literals := List.forall_mem_append.1 literals.2
    ⟨⟨condition.toJson_numbersIn both.1 literals.1,
      consequence.toJson_numbersIn blocks.1 block_literals.1,
      alternative.toJson_numbersIn blocks.2 block_literals.2,
      Span.toJson_numbersIn all.1, trivial⟩, trivial⟩
  | .whileLoop condition body _, fits, reads =>
    have all := List.forall_mem_cons.1 fits
    have both := List.forall_mem_append.1 all.2
    have literals := List.forall_mem_append.1 reads
    ⟨⟨condition.toJson_numbersIn both.1 literals.1, body.toJson_numbersIn both.2 literals.2,
      Span.toJson_numbersIn all.1, trivial⟩, trivial⟩
  | .forLoop start condition post body _, fits, reads =>
    have all := List.forall_mem_cons.1 fits
    have first := List.forall_mem_append.1 all.2
    have second := List.forall_mem_append.1 first.2
    have third := List.forall_mem_append.1 second.2
    have first_literals := List.forall_mem_append.1 reads
    have second_literals := List.forall_mem_append.1 first_literals.2
    have third_literals := List.forall_mem_append.1 second_literals.2
    ⟨⟨start.toJson_numbersIn first.1 first_literals.1,
      condition.toJson_numbersIn second.1 second_literals.1,
      post.toJson_numbersIn third.1 third_literals.1,
      body.toJson_numbersIn third.2 third_literals.2, Span.toJson_numbersIn all.1, trivial⟩,
      trivial⟩
  | .function _ body _, fits, reads =>
    have all := List.forall_mem_cons.1 fits
    have both := List.forall_mem_append.1 all.2
    ⟨⟨Name.items_numbersIn both.1, body.toJson_numbersIn both.2 reads,
      Span.toJson_numbersIn all.1, trivial⟩, trivial⟩
  | .call callee arguments _, fits, reads =>
    have all := List.forall_mem_cons.1 fits
    have both := List.forall_mem_append.1 all.2
    have literals := List.forall_mem_append.1 reads
    ⟨⟨callee.toJson_numbersIn both.1 literals.1,
      Expression.items_numbersIn arguments both.2 literals.2,
      Span.toJson_numbersIn all.1, trivial⟩, trivial⟩
  | .array elements _, fits, reads =>
    have all := List.forall_mem_cons.1 fits
    ⟨⟨Expression.items_numbersIn elements all.2 reads, Span.toJson_numbersIn all.1, trivial⟩,
      trivial⟩
  | .index target index _, fits, reads =>
    have all := List.forall_mem_cons.1 fits
    have both := List.forall_mem_append.1 all.2
    have literals := List.forall_mem_append.1 reads
    ⟨⟨target.toJson_numbersIn both.1 literals.1, index.toJson_numbersIn both.2 literals.2,
      Span.toJson_numbersIn all.1, trivial⟩, trivial⟩
  | .assign _ value _, fits, reads =>
    have all := List.forall_mem_cons.1 fits
    have both := List.forall_mem_cons.1 all.2
    ⟨⟨Name.toJson_numbersIn both.1, value.toJson_numbersIn both.2 reads,
      Span.toJson_numbersIn all.1, trivial⟩, trivial⟩

theorem Expression.items_numbersIn : ∀ items : List Expression,
    (∀ span ∈ Expression.listSpans items, span.Fits) →
    (∀ literal ∈ Expression.listLiterals items, literal.FloatIn real) →
    Json.ItemsIn real (expressionsToJson items)
  | [], _, _ => trivial
  | item :: items, fit, reads =>
    have both := List.forall_mem_append.1 fit
    have literals := List.forall_mem_append.1 reads
    ⟨item.toJson_numbersIn both.1 literals.1, Expression.items_numbersIn items both.2 literals.2⟩

theorem Binding.toJson_numbersIn : ∀ binding : Binding,
    (∀ span ∈ binding.spans, span.Fits) →
    (∀ literal ∈ binding.literals, literal.FloatIn real) → binding.toJson.NumbersIn real
  | .mk _ value _, fits, reads =>
    have all := List.forall_mem_cons.1 fits
    have both := List.forall_mem_cons.1 all.2
    ⟨Name.toJson_numbersIn both.1, value.toJson_numbersIn both.2 reads,
      Span.toJson_numbersIn all.1, trivial⟩

theorem Block.toJson_numbersIn : ∀ block : Block,
    (∀ span ∈ block.spans, span.Fits) →
    (∀ literal ∈ block.literals, literal.FloatIn real) → block.toJson.NumbersIn real
  | .mk statements _, fits, reads =>
    have all := List.forall_mem_cons.1 fits
    ⟨Statement.items_numbersIn statements all.2 reads, Span.toJson_numbersIn all.1, trivial⟩

theorem Statement.toJson_numbersIn : ∀ statement : Statement,
    (∀ span ∈ statement.spans, span.Fits) →
    (∀ literal ∈ statement.literals, literal.FloatIn real) → statement.toJson.NumbersIn real
  | .bind binding, fits, reads => ⟨binding.toJson_numbersIn fits reads, trivial⟩
  | .leave none span, fits, _ =>
    ⟨⟨trivial, Span.toJson_numbersIn (fits span List.mem_cons_self), trivial⟩, trivial⟩
  | .leave (some value) _, fits, reads =>
    have all := List.forall_mem_cons.1 fits
    ⟨⟨value.toJson_numbersIn all.2 reads, Span.toJson_numbersIn all.1, trivial⟩, trivial⟩
  | .expression value _, fits, reads =>
    have all := List.forall_mem_cons.1 fits
    ⟨⟨value.toJson_numbersIn all.2 reads, Span.toJson_numbersIn all.1, trivial⟩, trivial⟩

theorem Statement.items_numbersIn : ∀ statements : List Statement,
    (∀ span ∈ Statement.listSpans statements, span.Fits) →
    (∀ literal ∈ Statement.listLiterals statements, literal.FloatIn real) →
    Json.ItemsIn real (statementsToJson statements)
  | [], _, _ => trivial
  | statement :: statements, fit, reads =>
    have both := List.forall_mem_append.1 fit
    have literals := List.forall_mem_append.1 reads
    ⟨statement.toJson_numbersIn both.1 literals.1,
      Statement.items_numbersIn statements both.2 literals.2⟩

end

end

/-! ## Documents -/

namespace ProgramDocument

theorem ofJson?_object (version items : Json) :
    ofJson? (.object [("ast_version", version), ("statements", items)]) = (do
      let version ← version.naturalUpTo? greatestVersion
      let statements ← items.listOf? (Statement.ofJson? items.depth)
      return ⟨version, ⟨statements⟩⟩) := by
  have parts : (Json.object [("ast_version", version), ("statements", items)]).parts?
      ["ast_version", "statements"] = some [some version, some items] :=
    Json.parts?_object rfl (by decide)
  rw [ofJson?, parts]
  rfl

/-- A document is what its data is taken for. -/
theorem ofJson?_toJson {document : ProgramDocument} (version : document.version ≤ greatestVersion)
    (fits : ∀ span ∈ document.program.spans, span.Fits) :
    ofJson? document.toJson = some document := by
  have statements := Statement.mapM_ofJson?_toJson document.program.statements _ fits
    (Nat.le_succ (Json.depthOfItems (statementsToJson document.program.statements)))
  simp only [toJson, ofJson?_object, Json.naturalUpTo?_natural version, Json.listOf?, Json.depth,
    statements]
  rfl

section

variable (library : Json.Library) (lawful : library.Lawful) (document : ProgramDocument)
  (version : document.version ≤ greatestVersion)
  (fits : ∀ span ∈ document.program.spans, span.Fits)
  (reads : ∀ value, .float value ∈ document.program.literals → Binary64.IsFinite value →
    library.ReadsBack value)
  (shallow : document.toJson.depth < library.depthLimit)

include lawful version fits reads shallow

/-- The text of a document is read as what the text says. -/
theorem read_write_eq :
    read library (document.write library).toList =
      match ofJson? document.toJson.asWritten with
      | some document => .ok document
      | none => .error .misshapen := by
  have numbers : document.toJson.NumbersIn
      (fun value => Binary64.IsFinite value → library.ReadsBack value) :=
    ⟨Json.natural_numbersIn (Nat.le_trans version (by decide)),
      Statement.items_numbersIn _ fits (Literal.floatIn_of reads), trivial⟩
  rewrite [read, write, lawful document.toJson numbers shallow]
  rfl

/-- **Documents are read back.** -/
theorem read_write (finite : ∀ value, .float value ∈ document.program.literals →
    Binary64.IsFinite value) :
    read library (document.write library).toList = .ok document := by
  have numbers : document.toJson.NumbersIn Binary64.IsFinite :=
    ⟨Json.natural_numbersIn (Nat.le_trans version (by decide)),
      Statement.items_numbersIn _ fits (Literal.floatIn_of finite), trivial⟩
  rw [read_write_eq library lawful document version fits reads shallow,
    Json.NumbersIn.asWritten_eq _ numbers, ofJson?_toJson version fits]

end

/-- The document of `var half = 2.5; print(-3, "\"\n");`, the second argument being a quote and a
line break. -/
def printed : ProgramDocument :=
  ⟨currentVersion,
    ⟨[.bind (.mk ⟨"half", ⟨4, 8⟩⟩
        (.literal (.float (Float.ofBits 0x4004000000000000)) ⟨11, 14⟩) ⟨0, 15⟩),
      .expression
        (.call (.name ⟨"print", ⟨16, 21⟩⟩)
          [.literal (.integer (-3)) ⟨22, 24⟩, .literal (.string "\"\n") ⟨26, 32⟩] ⟨16, 33⟩)
        ⟨16, 34⟩]⟩⟩

theorem readsBack_half : Json.Library.standard.ReadsBack (Float.ofBits 0x4004000000000000) := by
  have written : Json.writeReal (Float.ofBits 0x4004000000000000) = ['2', '.', '5'] := by
    decide +kernel
  rw [Json.Library.standard_readsBack, written]
  rfl

theorem read_write_printed : read .standard (printed.write .standard).toList = .ok printed := by
  have half : ∀ value, .float value ∈ printed.program.literals →
      value = Float.ofBits 0x4004000000000000 := by
    intro value member
    have literals : printed.program.literals =
        [.float (Float.ofBits 0x4004000000000000), .integer (-3), .string "\"\n"] := rfl
    simpa [literals] using member
  refine read_write .standard Json.Library.standard_lawful printed (by decide) (by decide) ?_
    (by decide) ?_
  · intro value member _
    exact half value member ▸ readsBack_half
  · intro value member
    rw [half value member]
    decide +kernel

end ProgramDocument

end MonkeyLang
