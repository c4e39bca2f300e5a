import MonkeyLang.Proofs.Program.Blocks
import MonkeyLang.Proofs.Program.Operands

/-!
# Programs are read back from their words

Everything a program consists of is read back, as long as its literals need no sign in front
(`Expression.rereads` and its companions, by induction on the syntax). A program is therefore
read back from its words up to spans, and no failure is reported on the way
(`Program.ofTokens_of_spells`).
-/

set_option autoImplicit false

namespace MonkeyLang

mutual

theorem Expression.rereads : ∀ expression : Expression,
    (∀ literal ∈ expression.literals, literal.Unsigned) → expression.Rereads
  | .literal value _, unsigned => literal_rereads (unsigned value List.mem_cons_self)
  | .name _, _ => name_rereads
  | .unary _ operand _, unsigned => unary_rereads (operand.rereads unsigned)
  | .binary _ left right _, unsigned =>
    have both := List.forall_mem_append.1 unsigned
    binary_rereads (left.rereads both.1) (right.rereads both.2)
  | .conditional condition consequence none _, unsigned =>
    have both := List.forall_mem_append.1 unsigned
    conditional_rereads (condition.rereads both.1) (consequence.rereads both.2)
  | .conditional condition consequence (some alternative) _, unsigned =>
    have both := List.forall_mem_append.1 unsigned
    have blocks := List.forall_mem_append.1 both.2
    conditional_else_rereads (condition.rereads both.1) (consequence.rereads blocks.1)
      (alternative.rereads blocks.2)
  | .whileLoop condition body _, unsigned =>
    have both := List.forall_mem_append.1 unsigned
    whileLoop_rereads (condition.rereads both.1) (body.rereads both.2)
  | .forLoop start condition post body _, unsigned =>
    have first := List.forall_mem_append.1 unsigned
    have second := List.forall_mem_append.1 first.2
    have third := List.forall_mem_append.1 second.2
    forLoop_rereads (start.rereads first.1) (condition.rereads second.1) (post.rereads third.1)
      (body.rereads third.2)
  | .function _ body _, unsigned => function_rereads (body.rereads unsigned)
  | .call callee arguments _, unsigned =>
    have both := List.forall_mem_append.1 unsigned
    call_rereads (callee.rereads both.1) (Expression.list_rereads arguments both.2)
  | .array elements _, unsigned => array_rereads (Expression.list_rereads elements unsigned)
  | .index target index _, unsigned =>
    have both := List.forall_mem_append.1 unsigned
    index_rereads (target.rereads both.1) (index.rereads both.2)
  | .assign _ value _, unsigned => assign_rereads (value.rereads unsigned)

theorem Expression.list_rereads : ∀ items : List Expression,
    (∀ literal ∈ Expression.listLiterals items, literal.Unsigned) → ∀ item ∈ items, item.Rereads
  | [], _ => List.forall_mem_nil _
  | item :: items, unsigned =>
    have both := List.forall_mem_append.1 unsigned
    List.forall_mem_cons.2 ⟨item.rereads both.1, Expression.list_rereads items both.2⟩

theorem Binding.rereads : ∀ binding : Binding,
    (∀ literal ∈ binding.literals, literal.Unsigned) → binding.Rereads
  | .mk _ value _, unsigned => binding_rereads (value.rereads unsigned)

theorem Block.rereads : ∀ block : Block,
    (∀ literal ∈ block.literals, literal.Unsigned) → block.Rereads
  | .mk statements _, unsigned => block_rereads (Statement.list_rereads statements unsigned)

theorem Statement.rereads : ∀ statement : Statement,
    (∀ literal ∈ statement.literals, literal.Unsigned) → statement.Rereads
  | .bind binding, unsigned => bind_rereads (binding.rereads unsigned)
  | .leave none _, _ => leave_rereads
  | .leave (some value) _, unsigned => leave_with_rereads (value.rereads unsigned)
  | .expression value _, unsigned => expression_rereads (value.rereads unsigned)

theorem Statement.list_rereads : ∀ statements : List Statement,
    (∀ literal ∈ Statement.listLiterals statements, literal.Unsigned) →
      ∀ statement ∈ statements, statement.Rereads
  | [], _ => List.forall_mem_nil _
  | statement :: statements, unsigned =>
    have both := List.forall_mem_append.1 unsigned
    List.forall_mem_cons.2 ⟨statement.rereads both.1, Statement.list_rereads statements both.2⟩

end

namespace Program

/-- Statements that are each read back are read one after another up to the end. -/
theorem readStatements_of_rereads {statements : List Statement} {tokens : List Token}
    {close : Token} {statementFuel : Nat} (rereads : ∀ statement ∈ statements, statement.Rereads)
    (spelled : Spells tokens (Statement.listWords statements)) (ends : close.kind = .endOfInput)
    (enough : 4 * tokens.length ≤ statementFuel) :
    ∀ (fuel : Nat) (previous : Token) (done : List Statement) (failures : List SyntaxFailure),
      tokens.length < fuel → ∃ read,
        readStatements statementFuel fuel ⟨previous, tokens ++ [close]⟩ done failures =
          some ⟨⟨done.reverse ++ read⟩, failures.reverse⟩ ∧
        Statement.listWithoutSpans read = Statement.listWithoutSpans statements := by
  induction statements generalizing tokens with
  | nil =>
    intro fuel previous done failures ready
    obtain rfl := spelled.eq_nil
    obtain ⟨less, rfl⟩ : ∃ less, fuel = less + 1 := Nat.exists_eq_add_of_le' ready
    refine ⟨[], ?_, rfl⟩
    have finished : Cursor.atEnd ⟨previous, [] ++ [close]⟩ = true := by
      simp [Cursor.atEnd, ends]
    rw [readStatements, if_pos finished, List.append_nil]
  | cons statement statements ih =>
    intro fuel previous done failures ready
    obtain ⟨front, back, rfl, spelled_first, spelled_rest⟩ := Spells.append spelled
    obtain ⟨token, more, rfl, -, no_end⟩ := Statement.begins spelled_first
    simp only [List.length_append, List.length_cons] at ready enough
    obtain ⟨less, rfl⟩ : ∃ less, fuel = less + 1 := Nat.exists_eq_add_of_le' (by omega)
    have takes : (Parse.statement statementFuel).Takes (token :: more) (back ++ [close])
        (·.withoutSpans = statement.withoutSpans) :=
      rereads statement List.mem_cons_self spelled_first (by simp only [List.length_cons]; omega)
    obtain ⟨value, ran, same⟩ := takes previous
    obtain ⟨read, finished, all_same⟩ := ih
      (fun other member => rereads other (List.mem_cons_of_mem _ member)) spelled_rest (by omega)
      less ((token :: more).getLastD previous) (value :: done) failures (by omega)
    have unfinished : ¬Cursor.atEnd ⟨previous, (token :: more ++ back) ++ [close]⟩ = true := by
      rw [List.append_assoc, List.cons_append, Parse.atEnd_cons no_end]
      exact Bool.false_ne_true
    refine ⟨value :: read, ?_, ?_⟩
    · rw [readStatements, if_neg unfinished, List.append_assoc, ran]
      simpa using finished
    · rw [Statement.listWithoutSpans, Statement.listWithoutSpans, same, all_same]

/-- A program is read back from its words, wherever they stand: every statement is read, nothing
is reported, and only the spans may differ. -/
theorem ofTokens_of_spells (program : Program) (tokens : List Token) (close : Token)
    (unsigned : ∀ literal ∈ program.literals, literal.Unsigned)
    (spelled : Spells tokens program.words) (ends : close.kind = .endOfInput) :
    ∃ reading, ofTokens (tokens ++ [close]) = some reading ∧ reading.failures = [] ∧
      reading.diagnostics = [] ∧ reading.program.withoutSpans = program.withoutSpans := by
  have enough : 4 * tokens.length ≤ fuelFor (tokens ++ [close]) := by
    simp only [fuelFor, List.length_append]
    omega
  obtain ⟨read, finished, same⟩ := readStatements_of_rereads
    (Statement.list_rereads program.statements unsigned) spelled ends enough
    ((tokens ++ [close]).length + 1) ⟨.endOfInput, "", .dummy⟩ [] []
    (by simp only [List.length_append]; omega)
  exact ⟨⟨⟨read⟩, []⟩, finished, rfl, rfl, congrArg Program.mk same⟩

/-- Tokens that are read as an expression, with no semicolon behind, are a program. -/
theorem ofTokens_of_takes {token close : Token} {tokens : List Token} {good : Expression → Prop}
    (opens : token.kind.opensExpression = true) (ends : close.kind = .endOfInput)
    (takes : ∀ fuel, 4 * (token :: tokens).length ≤ fuel →
      (Parse.expression fuel .lowest).Takes (token :: tokens) [close] good) :
    ∃ value span, ofTokens (token :: tokens ++ [close]) = some ⟨⟨[.expression value span]⟩, []⟩ ∧
      good value := by
  have statement : (Parse.statement (fuelFor (token :: tokens ++ [close]))).Takes (token :: tokens)
      [close] fun read => ∃ value span, read = .expression value span ∧ good value := by
    rw [fuelFor, Parse.statement]
    refine Parse.Takes.peek rfl ?_
    split
    case h_1 is => exact absurd (is ▸ opens) (by decide)
    case h_2 is => exact absurd (is ▸ opens) (by decide)
    case h_3 =>
      refine Parse.Takes.bind_nil (takes _ (by simp; omega)) fun value holds => ?_
      refine Parse.Takes.peek rfl ?_
      simp only [ends, assignment?, Option.isSome_none, Bool.false_eq_true, if_false]
      exact Parse.Takes.map (takes_no_semicolon (by rw [ends]; decide)) fun _ _ =>
        ⟨value, _, rfl, holds⟩
  obtain ⟨_, ran, value, span, rfl, holds⟩ := statement ⟨.endOfInput, "", .dummy⟩
  refine ⟨value, span, ?_, holds⟩
  have unfinished : ¬Cursor.atEnd (.start (token :: tokens ++ [close])) = true := by
    have more : token.kind ≠ .endOfInput := fun is => absurd (is ▸ opens) (by decide)
    rw [Cursor.start, List.cons_append, Parse.atEnd_cons more]
    exact Bool.false_ne_true
  rw [ofTokens, readStatements, if_neg unfinished, Cursor.start, ran]
  simp [readStatements, Cursor.atEnd, ends]

/-- The assignment `rate = -(base + 20) * 2.5;`. -/
def scaled : Program :=
  ⟨[.expression
    (.assign ⟨"rate", .dummy⟩
      (.binary .mul
        (.unary .negate
          (.binary .add (.name ⟨"base", .dummy⟩) (.literal (.integer 20) .dummy) .dummy) .dummy)
        (.literal (.float (Float.ofBits 0x4004000000000000)) .dummy) .dummy)
      .dummy)
    .dummy]⟩

/-- The tokens of that assignment. -/
def scaledTokens : List Token :=
  [⟨.identifier, "rate", ⟨0, 4⟩⟩, ⟨.assign, "=", ⟨5, 6⟩⟩, ⟨.minus, "-", ⟨7, 8⟩⟩,
   ⟨.leftParen, "(", ⟨8, 9⟩⟩, ⟨.identifier, "base", ⟨9, 13⟩⟩, ⟨.plus, "+", ⟨14, 15⟩⟩,
   ⟨.integer, "20", ⟨16, 18⟩⟩, ⟨.rightParen, ")", ⟨18, 19⟩⟩, ⟨.star, "*", ⟨20, 21⟩⟩,
   ⟨.float, "2.5", ⟨22, 25⟩⟩, ⟨.semicolon, ";", ⟨25, 26⟩⟩]

theorem spells_scaled : Spells scaledTokens scaled.words := by
  have words : scaled.words =
      [.name "rate", .fixed .assign, .fixed .minus, .fixed .leftParen, .name "base", .fixed .plus,
       .integer 20, .fixed .rightParen, .fixed .star, .float (Float.ofBits 0x4004000000000000),
       .fixed .semicolon] := rfl
  have twenty : "20".toList = Decimal.digitsOf 20 := by decide
  have half : Number.readFloat? "2.5".toList = some (Float.ofBits 0x4004000000000000) := rfl
  rw [words, Spells, scaledTokens]
  refine .cons ⟨rfl, rfl⟩ (.cons ⟨rfl, rfl⟩ (.cons ⟨rfl, rfl⟩ (.cons ⟨rfl, rfl⟩ ?_)))
  refine .cons ⟨rfl, rfl⟩ (.cons ⟨rfl, rfl⟩ (.cons ⟨rfl, twenty⟩ (.cons ⟨rfl, rfl⟩ ?_)))
  exact .cons ⟨rfl, rfl⟩ (.cons ⟨rfl, half⟩ (.cons ⟨rfl, rfl⟩ .nil))

theorem ofTokens_of_spells_scaled : ∃ reading,
    ofTokens (scaledTokens ++ [⟨.endOfInput, "", ⟨26, 26⟩⟩]) = some reading ∧
      reading.failures = [] ∧ reading.diagnostics = [] ∧
      reading.program.withoutSpans = scaled.withoutSpans := by
  refine ofTokens_of_spells scaled scaledTokens ⟨.endOfInput, "", ⟨26, 26⟩⟩ ?_ spells_scaled rfl
  intro literal member
  have literals : scaled.literals =
      [.integer 20, .float (Float.ofBits 0x4004000000000000)] := rfl
  rw [literals] at member
  simp only [List.mem_cons, List.not_mem_nil, or_false] at member
  rcases member with rfl | rfl
  · show (0 : Int) ≤ Int64.toInt 20
    decide
  · trivial

end Program

end MonkeyLang
