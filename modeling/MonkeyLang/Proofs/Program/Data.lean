import MonkeyLang.Program.Reader
import MonkeyLang.Proofs.Program.Parts

/-!
# Programs are read back from data

The data of a node is read back as that node, with as much fuel as the data is deep
(`Expression.ofJson?_toJson` and its companions). Of the parts only the spans can be too large
for the reader (`Span.Fits`).
-/

set_option autoImplicit false

namespace MonkeyLang

/-! ## Objects and their parts -/

theorem mapM_eq_some {α β : Type} {change : α → Option β} (result : α → β) {items : List α}
    (each : ∀ item ∈ items, change item = some (result item)) :
    items.mapM change = some (items.map result) := by
  induction items with
  | nil => rfl
  | cons item items ih =>
    have rest := ih fun other member => each other (List.mem_cons_of_mem _ member)
    simp [each item List.mem_cons_self, rest]

namespace Json

theorem filter_fst_eq {members : List (String × Json)} (distinct : (members.map Prod.fst).Nodup)
    {member : String × Json} (present : member ∈ members) :
    members.filter (·.1 == member.1) = [member] := by
  induction members with
  | nil => cases present
  | cons first members ih =>
    rw [List.map_cons, List.nodup_cons] at distinct
    rcases List.mem_cons.1 present with rfl | later
    · have none : members.filter (·.1 == member.1) = [] := by
        rw [List.filter_eq_nil_iff]
        intro other among same
        exact distinct.1 (eq_of_beq same ▸ List.mem_map_of_mem among)
      rw [List.filter_cons_of_pos (by simp), none]
    · have other : first.1 ≠ member.1 := by
        intro same
        exact distinct.1 (same ▸ List.mem_map_of_mem later)
      rw [List.filter_cons_of_neg (by simpa using other), ih distinct.2 later]

/-- An object has the parts that its members are, if no name is given twice. -/
theorem parts?_object {members : List (String × Json)} {names : List String}
    (are : members.map Prod.fst = names) (distinct : names.Nodup) :
    (object members).parts? names = some (members.map fun member => some member.2) := by
  subst are
  rw [parts?, List.mapM_map]
  exact mapM_eq_some _ fun member present => by
    simp only [Function.comp, filter_fst_eq distinct present]

end Json

/-! ## Leaves -/

/-- The offsets of the span are sizes. -/
structure Span.Fits (span : Span) : Prop where
  start : span.start ≤ Number.greatestSize
  stop : span.stop ≤ Number.greatestSize

instance (span : Span) : Decidable span.Fits :=
  decidable_of_iff (span.start ≤ Number.greatestSize ∧ span.stop ≤ Number.greatestSize)
    ⟨fun both => ⟨both.1, both.2⟩, fun fits => ⟨fits.start, fits.stop⟩⟩

theorem Json.naturalUpTo?_natural {bound value : Nat} (small : value ≤ bound) :
    (Json.natural value).naturalUpTo? bound = some value := by
  simp [Json.natural, Json.naturalUpTo?, small]

theorem Span.ofJson?_toJson {span : Span} (fits : span.Fits) :
    Span.ofJson? span.toJson = some span := by
  simp [Span.ofJson?, Span.toJson, Json.parts?_object, Json.naturalUpTo?_natural fits.start,
    Json.naturalUpTo?_natural fits.stop]

theorem Name.ofJson?_toJson {name : Name} (fits : name.span.Fits) :
    Name.ofJson? name.toJson = some name := by
  simp [Name.ofJson?, Name.toJson, Json.parts?_object, Span.ofJson?_toJson fits]

theorem Literal.ofJson?_toJson (literal : Literal) :
    Literal.ofJson? literal.toJson = some literal := by
  cases literal with
  | integer value =>
    have low : Number.leastInteger ≤ value.toInt := Int64.le_toInt value
    have high : value.toInt ≤ Number.greatestInteger := Int64.toInt_le value
    simp [Literal.ofJson?, Literal.toJson, Json.member?, low, high]
  | float value => rfl
  | string value => rfl
  | boolean value => rfl

theorem UnaryOperator.ofJson?_dataName (operator : UnaryOperator) :
    UnaryOperator.ofJson? (.string operator.dataName) = some operator := by
  cases operator <;> rfl

theorem BinaryOperator.ofJson?_dataName (operator : BinaryOperator) :
    BinaryOperator.ofJson? (.string operator.dataName) = some operator := by
  cases operator <;> rfl

theorem Name.mapM_ofJson?_toJson {names : List Name} (fit : ∀ span ∈ names.map Name.span, span.Fits) :
    (names.map Name.toJson).mapM Name.ofJson? = some names := by
  rw [List.mapM_map, mapM_eq_some id, List.map_id]
  exact fun name member => Name.ofJson?_toJson (fit _ (List.mem_map_of_mem member))

/-- The data of an expression is never taken for a missing one. -/
theorem Expression.toJson_eq_object (expression : Expression) :
    ∃ members, expression.toJson = .object members := by
  cases expression with
  | conditional condition consequence alternative span => cases alternative <;> exact ⟨_, rfl⟩
  | _ => exact ⟨_, rfl⟩

theorem Block.toJson_eq_object : ∀ block : Block, ∃ members, block.toJson = .object members
  | .mk _ _ => ⟨_, rfl⟩

/-! ## What a node is read as

A node is read as what its parts are read as. -/

section

variable {fuel : Nat} (operator operand left right condition start post consequence body callee
  target index value span : Json) (items : List Json) (members : List (String × Json))

namespace Expression

theorem ofJson?_literalNode :
    Expression.ofJson? (fuel + 1) (.object [("Literal", .array [value, span])]) = do
      return .literal (← Literal.ofJson? value) (← Span.ofJson? span) := rfl

theorem ofJson?_nameNode :
    Expression.ofJson? (fuel + 1) (.object [("Identifier", target)]) = do
      return .name (← Name.ofJson? target) := rfl

theorem ofJson?_unaryNode :
    Expression.ofJson? (fuel + 1)
        (.node "Prefix" [("op", operator), ("operand", operand), ("span", span)]) = do
      return .unary (← UnaryOperator.ofJson? operator) (← Expression.ofJson? fuel operand)
        (← Span.ofJson? span) := rfl

theorem ofJson?_binaryNode :
    Expression.ofJson? (fuel + 1)
        (.node "Infix" [("op", operator), ("left", left), ("right", right), ("span", span)]) = do
      return .binary (← BinaryOperator.ofJson? operator) (← Expression.ofJson? fuel left)
        (← Expression.ofJson? fuel right) (← Span.ofJson? span) := rfl

theorem ofJson?_conditionalNode :
    Expression.ofJson? (fuel + 1)
        (.node "If" [("condition", condition), ("consequence", consequence),
          ("alternative", .null), ("span", span)]) = do
      return .conditional (← Expression.ofJson? fuel condition)
        (← Block.ofJson? fuel consequence) none (← Span.ofJson? span) := rfl

/-- The data of a block is an object, so it is not taken for a missing one. -/
theorem ofJson?_conditionalElseNode :
    Expression.ofJson? (fuel + 1)
        (.node "If" [("condition", condition), ("consequence", consequence),
          ("alternative", .object members), ("span", span)]) = do
      let alternative ← (Block.ofJson? fuel (.object members)).map some
      return .conditional (← Expression.ofJson? fuel condition)
        (← Block.ofJson? fuel consequence) alternative (← Span.ofJson? span) := rfl

theorem ofJson?_whileLoopNode :
    Expression.ofJson? (fuel + 1)
        (.node "While" [("condition", condition), ("body", body), ("span", span)]) = do
      return .whileLoop (← Expression.ofJson? fuel condition) (← Block.ofJson? fuel body)
        (← Span.ofJson? span) := rfl

theorem ofJson?_forLoopNode :
    Expression.ofJson? (fuel + 1)
        (.node "For" [("init", start), ("condition", condition), ("post", post), ("body", body),
          ("span", span)]) = do
      return .forLoop (← Binding.ofJson? fuel start) (← Expression.ofJson? fuel condition)
        (← Expression.ofJson? fuel post) (← Block.ofJson? fuel body) (← Span.ofJson? span) := rfl

theorem ofJson?_functionNode :
    Expression.ofJson? (fuel + 1)
        (.node "Function" [("params", .array items), ("body", body), ("span", span)]) = do
      return .function (← items.mapM Name.ofJson?) (← Block.ofJson? fuel body)
        (← Span.ofJson? span) := rfl

theorem ofJson?_callNode :
    Expression.ofJson? (fuel + 1)
        (.node "Call" [("callee", callee), ("args", .array items), ("span", span)]) = do
      return .call (← Expression.ofJson? fuel callee) (← items.mapM (Expression.ofJson? fuel))
        (← Span.ofJson? span) := rfl

theorem ofJson?_arrayNode :
    Expression.ofJson? (fuel + 1)
        (.node "Array" [("elements", .array items), ("span", span)]) = do
      return .array (← items.mapM (Expression.ofJson? fuel)) (← Span.ofJson? span) := rfl

theorem ofJson?_indexNode :
    Expression.ofJson? (fuel + 1)
        (.node "Index" [("target", target), ("index", index), ("span", span)]) = do
      return .index (← Expression.ofJson? fuel target) (← Expression.ofJson? fuel index)
        (← Span.ofJson? span) := rfl

theorem ofJson?_assignNode :
    Expression.ofJson? (fuel + 1)
        (.node "Assign" [("target", target), ("value", value), ("span", span)]) = do
      return .assign (← Name.ofJson? target) (← Expression.ofJson? fuel value)
        (← Span.ofJson? span) := rfl

end Expression

theorem Binding.ofJson?_object :
    Binding.ofJson? (fuel + 1)
        (.object [("name", target), ("value", value), ("span", span)]) = do
      return .mk (← Name.ofJson? target) (← Expression.ofJson? fuel value)
        (← Span.ofJson? span) := rfl

theorem Block.ofJson?_object :
    Block.ofJson? (fuel + 1) (.object [("statements", .array items), ("span", span)]) = do
      return .mk (← items.mapM (Statement.ofJson? fuel)) (← Span.ofJson? span) := rfl

namespace Statement

theorem ofJson?_bindNode :
    Statement.ofJson? (fuel + 1) (.object [("Let", value)]) = do
      return .bind (← Binding.ofJson? fuel value) := rfl

theorem ofJson?_leaveNode :
    Statement.ofJson? (fuel + 1) (.node "Return" [("value", .null), ("span", span)]) = do
      return .leave none (← Span.ofJson? span) := rfl

/-- The data of an expression is an object, so it is not taken for a missing one. -/
theorem ofJson?_leaveWithNode :
    Statement.ofJson? (fuel + 1) (.node "Return" [("value", .object members), ("span", span)]) = do
      let value ← (Expression.ofJson? fuel (.object members)).map some
      return .leave value (← Span.ofJson? span) := rfl

theorem ofJson?_expressionNode :
    Statement.ofJson? (fuel + 1) (.node "Expr" [("expr", value), ("span", span)]) = do
      return .expression (← Expression.ofJson? fuel value) (← Span.ofJson? span) := rfl

end Statement

end

/-! ## Nodes whose parts are read back -/

section

variable {fuel : Nat} {span : Span} {condition left right operand callee target index value post :
  Expression} {start : Binding} {body : Block} {items : List Expression}

attribute [local simp] Expression.toJson Binding.toJson Block.toJson Statement.toJson

namespace Expression

theorem ofJson?_literal (literal : Literal) (fits : span.Fits) :
    Expression.ofJson? (fuel + 1) (Expression.literal literal span).toJson =
      some (.literal literal span) := by
  simp [ofJson?_literalNode, Literal.ofJson?_toJson, Span.ofJson?_toJson fits]

theorem ofJson?_name {identifier : Name} (fits : identifier.span.Fits) :
    Expression.ofJson? (fuel + 1) (Expression.name identifier).toJson = some (.name identifier) := by
  simp [ofJson?_nameNode, Name.ofJson?_toJson fits]

theorem ofJson?_unary (operator : UnaryOperator)
    (read : Expression.ofJson? fuel operand.toJson = some operand) (fits : span.Fits) :
    Expression.ofJson? (fuel + 1) (Expression.unary operator operand span).toJson =
      some (.unary operator operand span) := by
  simp [ofJson?_unaryNode, read, Span.ofJson?_toJson fits, UnaryOperator.ofJson?_dataName]

theorem ofJson?_binary (operator : BinaryOperator)
    (read_left : Expression.ofJson? fuel left.toJson = some left)
    (read_right : Expression.ofJson? fuel right.toJson = some right) (fits : span.Fits) :
    Expression.ofJson? (fuel + 1) (Expression.binary operator left right span).toJson =
      some (.binary operator left right span) := by
  simp [ofJson?_binaryNode, read_left, read_right, Span.ofJson?_toJson fits,
    BinaryOperator.ofJson?_dataName]

theorem ofJson?_conditional
    (read_condition : Expression.ofJson? fuel condition.toJson = some condition)
    (read_body : Block.ofJson? fuel body.toJson = some body) (fits : span.Fits) :
    Expression.ofJson? (fuel + 1) (Expression.conditional condition body none span).toJson =
      some (.conditional condition body none span) := by
  simp [ofJson?_conditionalNode, read_condition, read_body, Span.ofJson?_toJson fits]

theorem ofJson?_conditional_else {alternative : Block}
    (read_condition : Expression.ofJson? fuel condition.toJson = some condition)
    (read_body : Block.ofJson? fuel body.toJson = some body)
    (read_alternative : Block.ofJson? fuel alternative.toJson = some alternative)
    (fits : span.Fits) :
    Expression.ofJson? (fuel + 1)
        (Expression.conditional condition body (some alternative) span).toJson =
      some (.conditional condition body (some alternative) span) := by
  obtain ⟨members, object⟩ := alternative.toJson_eq_object
  rw [object] at read_alternative
  simp [ofJson?_conditionalElseNode, object, read_condition, read_body, read_alternative,
    Span.ofJson?_toJson fits]

theorem ofJson?_whileLoop
    (read_condition : Expression.ofJson? fuel condition.toJson = some condition)
    (read_body : Block.ofJson? fuel body.toJson = some body) (fits : span.Fits) :
    Expression.ofJson? (fuel + 1) (Expression.whileLoop condition body span).toJson =
      some (.whileLoop condition body span) := by
  simp [ofJson?_whileLoopNode, read_condition, read_body, Span.ofJson?_toJson fits]

theorem ofJson?_forLoop (read_start : Binding.ofJson? fuel start.toJson = some start)
    (read_condition : Expression.ofJson? fuel condition.toJson = some condition)
    (read_post : Expression.ofJson? fuel post.toJson = some post)
    (read_body : Block.ofJson? fuel body.toJson = some body) (fits : span.Fits) :
    Expression.ofJson? (fuel + 1) (Expression.forLoop start condition post body span).toJson =
      some (.forLoop start condition post body span) := by
  simp [ofJson?_forLoopNode, read_start, read_condition, read_post, read_body,
    Span.ofJson?_toJson fits]

theorem ofJson?_function {names : List Name} (names_fit : ∀ span ∈ names.map Name.span, span.Fits)
    (read_body : Block.ofJson? fuel body.toJson = some body) (fits : span.Fits) :
    Expression.ofJson? (fuel + 1) (Expression.function names body span).toJson =
      some (.function names body span) := by
  simp only [Expression.toJson, ofJson?_functionNode, Name.mapM_ofJson?_toJson names_fit, read_body,
    Span.ofJson?_toJson fits]
  rfl

theorem ofJson?_call (read_callee : Expression.ofJson? fuel callee.toJson = some callee)
    (read_items : (expressionsToJson items).mapM (Expression.ofJson? fuel) = some items)
    (fits : span.Fits) :
    Expression.ofJson? (fuel + 1) (Expression.call callee items span).toJson =
      some (.call callee items span) := by
  simp [ofJson?_callNode, read_callee, read_items, Span.ofJson?_toJson fits]

theorem ofJson?_array
    (read_items : (expressionsToJson items).mapM (Expression.ofJson? fuel) = some items)
    (fits : span.Fits) :
    Expression.ofJson? (fuel + 1) (Expression.array items span).toJson =
      some (.array items span) := by
  simp [ofJson?_arrayNode, read_items, Span.ofJson?_toJson fits]

theorem ofJson?_index (read_target : Expression.ofJson? fuel target.toJson = some target)
    (read_index : Expression.ofJson? fuel index.toJson = some index) (fits : span.Fits) :
    Expression.ofJson? (fuel + 1) (Expression.index target index span).toJson =
      some (.index target index span) := by
  simp [ofJson?_indexNode, read_target, read_index, Span.ofJson?_toJson fits]

theorem ofJson?_assign {name : Name} (name_fits : name.span.Fits)
    (read : Expression.ofJson? fuel value.toJson = some value) (fits : span.Fits) :
    Expression.ofJson? (fuel + 1) (Expression.assign name value span).toJson =
      some (.assign name value span) := by
  simp [ofJson?_assignNode, read, Name.ofJson?_toJson name_fits, Span.ofJson?_toJson fits]

end Expression

theorem Binding.ofJson?_mk {name : Name} (name_fits : name.span.Fits)
    (read : Expression.ofJson? fuel value.toJson = some value) (fits : span.Fits) :
    Binding.ofJson? (fuel + 1) (Binding.mk name value span).toJson =
      some (.mk name value span) := by
  simp [ofJson?_object, read, Name.ofJson?_toJson name_fits, Span.ofJson?_toJson fits]

theorem Block.ofJson?_mk {statements : List Statement}
    (read : (statementsToJson statements).mapM (Statement.ofJson? fuel) = some statements)
    (fits : span.Fits) :
    Block.ofJson? (fuel + 1) (Block.mk statements span).toJson = some (.mk statements span) := by
  simp [ofJson?_object, read, Span.ofJson?_toJson fits]

namespace Statement

theorem ofJson?_bind {binding : Binding}
    (read : Binding.ofJson? fuel binding.toJson = some binding) :
    Statement.ofJson? (fuel + 1) (Statement.bind binding).toJson = some (.bind binding) := by
  simp [ofJson?_bindNode, read]

theorem ofJson?_leave (fits : span.Fits) :
    Statement.ofJson? (fuel + 1) (Statement.leave none span).toJson = some (.leave none span) := by
  simp [ofJson?_leaveNode, Span.ofJson?_toJson fits]

theorem ofJson?_leave_with (read : Expression.ofJson? fuel value.toJson = some value)
    (fits : span.Fits) :
    Statement.ofJson? (fuel + 1) (Statement.leave (some value) span).toJson =
      some (.leave (some value) span) := by
  obtain ⟨members, object⟩ := value.toJson_eq_object
  rw [object] at read
  simp [ofJson?_leaveWithNode, object, read, Span.ofJson?_toJson fits]

theorem ofJson?_expression (read : Expression.ofJson? fuel value.toJson = some value)
    (fits : span.Fits) :
    Statement.ofJson? (fuel + 1) (Statement.expression value span).toJson =
      some (.expression value span) := by
  simp [ofJson?_expressionNode, read, Span.ofJson?_toJson fits]

end Statement

end

/-! ## Whole programs -/

mutual

/-- An expression is read back from its data. -/
theorem Expression.ofJson?_toJson : ∀ (expression : Expression) (fuel : Nat),
    (∀ span ∈ expression.spans, span.Fits) → expression.toJson.depth ≤ fuel →
    Expression.ofJson? fuel expression.toJson = some expression
  | .literal value span, fuel, fits, deep => by
    simp only [Expression.toJson, Json.depth] at deep
    obtain ⟨less, rfl⟩ : ∃ less, fuel = less + 1 := Nat.exists_eq_add_of_le' (by omega)
    have span_fits := fits span List.mem_cons_self
    exact Expression.ofJson?_literal value span_fits
  | .name identifier, fuel, fits, deep => by
    simp only [Expression.toJson, Json.depth] at deep
    obtain ⟨less, rfl⟩ : ∃ less, fuel = less + 1 := Nat.exists_eq_add_of_le' (by omega)
    have name_fits := fits identifier.span List.mem_cons_self
    exact Expression.ofJson?_name name_fits
  | .unary operator operand span, fuel, fits, deep => by
    simp only [Expression.toJson, Json.node, Json.depth, Json.depthOfMembers] at deep
    obtain ⟨less, rfl⟩ : ∃ less, fuel = less + 1 := Nat.exists_eq_add_of_le' (by omega)
    obtain ⟨span_fits, operand_fits⟩ := List.forall_mem_cons.1 fits
    have read := operand.ofJson?_toJson less operand_fits (by omega)
    exact Expression.ofJson?_unary operator read span_fits
  | .binary operator left right span, fuel, fits, deep => by
    simp only [Expression.toJson, Json.node, Json.depth, Json.depthOfMembers] at deep
    obtain ⟨less, rfl⟩ : ∃ less, fuel = less + 1 := Nat.exists_eq_add_of_le' (by omega)
    obtain ⟨span_fits, both⟩ := List.forall_mem_cons.1 fits
    obtain ⟨left_fits, right_fits⟩ := List.forall_mem_append.1 both
    have read_left := left.ofJson?_toJson less left_fits (by omega)
    have read_right := right.ofJson?_toJson less right_fits (by omega)
    exact Expression.ofJson?_binary operator read_left read_right span_fits
  | .conditional condition consequence none span, fuel, fits, deep => by
    simp only [Expression.toJson, Json.node, Json.depth, Json.depthOfMembers] at deep
    obtain ⟨less, rfl⟩ : ∃ less, fuel = less + 1 := Nat.exists_eq_add_of_le' (by omega)
    obtain ⟨span_fits, parts⟩ := List.forall_mem_cons.1 fits
    obtain ⟨condition_fits, consequence_fits⟩ := List.forall_mem_append.1 parts
    have read_condition := condition.ofJson?_toJson less condition_fits (by omega)
    have read_consequence := consequence.ofJson?_toJson less consequence_fits (by omega)
    exact Expression.ofJson?_conditional read_condition read_consequence span_fits
  | .conditional condition consequence (some alternative) span, fuel, fits, deep => by
    simp only [Expression.toJson, Json.node, Json.depth, Json.depthOfMembers] at deep
    obtain ⟨less, rfl⟩ : ∃ less, fuel = less + 1 := Nat.exists_eq_add_of_le' (by omega)
    obtain ⟨span_fits, parts⟩ := List.forall_mem_cons.1 fits
    obtain ⟨condition_fits, blocks⟩ := List.forall_mem_append.1 parts
    obtain ⟨consequence_fits, alternative_fits⟩ := List.forall_mem_append.1 blocks
    have read_condition := condition.ofJson?_toJson less condition_fits (by omega)
    have read_consequence := consequence.ofJson?_toJson less consequence_fits (by omega)
    have read_alternative := alternative.ofJson?_toJson less alternative_fits (by omega)
    exact Expression.ofJson?_conditional_else read_condition read_consequence read_alternative
      span_fits
  | .whileLoop condition body span, fuel, fits, deep => by
    simp only [Expression.toJson, Json.node, Json.depth, Json.depthOfMembers] at deep
    obtain ⟨less, rfl⟩ : ∃ less, fuel = less + 1 := Nat.exists_eq_add_of_le' (by omega)
    obtain ⟨span_fits, both⟩ := List.forall_mem_cons.1 fits
    obtain ⟨condition_fits, body_fits⟩ := List.forall_mem_append.1 both
    have read_condition := condition.ofJson?_toJson less condition_fits (by omega)
    have read_body := body.ofJson?_toJson less body_fits (by omega)
    exact Expression.ofJson?_whileLoop read_condition read_body span_fits
  | .forLoop start condition post body span, fuel, fits, deep => by
    simp only [Expression.toJson, Json.node, Json.depth, Json.depthOfMembers] at deep
    obtain ⟨less, rfl⟩ : ∃ less, fuel = less + 1 := Nat.exists_eq_add_of_le' (by omega)
    obtain ⟨span_fits, parts⟩ := List.forall_mem_cons.1 fits
    obtain ⟨start_fits, parts⟩ := List.forall_mem_append.1 parts
    obtain ⟨condition_fits, parts⟩ := List.forall_mem_append.1 parts
    obtain ⟨post_fits, body_fits⟩ := List.forall_mem_append.1 parts
    have read_start := start.ofJson?_toJson less start_fits (by omega)
    have read_condition := condition.ofJson?_toJson less condition_fits (by omega)
    have read_post := post.ofJson?_toJson less post_fits (by omega)
    have read_body := body.ofJson?_toJson less body_fits (by omega)
    exact Expression.ofJson?_forLoop read_start read_condition read_post read_body span_fits
  | .function parameters body span, fuel, fits, deep => by
    simp only [Expression.toJson, Json.node, Json.depth, Json.depthOfMembers] at deep
    obtain ⟨less, rfl⟩ : ∃ less, fuel = less + 1 := Nat.exists_eq_add_of_le' (by omega)
    obtain ⟨span_fits, both⟩ := List.forall_mem_cons.1 fits
    obtain ⟨names_fit, body_fits⟩ := List.forall_mem_append.1 both
    have read_body := body.ofJson?_toJson less body_fits (by omega)
    exact Expression.ofJson?_function names_fit read_body span_fits
  | .call callee arguments span, fuel, fits, deep => by
    simp only [Expression.toJson, Json.node, Json.depth, Json.depthOfMembers] at deep
    obtain ⟨less, rfl⟩ : ∃ less, fuel = less + 1 := Nat.exists_eq_add_of_le' (by omega)
    obtain ⟨span_fits, both⟩ := List.forall_mem_cons.1 fits
    obtain ⟨callee_fits, arguments_fit⟩ := List.forall_mem_append.1 both
    have read_callee := callee.ofJson?_toJson less callee_fits (by omega)
    have read_arguments := Expression.mapM_ofJson?_toJson arguments less arguments_fit
      (by omega)
    exact Expression.ofJson?_call read_callee read_arguments span_fits
  | .array elements span, fuel, fits, deep => by
    simp only [Expression.toJson, Json.node, Json.depth, Json.depthOfMembers] at deep
    obtain ⟨less, rfl⟩ : ∃ less, fuel = less + 1 := Nat.exists_eq_add_of_le' (by omega)
    obtain ⟨span_fits, elements_fit⟩ := List.forall_mem_cons.1 fits
    have read := Expression.mapM_ofJson?_toJson elements less elements_fit (by omega)
    exact Expression.ofJson?_array read span_fits
  | .index target index span, fuel, fits, deep => by
    simp only [Expression.toJson, Json.node, Json.depth, Json.depthOfMembers] at deep
    obtain ⟨less, rfl⟩ : ∃ less, fuel = less + 1 := Nat.exists_eq_add_of_le' (by omega)
    obtain ⟨span_fits, both⟩ := List.forall_mem_cons.1 fits
    obtain ⟨target_fits, index_fits⟩ := List.forall_mem_append.1 both
    have read_target := target.ofJson?_toJson less target_fits (by omega)
    have read_index := index.ofJson?_toJson less index_fits (by omega)
    exact Expression.ofJson?_index read_target read_index span_fits
  | .assign target value span, fuel, fits, deep => by
    simp only [Expression.toJson, Json.node, Json.depth, Json.depthOfMembers] at deep
    obtain ⟨less, rfl⟩ : ∃ less, fuel = less + 1 := Nat.exists_eq_add_of_le' (by omega)
    obtain ⟨span_fits, both⟩ := List.forall_mem_cons.1 fits
    obtain ⟨name_fits, value_fits⟩ := List.forall_mem_cons.1 both
    have read := value.ofJson?_toJson less value_fits (by omega)
    exact Expression.ofJson?_assign name_fits read span_fits

/-- Expressions are read back from their data. -/
theorem Expression.mapM_ofJson?_toJson : ∀ (items : List Expression) (fuel : Nat),
    (∀ span ∈ Expression.listSpans items, span.Fits) →
    Json.depthOfItems (expressionsToJson items) ≤ fuel →
    (expressionsToJson items).mapM (Expression.ofJson? fuel) = some items
  | [], _, _, _ => rfl
  | item :: items, fuel, fit, deep => by
    simp only [expressionsToJson, Json.depthOfItems] at deep
    obtain ⟨item_fits, items_fit⟩ := List.forall_mem_append.1 fit
    have read := item.ofJson?_toJson fuel item_fits (by omega)
    have read_items := Expression.mapM_ofJson?_toJson items fuel items_fit (by omega)
    simp [expressionsToJson, read, read_items]

/-- A binding is read back from its data. -/
theorem Binding.ofJson?_toJson : ∀ (binding : Binding) (fuel : Nat),
    (∀ span ∈ binding.spans, span.Fits) → binding.toJson.depth ≤ fuel →
    Binding.ofJson? fuel binding.toJson = some binding
  | .mk name value span, fuel, fits, deep => by
    simp only [Binding.toJson, Json.depth, Json.depthOfMembers] at deep
    obtain ⟨less, rfl⟩ : ∃ less, fuel = less + 1 := Nat.exists_eq_add_of_le' (by omega)
    obtain ⟨span_fits, both⟩ := List.forall_mem_cons.1 fits
    obtain ⟨name_fits, value_fits⟩ := List.forall_mem_cons.1 both
    have read := value.ofJson?_toJson less value_fits (by omega)
    exact Binding.ofJson?_mk name_fits read span_fits

/-- A block is read back from its data. -/
theorem Block.ofJson?_toJson : ∀ (block : Block) (fuel : Nat),
    (∀ span ∈ block.spans, span.Fits) → block.toJson.depth ≤ fuel →
    Block.ofJson? fuel block.toJson = some block
  | .mk statements span, fuel, fits, deep => by
    simp only [Block.toJson, Json.depth, Json.depthOfMembers] at deep
    obtain ⟨less, rfl⟩ : ∃ less, fuel = less + 1 := Nat.exists_eq_add_of_le' (by omega)
    obtain ⟨span_fits, statements_fit⟩ := List.forall_mem_cons.1 fits
    have read := Statement.mapM_ofJson?_toJson statements less statements_fit (by omega)
    exact Block.ofJson?_mk read span_fits

/-- A statement is read back from its data. -/
theorem Statement.ofJson?_toJson : ∀ (statement : Statement) (fuel : Nat),
    (∀ span ∈ statement.spans, span.Fits) → statement.toJson.depth ≤ fuel →
    Statement.ofJson? fuel statement.toJson = some statement
  | .bind binding, fuel, fits, deep => by
    simp only [Statement.toJson, Json.depth, Json.depthOfMembers] at deep
    obtain ⟨less, rfl⟩ : ∃ less, fuel = less + 1 := Nat.exists_eq_add_of_le' (by omega)
    have read := binding.ofJson?_toJson less fits (by omega)
    exact Statement.ofJson?_bind read
  | .leave none span, fuel, fits, deep => by
    simp only [Statement.toJson, Json.node, Json.depth] at deep
    obtain ⟨less, rfl⟩ : ∃ less, fuel = less + 1 := Nat.exists_eq_add_of_le' (by omega)
    have span_fits := fits span List.mem_cons_self
    exact Statement.ofJson?_leave span_fits
  | .leave (some value) span, fuel, fits, deep => by
    simp only [Statement.toJson, Json.node, Json.depth, Json.depthOfMembers] at deep
    obtain ⟨less, rfl⟩ : ∃ less, fuel = less + 1 := Nat.exists_eq_add_of_le' (by omega)
    obtain ⟨span_fits, value_fits⟩ := List.forall_mem_cons.1 fits
    have read := value.ofJson?_toJson less value_fits (by omega)
    exact Statement.ofJson?_leave_with read span_fits
  | .expression value span, fuel, fits, deep => by
    simp only [Statement.toJson, Json.node, Json.depth, Json.depthOfMembers] at deep
    obtain ⟨less, rfl⟩ : ∃ less, fuel = less + 1 := Nat.exists_eq_add_of_le' (by omega)
    obtain ⟨span_fits, value_fits⟩ := List.forall_mem_cons.1 fits
    have read := value.ofJson?_toJson less value_fits (by omega)
    exact Statement.ofJson?_expression read span_fits

/-- Statements are read back from their data. -/
theorem Statement.mapM_ofJson?_toJson : ∀ (statements : List Statement) (fuel : Nat),
    (∀ span ∈ Statement.listSpans statements, span.Fits) →
    Json.depthOfItems (statementsToJson statements) ≤ fuel →
    (statementsToJson statements).mapM (Statement.ofJson? fuel) = some statements
  | [], _, _, _ => rfl
  | statement :: statements, fuel, fit, deep => by
    simp only [statementsToJson, Json.depthOfItems] at deep
    obtain ⟨statement_fits, statements_fit⟩ := List.forall_mem_append.1 fit
    have read := statement.ofJson?_toJson fuel statement_fits (by omega)
    have read_statements := Statement.mapM_ofJson?_toJson statements fuel statements_fit
      (by omega)
    simp [statementsToJson, read, read_statements]

end

end MonkeyLang
