import MonkeyLang.Proofs.Number.Digits
import MonkeyLang.Proofs.Program.Beginning

/-!
# Operands and operators are read back

A literal, a name and an assignment are read back as operands, and so are an operator in front
of its operand and an array. Operators between operands, calls and indices extend what stands
before them. Each of them needs its parts to be read back, and nothing else about them.
-/

set_option autoImplicit false

namespace MonkeyLang

section

open Parse

variable {span : Span} {name : Name} {value operand left right callee target index : Expression}
  {items : List Expression}

attribute [local simp] Expression.withoutSpans Name.withoutSpan

theorem literal_rereads {value : Literal} (unsigned : value.Unsigned) :
    (Expression.literal value span).Rereads := by
  intro floor tokens next others spelled _ _
  obtain ⟨token, rfl, shown⟩ := spelled.singleton
  refine .of_operand fun fuel _ => ?_
  rw [Parse.operand]
  refine Takes.peek rfl ?_
  cases value with
  | integer value =>
    have kind : token.kind = .integer := shown.kind
    simp only [kind]
    rw [integer]
    refine Takes.peek rfl ?_
    rw [show token.lexeme.toList = _ from shown.lexeme, Number.readInteger?_digitsOf unsigned]
    exact Takes.map (takes_advance (by rw [kind]; decide)) fun _ _ => rfl
  | float value =>
    have kind : token.kind = .float := shown.kind
    simp only [kind]
    rw [float]
    refine Takes.peek rfl ?_
    rw [show Number.readFloat? token.lexeme.toList = _ from shown.lexeme]
    exact Takes.map (takes_advance (by rw [kind]; decide)) fun _ _ => rfl
  | string value =>
    have kind : token.kind = .string := shown.kind
    have lexeme : token.lexeme = value := shown.lexeme
    simp only [kind]
    refine Takes.map (takes_advance (by rw [kind]; decide)) ?_
    rintro _ rfl
    rw [lexeme]
    rfl
  | boolean value =>
    cases value with
    | true =>
      have kind : token.kind = .trueWord := shown.kind
      simp only [kind]
      refine Takes.map (takes_advance (by rw [kind]; decide)) ?_
      rintro _ rfl
      simp [kind]
    | false =>
      have kind : token.kind = .falseWord := shown.kind
      simp only [kind]
      refine Takes.map (takes_advance (by rw [kind]; decide)) ?_
      rintro _ rfl
      simp [kind]

theorem name_rereads : (Expression.name name).Rereads := by
  intro floor tokens next others spelled _ closes
  obtain ⟨token, _, rfl, kind, lexeme, spelled⟩ := Spells.name spelled
  obtain rfl := spelled.eq_nil
  refine .of_operand fun fuel _ => ?_
  rw [Parse.operand]
  refine Takes.peek rfl ?_
  simp only [kind]
  rw [nameOrAssignment]
  refine Takes.bind_cons (takes_advance (by rw [kind]; decide)) ?_
  refine Takes.peek rfl ?_
  simp only [closes.2.1]
  exact Takes.pure (by simp [lexeme])

theorem assign_rereads (value_rereads : value.Rereads) :
    (Expression.assign name value span).Rereads := by
  intro floor tokens next others spelled _ closes
  obtain ⟨token, _, rfl, kind, lexeme, spelled⟩ := Spells.name spelled
  obtain ⟨sign, more, rfl, sign_kind, spelled⟩ := spelled.fixed
  refine .of_operand fun fuel enough => ?_
  simp only [List.length_cons] at enough
  rw [Parse.operand]
  refine Takes.peek rfl ?_
  simp only [kind]
  rw [nameOrAssignment]
  refine Takes.bind_cons (takes_advance (by rw [kind]; decide)) ?_
  refine Takes.peek rfl ?_
  simp only [sign_kind, assignment?]
  refine Takes.bind_cons (takes_advance (by rw [sign_kind]; decide)) ?_
  refine Takes.map (value_rereads.whole spelled closes (by omega)) fun read same => ?_
  simp [assigned, lexeme, same]

theorem unary_rereads {operator : UnaryOperator} (operand_rereads : operand.Rereads) :
    (Expression.unary operator operand span).Rereads := by
  intro floor tokens next others spelled _ closes
  obtain ⟨sign, more, rfl, sign_kind, spelled⟩ := spelled.fixed
  obtain ⟨token, others', rfl, -⟩ := operand.opens.grouped.tokens spelled
  refine .of_operand fun fuel enough => ?_
  simp only [List.length_cons] at enough
  have enters : Precedence.unary.rank ≤ operand.strength → Precedence.unary.rank < operand.entry :=
    fun tight => by rw [Expression.entry_of_unary_le tight]; decide
  have inner : (Parse.expression (fuel + 1) .unary).Takes (token :: others') (next :: others)
      (·.withoutSpans = operand.withoutSpans) :=
    (operand_rereads.grouped spelled enters closes).takes closes.1
      (by simp only [List.length_cons]; omega)
  rw [Parse.operand]
  refine Takes.peek rfl ?_
  cases operator with
  | not =>
    simp only [sign_kind, UnaryOperator.kind]
    refine Takes.bind_cons (takes_advance (by rw [sign_kind]; decide)) ?_
    refine Takes.map inner fun read same => ?_
    simp [sign_kind, UnaryOperator.kind, same]
  | negate =>
    simp only [sign_kind, UnaryOperator.kind]
    refine Takes.bind_cons (takes_advance (by rw [sign_kind]; decide)) ?_
    refine Takes.map inner fun read same => ?_
    simp [sign_kind, UnaryOperator.kind, same]

/-! ## Extensions -/

/-- An operator stands between operands that are read. The token behind ends the second one. -/
theorem Parse.Begins.binary {operator : BinaryOperator} {floor : Precedence}
    {front back others : List Token} {sign token next : Token} {good fine : Expression → Prop}
    (left_begins : Begins floor front (sign :: (token :: back) ++ next :: others) good)
    (is : sign.kind = operator.kind) (enters : floor.rank < operator.precedence.rank)
    (right_begins : Begins operator.precedence (token :: back) (next :: others) fine)
    (closes : next.kind.precedence.rank ≤ operator.precedence.rank) :
    Begins floor (front ++ sign :: token :: back) (next :: others) fun value =>
      ∃ left right span, value = .binary operator left right span ∧ good left ∧ fine right := by
  have precedence : sign.kind.precedence = operator.precedence := by
    rw [is, operator.precedence_kind]
  refine left_begins.extend (by rwa [precedence]) fun fuel left left_good enough => ?_
  rw [extension]
  refine Takes.peek rfl ?_
  simp only [is, operator.ofKind?_kind]
  refine Takes.bind_cons (takes_advance (by rw [is]; cases operator <;> decide)) ?_
  rw [operator.precedence_kind]
  exact Takes.map (right_begins.takes closes (by omega)) fun right right_fine =>
    ⟨left, right, _, rfl, left_good, right_fine⟩

theorem binary_rereads {operator : BinaryOperator} (left_rereads : left.Rereads)
    (right_rereads : right.Rereads) : (Expression.binary operator left right span).Rereads := by
  intro floor tokens next others spelled enters closes
  obtain ⟨front, _, rfl, spelled_left, spelled⟩ := Spells.append spelled
  obtain ⟨sign, back, rfl, sign_kind, spelled_right⟩ := spelled.fixed
  obtain ⟨token, more, rfl, -⟩ := right.opens.grouped.tokens spelled_right
  have left_begins : Begins floor front (sign :: (token :: more) ++ next :: others)
      (·.withoutSpans = left.withoutSpans) :=
    left_rereads.grouped spelled_left
      (fun tight => Nat.lt_of_lt_of_le enters (Nat.le_trans tight left.strength_le_entry))
      (sign_kind ▸ operator.closes)
  have right_begins : Begins operator.precedence (token :: more) (next :: others)
      (·.withoutSpans = right.withoutSpans) :=
    right_rereads.grouped spelled_right
      (fun tight => Nat.lt_of_succ_le (Nat.le_trans tight right.strength_le_entry))
      (closes.weaken (Nat.le_succ _))
  refine (left_begins.binary sign_kind enters right_begins closes.1).weaken ?_
  rintro _ ⟨first, second, span, rfl, same, also⟩
  simp [same, also]

theorem index_rereads (target_rereads : target.Rereads) (index_rereads : index.Rereads) :
    (Expression.index target index span).Rereads := by
  intro floor tokens next others spelled enters closes
  obtain ⟨front, _, rfl, spelled_target, spelled⟩ := Spells.append spelled
  obtain ⟨opening, _, rfl, opens, spelled⟩ := spelled.fixed
  obtain ⟨inside, _, rfl, spelled_index, spelled⟩ := spelled.append
  obtain ⟨close, rfl, closed⟩ := spelled.singleton_fixed
  refine Begins.extend (target_rereads.grouped spelled_target ?_ (by rw [opens]; decide))
    (by rw [opens]; exact enters) fun fuel read same enough => ?_
  · exact fun tight => Nat.lt_of_lt_of_le enters (Nat.le_trans tight target.strength_le_entry)
  simp only [List.length_append, List.length_cons, List.length_nil] at enough
  rw [extension]
  refine Takes.peek rfl ?_
  simp only [opens, BinaryOperator.ofKind?, reduceCtorEq, if_false, if_true]
  refine Takes.bind_cons (takes_require opens (by decide) _) ?_
  refine Takes.bind (index_rereads.whole spelled_index (by rw [closed]; decide) (by omega)) ?_
  intro value value_same
  refine Takes.map (takes_require closed (by decide) _) fun _ _ => ?_
  simp [same, value_same]

/-! ## Lists of expressions -/

theorem moreExpressions_takes {fuel : Nat} {done : List Expression} {tokens others : List Token}
    {close : Token} (rereads : ∀ item ∈ items, item.Rereads) (nonempty : items ≠ [])
    (spelled : Spells tokens (Expression.listWords items)) (enough : 4 * tokens.length < fuel)
    (closes : close.kind.Closes 0) (different : close.kind ≠ .comma) :
    (moreExpressions fuel done).Takes tokens (close :: others) fun values =>
      values.map Expression.withoutSpans = (done.reverse ++ items).map Expression.withoutSpans := by
  induction items generalizing fuel done tokens with
  | nil => exact absurd rfl nonempty
  | cons item items ih =>
    obtain ⟨less, rfl⟩ : ∃ less, fuel = less + 1 := Nat.exists_eq_add_of_le' (by omega)
    have item_rereads := rereads item List.mem_cons_self
    rw [moreExpressions]
    cases items with
    | nil =>
      have read : (Parse.expression less .lowest).Takes tokens (close :: others)
          (·.withoutSpans = item.withoutSpans) :=
        item_rereads.whole spelled closes (by omega)
      refine Takes.bind_nil read fun value same => ?_
      refine Takes.decline rfl (by decide) different ?_
      exact Takes.pure (by simp [same])
    | cons following items =>
      obtain ⟨front, _, rfl, spelled_item, spelled⟩ := Spells.append spelled
      obtain ⟨comma, back, rfl, comma_kind, spelled⟩ := spelled.fixed
      simp only [List.length_append, List.length_cons] at enough
      have read : (Parse.expression less .lowest).Takes front (comma :: (back ++ close :: others))
          (·.withoutSpans = item.withoutSpans) :=
        item_rereads.whole spelled_item (by rw [comma_kind]; decide) (by omega)
      refine Takes.bind read fun value same => ?_
      refine Takes.bind_cons (takes_accept comma_kind (by decide)) ?_
      refine (ih (fun other member => rereads other (List.mem_cons_of_mem _ member)) (by simp)
        spelled (by omega)).weaken fun values all_same => ?_
      simp [all_same, same]

theorem expressions_takes {fuel : Nat} {tokens others : List Token} {close : Token}
    {kind : Token.Kind} (rereads : ∀ item ∈ items, item.Rereads)
    (spelled : Spells tokens (Expression.listWords items)) (enough : 4 * tokens.length + 1 < fuel)
    (is : close.kind = kind) (closing : kind = .rightParen ∨ kind = .rightBracket) :
    (expressions fuel kind).Takes tokens (close :: others) fun values =>
      values.map Expression.withoutSpans = items.map Expression.withoutSpans := by
  obtain ⟨less, rfl⟩ : ∃ less, fuel = less + 1 := Nat.exists_eq_add_of_le' (by omega)
  have not_end : kind ≠ .endOfInput := by rcases closing with rfl | rfl <;> decide
  rw [expressions]
  cases items with
  | nil =>
    obtain rfl := spelled.eq_nil
    refine Takes.looksAt rfl not_end ?_
    rw [if_pos (decide_eq_true is)]
    exact Takes.pure rfl
  | cons item items =>
    have opens : Opens (Expression.listWords (item :: items)) := by
      cases items with
      | nil => exact item.opens
      | cons following items => exact item.opens.append
    obtain ⟨token, more, rfl, opening⟩ := opens.tokens spelled
    have other : token.kind ≠ kind := by
      rintro same
      rw [same] at opening
      rcases closing with rfl | rfl <;> exact absurd opening (by decide)
    refine Takes.looksAt rfl not_end ?_
    rw [if_neg (by simpa using other)]
    have closes : close.kind.Closes 0 := by
      rw [is]
      rcases closing with rfl | rfl <;> decide
    have different : close.kind ≠ .comma := by
      rw [is]
      rcases closing with rfl | rfl <;> decide
    exact moreExpressions_takes rereads (by simp) spelled (by omega) closes different

theorem call_rereads (callee_rereads : callee.Rereads) (rereads : ∀ item ∈ items, item.Rereads) :
    (Expression.call callee items span).Rereads := by
  intro floor tokens next others spelled enters closes
  obtain ⟨front, _, rfl, spelled_callee, spelled⟩ := Spells.append spelled
  obtain ⟨opening, _, rfl, opens, spelled⟩ := spelled.fixed
  obtain ⟨inside, _, rfl, spelled_items, spelled⟩ := spelled.append
  obtain ⟨close, rfl, closed⟩ := spelled.singleton_fixed
  refine Begins.extend (callee_rereads.grouped spelled_callee ?_ (by rw [opens]; decide))
    (by rw [opens]; exact enters) fun fuel read same enough => ?_
  · exact fun tight => Nat.lt_of_lt_of_le enters (Nat.le_trans tight callee.strength_le_entry)
  simp only [List.length_append, List.length_cons, List.length_nil] at enough
  rw [extension]
  refine Takes.peek rfl ?_
  simp only [opens, BinaryOperator.ofKind?, if_true]
  refine Takes.bind_cons (takes_require opens (by decide) _) ?_
  refine Takes.bind (expressions_takes rereads spelled_items (by omega) closed (.inl rfl)) ?_
  intro values all_same
  refine Takes.map (takes_require closed (by decide) _) fun _ _ => ?_
  simp [Expression.listWithoutSpans_eq_map, same, all_same]

theorem array_rereads (rereads : ∀ item ∈ items, item.Rereads) :
    (Expression.array items span).Rereads := by
  intro floor tokens next others spelled _ closes
  obtain ⟨opening, _, rfl, opens, spelled⟩ := spelled.fixed
  obtain ⟨inside, _, rfl, spelled_items, spelled⟩ := spelled.append
  obtain ⟨close, rfl, closed⟩ := spelled.singleton_fixed
  refine .of_operand fun fuel enough => ?_
  simp only [List.length_append, List.length_cons, List.length_nil] at enough
  rw [Parse.operand]
  refine Takes.peek rfl ?_
  simp only [opens]
  refine Takes.bind_cons (takes_require opens (by decide) _) ?_
  refine Takes.bind (expressions_takes rereads spelled_items (by omega) closed (.inr rfl)) ?_
  intro values all_same
  refine Takes.map (takes_require closed (by decide) _) fun _ _ => ?_
  simp [Expression.listWithoutSpans_eq_map, all_same]

end

end MonkeyLang
