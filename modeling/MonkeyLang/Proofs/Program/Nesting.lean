import MonkeyLang.Proofs.Program.Laying

/-!
# The spans of a program nest

Each reader goes on behind what was read, and the outline of what it yields nests in the tokens and
lies behind that as well. The induction is on the fuel, with one case for each reader
(`Parse.laid`). A group in parentheses yields what is inside of it, a short conditional is wrapped
into a block on its own span, and a compound assignment is read as a node with two more nodes on the
same span: all of them lie where they should.

The statements of a program are read one after another, also behind a failure, and so they lie one
behind the other (`Program.Attempts.lay`).
-/

set_option autoImplicit false

namespace MonkeyLang

namespace Parse

/-- Each reader with an amount of fuel goes on behind what was read, and what it yields lies behind
that as well. -/
structure Laid (tokens : List Token) (fuel : Nat) : Prop where
  expression : ∀ floor cursor, cursor.Follows tokens →
    (Parse.expression fuel floor).Lays tokens cursor fun high value =>
      value.outline.Lies tokens cursor.reach high value.span
  extensions : ∀ floor left low cursor, cursor.Follows tokens →
    left.outline.Lies tokens low cursor.reach left.span →
    (Parse.extensions fuel floor left).Lays tokens cursor fun high value =>
      value.outline.Lies tokens low high value.span
  extension : ∀ left low cursor, cursor.Follows tokens →
    left.outline.Lies tokens low cursor.reach left.span →
    (Parse.extension fuel left).Lays tokens cursor fun high value =>
      value.outline.Lies tokens low high value.span
  expressions : ∀ close cursor, cursor.Follows tokens →
    (Parse.expressions fuel close).Lays tokens cursor fun high items =>
      AllLie Expression.outline Expression.span tokens cursor.reach high items
  moreExpressions : ∀ done low cursor, cursor.Follows tokens → low ≤ cursor.reach →
    AllLie Expression.outline Expression.span tokens low cursor.reach done →
    (Parse.moreExpressions fuel done).Lays tokens cursor fun high items =>
      AllLie Expression.outline Expression.span tokens low high items
  operand : ∀ cursor, cursor.Follows tokens →
    (Parse.operand fuel).Lays tokens cursor fun high value =>
      value.outline.Lies tokens cursor.reach high value.span
  nameOrAssignment : ∀ cursor, cursor.Follows tokens → cursor.peek.kind = .identifier →
    (Parse.nameOrAssignment fuel).Lays tokens cursor fun high value =>
      value.outline.Lies tokens cursor.reach high value.span
  conditional : ∀ cursor, cursor.Follows tokens →
    (Parse.conditional fuel).Lays tokens cursor fun high value =>
      value.outline.Lies tokens cursor.reach high value.span
  whileLoop : ∀ cursor, cursor.Follows tokens →
    (Parse.whileLoop fuel).Lays tokens cursor fun high value =>
      value.outline.Lies tokens cursor.reach high value.span
  forLoop : ∀ cursor, cursor.Follows tokens →
    (Parse.forLoop fuel).Lays tokens cursor fun high value =>
      value.outline.Lies tokens cursor.reach high value.span
  functionLiteral : ∀ cursor, cursor.Follows tokens →
    (Parse.functionLiteral fuel).Lays tokens cursor fun high value =>
      value.outline.Lies tokens cursor.reach high value.span
  block : ∀ cursor, cursor.Follows tokens →
    (Parse.block fuel).Lays tokens cursor fun high value =>
      value.outline.Lies tokens cursor.reach high value.span
  blockStatements : ∀ done low cursor, cursor.Follows tokens → low ≤ cursor.reach →
    AllLie Statement.outline Statement.span tokens low cursor.reach done →
    (Parse.blockStatements fuel done).Lays tokens cursor fun high statements =>
      AllLie Statement.outline Statement.span tokens low high statements
  binding : ∀ cursor, cursor.Follows tokens →
    (Parse.binding fuel).Lays tokens cursor fun high value =>
      value.outline.Lies tokens cursor.reach high value.span
  statement : ∀ cursor, cursor.Follows tokens →
    (Parse.statement fuel).Lays tokens cursor fun high value =>
      value.outline.Lies tokens cursor.reach high value.span

/-- What is assigned lies behind the name. With an operator there are two more nodes on the span of
the assignment and of the name. -/
theorem assigned_lies {tokens : List Token} {target : Name} {operator : Option BinaryOperator}
    {value : Expression} {low middle later high : Nat}
    (named : (Outline.name target).Lies tokens low middle target.span)
    (valued : value.outline.Lies tokens later high value.span) (behind : middle ≤ later) :
    (assigned target operator value).outline.Lies tokens low high
      (assigned target operator value).span := by
  have whole := named.placed.merge_behind valued.placed behind
  have first := named.fits (target.span.contains_merge_left value.span)
  have second := valued.fits (target.span.contains_merge_right value.span)
  cases operator with
  | none => exact .node whole (by simp [first, second])
  | some operator =>
      have combined : (Expression.binary operator (.name target) value
          (target.span.merge value.span)).outline.Lies tokens low high
            (target.span.merge value.span) :=
        .node whole (by simp [Expression.outline, first, second])
      exact .node whole (by simp [first, combined.fits (.refl _)])

namespace Laid

variable {tokens : List Token} {fuel low : Nat} {cursor : Cursor} (spread : Token.Spread tokens)
  (less : Laid tokens fuel) (follows : cursor.Follows tokens)

include less follows

theorem expression_succ (floor : Precedence) :
    (Parse.expression (fuel + 1) floor).Lays tokens cursor fun high value =>
      value.outline.Lies tokens cursor.reach high value.span := by
  rw [Parse.expression]
  exact (less.operand _ follows).bind fun left middle ahead _ first =>
    less.extensions floor left _ middle ahead first

theorem extensions_succ (floor : Precedence) {left : Expression}
    (first : left.outline.Lies tokens low cursor.reach left.span) :
    (Parse.extensions (fuel + 1) floor left).Lays tokens cursor fun high value =>
      value.outline.Lies tokens low high value.span := by
  rw [Parse.extensions]
  refine .peek ?_
  split
  · exact (less.extension left low _ follows first).bind fun larger middle ahead _ lies =>
      less.extensions floor larger low middle ahead lies
  · exact .pure follows first

theorem expressions_succ (close : Token.Kind) :
    (Parse.expressions (fuel + 1) close).Lays tokens cursor fun high items =>
      AllLie Expression.outline Expression.span tokens cursor.reach high items := by
  rw [Parse.expressions]
  refine .looksAt ?_
  split
  · exact .pure follows .nil
  · exact less.moreExpressions [] _ _ follows (Nat.le_refl _) .nil

include spread

theorem extension_succ {left : Expression}
    (first : left.outline.Lies tokens low cursor.reach left.span) :
    (Parse.extension (fuel + 1) left).Lays tokens cursor fun high value =>
      value.outline.Lies tokens low high value.span := by
  rw [Parse.extension]
  refine .peek ?_
  split
  · next operator found =>
      have more : cursor.peek.kind ≠ .endOfInput := by
        intro ends
        rw [ends] at found
        cases found
      refine (Lays.advance spread follows more).bind fun _ one ahead onward _ => ?_
      refine (less.expression _ _ ahead).bind fun right two further _ second => ?_
      refine .pure further (.node (first.placed.merge_behind second.placed onward) ?_)
      exact List.forall_mem_cons.mpr ⟨first.fits (Span.contains_merge_left _ _),
        List.forall_mem_singleton.mpr (second.fits (Span.contains_merge_right _ _))⟩
  · split
    · refine (Lays.require spread follows _ (by decide)).bind fun _ one ahead onward _ => ?_
      refine (less.expressions _ _ ahead).bind fun arguments two further _ all => ?_
      refine (Lays.require spread further _ (by decide)).bind fun close three last _ closing => ?_
      have behind : cursor.reach ≤ two.reach := by omega
      refine .pure last (.node (first.placed.merge_behind closing behind) ?_)
      refine List.forall_mem_cons.mpr ⟨first.fits (Span.contains_merge_left _ _), ?_⟩
      rw [Expression.outlines_eq_map]
      exact all.fits fun span placed =>
        first.placed.contains_between placed closing onward (Nat.le_refl _)
    · split
      · refine (Lays.require spread follows _ (by decide)).bind fun _ one ahead onward _ => ?_
        refine (less.expression _ _ ahead).bind fun index two further _ second => ?_
        refine (Lays.require spread further _ (by decide)).bind fun close three last _ closing => ?_
        have behind : cursor.reach ≤ two.reach := by omega
        refine .pure last (.node (first.placed.merge_behind closing behind) ?_)
        exact List.forall_mem_cons.mpr ⟨first.fits (Span.contains_merge_left _ _),
          List.forall_mem_singleton.mpr (second.fits
            (first.placed.contains_between second.placed closing onward (Nat.le_refl _)))⟩
      · exact .pure follows first

theorem moreExpressions_succ {done : List Expression} (le : low ≤ cursor.reach)
    (before : AllLie Expression.outline Expression.span tokens low cursor.reach done) :
    (Parse.moreExpressions (fuel + 1) done).Lays tokens cursor fun high items =>
      AllLie Expression.outline Expression.span tokens low high items := by
  rw [Parse.moreExpressions]
  refine (less.expression _ _ follows).bind fun item one ahead onward first => ?_
  refine (Lays.accept spread ahead (by decide)).bind fun more two further beyond _ => ?_
  have all : AllLie Expression.outline Expression.span tokens low two.reach (item :: done) :=
    .cons (first.mono le beyond) (before.mono (Nat.le_refl _) (Nat.le_trans onward beyond))
  split
  · exact less.moreExpressions _ _ _ further (Nat.le_trans le (Nat.le_trans onward beyond)) all
  · exact .pure further all.reverse

theorem operand_succ :
    (Parse.operand (fuel + 1)).Lays tokens cursor fun high value =>
      value.outline.Lies tokens cursor.reach high value.span := by
  rw [Parse.operand]
  refine .peek ?_
  have single (is : cursor.peek.kind ≠ .endOfInput) (value : Token → Literal) :
      (Parse.advance >>= fun token => Pure.pure (Expression.literal (value token) token.span)).Lays
        tokens cursor fun high value => value.outline.Lies tokens cursor.reach high value.span :=
    (Lays.advance spread follows is).bind fun _ _ ahead _ taken => .pure ahead (.leaf taken.2.2)
  have signed (is : cursor.peek.kind ≠ .endOfInput) :
      (Parse.advance >>= fun sign => Parse.expression fuel .unary >>= fun inner =>
        Pure.pure (Expression.unary (if sign.kind = .minus then .negate else .not) inner
          (sign.span.merge inner.span))).Lays tokens cursor
            fun high value => value.outline.Lies tokens cursor.reach high value.span := by
    refine (Lays.advance spread follows is).bind fun sign one ahead _ taken => ?_
    refine (less.expression _ _ ahead).bind fun inner two further _ second => ?_
    refine .pure further (.node (taken.2.2.merge_behind second.placed (Nat.le_refl _)) ?_)
    exact List.forall_mem_singleton.mpr (second.fits (Span.contains_merge_right _ _))
  split
  · next is => exact .integer spread follows is
  · next is => exact .float spread follows is
  · next is => exact single (by rw [is]; decide) _
  · next is => exact single (by rw [is]; decide) _
  · next is => exact single (by rw [is]; decide) _
  · next is => exact less.nameOrAssignment _ follows is
  · refine (Lays.require spread follows _ (by decide)).bind fun _ one ahead onward _ => ?_
    refine (less.expression _ _ ahead).bind fun inner two further _ lies => ?_
    refine (Lays.require spread further _ (by decide)).bind fun _ three last beyond _ => ?_
    exact .pure last (lies.mono onward beyond)
  · refine (Lays.require spread follows _ (by decide)).bind fun opening one ahead _ first => ?_
    refine (less.expressions _ _ ahead).bind fun items two further onward all => ?_
    refine (Lays.require spread further _ (by decide)).bind fun close three last _ closing => ?_
    refine .pure last (.node (first.merge_behind closing onward) ?_)
    rw [Expression.outlines_eq_map]
    exact all.fits fun span placed =>
      first.contains_between placed closing (Nat.le_refl _) (Nat.le_refl _)
  · next is => exact signed (by rw [is]; decide)
  · next is => exact signed (by rw [is]; decide)
  · exact less.conditional _ follows
  · exact less.whileLoop _ follows
  · exact less.forLoop _ follows
  · exact less.functionLiteral _ follows
  · exact .fail follows _

theorem nameOrAssignment_succ (is : cursor.peek.kind = .identifier) :
    (Parse.nameOrAssignment (fuel + 1)).Lays tokens cursor fun high value =>
      value.outline.Lies tokens cursor.reach high value.span := by
  rw [Parse.nameOrAssignment]
  refine (Lays.advance spread follows (by rw [is]; decide)).bind
    fun token one ahead _ taken => ?_
  obtain ⟨rfl, member, placed⟩ := taken
  have named : (Outline.name ⟨cursor.peek.lexeme, cursor.peek.span⟩).Lies tokens cursor.reach
      one.reach cursor.peek.span :=
    ⟨.name member is placed.framed.nonempty, rfl, placed⟩
  refine .peek ?_
  split
  · exact .pure ahead named
  · next operator found =>
      have more : one.peek.kind ≠ .endOfInput := by
        intro ends
        rw [ends] at found
        cases found
      refine (Lays.advance spread ahead more).bind fun _ two further onward _ => ?_
      refine (less.expression _ _ further).bind fun value three last _ valued => .pure last ?_
      exact assigned_lies named valued onward

theorem conditional_succ :
    (Parse.conditional (fuel + 1)).Lays tokens cursor fun high value =>
      value.outline.Lies tokens cursor.reach high value.span := by
  rw [Parse.conditional]
  refine (Lays.require spread follows _ (by decide)).bind fun word c₁ f₁ _ first => ?_
  refine (Lays.require spread f₁ _ (by decide)).bind fun _ c₂ f₂ l₂ _ => ?_
  refine (less.expression _ _ f₂).bind fun condition c₃ f₃ l₃ chooses => ?_
  refine (Lays.require spread f₃ _ (by decide)).bind fun _ c₄ f₄ l₄ _ => ?_
  refine (less.block _ f₄).bind fun consequence c₅ f₅ l₅ yes => ?_
  have whole := first.merge_behind yes.placed (by omega)
  have inner := first.contains_between chooses.placed yes.placed l₂ l₄
  refine (Lays.accept spread f₅ (by decide)).bind fun more c₆ f₆ l₆ _ => ?_
  -- The other case, however it is read, widens the span once more.
  have both {high : Nat} {alternative : Block} {span : Span}
      (no : alternative.outline.Lies tokens c₆.reach high span) :
      (Expression.conditional condition consequence (some alternative)
        ((word.span.merge consequence.span).merge span)).outline.Lies tokens cursor.reach high
          ((word.span.merge consequence.span).merge span) := by
    have widens := Span.contains_merge_left (word.span.merge consequence.span) span
    refine .node (whole.merge_behind no.placed l₆) (List.forall_mem_cons.mpr
      ⟨chooses.fits (widens.trans inner), List.forall_mem_cons.mpr
        ⟨yes.fits (widens.trans (Span.contains_merge_right _ _)), List.forall_mem_singleton.mpr
          (no.fits (Span.contains_merge_right _ _))⟩⟩)
  split
  · refine .looksAt ?_
    split
    · refine (less.conditional _ f₆).bind fun nested c₇ f₇ _ no => .pure f₇ (both ?_)
      have alone : (Statement.expression nested nested.span).outline.Fits tokens nested.span :=
        (Outline.Lies.node no.placed (List.forall_mem_singleton.mpr (no.fits (.refl _)))).fits
          (.refl _)
      exact .node no.placed (List.forall_mem_singleton.mpr alone)
    · exact (less.block _ f₆).bind fun alternative c₇ f₇ _ no => .pure f₇ (both no)
  · refine .pure f₆ (.node (whole.mono (Nat.le_refl _) l₆) (List.forall_mem_cons.mpr
      ⟨chooses.fits inner, List.forall_mem_singleton.mpr
        (yes.fits (Span.contains_merge_right _ _))⟩))

theorem whileLoop_succ :
    (Parse.whileLoop (fuel + 1)).Lays tokens cursor fun high value =>
      value.outline.Lies tokens cursor.reach high value.span := by
  rw [Parse.whileLoop]
  refine (Lays.require spread follows _ (by decide)).bind fun word c₁ f₁ _ first => ?_
  refine (Lays.require spread f₁ _ (by decide)).bind fun _ c₂ f₂ l₂ _ => ?_
  refine (less.expression _ _ f₂).bind fun condition c₃ f₃ l₃ chooses => ?_
  refine (Lays.require spread f₃ _ (by decide)).bind fun _ c₄ f₄ l₄ _ => ?_
  refine (less.block _ f₄).bind fun body c₅ f₅ _ loops => .pure f₅ ?_
  refine .node (first.merge_behind loops.placed (by omega)) (List.forall_mem_cons.mpr
    ⟨chooses.fits (first.contains_between chooses.placed loops.placed l₂ l₄),
      List.forall_mem_singleton.mpr (loops.fits (Span.contains_merge_right _ _))⟩)

theorem forLoop_succ :
    (Parse.forLoop (fuel + 1)).Lays tokens cursor fun high value =>
      value.outline.Lies tokens cursor.reach high value.span := by
  rw [Parse.forLoop]
  refine (Lays.require spread follows _ (by decide)).bind fun word c₁ f₁ _ first => ?_
  refine (Lays.require spread f₁ _ (by decide)).bind fun _ c₂ f₂ l₂ _ => ?_
  refine .looksAt ?_
  split
  · exact .fail f₂ _
  · refine (less.binding _ f₂).bind fun start c₃ f₃ l₃ starts => .previous ?_
    split
    · exact .fail f₃ _
    · refine (less.expression _ _ f₃).bind fun condition c₄ f₄ l₄ chooses => ?_
      refine (Lays.require spread f₄ _ (by decide)).bind fun _ c₅ f₅ l₅ _ => ?_
      refine (less.expression _ _ f₅).bind fun post c₆ f₆ l₆ steps => ?_
      refine (Lays.require spread f₆ _ (by decide)).bind fun _ c₇ f₇ l₇ _ => ?_
      refine (less.block _ f₇).bind fun body c₈ f₈ _ loops => .pure f₈ ?_
      have inside {part : Outline} {span : Span} {low high : Nat}
          (lies : part.Lies tokens low high span) (behind : c₁.reach ≤ low)
          (before : high ≤ c₇.reach) : part.Fits tokens (word.span.merge body.span) :=
        lies.fits (first.contains_between lies.placed loops.placed behind before)
      refine .node (first.merge_behind loops.placed (by omega)) (List.forall_mem_cons.mpr
        ⟨inside starts l₂ (by omega), List.forall_mem_cons.mpr
          ⟨inside chooses (by omega) (by omega), List.forall_mem_cons.mpr
            ⟨inside steps (by omega) l₇, List.forall_mem_singleton.mpr
              (loops.fits (Span.contains_merge_right _ _))⟩⟩⟩)

theorem functionLiteral_succ :
    (Parse.functionLiteral (fuel + 1)).Lays tokens cursor fun high value =>
      value.outline.Lies tokens cursor.reach high value.span := by
  rw [Parse.functionLiteral]
  refine (Lays.require spread follows _ (by decide)).bind fun word c₁ f₁ _ first => ?_
  refine (Lays.require spread f₁ _ (by decide)).bind fun _ c₂ f₂ l₂ _ => ?_
  have behind (names : List Name) (c₃ : Cursor) (f₃ : c₃.Follows tokens) (l₃ : c₂.reach ≤ c₃.reach)
      (named : AllLie Outline.name Name.span tokens c₂.reach c₃.reach names) :
      (Parse.require .rightParen "')' after parameters" >>= fun _ =>
        Parse.block fuel >>= fun body =>
          Pure.pure (Expression.function names body (word.span.merge body.span))).Lays tokens c₃
        fun high value => value.outline.Lies tokens cursor.reach high value.span := by
    refine (Lays.require spread f₃ _ (by decide)).bind fun _ c₄ f₄ l₄ _ => ?_
    refine (less.block _ f₄).bind fun body c₅ f₅ _ all => .pure f₅ ?_
    refine .node (first.merge_behind all.placed (by omega)) (List.forall_mem_append.mpr
      ⟨named.fits fun span placed => first.contains_between placed all.placed l₂ l₄,
        List.forall_mem_singleton.mpr (all.fits (Span.contains_merge_right _ _))⟩)
  refine .looksAt ?_
  dsimp only
  split
  · exact behind [] c₂ f₂ (Nat.le_refl _) .nil
  · exact (Lays.parameters spread fuel f₂ .nil (Nat.le_refl _)).bind behind

theorem block_succ :
    (Parse.block (fuel + 1)).Lays tokens cursor fun high value =>
      value.outline.Lies tokens cursor.reach high value.span := by
  rw [Parse.block]
  refine (Lays.require spread follows _ (by decide)).bind fun opening c₁ f₁ _ first => ?_
  refine (less.blockStatements [] _ _ f₁ (Nat.le_refl _) .nil).bind
    fun statements c₂ f₂ onward all => ?_
  refine (Lays.require spread f₂ _ (by decide)).bind fun close c₃ f₃ _ closing => .pure f₃ ?_
  refine .node (first.merge_behind closing onward) ?_
  rw [Statement.outlines_eq_map]
  exact all.fits fun span placed =>
    first.contains_between placed closing (Nat.le_refl _) (Nat.le_refl _)

omit spread in
theorem blockStatements_succ {done : List Statement} (le : low ≤ cursor.reach)
    (before : AllLie Statement.outline Statement.span tokens low cursor.reach done) :
    (Parse.blockStatements (fuel + 1) done).Lays tokens cursor fun high statements =>
      AllLie Statement.outline Statement.span tokens low high statements := by
  rw [Parse.blockStatements]
  refine .looksAt (.atEnd ?_)
  split
  · exact .pure follows before.reverse
  · refine (less.statement _ follows).bind fun next one ahead onward first => ?_
    exact less.blockStatements _ _ _ ahead (Nat.le_trans le onward)
      (.cons (first.mono le (Nat.le_refl _)) (before.mono (Nat.le_refl _) onward))

theorem binding_succ :
    (Parse.binding (fuel + 1)).Lays tokens cursor fun high value =>
      value.outline.Lies tokens cursor.reach high value.span := by
  rw [Parse.binding]
  refine (Lays.require spread follows _ (by decide)).bind fun word c₁ f₁ _ first => ?_
  refine (Lays.name spread f₁ _).bind fun name c₂ f₂ l₂ named => ?_
  refine (Lays.require spread f₂ _ (by decide)).bind fun _ c₃ f₃ l₃ _ => ?_
  refine (less.expression _ _ f₃).bind fun value c₄ f₄ _ valued => ?_
  have whole := first.merge_behind valued.placed (by omega)
  refine (Lays.optionalSemicolon spread f₄ whole).bind fun span c₅ f₅ _ wider => .pure f₅ ?_
  exact .node wider.1 (List.forall_mem_cons.mpr
    ⟨named.fits (wider.2.trans
        (first.contains_between named.placed valued.placed (Nat.le_refl _) l₃)),
      List.forall_mem_singleton.mpr (valued.fits (wider.2.trans (Span.contains_merge_right _ _)))⟩)

theorem statement_succ :
    (Parse.statement (fuel + 1)).Lays tokens cursor fun high value =>
      value.outline.Lies tokens cursor.reach high value.span := by
  rw [Parse.statement]
  refine .peek ?_
  split
  · exact (less.binding _ follows).bind fun binding one ahead _ lies => .pure ahead lies
  · refine (Lays.require spread follows _ (by decide)).bind fun word c₁ f₁ _ first => ?_
    refine .looksAt (.looksAt (.atEnd ?_))
    split
    · exact (Lays.optionalSemicolon spread f₁ first).bind fun span c₂ f₂ _ wider =>
        .pure f₂ (.leaf wider.1)
    · refine (less.expression _ _ f₁).bind fun value c₂ f₂ _ valued => ?_
      have whole := first.merge_behind valued.placed (Nat.le_refl _)
      refine (Lays.optionalSemicolon spread f₂ whole).bind fun span c₃ f₃ _ wider => .pure f₃ ?_
      exact .node wider.1 (List.forall_mem_singleton.mpr
        (valued.fits (wider.2.trans (Span.contains_merge_right _ _))))
  · refine (less.expression _ _ follows).bind fun value c₁ f₁ _ valued => .peek ?_
    split
    · exact .fail f₁ _
    · refine (Lays.optionalSemicolon spread f₁ valued.placed).bind
        fun span c₂ f₂ _ wider => .pure f₂ ?_
      exact .node wider.1 (List.forall_mem_singleton.mpr (valued.fits wider.2))

end Laid

/-- Every reader goes on behind what was read, with any amount of fuel. -/
theorem laid {tokens : List Token} (spread : Token.Spread tokens) (fuel : Nat) :
    Laid tokens fuel := by
  induction fuel with
  | zero => constructor <;> intros <;> trivial
  | succ fuel less =>
      exact {
        expression := fun floor _ follows => less.expression_succ follows floor
        extensions := fun floor _ _ _ follows first => less.extensions_succ follows floor first
        extension := fun _ _ _ follows first => less.extension_succ spread follows first
        expressions := fun close _ follows => less.expressions_succ follows close
        moreExpressions := fun _ _ _ follows le before =>
          less.moreExpressions_succ spread follows le before
        operand := fun _ follows => less.operand_succ spread follows
        nameOrAssignment := fun _ follows is => less.nameOrAssignment_succ spread follows is
        conditional := fun _ follows => less.conditional_succ spread follows
        whileLoop := fun _ follows => less.whileLoop_succ spread follows
        forLoop := fun _ follows => less.forLoop_succ spread follows
        functionLiteral := fun _ follows => less.functionLiteral_succ spread follows
        block := fun _ follows => less.block_succ spread follows
        blockStatements := fun _ _ _ follows le before =>
          less.blockStatements_succ follows le before
        binding := fun _ follows => less.binding_succ spread follows
        statement := fun _ follows => less.statement_succ spread follows }

end Parse

/-! ## Whole programs -/

namespace Program

variable {tokens : List Token} {fuel : Nat}

section

variable (spread : Token.Spread tokens)

include spread

/-- An attempt goes on behind what was read, and so does the next one. A statement lies between the
places where they start. -/
theorem Attempt.Ran.lays {attempt : Attempt} (ran : attempt.Ran fuel)
    (follows : attempt.start.Follows tokens) :
    attempt.next.Follows tokens ∧ attempt.start.reach ≤ attempt.next.reach ∧
      ∀ statement ∈ attempt.statement?, statement.outline.Lies tokens attempt.start.reach
        attempt.next.reach statement.span := by
  have laid := (Parse.laid spread fuel).statement attempt.start follows
  rw [Parse.Lays, ran] at laid
  cases came : attempt.outcome with
  | ok statement =>
      rw [came] at laid
      obtain ⟨⟨ahead, onward⟩, lies⟩ := laid
      simp only [Attempt.next, Attempt.statement?, came]
      exact ⟨ahead, onward, fun _ is => Option.some.inj is ▸ lies⟩
  | error failure =>
      rw [came] at laid
      obtain ⟨ahead, onward⟩ := laid
      obtain ⟨next, further⟩ := ahead.recover spread
      simp only [Attempt.next, Attempt.statement?, came]
      exact ⟨next, Nat.le_trans onward further, fun _ is => by cases is⟩

/-- The statements that a run of attempts reads lie one behind the other, and behind what was read
before. The induction is on the run. -/
theorem Attempts.lay {cursor : Cursor} {attempts : List Attempt}
    (run : Attempts fuel cursor attempts) (follows : cursor.Follows tokens) :
    (∀ statement ∈ attempts.filterMap Attempt.statement?,
        statement.outline.Nests tokens ∧ cursor.reach ≤ statement.span.start) ∧
      (attempts.filterMap Attempt.statement?).Pairwise fun first second =>
        first.span.stop ≤ second.span.start := by
  induction run with
  | finish ends => exact ⟨List.forall_mem_nil _, .nil⟩
  | @again attempt others goes ran later ih =>
      obtain ⟨next, onward, lies⟩ := Attempt.Ran.lays spread ran follows
      obtain ⟨behind, apart⟩ := ih next
      have still : ∀ statement ∈ others.filterMap Attempt.statement?,
          statement.outline.Nests tokens ∧ attempt.start.reach ≤ statement.span.start :=
        fun statement member => ⟨(behind statement member).1,
          Nat.le_trans onward (behind statement member).2⟩
      cases found : attempt.statement? with
      | none =>
          rw [List.filterMap_cons_none found]
          exact ⟨still, apart⟩
      | some statement =>
          have first := lies statement found
          rw [List.filterMap_cons_some found]
          refine ⟨List.forall_mem_cons.mpr ⟨⟨first.nests, first.placed.low⟩, still⟩, ?_⟩
          exact .cons (fun other member =>
            Nat.le_trans first.placed.high (behind other member).2) apart

/-- What is read of the tokens nests in them. -/
theorem ofTokens_lays : ∃ reading, ofTokens tokens = some reading ∧
    (∀ statement ∈ reading.program.statements, statement.outline.Nests tokens) ∧
      reading.program.statements.Pairwise fun first second =>
        first.span.stop ≤ second.span.start := by
  obtain ⟨attempts, run, reads⟩ := ofTokens_attempts spread.closed
  have start : (Cursor.start tokens).Follows tokens := by
    obtain ⟨before, close, rfl, -⟩ := spread.closed
    exact ⟨List.suffix_refl _, by simp [Cursor.start], fun token _ => Nat.zero_le _⟩
  obtain ⟨behind, apart⟩ := run.lay spread start
  exact ⟨_, reads, fun statement member => (behind statement member).1, apart⟩

end

/-- **Spans nest.** Whatever tokens are read that lie one behind the other, every node of the
program has a span that is not empty, starts where a token starts, stops where one stops, and
contains the spans of all nodes below it. The statements of the program lie one behind the other.
All of this holds behind failures as well. -/
theorem ofTokens_nests (spread : Token.Spread tokens) :
    ∃ reading, ofTokens tokens = some reading ∧
      (∀ statement ∈ reading.program.statements, ∀ node ∈ statement.outline.nodes,
        node.span.Framed tokens ∧ ∀ part ∈ node.nodes, node.span.Contains part.span) ∧
      reading.program.statements.Pairwise fun first second =>
        first.span.stop ≤ second.span.start := by
  obtain ⟨reading, reads, nests, apart⟩ := ofTokens_lays spread
  refine ⟨reading, reads, fun statement member node below => ?_, apart⟩
  obtain ⟨inner, -⟩ := (nests statement member).node_of_mem below
  exact ⟨inner.framed, fun part deeper => (inner.node_of_mem deeper).2⟩

/-- The tokens of `x; +; f(a)`. -/
def failingTokens : List Token :=
  [⟨.identifier, "x", ⟨0, 1⟩⟩, ⟨.semicolon, ";", ⟨1, 2⟩⟩, ⟨.plus, "+", ⟨3, 4⟩⟩,
    ⟨.semicolon, ";", ⟨4, 5⟩⟩, ⟨.identifier, "f", ⟨6, 7⟩⟩, ⟨.leftParen, "(", ⟨7, 8⟩⟩,
    ⟨.identifier, "a", ⟨8, 9⟩⟩, ⟨.rightParen, ")", ⟨9, 10⟩⟩, ⟨.endOfInput, "", ⟨10, 10⟩⟩]

/-- The statement in the middle cannot be read, and those on both sides of it nest. -/
theorem ofTokens_nests_failing : Token.Spread failingTokens ∧
    ∃ reading, ofTokens failingTokens = some reading ∧
      reading.failures.length = 1 ∧ reading.program.statements.map Statement.span =
        [⟨0, 2⟩, ⟨6, 10⟩] ∧
      ∀ statement ∈ reading.program.statements, ∀ node ∈ statement.outline.nodes,
        node.span.Framed failingTokens ∧ ∀ part ∈ node.nodes, node.span.Contains part.span := by
  have spread : Token.Spread failingTokens :=
    ⟨⟨failingTokens.dropLast, ⟨.endOfInput, "", ⟨10, 10⟩⟩, rfl, rfl⟩, by decide, by decide⟩
  obtain ⟨reading, reads, nests, -⟩ := ofTokens_nests spread
  have seen : (ofTokens failingTokens).map (fun reading =>
      (reading.failures.length, reading.program.statements.map Statement.span)) =
        some (1, [⟨0, 2⟩, ⟨6, 10⟩]) := by
    decide +kernel
  rw [reads] at seen
  obtain ⟨one, two⟩ := Prod.mk.inj (Option.some.inj seen)
  exact ⟨spread, reading, reads, one, two, nests⟩

end Program

end MonkeyLang
