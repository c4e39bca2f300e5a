import MonkeyLang.Proofs.Program.Attempts
import MonkeyLang.Proofs.Program.Outline

/-!
# Readers that go on behind what was read

The tokens of a list lie one behind the other (`Token.Spread`), and a reader takes them from left to
right. So what it has read last ends in front of all tokens that are left (`Cursor.Follows`), and
what it yields lies behind the place where it started and in front of the place where it stops
(`Parse.Lays`). Reading goes on behind a failure without going back (`Cursor.Follows.recover`).

Parts that are read one after another lie one behind the other, and a span that is merged from the
first and the last of them covers those in the middle (`Span.Placed.contains_between`).
-/

set_option autoImplicit false

namespace MonkeyLang

/-! ## Tokens and cursors -/

/-- The list ends with the token for the end of input. Its tokens lie one behind the other, and each
other token has some characters. -/
structure Token.Spread (tokens : List Token) : Prop where
  closed : Token.Closed tokens
  ordered : tokens.Pairwise fun first second => first.span.stop ≤ second.span.start
  nonempty : ∀ token ∈ tokens, token.kind ≠ .endOfInput → token.span.start < token.span.stop

/-- Where the token ends that was read last. -/
def Cursor.reach (cursor : Cursor) : Nat := cursor.previous.span.stop

/-- The tokens that are left are the last ones of a list, and they lie behind what was read. -/
structure Cursor.Follows (tokens : List Token) (cursor : Cursor) : Prop where
  suffix : cursor.rest <:+ tokens
  left : cursor.rest ≠ []
  behind : ∀ token ∈ cursor.rest, cursor.reach ≤ token.span.start

/-- The span goes from a token to a token, and it lies between two places. -/
structure Span.Placed (tokens : List Token) (low high : Nat) (span : Span) : Prop where
  framed : span.Framed tokens
  low : low ≤ span.start
  high : span.stop ≤ high

namespace Span.Placed

variable {tokens : List Token} {low middle later high less more : Nat} {first last span : Span}

theorem mono (placed : span.Placed tokens low high) (le : less ≤ low) (ge : high ≤ more) :
    span.Placed tokens less more :=
  ⟨placed.framed, Nat.le_trans le placed.low, Nat.le_trans placed.high ge⟩

theorem merge (one : first.Placed tokens low high) (other : last.Placed tokens low high) :
    (first.merge last).Placed tokens low high where
  framed := one.framed.merge other.framed
  low := Nat.le_min.mpr ⟨one.low, other.low⟩
  high := Nat.max_le.mpr ⟨one.high, other.high⟩

/-- A placed span is not empty, and neither is the room for it. -/
theorem lt (placed : span.Placed tokens low high) : low < high :=
  Nat.lt_of_le_of_lt placed.low (Nat.lt_of_lt_of_le placed.framed.nonempty placed.high)

/-- From the first to the last of some spans that lie one behind the other. -/
theorem merge_behind (one : first.Placed tokens low middle)
    (other : last.Placed tokens later high) (behind : middle ≤ later) :
    (first.merge last).Placed tokens low high :=
  (one.mono (Nat.le_refl _) (Nat.le_trans behind (Nat.le_of_lt other.lt))).merge
    (other.mono (Nat.le_trans (Nat.le_of_lt one.lt) behind) (Nat.le_refl _))

/-- What lies behind the first span and in front of the last one is covered by both together. -/
theorem contains_between {start stop : Nat} (one : first.Placed tokens low middle)
    (inner : span.Placed tokens start stop) (other : last.Placed tokens later high)
    (behind : middle ≤ start) (before : stop ≤ later) : (first.merge last).Contains span where
  start := by
    have := one.framed.nonempty
    have := one.high
    have := inner.low
    simp only [Span.merge]
    omega
  stop := by
    have := other.framed.nonempty
    have := other.low
    have := inner.high
    simp only [Span.merge]
    omega

end Span.Placed

namespace Span

theorem contains_merge_left (left right : Span) : (left.merge right).Contains left :=
  ⟨Nat.min_le_left _ _, Nat.le_max_left _ _⟩

theorem contains_merge_right (left right : Span) : (left.merge right).Contains right :=
  ⟨Nat.min_le_right _ _, Nat.le_max_right _ _⟩

end Span

namespace Cursor.Follows

variable {tokens : List Token} {cursor : Cursor}

theorem rest_eq_cons (follows : cursor.Follows tokens) :
    ∃ others, cursor.rest = cursor.peek :: others := by
  obtain ⟨token, others, ahead⟩ := List.exists_cons_of_ne_nil follows.left
  exact ⟨others, by rw [Cursor.peek, ahead]⟩

variable (spread : Token.Spread tokens)

include spread

/-- A cursor moves over a token that is not for the end of input. -/
theorem advance (follows : cursor.Follows tokens) (more : cursor.peek.kind ≠ .endOfInput) :
    cursor.advance.Follows tokens ∧ cursor.advance.previous = cursor.peek ∧
      cursor.peek ∈ tokens ∧ cursor.peek.span.Placed tokens cursor.reach cursor.advance.reach := by
  obtain ⟨others, ahead⟩ := follows.rest_eq_cons
  obtain ⟨before, split⟩ := follows.suffix
  have moved : cursor.advance = ⟨cursor.peek, others⟩ := by
    rw [Cursor.advance, ahead]
    exact if_neg (by simpa using more)
  rw [ahead] at split
  have member : cursor.peek ∈ tokens := by simp [← split]
  have ordered := spread.ordered
  rw [← split, List.pairwise_append, List.pairwise_cons] at ordered
  have left : others ≠ [] := by
    rintro rfl
    obtain ⟨front, close, same, closes⟩ := spread.closed
    have last := List.append_inj_right' (split.trans same) rfl
    exact more (List.head_eq_of_cons_eq last ▸ closes)
  have low := follows.behind _ (ahead ▸ List.mem_cons_self)
  rw [moved]
  exact ⟨⟨⟨before ++ [cursor.peek], by simp [← split]⟩, left, ordered.2.1.1⟩, rfl, member,
    ⟨⟨_, member, rfl⟩, ⟨_, member, rfl⟩, spread.nonempty _ member more⟩, low, Nat.le_refl _⟩

theorem seekStatement {previous : Token} {rest : List Token} {low : Nat}
    (follows : (⟨previous, rest⟩ : Cursor).Follows tokens) (behind : low ≤ previous.span.stop) :
    (seekStatement previous rest).Follows tokens ∧
      low ≤ (MonkeyLang.seekStatement previous rest).reach := by
  induction rest generalizing previous with
  | nil => exact ⟨follows, behind⟩
  | cons token rest ih =>
      rw [MonkeyLang.seekStatement]
      split
      · exact ⟨follows, behind⟩
      · next goes =>
          have more : token.kind ≠ .endOfInput := fun ends => goes (by simp [ends])
          have moved := follows.advance spread more
          rw [Parse.advance_cons more] at moved
          obtain ⟨next, -, -, placed⟩ := moved
          have longer := placed.framed.nonempty
          exact ih next (Nat.le_trans behind
            (Nat.le_trans placed.low (Nat.le_of_lt longer)))

/-- Reading goes on behind a failure without going back. -/
theorem recover (follows : cursor.Follows tokens) :
    cursor.recover.Follows tokens ∧ cursor.reach ≤ cursor.recover.reach := by
  by_cases more : cursor.peek.kind = .endOfInput
  · obtain ⟨others, ahead⟩ := follows.rest_eq_cons
    have stays : cursor.advance = cursor := by
      rw [Cursor.advance, ahead]
      exact if_pos (beq_iff_eq.mpr more)
    have same : cursor.recover = cursor := by
      rw [Cursor.recover, stays, ahead]
      show MonkeyLang.seekStatement cursor.previous (cursor.peek :: others) = cursor
      rw [MonkeyLang.seekStatement, if_pos (by simp [more]), ← ahead]
    rw [same]
    exact ⟨follows, Nat.le_refl _⟩
  · obtain ⟨next, -, -, placed⟩ := follows.advance spread more
    exact seekStatement spread next
      (Nat.le_trans placed.low (Nat.le_trans (Nat.le_of_lt placed.framed.nonempty) placed.high))

end Cursor.Follows

/-! ## Outlines between two places -/

namespace Outline

/-- The outline of a part nests, and the span of the whole contains it. -/
structure Fits (tokens : List Token) (whole : Span) (part : Outline) : Prop where
  nests : part.Nests tokens
  contains : whole.Contains part.span

/-- The outline nests, and its span is placed between two places. -/
structure Lies (tokens : List Token) (low high : Nat) (outline : Outline) (span : Span) :
    Prop where
  nests : outline.Nests tokens
  same : outline.span = span
  placed : span.Placed tokens low high

namespace Lies

variable {tokens : List Token} {low high less more : Nat} {outline : Outline} {span whole : Span}

theorem fits (lies : outline.Lies tokens low high span) (contains : whole.Contains span) :
    outline.Fits tokens whole :=
  ⟨lies.nests, lies.same ▸ contains⟩

theorem mono (lies : outline.Lies tokens low high span) (le : less ≤ low) (ge : high ≤ more) :
    outline.Lies tokens less more span :=
  ⟨lies.nests, lies.same, lies.placed.mono le ge⟩

theorem node {parts : List Outline} (placed : span.Placed tokens low high)
    (fits : ∀ part ∈ parts, part.Fits tokens span) :
    (Outline.node span parts).Lies tokens low high span :=
  ⟨.node placed.framed (fun part member => (fits part member).nests)
    (fun part member => (fits part member).contains), rfl, placed⟩

theorem leaf (placed : span.Placed tokens low high) :
    (Outline.node span []).Lies tokens low high span :=
  node placed (List.forall_mem_nil _)

end Lies

end Outline

/-- All outlines of a list lie between two places, each at the span of its node. -/
def AllLie {α : Type} (outline : α → Outline) (span : α → Span) (tokens : List Token)
    (low high : Nat) (items : List α) : Prop :=
  ∀ item ∈ items, (outline item).Lies tokens low high (span item)

namespace AllLie

variable {α : Type} {outline : α → Outline} {span : α → Span} {tokens : List Token}
  {low high less more : Nat} {item : α} {items : List α}

theorem nil : AllLie outline span tokens low high [] := List.forall_mem_nil _

theorem mono (all : AllLie outline span tokens low high items) (le : less ≤ low)
    (ge : high ≤ more) : AllLie outline span tokens less more items :=
  fun item member => (all item member).mono le ge

theorem cons (first : (outline item).Lies tokens low high (span item))
    (rest : AllLie outline span tokens low high items) :
    AllLie outline span tokens low high (item :: items) :=
  List.forall_mem_cons.mpr ⟨first, rest⟩

theorem reverse (all : AllLie outline span tokens low high items) :
    AllLie outline span tokens low high items.reverse :=
  fun item member => all item (List.mem_reverse.mp member)

/-- Items that lie inside of a node fit into it. -/
theorem fits {whole : Span} (all : AllLie outline span tokens low high items)
    (contains : ∀ span : Span, span.Placed tokens low high → whole.Contains span) :
    ∀ part ∈ items.map outline, part.Fits tokens whole :=
  List.forall_mem_map.mpr fun item member =>
    (all item member).fits (contains _ (all item member).placed)

end AllLie

/-! ## Readers that go on behind what was read -/

/-- A reader has ended in front of tokens that follow, and not in front of the place `low`. What it
has yielded is good up to where the reader has ended. -/
def Outcome.Lays {α : Type} (tokens : List Token) (low : Nat) (good : Nat → α → Prop) :
    Outcome α → Prop
  | .done value stop => (stop.Follows tokens ∧ low ≤ stop.reach) ∧ good stop.reach value
  | .failed _ stop => stop.Follows tokens ∧ low ≤ stop.reach
  | .endless => True

namespace Parse

variable {α β : Type} {tokens : List Token} {cursor : Cursor}

/-- From the cursor on the reader goes on behind what was read. -/
def Lays (tokens : List Token) (cursor : Cursor) (parse : Parse α) (good : Nat → α → Prop) : Prop :=
  (parse cursor).Lays tokens cursor.reach good

namespace Lays

variable {parse : Parse α} {next : α → Parse β} {good : Nat → α → Prop} {fine : Nat → β → Prop}
  {kind : Token.Kind}

theorem pure {value : α} (follows : cursor.Follows tokens) (holds : good cursor.reach value) :
    (Pure.pure value : Parse α).Lays tokens cursor good :=
  ⟨⟨follows, Nat.le_refl _⟩, holds⟩

theorem fail (follows : cursor.Follows tokens) (fault : SyntaxFault) :
    (Parse.fail fault : Parse α).Lays tokens cursor good :=
  ⟨follows, Nat.le_refl _⟩

theorem bind (first : parse.Lays tokens cursor good)
    (second : ∀ value stop, stop.Follows tokens → cursor.reach ≤ stop.reach →
      good stop.reach value → (next value).Lays tokens stop fine) :
    (parse >>= next).Lays tokens cursor fine := by
  show (andThen parse next cursor).Lays tokens cursor.reach fine
  rw [andThen]
  rw [Lays] at first
  cases result : parse cursor with
  | done value stop =>
      rw [result] at first
      obtain ⟨⟨ahead, onward⟩, holds⟩ := first
      have later := second value stop ahead onward holds
      rw [Lays] at later
      show (next value stop).Lays tokens cursor.reach fine
      cases ended : next value stop with
      | done result last =>
          rw [ended] at later
          exact ⟨⟨later.1.1, Nat.le_trans onward later.1.2⟩, later.2⟩
      | failed failure last =>
          rw [ended] at later
          exact ⟨later.1, Nat.le_trans onward later.2⟩
      | endless => trivial
  | failed failure stop =>
      rw [result] at first
      exact first
  | endless => trivial

/-- Looking ahead does not move. -/
theorem peek {next : Token → Parse β}
    (lays : (next cursor.peek).Lays tokens cursor fine) :
    (Parse.peek >>= next).Lays tokens cursor fine := lays

theorem looksAt {next : Bool → Parse β}
    (lays : (next (cursor.looksAt kind)).Lays tokens cursor fine) :
    (Parse.looksAt kind >>= next).Lays tokens cursor fine := lays

theorem atEnd {next : Bool → Parse β}
    (lays : (next cursor.atEnd).Lays tokens cursor fine) :
    (Parse.atEnd >>= next).Lays tokens cursor fine := lays

theorem previous {next : Token → Parse β}
    (lays : (next cursor.previous).Lays tokens cursor fine) :
    (Parse.previous >>= next).Lays tokens cursor fine := lays

variable (spread : Token.Spread tokens) (follows : cursor.Follows tokens)

include spread follows

theorem advance (more : cursor.peek.kind ≠ .endOfInput) :
    Parse.advance.Lays tokens cursor fun high token =>
      token = cursor.peek ∧ token ∈ tokens ∧ token.span.Placed tokens cursor.reach high := by
  obtain ⟨next, same, member, placed⟩ := follows.advance spread more
  have longer := placed.framed.nonempty
  refine ⟨⟨next, ?_⟩, same, same ▸ member, same ▸ placed⟩
  exact Nat.le_trans placed.low (Nat.le_trans (Nat.le_of_lt longer) placed.high)

theorem require (what : String) (inner : kind ≠ .endOfInput) :
    (Parse.require kind what).Lays tokens cursor fun high token =>
      token.span.Placed tokens cursor.reach high := by
  rw [Lays, Parse.require]
  split
  · next seen =>
      have is : cursor.peek.kind = kind := by
        simp only [Cursor.looksAt, Bool.and_eq_true, beq_iff_eq] at seen
        exact seen.2
      obtain ⟨ahead, -, -, placed⟩ := advance spread follows (is ▸ inner)
      exact ⟨ahead, placed⟩
  · exact ⟨follows, Nat.le_refl _⟩

theorem accept (inner : kind ≠ .endOfInput) :
    (Parse.accept kind).Lays tokens cursor fun _ _ => True := by
  rw [Lays, Parse.accept]
  split
  · next seen =>
      have is : cursor.peek.kind = kind := by
        simp only [Cursor.looksAt, Bool.and_eq_true, beq_iff_eq] at seen
        exact seen.2
      exact ⟨(advance spread follows (is ▸ inner)).1, trivial⟩
  · exact ⟨⟨follows, Nat.le_refl _⟩, trivial⟩

theorem name (what : String) :
    (Parse.name what).Lays tokens cursor fun high name =>
      (Outline.name name).Lies tokens cursor.reach high name.span := by
  rw [Parse.name]
  refine peek ?_
  split
  · next is =>
      refine (advance spread follows (by rw [is]; decide)).bind fun token stop ahead _ taken => ?_
      obtain ⟨rfl, member, placed⟩ := taken
      refine pure ahead ⟨.name member is placed.framed.nonempty, rfl, placed⟩
  · split
    · exact fail follows _
    · exact fail follows _

theorem optionalSemicolon {low : Nat} {span : Span} (placed : span.Placed tokens low cursor.reach) :
    (Parse.optionalSemicolon span).Lays tokens cursor fun high wider =>
      wider.Placed tokens low high ∧ wider.Contains span := by
  rw [Parse.optionalSemicolon]
  refine looksAt ?_
  split
  · next seen =>
      have more : cursor.peek.kind ≠ .endOfInput := by
        simp only [Cursor.looksAt, Bool.and_eq_true, beq_iff_eq] at seen
        rw [seen.2]
        decide
      refine (advance spread follows more).bind fun token stop ahead _ taken => ?_
      exact pure ahead ⟨placed.merge_behind taken.2.2 (Nat.le_refl _),
        span.contains_merge_left token.span⟩
  · exact pure follows ⟨placed, .refl span⟩

omit follows in
theorem parameters (fuel : Nat) {low : Nat} {done : List Name} (follows : cursor.Follows tokens)
    (before : AllLie Outline.name Name.span tokens low cursor.reach done)
    (le : low ≤ cursor.reach) :
    (Parse.parameters fuel done).Lays tokens cursor fun high names =>
      AllLie Outline.name Name.span tokens low high names := by
  induction fuel generalizing done cursor with
  | zero => trivial
  | succ fuel ih =>
      rw [Parse.parameters]
      refine (name spread follows _).bind fun parameter stop ahead onward first => ?_
      refine (accept spread ahead (by decide)).bind fun more last further beyond _ => ?_
      have all : AllLie Outline.name Name.span tokens low last.reach (parameter :: done) :=
        .cons (first.mono le beyond) (before.mono (Nat.le_refl _) (Nat.le_trans onward beyond))
      split
      · exact ih further all (Nat.le_trans le (Nat.le_trans onward beyond))
      · exact pure further all.reverse

theorem integer (is : cursor.peek.kind = .integer) :
    Parse.integer.Lays tokens cursor fun high value =>
      value.outline.Lies tokens cursor.reach high value.span := by
  rw [Parse.integer]
  refine peek ?_
  split
  · refine (advance spread follows (by rw [is]; decide)).bind fun token stop ahead _ taken => ?_
    obtain ⟨rfl, -, placed⟩ := taken
    exact pure ahead (.leaf placed)
  · exact fail follows _

theorem float (is : cursor.peek.kind = .float) :
    Parse.float.Lays tokens cursor fun high value =>
      value.outline.Lies tokens cursor.reach high value.span := by
  rw [Parse.float]
  refine peek ?_
  split
  · refine (advance spread follows (by rw [is]; decide)).bind fun token stop ahead _ taken => ?_
    obtain ⟨rfl, -, placed⟩ := taken
    exact pure ahead (.leaf placed)
  · exact fail follows _

end Lays

end Parse

end MonkeyLang
