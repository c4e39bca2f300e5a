import MonkeyLang.Proofs.Program.Accounted

/-!
# Attempts to read a statement

A program is read by one attempt after another to read a statement (`Program.Attempts`). An attempt
yields a statement and ends behind it, or it fails at a token; the next attempt starts where the one
before has ended, or at the place that is found behind its failure.

Tokens that are closed by the one for the end of input are counted from the first one on, so that
attempts have places in the list (`Cursor.IsAt`). Each attempt moves on (`Attempt.Ran.moves`), and
so a run of attempts reaches the end of the tokens (`Program.readStatements_attempts`). The place
that is found behind a failure is the first one behind the failing token at which a statement may
start (`Cursor.recover_lands`).
-/

set_option autoImplicit false

namespace MonkeyLang

/-! ## Places in a list of tokens -/

/-- The tokens end with the one for the end of input. -/
def Token.Closed (tokens : List Token) : Prop :=
  ∃ before close, tokens = before ++ [close] ∧ close.kind = .endOfInput

/-- The token at a place, if there is one, is for the end of input. -/
def Token.EndsAt (tokens : List Token) (place : Nat) : Prop :=
  ∃ token ∈ tokens[place]?, token.kind = .endOfInput

/-- The cursor stands in front of the token at a place of the list. -/
structure Cursor.IsAt (tokens : List Token) (cursor : Cursor) (place : Nat) : Prop where
  inside : place < tokens.length
  rest : cursor.rest = tokens.drop place

namespace Cursor.IsAt

variable {tokens : List Token} {cursor : Cursor} {place other : Nat}

theorem unique (here : cursor.IsAt tokens place) (there : cursor.IsAt tokens other) :
    place = other := by
  have lengths := congrArg List.length (here.rest.symm.trans there.rest)
  have := here.inside
  have := there.inside
  simp only [List.length_drop] at lengths
  omega

theorem rest_eq_cons (here : cursor.IsAt tokens place) :
    ∃ token, tokens[place]? = some token ∧ cursor.rest = token :: tokens.drop (place + 1) := by
  refine ⟨tokens.get ⟨place, here.inside⟩, List.getElem?_eq_getElem here.inside, ?_⟩
  rw [here.rest, List.drop_eq_getElem_cons here.inside]
  rfl

/-- What a cursor looks at is the token at its place. -/
theorem peek (here : cursor.IsAt tokens place) : tokens[place]? = some cursor.peek := by
  obtain ⟨token, is, ahead⟩ := here.rest_eq_cons
  rw [is, Cursor.peek, ahead]

theorem atEnd_iff (here : cursor.IsAt tokens place) :
    cursor.atEnd = true ↔ Token.EndsAt tokens place := by
  obtain ⟨token, is, ahead⟩ := here.rest_eq_cons
  simp [Cursor.atEnd, ahead, Token.EndsAt, is]

end Cursor.IsAt

/-- Behind a token of a closed list that is not for the end of input there is another one. -/
theorem Token.Closed.succ_lt {tokens : List Token} (closed : Token.Closed tokens) {place : Nat}
    (inside : place < tokens.length) (goes : ¬Token.EndsAt tokens place) :
    place + 1 < tokens.length := by
  obtain ⟨before, close, rfl, closes⟩ := closed
  rw [List.length_append, List.length_singleton] at inside ⊢
  rcases Nat.lt_or_ge place before.length with early | late
  · omega
  · obtain rfl : place = before.length := by omega
    exact absurd ⟨close, by simp, closes⟩ goes

/-- A closed list has a first token. -/
theorem Cursor.isAt_start {tokens : List Token} (closed : Token.Closed tokens) :
    (Cursor.start tokens).IsAt tokens 0 := by
  obtain ⟨before, close, rfl, -⟩ := closed
  exact ⟨by simp, rfl⟩

/-! ## Where statements may start -/

/-- The words that start a statement, whatever stands before them. -/
def Token.Kind.statementWords : List Token.Kind :=
  [.varWord, .returnWord, .ifWord, .whileWord, .forWord]

theorem Token.Kind.startsStatement_iff {kind : Token.Kind} :
    kind.startsStatement = true ↔ kind ∈ Token.Kind.statementWords := by
  cases kind <;> decide

/-- After a failure at a token, a statement may start at one of the words that start statements, and
directly behind a semicolon that does not stand in front of that token. -/
def Token.Landing (tokens : List Token) (failing place : Nat) : Prop :=
  (∃ token ∈ tokens[place]?, token.kind ∈ Token.Kind.statementWords) ∨
    ∃ before, failing ≤ before ∧ place = before + 1 ∧
      ∃ token ∈ tokens[before]?, token.kind = .semicolon

/-- The place is the first one, from another place on, at which a statement may start or the tokens
end. -/
structure Token.FirstLanding (tokens : List Token) (failing first place : Nat) : Prop where
  le : first ≤ place
  lands : Token.Landing tokens failing place ∨ Token.EndsAt tokens place
  least : ∀ other, first ≤ other → other < place →
    ¬Token.Landing tokens failing other ∧ ¬Token.EndsAt tokens other

/-- A place at which no statement may start is passed over. -/
theorem Token.FirstLanding.before {tokens : List Token} {failing first place : Nat}
    (later : Token.FirstLanding tokens failing (first + 1) place)
    (no_landing : ¬Token.Landing tokens failing first) (goes : ¬Token.EndsAt tokens first) :
    Token.FirstLanding tokens failing first place where
  le := Nat.le_of_succ_le later.le
  lands := later.lands
  least := by
    intro other behind early
    rcases Nat.eq_or_lt_of_le behind with rfl | beyond
    · exact ⟨no_landing, goes⟩
    · exact later.least other beyond early

section

variable {tokens : List Token} (closed : Token.Closed tokens)

include closed

/-- Behind a token that was passed the next statement is looked for at the first place at which
there may be one. The induction is on the tokens that are left. -/
theorem seekStatement_lands {failing : Nat} (rest : List Token) {place : Nat} {previous : Token}
    (ahead : tokens.drop (place + 1) = rest) (inside : place + 1 < tokens.length)
    (passed : tokens[place]? = some previous) (behind : failing ≤ place) :
    ∃ next, (seekStatement previous rest).IsAt tokens next ∧
      Token.FirstLanding tokens failing (place + 1) next := by
  induction rest generalizing place previous with
  | nil =>
      have none := List.drop_eq_nil_iff.1 ahead
      omega
  | cons token rest ih =>
      have here : tokens[place + 1]? = some token := by
        rw [← List.head?_drop, ahead, List.head?_cons]
      have left : tokens.drop (place + 1 + 1) = rest := by
        rw [← List.tail_drop, ahead, List.tail_cons]
      have ends : Token.EndsAt tokens (place + 1) ↔ token.kind = .endOfInput := by
        simp [Token.EndsAt, here]
      have lands : Token.Landing tokens failing (place + 1) ↔
          token.kind.startsStatement = true ∨ previous.kind = .semicolon := by
        rw [Token.Landing, here, Token.Kind.startsStatement_iff]
        refine or_congr (by simp) ⟨?_, fun semicolon => ?_⟩
        · rintro ⟨before, -, same, found, is, semicolon⟩
          obtain rfl := Nat.succ.inj same
          rw [passed] at is
          exact Option.some.inj is ▸ semicolon
        · exact ⟨place, behind, rfl, previous, passed, semicolon⟩
      rw [seekStatement]
      split
      · next stops =>
          simp only [Bool.or_eq_true, beq_iff_eq] at stops
          refine ⟨place + 1, ⟨inside, ahead.symm⟩, Nat.le_refl _, ?_, fun _ _ _ => by omega⟩
          rcases stops with (finished | semicolon) | starts
          · exact .inr (ends.2 finished)
          · exact .inl (lands.2 (.inr semicolon))
          · exact .inl (lands.2 (.inl starts))
      · next goes =>
          simp only [Bool.or_eq_true, beq_iff_eq, not_or] at goes
          obtain ⟨⟨more, no_semicolon⟩, no_start⟩ := goes
          have unfinished : ¬Token.EndsAt tokens (place + 1) := more ∘ ends.1
          have no_landing : ¬Token.Landing tokens failing (place + 1) :=
            fun landing => (lands.1 landing).elim no_start no_semicolon
          obtain ⟨next, at_next, first⟩ :=
            ih left (closed.succ_lt inside unfinished) here (Nat.le_succ_of_le behind)
          exact ⟨next, at_next, first.before no_landing unfinished⟩

/-- Reading goes on at the first place behind the failing token at which a statement may start. The
token for the end of input is not passed over. -/
theorem Cursor.recover_lands {cursor : Cursor} {failing : Nat}
    (at_failing : cursor.IsAt tokens failing) : ∃ next, cursor.recover.IsAt tokens next ∧
      (Token.EndsAt tokens failing → next = failing) ∧
      (¬Token.EndsAt tokens failing → Token.FirstLanding tokens failing (failing + 1) next) := by
  obtain ⟨token, here, ahead⟩ := at_failing.rest_eq_cons
  have ends : Token.EndsAt tokens failing ↔ token.kind = .endOfInput := by
    simp [Token.EndsAt, here]
  obtain ⟨previous, left⟩ := cursor
  obtain rfl : left = token :: tokens.drop (failing + 1) := ahead
  by_cases finished : token.kind = .endOfInput
  · have stays : Cursor.recover ⟨previous, token :: tokens.drop (failing + 1)⟩ =
        ⟨previous, token :: tokens.drop (failing + 1)⟩ := by
      simp [Cursor.recover, Cursor.advance, seekStatement, finished]
    rw [stays]
    exact ⟨failing, at_failing, fun _ => rfl, fun goes => absurd (ends.2 finished) goes⟩
  · have goes : ¬Token.EndsAt tokens failing := finished ∘ ends.1
    obtain ⟨next, at_next, first⟩ := seekStatement_lands closed _ rfl
      (closed.succ_lt at_failing.inside goes) here (Nat.le_refl failing)
    have moves : Cursor.recover ⟨previous, token :: tokens.drop (failing + 1)⟩ =
        seekStatement token (tokens.drop (failing + 1)) := by
      rw [Cursor.recover, Parse.advance_cons finished]
    rw [moves]
    exact ⟨next, at_next, fun ended => absurd ended goes, fun _ => first⟩

end

namespace Program

/-! ## Attempts -/

/-- An attempt to read a statement: where it starts, where it stops, and what comes of it. -/
structure Attempt where
  start : Cursor
  stop : Cursor
  outcome : Except SyntaxFailure Statement

namespace Attempt

/-- Where the next attempt starts. -/
def next (attempt : Attempt) : Cursor :=
  match attempt.outcome with
  | .ok _ => attempt.stop
  | .error _ => attempt.stop.recover

/-- The statement that was read. -/
def statement? (attempt : Attempt) : Option Statement :=
  match attempt.outcome with
  | .ok statement => some statement
  | .error _ => none

/-- Why there is no statement. -/
def failure? (attempt : Attempt) : Option SyntaxFailure :=
  match attempt.outcome with
  | .ok _ => none
  | .error failure => some failure

/-- What is reported about the attempt. -/
def diagnostics (attempt : Attempt) : List Diagnostic :=
  (attempt.failure?.bind SyntaxFailure.diagnostic?).toList

/-- The attempt is what the reader makes of the tokens at its start. -/
def Ran (fuel : Nat) (attempt : Attempt) : Prop :=
  Parse.statement fuel attempt.start =
    match attempt.outcome with
    | .ok statement => .done statement attempt.stop
    | .error failure => .failed failure attempt.stop

end Attempt

/-- One attempt after another, each with the same fuel, up to the end of the tokens. -/
inductive Attempts (fuel : Nat) : Cursor → List Attempt → Prop
  | finish {cursor : Cursor} (ends : cursor.atEnd = true) : Attempts fuel cursor []
  | again {attempt : Attempt} {others : List Attempt} (goes : attempt.start.atEnd = false)
      (ran : attempt.Ran fuel) (later : Attempts fuel attempt.next others) :
      Attempts fuel attempt.start (attempt :: others)

/-- At the end of the tokens there are no more attempts. -/
theorem Attempts.eq_nil {fuel : Nat} {cursor : Cursor} {attempts : List Attempt}
    (run : Attempts fuel cursor attempts) (ends : cursor.atEnd = true) : attempts = [] := by
  cases run with
  | finish => rfl
  | again goes => exact absurd (goes.symm.trans ends) Bool.false_ne_true

section

variable {tokens : List Token} {fuel : Nat} (closed : Token.Closed tokens)

include closed

/-- With enough fuel there is something that comes of an attempt. -/
theorem exists_ran {cursor : Cursor} {place : Nat} (here : cursor.IsAt tokens place)
    (enough : fuelFor tokens ≤ fuel) : ∃ attempt : Attempt, attempt.start = cursor ∧
      attempt.Ran fuel := by
  obtain ⟨before, close, rfl, closes⟩ := closed
  have inside := here.inside
  have accounts := (Parse.accounted closes fuel).statement cursor.previous (before.drop place)
  have shape : cursor = ⟨cursor.previous, before.drop place ++ [close]⟩ := by
    rw [List.length_append, List.length_singleton] at inside
    rw [← List.drop_append_of_le_length (by omega), ← here.rest]
  unfold Parse.Accounts at accounts
  rw [← shape] at accounts
  cases ran : Parse.statement fuel cursor with
  | endless =>
      rw [ran] at accounts
      simp only [fuelFor, List.length_append, List.length_drop] at enough accounts
      omega
  | done statement stop => exact ⟨⟨cursor, stop, .ok statement⟩, rfl, ran⟩
  | failed failure stop => exact ⟨⟨cursor, stop, .error failure⟩, rfl, ran⟩

namespace Attempt

variable {attempt : Attempt} {place : Nat}

/-- An attempt stops at a place that is not in front of its start. If it has read a statement, some
token lies between; if it has failed, the failure is about the token at which it has stopped. -/
theorem Ran.stops (ran : attempt.Ran fuel) (here : attempt.start.IsAt tokens place) :
    ∃ stop, attempt.stop.IsAt tokens stop ∧ place ≤ stop ∧
      (∀ statement, attempt.outcome = .ok statement → place < stop) ∧
      ∀ failure, attempt.outcome = .error failure → tokens[stop]? = some failure.found := by
  obtain ⟨before, close, rfl, closes⟩ := closed
  have inside := here.inside
  rw [List.length_append, List.length_singleton] at inside
  have accounts := (Parse.accounted closes fuel).statement attempt.start.previous
    (before.drop place)
  have shape : attempt.start = ⟨attempt.start.previous, before.drop place ++ [close]⟩ := by
    rw [← List.drop_append_of_le_length (by omega), ← here.rest]
  unfold Parse.Accounts at accounts
  rw [← shape, ran] at accounts
  -- what is left behind some of the tokens ahead is what is left at a later place
  have behind : ∀ {taken left : List Token} {cursor : Cursor},
      cursor.Passes close attempt.start.previous (before.drop place) taken left →
      cursor.IsAt (before ++ [close]) (place + taken.length) := by
    rintro taken left cursor ⟨parts, rfl⟩
    have lengths := congrArg List.length parts
    simp only [List.length_drop, List.length_append] at lengths
    have more : before.drop (place + taken.length) = left := by
      rw [← List.drop_drop, parts, List.drop_left]
    refine ⟨?_, ?_⟩
    · rw [List.length_append, List.length_singleton]
      omega
    · rw [List.drop_append_of_le_length (by omega), more]
  cases result : attempt.outcome with
  | ok statement =>
      rw [result] at accounts
      obtain ⟨taken, left, passes, writes⟩ := accounts
      have some := writes.pos
      rw [List.length_map] at some
      refine ⟨_, behind passes, Nat.le_add_right _ _, fun _ _ => by omega, ?_⟩
      intro failure same
      cases same
  | error failure =>
      rw [result] at accounts
      obtain ⟨taken, left, passes, found⟩ := accounts
      refine ⟨_, behind passes, Nat.le_add_right _ _, ?_, ?_⟩
      · intro statement same
        cases same
      · rintro _ ⟨⟩
        rw [found]
        exact (behind passes).peek

/-- The next attempt starts behind the start of the one before. -/
theorem Ran.moves (ran : attempt.Ran fuel) (here : attempt.start.IsAt tokens place)
    (goes : attempt.start.atEnd = false) :
    ∃ next, attempt.next.IsAt tokens next ∧ place < next := by
  obtain ⟨stop, at_stop, forward, read, failed⟩ := ran.stops closed here
  unfold Attempt.next
  cases result : attempt.outcome with
  | ok statement => exact ⟨stop, at_stop, read statement result⟩
  | error failure =>
      obtain ⟨next, at_next, stays, lands⟩ := Cursor.recover_lands closed at_stop
      refine ⟨next, at_next, ?_⟩
      by_cases ended : Token.EndsAt tokens stop
      · -- the attempt has not started there, so it has moved already
        obtain rfl := stays ended
        refine Nat.lt_of_le_of_ne forward ?_
        rintro rfl
        exact Bool.false_ne_true (goes.symm.trans (here.atEnd_iff.2 ended))
      · exact Nat.lt_of_le_of_lt forward (lands ended).le

end Attempt

/-- Every attempt of a run starts at some place of the list that is not its end. -/
theorem Attempts.started {cursor : Cursor} {attempts : List Attempt} {place : Nat}
    (run : Attempts fuel cursor attempts) (here : cursor.IsAt tokens place) :
    ∀ attempt ∈ attempts, attempt.Ran fuel ∧ attempt.start.atEnd = false ∧
      ∃ start, attempt.start.IsAt tokens start := by
  induction run generalizing place with
  | finish ends =>
      intro attempt member
      cases member
  | again goes ran later ih =>
      obtain ⟨next, at_next, -⟩ := ran.moves closed here goes
      exact List.forall_mem_cons.2 ⟨⟨ran, goes, place, here⟩, ih at_next⟩

/-- Statements are read by attempts up to the end of the tokens; all statements and all failures are
kept, in their order. -/
theorem readStatements_attempts {statementFuel : Nat} {cursor : Cursor} {place : Nat}
    (here : cursor.IsAt tokens place) (enough : fuelFor tokens ≤ statementFuel)
    (ready : tokens.length - place ≤ fuel) (done : List Statement)
    (failures : List SyntaxFailure) : ∃ attempts, Attempts statementFuel cursor attempts ∧
      readStatements statementFuel fuel cursor done failures =
        some ⟨⟨done.reverse ++ attempts.filterMap Attempt.statement?⟩,
          failures.reverse ++ attempts.filterMap Attempt.failure?⟩ := by
  induction fuel generalizing cursor place done failures with
  | zero =>
      have := here.inside
      omega
  | succ fuel ih =>
      rw [readStatements]
      cases ended : cursor.atEnd with
      | true => exact ⟨[], .finish ended, by simp⟩
      | false =>
          obtain ⟨attempt, rfl, ran⟩ := exists_ran closed here enough
          obtain ⟨next, at_next, moved⟩ := ran.moves closed here ended
          have := here.inside
          unfold Attempt.next at at_next
          rw [if_neg Bool.false_ne_true, ran]
          cases result : attempt.outcome with
          | ok statement =>
              rw [result] at at_next
              obtain ⟨others, run, reads⟩ :=
                ih at_next (by omega) (statement :: done) failures
              refine ⟨attempt :: others, .again ended ran ?_, ?_⟩
              · rwa [Attempt.next, result]
              · simpa [Attempt.statement?, Attempt.failure?, result] using reads
          | error failure =>
              rw [result] at at_next
              obtain ⟨others, run, reads⟩ := ih at_next (by omega) done (failure :: failures)
              refine ⟨attempt :: others, .again ended ran ?_, ?_⟩
              · rwa [Attempt.next, result]
              · simpa [Attempt.statement?, Attempt.failure?, result] using reads

/-- A list of tokens is read by attempts from its first token on. -/
theorem ofTokens_attempts : ∃ attempts,
    Attempts (fuelFor tokens) (Cursor.start tokens) attempts ∧
      ofTokens tokens = some ⟨⟨attempts.filterMap Attempt.statement?⟩,
        attempts.filterMap Attempt.failure?⟩ :=
  readStatements_attempts closed (Cursor.isAt_start closed) (Nat.le_refl _) (by omega) [] []

end

end Program

end MonkeyLang
