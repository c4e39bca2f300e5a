import MonkeyLang.Proofs.Program.Attempts
import MonkeyLang.Proofs.Token.Tiling
import MonkeyLang.Proofs.Program.Parsing
import Mathlib.Data.List.Basic

/-!
# Going on behind failures

Tokens that are closed by the one for the end of input are always read to their end. The parser goes
round by round (`Program.Rounds`): each round takes a token at least, and one in which no statement
could be read has put exactly one diagnostic behind the earlier ones, at the token at which it has
stopped; at an error token, which has been reported already, there is none
(`Program.parse_reports`).

Behind a failed attempt the next one starts at the first place at which a statement may start
(`Program.ofTokens_lands`). The failing token is never such a place: it is passed over even where it
is a word that starts statements (`Program.skips_keyword`).
-/

set_option autoImplicit false

namespace MonkeyLang

theorem Token.closed_scan (source : List Char) : Token.Closed (Token.scan source).tokens := by
  obtain ⟨tokens, split, -⟩ := (Token.scan_row source).spans
  exact ⟨tokens, _, split, rfl⟩

/-- A failure at an error token is silent, and every other one is told at its token. -/
theorem SyntaxFailure.diagnostic?_cases (failure : SyntaxFailure) :
    (failure.found.kind = .error ∧ failure.diagnostic? = none) ∨
      failure.found.kind ≠ .error ∧ ∃ diagnostic, failure.diagnostic? = some diagnostic ∧
        diagnostic.span = failure.found.span := by
  by_cases error : failure.found.kind = .error
  · exact .inl ⟨error, if_pos error⟩
  · exact .inr ⟨error, _, if_neg error, rfl⟩

namespace Program

namespace Attempt

/-- Nothing is reported if a statement was read. Otherwise there is exactly one diagnostic, with the
span of the token at which the attempt has stopped, or none if that is an error token. -/
def ReportsOnce (tokens : List Token) (attempt : Attempt) : Prop :=
  match attempt.outcome with
  | .ok _ => attempt.diagnostics = []
  | .error _ => ∃ place token, attempt.stop.IsAt tokens place ∧ tokens[place]? = some token ∧
      if token.kind = .error then attempt.diagnostics = []
      else ∃ diagnostic, attempt.diagnostics = [diagnostic] ∧ diagnostic.span = token.span

theorem Ran.reportsOnce {tokens : List Token} {fuel place : Nat} {attempt : Attempt}
    (ran : attempt.Ran fuel) (closed : Token.Closed tokens)
    (here : attempt.start.IsAt tokens place) : attempt.ReportsOnce tokens := by
  obtain ⟨stop, at_stop, -, -, failed⟩ := ran.stops closed here
  unfold ReportsOnce
  cases result : attempt.outcome with
  | ok statement => simp [diagnostics, failure?, result]
  | error failure =>
      refine ⟨stop, failure.found, at_stop, failed failure result, ?_⟩
      have told : attempt.diagnostics = failure.diagnostic?.toList := by
        simp [diagnostics, failure?, result]
      rw [told]
      rcases failure.diagnostic?_cases with ⟨error, none⟩ | ⟨sound, diagnostic, some, span⟩
      · rw [if_pos error, none]
        rfl
      · rw [if_neg sound, some]
        exact ⟨diagnostic, rfl, span⟩

end Attempt

/-- The diagnostics of a reading are those of its attempts. -/
theorem diagnostics_of_attempts (program : Program) (attempts : List Attempt) :
    ProgramReading.diagnostics ⟨program, attempts.filterMap Attempt.failure?⟩ =
      attempts.flatMap Attempt.diagnostics := by
  rw [ProgramReading.diagnostics, List.filterMap_filterMap, List.filterMap_eq_flatMap_toList]
  rfl

/-- A failed attempt leaves a diagnostic, its own or that of an error token. -/
theorem reported_of_failure {tokens : List Token} {attempts : List Attempt} {attempt : Attempt}
    {failure : SyntaxFailure} (all : ∀ attempt ∈ attempts, attempt.ReportsOnce tokens)
    (member : attempt ∈ attempts) (failed : attempt.outcome = .error failure) :
    (∃ token ∈ tokens, token.kind = .error) ∨ attempts.flatMap Attempt.diagnostics ≠ [] := by
  have once := all attempt member
  rw [Attempt.ReportsOnce, failed] at once
  obtain ⟨place, token, -, here, told⟩ := once
  by_cases error : token.kind = .error
  · exact .inl ⟨token, List.mem_of_getElem? here, error⟩
  · rw [if_neg error] at told
    obtain ⟨diagnostic, only, -⟩ := told
    refine .inr (List.ne_nil_of_mem (a := diagnostic) (List.mem_flatMap.2 ⟨attempt, member, ?_⟩))
    rw [only]
    exact List.mem_singleton_self diagnostic

/-! ## Rounds of the parser -/

/-- One round of the parser's loop: the parser in front of a statement, what the attempt to read the
statement has left of it, and the statement if there is one. -/
structure Round where
  start : Parser
  stop : Parser
  statement? : Option Statement

/-- The round in which the parser makes an attempt. -/
def Attempt.round (diagnostics : List Diagnostic) (attempt : Attempt) : Round :=
  ⟨⟨attempt.start, diagnostics⟩, ⟨attempt.stop, diagnostics ++ attempt.diagnostics⟩,
    attempt.statement?⟩

namespace Round

/-- The parser in front of the next round. -/
def next (round : Round) : Parser :=
  match round.statement? with
  | some _ => round.stop
  | none => round.stop.synchronize

/-- The round is what the parser makes of the tokens at its start. -/
def Ran (fuel : Nat) (round : Round) : Prop :=
  Parsing.statement fuel round.start =
    match round.statement? with
    | some statement => .done statement round.stop
    | none => .failed round.stop

/-- The next round starts behind the start of this one. -/
def Progresses (tokens : List Token) (round : Round) : Prop :=
  ∃ start next, round.start.cursor.IsAt tokens start ∧ round.next.cursor.IsAt tokens next ∧
    start < next

/-- A statement that was read leaves the diagnostics as they were. Otherwise there is exactly one
more of them, with the span of the token at which the parser has stopped, or none if that is an error
token. -/
def ReportsOnce (tokens : List Token) (round : Round) : Prop :=
  match round.statement? with
  | some _ => round.stop.diagnostics = round.start.diagnostics
  | none => ∃ place token, round.stop.cursor.IsAt tokens place ∧ tokens[place]? = some token ∧
      if token.kind = .error then round.stop.diagnostics = round.start.diagnostics
      else ∃ diagnostic, round.stop.diagnostics = round.start.diagnostics ++ [diagnostic] ∧
        diagnostic.span = token.span

variable {fuel : Nat} {round : Round} {tokens : List Token} {place : Nat}

theorem next_round (attempt : Attempt) (diagnostics : List Diagnostic) :
    (attempt.round diagnostics).next = ⟨attempt.next, diagnostics ++ attempt.diagnostics⟩ := by
  unfold next Attempt.next Attempt.round Attempt.statement?
  cases attempt.outcome with
  | ok statement => rfl
  | error failure => rfl

/-- What comes of an attempt comes of its round. -/
theorem ran_round {attempt : Attempt} (ran : attempt.Ran fuel) (diagnostics : List Diagnostic) :
    (attempt.round diagnostics).Ran fuel := by
  unfold Ran Attempt.round
  rw [(Parsing.telling fuel).statement, ran]
  unfold Attempt.statement? Attempt.diagnostics Attempt.failure?
  cases attempt.outcome with
  | ok statement => simp [Outcome.told]
  | error failure => rfl

/-- Every round that has run is the round of an attempt. -/
theorem Ran.exists_attempt (ran : round.Ran fuel) :
    ∃ (attempt : Attempt) (diagnostics : List Diagnostic),
      attempt.Ran fuel ∧ round = attempt.round diagnostics := by
  obtain ⟨⟨cursor, diagnostics⟩, stop, statement?⟩ := round
  have told := (Parsing.telling fuel).statement cursor diagnostics
  rw [Ran, told] at ran
  cases came : Parse.statement fuel cursor with
  | endless =>
      rw [came] at ran
      cases statement? with
      | some statement => cases ran
      | none => cases ran
  | done statement behind =>
      rw [came] at ran
      cases statement? with
      | none => cases ran
      | some read =>
          obtain ⟨rfl, rfl⟩ := Parser.Ending.done.inj ran
          refine ⟨⟨cursor, behind, .ok statement⟩, diagnostics, came, ?_⟩
          simp [Attempt.round, Attempt.diagnostics, Attempt.failure?, Attempt.statement?]
  | failed failure behind =>
      rw [came] at ran
      cases statement? with
      | some statement => cases ran
      | none =>
          obtain rfl := Parser.Ending.failed.inj ran
          exact ⟨⟨cursor, behind, .error failure⟩, diagnostics, came, rfl⟩

theorem Ran.moves (ran : round.Ran fuel) (closed : Token.Closed tokens)
    (here : round.start.cursor.IsAt tokens place) (goes : round.start.cursor.atEnd = false) :
    ∃ next, round.next.cursor.IsAt tokens next ∧ place < next := by
  obtain ⟨attempt, diagnostics, attempted, rfl⟩ := ran.exists_attempt
  rw [next_round]
  exact attempted.moves closed here goes

theorem Ran.reportsOnce (ran : round.Ran fuel) (closed : Token.Closed tokens)
    (here : round.start.cursor.IsAt tokens place) : round.ReportsOnce tokens := by
  obtain ⟨attempt, diagnostics, attempted, rfl⟩ := ran.exists_attempt
  have once := attempted.reportsOnce closed here
  unfold Attempt.ReportsOnce at once
  unfold ReportsOnce Attempt.round Attempt.statement?
  cases result : attempt.outcome with
  | ok statement =>
      rw [result] at once
      show diagnostics ++ attempt.diagnostics = diagnostics
      rw [once, List.append_nil]
  | error failure =>
      rw [result] at once
      obtain ⟨stop, token, at_stop, here, told⟩ := once
      refine ⟨stop, token, at_stop, here, ?_⟩
      by_cases error : token.kind = .error
      · rw [if_pos error] at told ⊢
        rw [told, List.append_nil]
      · rw [if_neg error] at told ⊢
        obtain ⟨diagnostic, only, span⟩ := told
        exact ⟨diagnostic, by rw [only], span⟩

/-- What was reported stays reported. -/
theorem Ran.prefix_stop (ran : round.Ran fuel) :
    round.start.diagnostics <+: round.stop.diagnostics := by
  obtain ⟨attempt, diagnostics, -, rfl⟩ := ran.exists_attempt
  exact List.prefix_append _ _

theorem diagnostics_next (round : Round) : round.next.diagnostics = round.stop.diagnostics := by
  unfold next
  cases round.statement? with
  | some statement => rfl
  | none => rfl

end Round

/-- One round after another, each with the same fuel, from a parser to one at the end of the
tokens. -/
inductive Rounds (fuel : Nat) : Parser → List Round → Parser → Prop
  | finish {parser : Parser} (ends : parser.cursor.atEnd = true) : Rounds fuel parser [] parser
  | again {round : Round} {others : List Round} {last : Parser}
      (goes : round.start.cursor.atEnd = false) (ran : round.Ran fuel)
      (later : Rounds fuel round.next others last) :
      Rounds fuel round.start (round :: others) last

namespace Rounds

variable {fuel : Nat} {parser last : Parser} {rounds : List Round}

/-- At the end of the tokens there are no more rounds. -/
theorem eq_nil (run : Rounds fuel parser rounds last) (ends : parser.cursor.atEnd = true) :
    rounds = [] ∧ last = parser := by
  cases run with
  | finish => exact ⟨rfl, rfl⟩
  | again goes => exact absurd (goes.symm.trans ends) Bool.false_ne_true

/-- Every round starts at some place of the tokens that is not their end. -/
theorem started {tokens : List Token} {place : Nat} (run : Rounds fuel parser rounds last)
    (closed : Token.Closed tokens) (here : parser.cursor.IsAt tokens place) :
    ∀ round ∈ rounds, round.Ran fuel ∧ round.start.cursor.atEnd = false ∧
      ∃ start, round.start.cursor.IsAt tokens start := by
  induction run generalizing place with
  | finish ends =>
      intro round member
      cases member
  | again goes ran later ih =>
      obtain ⟨next, at_next, -⟩ := ran.moves closed here goes
      exact List.forall_mem_cons.2 ⟨⟨ran, goes, place, here⟩, ih at_next⟩

/-- What a round has reported is among the diagnostics at the end. -/
theorem prefix_last (run : Rounds fuel parser rounds last) :
    parser.diagnostics <+: last.diagnostics ∧
      ∀ round ∈ rounds, round.stop.diagnostics <+: last.diagnostics := by
  induction run with
  | finish ends =>
      refine ⟨List.prefix_rfl, fun round member => ?_⟩
      cases member
  | @again round others last goes ran later ih =>
      obtain ⟨kept, all⟩ := ih
      rw [round.diagnostics_next] at kept
      exact ⟨ran.prefix_stop.trans kept, List.forall_mem_cons.2 ⟨kept, all⟩⟩

end Rounds

/-- The parser makes one attempt a round, and reports of each what has failed. -/
theorem Attempts.rounds {fuel : Nat} {cursor : Cursor} {attempts : List Attempt}
    (run : Attempts fuel cursor attempts) (diagnostics : List Diagnostic) :
    ∃ rounds last, Rounds fuel ⟨cursor, diagnostics⟩ rounds last ∧
      last.diagnostics = diagnostics ++ attempts.flatMap Attempt.diagnostics ∧
      rounds.filterMap Round.statement? = attempts.filterMap Attempt.statement? := by
  induction run generalizing diagnostics with
  | @finish cursor ends =>
      exact ⟨[], ⟨cursor, diagnostics⟩, .finish ends, (List.append_nil _).symm, rfl⟩
  | @again attempt others goes ran later ih =>
      obtain ⟨rounds, last, run, told, read⟩ := ih (diagnostics ++ attempt.diagnostics)
      rw [← Round.next_round] at run
      refine ⟨attempt.round diagnostics :: rounds, last,
        .again goes (Round.ran_round ran diagnostics) run, ?_, ?_⟩
      · rw [told, List.flatMap_cons, List.append_assoc]
      · rw [List.filterMap_cons, List.filterMap_cons, read]
        rfl

/-! ## An attempt that breaks off -/

/-- The tokens of `var x = var y = 2;`. -/
def brokenTokens : List Token :=
  [⟨.varWord, "var", ⟨0, 3⟩⟩, ⟨.identifier, "x", ⟨4, 5⟩⟩, ⟨.assign, "=", ⟨6, 7⟩⟩,
   ⟨.varWord, "var", ⟨8, 11⟩⟩, ⟨.identifier, "y", ⟨12, 13⟩⟩, ⟨.assign, "=", ⟨14, 15⟩⟩,
   ⟨.integer, "2", ⟨16, 17⟩⟩, ⟨.semicolon, ";", ⟨17, 18⟩⟩, ⟨.endOfInput, "", ⟨18, 18⟩⟩]

theorem closed_brokenTokens : Token.Closed brokenTokens :=
  ⟨brokenTokens.dropLast, ⟨.endOfInput, "", ⟨18, 18⟩⟩, rfl, rfl⟩

theorem statement_brokenTokens :
    Parse.statement (fuelFor brokenTokens) (Cursor.start brokenTokens) =
      .failed ⟨.expectedBut "expression" .varWord, ⟨.varWord, "var", ⟨8, 11⟩⟩⟩
        ⟨⟨.assign, "=", ⟨6, 7⟩⟩, brokenTokens.drop 3⟩ :=
  rfl

/-- The only attempt on these tokens breaks off at the second `var`, and then the tokens are at
their end. -/
theorem attempts_brokenTokens {attempts : List Attempt}
    (run : Attempts (fuelFor brokenTokens) (Cursor.start brokenTokens) attempts) :
    ∃ attempt failure, attempts = [attempt] ∧ attempt.outcome = .error failure ∧
      attempt.stop.IsAt brokenTokens 3 ∧ attempt.next.IsAt brokenTokens 8 := by
  generalize begins : Cursor.start brokenTokens = cursor at run
  cases run with
  | finish ends =>
      subst begins
      exact absurd ends (by decide)
  | @again attempt others goes ran later =>
      rw [Attempt.Ran, ← begins, statement_brokenTokens] at ran
      cases result : attempt.outcome with
      | ok statement =>
          rw [result] at ran
          cases ran
      | error failure =>
          rw [result] at ran
          obtain ⟨-, stop⟩ := Outcome.failed.inj ran
          have next : attempt.next = ⟨⟨.semicolon, ";", ⟨17, 18⟩⟩, brokenTokens.drop 8⟩ := by
            rw [Attempt.next, result, ← stop]
            rfl
          rw [next] at later
          obtain rfl := later.eq_nil (by decide)
          exact ⟨attempt, failure, rfl, result, stop ▸ ⟨by decide, rfl⟩, next ▸ ⟨by decide, rfl⟩⟩

/-- The only round on these tokens breaks off at the second `var`. -/
theorem rounds_brokenTokens {rounds : List Round} {last : Parser}
    (run : Rounds (fuelFor brokenTokens) (Parser.start brokenTokens) rounds last) :
    ∃ round, rounds = [round] ∧ round.start = Parser.start brokenTokens ∧
      round.statement? = none ∧ round.stop.cursor.IsAt brokenTokens 3 ∧
      round.stop.diagnostics = last.diagnostics := by
  generalize begins : Parser.start brokenTokens = parser at run
  cases run with
  | finish ends =>
      subst begins
      exact absurd ends (by decide)
  | @again round others last goes ran later =>
      have stops := (Parsing.telling (fuelFor brokenTokens)).statement (Cursor.start brokenTokens) []
      rw [statement_brokenTokens] at stops
      rw [Round.Ran, ← begins, Parser.start, stops] at ran
      cases result : round.statement? with
      | some statement =>
          rw [result] at ran
          cases ran
      | none =>
          rw [result] at ran
          have stop := (Parser.Ending.failed.inj ran).symm
          have at_stop : round.stop.cursor.IsAt brokenTokens 3 := stop ▸ ⟨by decide, rfl⟩
          have ended : round.next.cursor.atEnd = true := by
            rw [Round.next, result, stop]
            rfl
          obtain ⟨rfl, rfl⟩ := later.eq_nil ended
          exact ⟨round, rfl, rfl, result, at_stop, (round.diagnostics_next).symm⟩

/-! ## Main results -/

/-- The parser's answer comes of these rounds: the statements that were read and the diagnostics at
the end. Each round moves on and reports once. -/
structure ParsedBy (tokens : List Token) (program : Program) (diagnostics : List Diagnostic)
    (rounds : List Round) : Prop where
  parses : parse tokens = some (program, diagnostics)
  run : ∃ last, Rounds (fuelFor tokens) (Parser.start tokens) rounds last ∧
    last.diagnostics = diagnostics
  statements : program.statements = rounds.filterMap Round.statement?
  progresses : ∀ round ∈ rounds, round.Progresses tokens
  reportsOnce : ∀ round ∈ rounds, round.ReportsOnce tokens

theorem exists_parsedBy {tokens : List Token} (closed : Token.Closed tokens) :
    ∃ program diagnostics rounds, ParsedBy tokens program diagnostics rounds := by
  obtain ⟨attempts, attempted, reads⟩ := ofTokens_attempts closed
  obtain ⟨rounds, last, run, told, read⟩ := attempted.rounds []
  have answer : parse tokens = some (⟨rounds.filterMap Round.statement?⟩, last.diagnostics) := by
    rw [parse_eq, reads, told, read]
    exact congrArg some (congrArg (Prod.mk _) (diagnostics_of_attempts _ attempts))
  have started := run.started closed (Cursor.isAt_start closed)
  refine ⟨_, _, rounds, answer, ⟨last, run, rfl⟩, rfl, ?_, ?_⟩
  · intro round member
    obtain ⟨ran, goes, place, here⟩ := started round member
    obtain ⟨next, at_next, forward⟩ := ran.moves closed here goes
    exact ⟨place, next, here, at_next, forward⟩
  · intro round member
    obtain ⟨ran, -, place, here⟩ := started round member
    exact ran.reportsOnce closed here

/-- A round without a statement leaves a diagnostic, its own or that of an error token. -/
theorem ParsedBy.reported {tokens : List Token} {program : Program} {diagnostics : List Diagnostic}
    {rounds : List Round} {round : Round} (parsed : ParsedBy tokens program diagnostics rounds)
    (member : round ∈ rounds) (failed : round.statement? = none) :
    (∃ token ∈ tokens, token.kind = .error) ∨ diagnostics ≠ [] := by
  obtain ⟨last, run, rfl⟩ := parsed.run
  have kept := run.prefix_last.2 round member
  have once := parsed.reportsOnce round member
  rw [Round.ReportsOnce, failed] at once
  obtain ⟨place, token, -, here, told⟩ := once
  by_cases error : token.kind = .error
  · exact .inl ⟨token, List.mem_of_getElem? here, error⟩
  · rw [if_neg error] at told
    obtain ⟨diagnostic, more, -⟩ := told
    rw [more] at kept
    exact .inr (List.ne_nil_of_mem (kept.mem (a := diagnostic) (by simp)))

/-- **Every failure is reported once.** The parser comes to the end of closed tokens round by round,
and every round moves on. A round with a statement reports nothing; one without puts exactly one
diagnostic behind the earlier ones, with the span of the token at which it has stopped, and none if
that is an error token. So if there is a round without a statement on the tokens of a text, there is
a diagnostic of the scan or of the parser. -/
theorem parse_reports :
    (∀ tokens, Token.Closed tokens →
      ∃ program diagnostics rounds, ParsedBy tokens program diagnostics rounds) ∧
    ∀ source, ∃ program diagnostics rounds,
      ParsedBy (Token.scan source).tokens program diagnostics rounds ∧
      ((∃ round ∈ rounds, round.statement? = none) →
        (Token.scan source).diagnostics source ++ diagnostics ≠ []) := by
  refine ⟨fun tokens closed => exists_parsedBy closed, fun source => ?_⟩
  obtain ⟨program, diagnostics, rounds, parsed⟩ := exists_parsedBy (Token.closed_scan source)
  refine ⟨program, diagnostics, rounds, parsed, ?_⟩
  rintro ⟨round, member, failed⟩ silent
  obtain ⟨no_fault, no_failure⟩ := List.append_eq_nil_iff.1 silent
  rcases parsed.reported member failed with ⟨token, among, error⟩ | told
  · have sound := (Token.scan_row source).faults_eq_nil_iff.1
      ((Token.diagnostics_eq_nil_iff source).1 no_fault)
    exact sound token among error
  · exact told no_failure

/-- There is one diagnostic, at the second `var`. -/
theorem parse_reports_broken : Token.Closed brokenTokens ∧
    ∃ program diagnostic, parse brokenTokens = some (program, [diagnostic]) ∧
      program.statements = [] ∧ diagnostic.span = ⟨8, 11⟩ := by
  refine ⟨closed_brokenTokens, ?_⟩
  obtain ⟨program, diagnostics, rounds, parsed⟩ :=
    parse_reports.1 brokenTokens closed_brokenTokens
  obtain ⟨last, run, rfl⟩ := parsed.run
  obtain ⟨round, rfl, begins, failed, stop, told⟩ := rounds_brokenTokens run
  have once := parsed.reportsOnce round List.mem_cons_self
  rw [Round.ReportsOnce, failed, begins, told] at once
  obtain ⟨place, token, at_place, here, reports⟩ := once
  obtain rfl := at_place.unique stop
  obtain rfl : (⟨.varWord, "var", ⟨8, 11⟩⟩ : Token) = token := Option.some.inj here
  obtain ⟨diagnostic, only, span⟩ := reports
  refine ⟨program, diagnostic, ?_, ?_, span⟩
  · rw [parsed.parses, only]
    rfl
  · rw [parsed.statements, List.filterMap_cons, failed]
    rfl

/-- **Reading goes on where a statement may start.** Behind each failed attempt the next one starts
at the first place behind the failing token that holds one of the words that start statements or
stands directly behind a semicolon, be it that token or a later one; if the tokens end before, or
the attempt has failed at their end, there is no further attempt. -/
theorem ofTokens_lands (tokens : List Token) (closed : Token.Closed tokens) :
    ∃ attempts, Attempts (fuelFor tokens) (Cursor.start tokens) attempts ∧
      ofTokens tokens = some ⟨⟨attempts.filterMap Attempt.statement?⟩,
        attempts.filterMap Attempt.failure?⟩ ∧
      ∀ attempt ∈ attempts, ∀ failure, attempt.outcome = .error failure →
        ∃ failing next, attempt.stop.IsAt tokens failing ∧
          tokens[failing]? = some failure.found ∧ attempt.next.IsAt tokens next ∧
          ((Token.EndsAt tokens failing ∧ next = failing) ∨
            (¬Token.EndsAt tokens failing ∧
              Token.FirstLanding tokens failing (failing + 1) next)) := by
  obtain ⟨attempts, run, reads⟩ := ofTokens_attempts closed
  refine ⟨attempts, run, reads, fun attempt member failure failed => ?_⟩
  obtain ⟨ran, -, place, here⟩ := run.started closed (Cursor.isAt_start closed) attempt member
  obtain ⟨failing, at_failing, -, -, found⟩ := ran.stops closed here
  obtain ⟨next, at_next, stays, lands⟩ := Cursor.recover_lands closed at_failing
  refine ⟨failing, next, at_failing, found failure failed, ?_, ?_⟩
  · rwa [Attempt.next, failed]
  · by_cases ended : Token.EndsAt tokens failing
    · exact .inl ⟨ended, stays ended⟩
    · exact .inr ⟨ended, lands ended⟩

/-- Behind the second `var` the tokens are passed over up to the semicolon. -/
theorem ofTokens_lands_broken : Token.Closed brokenTokens ∧ ∃ attempt,
    Attempts (fuelFor brokenTokens) (Cursor.start brokenTokens) [attempt] ∧
      attempt.stop.IsAt brokenTokens 3 ∧ attempt.next.IsAt brokenTokens 8 ∧
      Token.FirstLanding brokenTokens 3 4 8 := by
  refine ⟨closed_brokenTokens, ?_⟩
  obtain ⟨attempts, run, -, lands⟩ := ofTokens_lands brokenTokens closed_brokenTokens
  obtain ⟨attempt, failure, rfl, failed, stop, next⟩ := attempts_brokenTokens run
  obtain ⟨failing, place, at_failing, -, at_place, landing⟩ :=
    lands attempt List.mem_cons_self failure failed
  obtain rfl := at_failing.unique stop
  obtain rfl := at_place.unique next
  rcases landing with ⟨-, same⟩ | ⟨-, first⟩
  · cases same
  · exact ⟨attempt, run, stop, next, first⟩

/-- The word at which an attempt breaks off is passed over with the statement that it starts: the
next attempt on the tokens of `var x = var y = 2;` does not start at the second `var`. -/
theorem skips_keyword : ¬∃ attempts,
    Attempts (fuelFor brokenTokens) (Cursor.start brokenTokens) attempts ∧
      ∀ attempt ∈ attempts, ∀ failure, attempt.outcome = .error failure →
        ∃ failing next, attempt.stop.IsAt brokenTokens failing ∧
          attempt.next.IsAt brokenTokens next ∧
          Token.FirstLanding brokenTokens failing failing next := by
  rintro ⟨attempts, run, lands⟩
  obtain ⟨attempt, failure, rfl, failed, stop, after⟩ := attempts_brokenTokens run
  obtain ⟨failing, next, at_failing, at_next, first⟩ :=
    lands attempt List.mem_cons_self failure failed
  obtain rfl := at_failing.unique stop
  obtain rfl := at_next.unique after
  have word : Token.Landing brokenTokens 3 3 :=
    .inl ⟨⟨.varWord, "var", ⟨8, 11⟩⟩, rfl, by decide⟩
  exact (first.least 3 (Nat.le_refl _) (by decide)).1 word

end Program

end MonkeyLang
