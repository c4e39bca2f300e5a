import MonkeyLang.Proofs.Program.Ahead
import MonkeyLang.Proofs.Program.Core
import MonkeyLang.Proofs.Program.Spelling

/-!
# Two readers abreast

Two readers run over two lists of tokens that say the same up to a place where they part
(`Fork`). Up to there the cursors stand beside one another (`Fork.Beside`), and the readers do the
same. At the fork this is so no longer, and what the readers do there is to be said of each fork.
Behind the fork the tokens may say the same again.

A fork may also be the place where the first list ends. There a reader may stop because there is
nothing left, while the other one goes on; then the first one has come to its end (`Fork.Spent`), and
it fails as soon as it needs anything.

Only readers that both succeed are compared (`Fork.Joins`), and how much fuel they have does not
matter.
-/

set_option autoImplicit false

namespace MonkeyLang

/-- Two ways in which what the tokens say may go on. -/
structure Fork where
  first : List Word
  second : List Word
  /-- What stands in front of the fork. -/
  behind : Word → Prop
  /-- Behind the fork the tokens may say the same again, up to the end. -/
  merges : Prop
  /-- An expression that ends in front of the first way may go on with the second one. -/
  loose : Prop

namespace Fork

/-- The kind of the first word of the first way. -/
def firstKind (fork : Fork) : Token.Kind := (fork.first.headD (.fixed .endOfInput)).kind

/-- The kind of the first word of the second way. -/
def secondKind (fork : Fork) : Token.Kind := (fork.second.headD (.fixed .endOfInput)).kind

/-- Two cursors stand where the ways part. -/
structure Parting (fork : Fork) (here there : Cursor) : Prop where
  first : here.words = fork.first
  second : there.words = fork.second
  behind : fork.behind here.previous.word

/-- Ahead of both cursors the tokens say the same up to the fork, or up to the end if the fork is
behind them. -/
inductive Beside (fork : Fork) : Cursor → Cursor → Prop where
  | parting {here there : Cursor} (parts : fork.Parting here there) : Beside fork here there
  | step (previous before : Token) {token other : Token} {rest others : List Token}
      (same : other.word = token.word) (goes : token.kind ≠ .endOfInput)
      (next : Beside fork ⟨token, rest⟩ ⟨other, others⟩) :
      Beside fork ⟨previous, token :: rest⟩ ⟨before, other :: others⟩
  | ended (previous before : Token) {token other : Token} (rest others : List Token)
      (merges : fork.merges) (same : other.word = token.word) (ends : token.kind = .endOfInput) :
      Beside fork ⟨previous, token :: rest⟩ ⟨before, other :: others⟩

/-- The first list ends where the ways part, and the cursor is there. -/
structure Spent (fork : Fork) (here : Cursor) : Prop where
  ends : fork.first = [.fixed .endOfInput]
  first : here.words = fork.first
  behind : fork.behind here.previous.word

/-- The cursors stand beside one another and something is known, unless the first one has come to
its end. -/
def Soft (fork : Fork) (known : Prop) (loose : Cursor → Prop) (here there : Cursor) : Prop :=
  (known ∧ fork.Beside here there) ∨ (fork.Spent here ∧ loose here)

/-- The cursors stand beside one another, unless the first one has come to its end. -/
abbrev Ready (fork : Fork) : Cursor → Cursor → Prop := fork.Soft True fun _ => True

/-- The results come to the same, and the cursors stand beside one another. -/
abbrev Meets {α γ : Type} (fork : Fork) (core : α → γ) (value result : α) (here there : Cursor) :
    Prop :=
  core result = core value ∧ fork.Beside here there

/-- The results come to the same, and the cursors stand beside one another, unless the first one has
come to its end. -/
abbrev Tends {α γ : Type} (fork : Fork) (core : α → γ) (value result : α) :
    Cursor → Cursor → Prop :=
  fork.Soft (core result = core value) fun _ => True

/-- The cursors stand in front of two tokens that say the same, and behind these beside one
another. -/
inductive Facing (fork : Fork) (token other : Token) : Cursor → Cursor → Prop where
  | mk (previous before : Token) {rest others : List Token} (same : other.word = token.word)
      (goes : token.kind ≠ .endOfInput) (next : fork.Beside ⟨token, rest⟩ ⟨other, others⟩) :
      Facing fork token other ⟨previous, token :: rest⟩ ⟨before, other :: others⟩

/-- Two readers that start from such cursors and both succeed come to such results and cursors. -/
def Joins {α : Type} (before : Cursor → Cursor → Prop) (after : α → α → Cursor → Cursor → Prop)
    (first second : Parse α) : Prop :=
  ∀ here there, before here there → ∀ value result next last, first here = .done value next →
    second there = .done result last → after value result next last

/-- The first reader has come to its end, and what it yields there is good whatever the second one
does. -/
def Leaves {α : Type} (fork : Fork) (after : α → α → Cursor → Cursor → Prop) (first : Parse α) :
    Prop :=
  ∀ here, fork.Spent here → ∀ value next, first here = .done value next →
    ∀ result last, after value result next last

end Fork

/-- The kinds of tokens with which nothing goes on and nothing ends, and that are no operands. -/
def Token.Kind.isTurn : Token.Kind → Bool
  | .assign | .plusEqual | .minusEqual | .starEqual | .slashEqual | .ifWord | .leftBrace | .forWord
  | .varWord => true
  | _ => false

namespace Fork

variable {α β : Type} {fork : Fork} {here there : Cursor} {kind : Token.Kind}

theorem Parting.firstKind (parts : fork.Parting here there) : here.ahead = fork.firstKind := by
  rw [Cursor.ahead, parts.first, Fork.firstKind]

theorem Parting.secondKind (parts : fork.Parting here there) : there.ahead = fork.secondKind := by
  rw [Cursor.ahead, parts.second, Fork.secondKind]

theorem Spent.ahead (spent : fork.Spent here) : here.ahead = .endOfInput := by
  rw [Cursor.ahead, spent.first, spent.ends]
  rfl

/-- What cannot be looked at is not there. -/
theorem Spent.not_looksAt (spent : fork.Spent here) (kind : Token.Kind) :
    here.looksAt kind = false := by
  rw [Cursor.looksAt_eq, spent.ahead]
  by_cases same : Token.Kind.endOfInput = kind <;> simp [same]

theorem Spent.atEnd (spent : fork.Spent here) : here.atEnd = true := by
  rw [Cursor.atEnd_eq, spent.ahead]
  rfl

/-- The first way is the end of the list. What comes on the second way does not go on an expression,
unless the fork is loose. -/
structure Cut (fork : Fork) : Prop where
  ends : fork.first = [.fixed .endOfInput]
  apart : ¬fork.merges
  some : fork.second ≠ []
  closes : ¬fork.loose → fork.secondKind.Closes 0
  complete : fork.secondKind ≠ .elseWord

/-- The two ways begin with different words, with none of which anything goes on or ends. -/
structure Turn (fork : Fork) : Prop where
  first : fork.firstKind.isTurn = true
  second : fork.secondKind.isTurn = true
  differ : fork.firstKind ≠ fork.secondKind
  closed : fork.firstKind.opensExpression = true → fork.secondKind.opensExpression = false

theorem Turn.precedence (turn : fork.Turn) :
    fork.firstKind.precedence.rank = 0 ∧ fork.secondKind.precedence.rank = 0 := by
  have lowest {kind : Token.Kind} (is : kind.isTurn = true) : kind.precedence.rank = 0 := by
    cases kind <;> first
      | rfl
      | cases is
  exact ⟨lowest turn.first, lowest turn.second⟩

/-- How the ways may part. -/
def Parts (fork : Fork) : Prop := fork.Cut ∨ fork.Turn

theorem Facing.beside {token other : Token} (facing : fork.Facing token other here there) :
    fork.Beside here there := by
  obtain ⟨previous, before, same, goes, next⟩ := facing
  exact .step previous before same goes next

theorem Facing.goes {token other : Token} (facing : fork.Facing token other here there) :
    here.ahead ≠ .endOfInput := by
  obtain ⟨previous, before, same, goes, next⟩ := facing
  rwa [Cursor.ahead_cons]

theorem Cut.spent (cut : fork.Cut) (parts : fork.Parting here there) : fork.Spent here :=
  ⟨cut.ends, parts.first, parts.behind⟩

theorem Turn.ahead_ne (turn : fork.Turn) (parts : fork.Parting here there)
    (stop : kind.isTurn = false) : here.ahead ≠ kind ∧ there.ahead ≠ kind := by
  rw [parts.firstKind, parts.secondKind]
  constructor
  · rintro rfl
    exact absurd turn.first (stop ▸ nofun)
  · rintro rfl
    exact absurd turn.second (stop ▸ nofun)

theorem Soft.of_beside {loose : Cursor → Prop} (beside : fork.Beside here there) :
    fork.Soft True loose here there := .inl ⟨trivial, beside⟩

/-- Cursors beside one another are at the fork, or the next words are the same. -/
theorem Beside.parting_or (beside : fork.Beside here there) :
    fork.Parting here there ∨ there.ahead = here.ahead := by
  have same_kind {token other : Token} (same : other.word = token.word) :
      other.kind = token.kind := by
    rw [← other.kind_word, same, token.kind_word]
  cases beside with
  | parting parts => exact .inl parts
  | step previous before same goes next =>
      exact .inr (Cursor.ahead_cons.trans ((same_kind same).trans Cursor.ahead_cons.symm))
  | ended previous before rest others merges same ends =>
      exact .inr (Cursor.ahead_cons.trans ((same_kind same).trans Cursor.ahead_cons.symm))

/-- The second reader has a token to look at. -/
theorem Beside.some (parts : fork.Parts) (beside : fork.Beside here there) : there.words ≠ [] := by
  cases beside with
  | parting parting =>
      rw [parting.second]
      rcases parts with cut | turn
      · exact cut.some
      · intro none
        have second := turn.second
        rw [secondKind, none] at second
        cases second
  | step previous before same goes next => exact Cursor.words_ne_nil
  | ended previous before rest others merges same ends => exact Cursor.words_ne_nil

/-- The first reader always has a token to look at. -/
theorem Soft.some {known : Prop} {loose : Cursor → Prop} (parts : fork.Parts)
    (soft : fork.Soft known loose here there) : here.words ≠ [] := by
  have cons {words : List Word} (word : Word) (is : here.words = word :: words) :
      here.words ≠ [] := is ▸ List.cons_ne_nil word words
  rcases soft with ⟨-, beside⟩ | ⟨spent, -⟩
  · cases beside with
    | parting parting =>
        rcases parts with cut | turn
        · exact cons _ (parting.first.trans cut.ends)
        · intro none
          have first := turn.first
          rw [← parting.firstKind, Cursor.ahead, none] at first
          cases first
    | step previous before same goes next => exact Cursor.words_ne_nil
    | ended previous before rest others merges same ends => exact Cursor.words_ne_nil
  · exact cons _ (spent.first.trans spent.ends)

/-- No list ends at a turn. -/
theorem Turn.not_spent (turn : fork.Turn) : ¬fork.Spent here := by
  intro spent
  have first := turn.first
  rw [firstKind, spent.ends] at first
  cases first

/-- The first list only ends at a cut. -/
theorem Spent.cut (spent : fork.Spent here) (parts : fork.Parts) : fork.Cut :=
  parts.resolve_right fun turn => turn.not_spent spent

theorem Spent.some (spent : fork.Spent here) : here.words ≠ [] := by
  rw [spent.first, spent.ends]
  exact List.cons_ne_nil _ _

/-- If the first reader has something to go on with that is not the fork, the cursors stand in front
of two tokens that say the same. -/
theorem Soft.facing {known : Prop} {loose : Cursor → Prop} (parts : fork.Parts)
    (soft : fork.Soft known loose here there) (goes : here.ahead ≠ .endOfInput)
    (apart : fork.Turn → ¬fork.Parting here there) :
    known ∧ ∃ token other, fork.Facing token other here there := by
  rcases soft with ⟨knows, beside⟩ | ⟨spent, -⟩
  · refine ⟨knows, ?_⟩
    cases beside with
    | parting parting =>
        rcases parts with cut | turn
        · exact absurd (cut.spent parting).ahead goes
        · exact absurd parting (apart turn)
    | step previous before same more next => exact ⟨_, _, .mk previous before same more next⟩
    | ended previous before rest others merges same ends =>
        exact absurd (Cursor.ahead_cons.trans ends) goes
  · exact absurd spent.ahead goes

theorem Beside.facing (parts : fork.Parts) (beside : fork.Beside here there)
    (goes : here.ahead ≠ .endOfInput) (apart : fork.Turn → ¬fork.Parting here there) :
    ∃ token other, fork.Facing token other here there :=
  have soft : fork.Soft True (fun _ => True) here there := .of_beside beside
  (soft.facing parts goes apart).2

/-- In front of a cut the first list ends as it should. -/
theorem Soft.closed {known : Prop} {loose : Cursor → Prop} (cut : fork.Cut)
    (soft : fork.Soft known loose here there) :
    ∃ previous ahead close, here = ⟨previous, ahead ++ [close]⟩ ∧ close.kind = .endOfInput := by
  have last {cursor : Cursor} (is : cursor.words = fork.first) :
      ∃ previous ahead close, cursor = ⟨previous, ahead ++ [close]⟩ ∧ close.kind = .endOfInput := by
    obtain ⟨previous, close, rest, rfl, said, none⟩ := Cursor.exists_of_words (is.trans cut.ends)
    obtain rfl := List.map_eq_nil_iff.mp none
    exact ⟨previous, [], close, rfl, by rw [← close.kind_word, said]; rfl⟩
  rcases soft with ⟨-, beside⟩ | ⟨spent, -⟩
  · induction beside with
    | parting parting => exact last parting.first
    | step previous before same goes next ih =>
        obtain ⟨_, ahead, close, is, ends⟩ := ih
        cases is
        exact ⟨previous, _ :: ahead, close, rfl, ends⟩
    | ended previous before rest others merges same ends => exact absurd merges cut.apart
  · exact last spent.first

/-- Cursors beside one another see the same tokens on which something ends, unless the first one has
come to its end. -/
theorem Beside.alike (parts : fork.Parts) (beside : fork.Beside here there) :
    fork.Spent here ∨
      ∀ kind : Token.Kind, kind.isTurn = false → (there.ahead = kind ↔ here.ahead = kind) := by
  rcases beside.parting_or with parting | same
  · rcases parts with cut | turn
    · exact .inl (cut.spent parting)
    · refine .inr fun kind stop => ?_
      have ne := turn.ahead_ne parting stop
      exact iff_of_false ne.2 ne.1
  · exact .inr fun kind _ => by rw [same]

/-- The word for the other case never is the only difference. -/
theorem Beside.alike_else (parts : fork.Parts) (beside : fork.Beside here there) :
    there.ahead = .elseWord ↔ here.ahead = .elseWord := by
  rcases beside.parting_or with parting | same
  · rcases parts with cut | turn
    · rw [parting.secondKind, (cut.spent parting).ahead]
      exact iff_of_false cut.complete nofun
    · have ne : here.ahead ≠ .elseWord ∧ there.ahead ≠ .elseWord := turn.ahead_ne parting rfl
      exact iff_of_false ne.2 ne.1
  · rw [same]

namespace Joins

variable {before : Cursor → Cursor → Prop} {middle after : α → α → Cursor → Cursor → Prop}
  {later : β → β → Cursor → Cursor → Prop} {first second : Parse α} {next further : α → Parse β}
  {known : Prop} {loose : Cursor → Prop} {first' second' first'' second'' : Parse β}

theorem bind (joins : Joins before middle first second)
    (others : ∀ value result, Joins (middle value result) later (next value) (further result)) :
    Joins before later (first >>= next) (second >>= further) := by
  intro here there holds value result onward last ran running
  obtain ⟨one, between, began, rested⟩ := Parse.bind_eq_done.mp ran
  obtain ⟨two, meanwhile, begun, resting⟩ := Parse.bind_eq_done.mp running
  exact others one two between meanwhile
    (joins here there holds one two between meanwhile began begun) value result onward last rested
    resting

theorem pure {value result : α}
    (implies : ∀ here there, before here there → after value result here there) :
    Joins before after (Pure.pure value) (Pure.pure result) := by
  rintro here there holds _ _ _ _ ⟨⟩ ⟨⟩
  exact implies here there holds

/-- The first reader has too little fuel. -/
theorem short (endless : ∀ here, first here = .endless) : Joins before after first second := by
  intro here there _ value result onward last ran
  cases (endless here).symm.trans ran

/-- The second reader has too little fuel. -/
theorem short_second (endless : ∀ there, second there = .endless) :
    Joins before after first second := by
  intro here there _ value result onward last _ running
  cases (endless there).symm.trans running

theorem stronger {strong : Cursor → Cursor → Prop} (joins : Joins before after first second)
    (implies : ∀ here there, strong here there → before here there) :
    Joins strong after first second :=
  fun here there holds => joins here there (implies here there holds)

theorem weaker {weak : α → α → Cursor → Cursor → Prop} (joins : Joins before after first second)
    (implies : ∀ value result here there,
      after value result here there → weak value result here there) :
    Joins before weak first second :=
  fun here there holds value result onward last ran running =>
    implies _ _ _ _ (joins here there holds value result onward last ran running)

theorem ready (joins : Joins fork.Ready after first second) :
    Joins fork.Beside after first second :=
  joins.stronger fun _ _ => .of_beside

theorem facing {token other : Token} (joins : Joins fork.Ready after first second) :
    Joins (fork.Facing token other) after first second :=
  joins.stronger fun _ _ facing => .of_beside facing.beside

/-- What the first reader has come to, apart from the second. -/
theorem first_alone {fact : Cursor → Prop} (joins : Joins before after first second)
    (alone : ∀ here there value onward, before here there → first here = .done value onward →
      fact onward) :
    Joins before (fun value result here there => after value result here there ∧ fact here) first
      second :=
  fun here there holds value result onward last ran running =>
    ⟨joins here there holds value result onward last ran running,
      alone here there value onward holds ran⟩

theorem assuming (joins : known → Joins before after first second) :
    Joins (fun here there => known ∧ before here there) after first second :=
  fun here there holds => joins holds.1 here there holds.2

theorem ite {condition : Prop} [Decidable condition] {yes no yes' no' : Parse α}
    (holds : condition → Joins before after yes yes')
    (fails : ¬condition → Joins before after no no') :
    Joins before after (if condition then yes else no) (if condition then yes' else no') := by
  by_cases decided : condition
  · rw [if_pos decided, if_pos decided]
    exact holds decided
  · rw [if_neg decided, if_neg decided]
    exact fails decided

/-! ## Looking ahead -/

section

variable {next further : Token → Parse β} {token other : Token}

/-- Behind two tokens that say the same. -/
theorem advance (rest : Joins fork.Beside later (next token) (further other)) :
    Joins (fork.Facing token other) later (Parse.advance >>= next) (Parse.advance >>= further) := by
  rintro _ _ ⟨previous, before, same, goes, beside⟩ value result onward last ran running
  have goes' : other.kind ≠ .endOfInput := by rwa [← other.kind_word, same, token.kind_word]
  rw [Parse.advance_bind goes] at ran
  rw [Parse.advance_bind goes'] at running
  exact rest _ _ beside value result onward last ran running

theorem peek (rest : Joins (fork.Facing token other) later (next token) (further other)) :
    Joins (fork.Facing token other) later (Parse.peek >>= next) (Parse.peek >>= further) := by
  rintro _ _ ⟨previous, before, same, goes, beside⟩
  exact rest _ _ ⟨previous, before, same, goes, beside⟩

end

/-- A reader that goes on with a token of a kind only. -/
theorem insist {fault : SyntaxFault} (joins : Joins before later first' second') :
    Joins before later
      (Parse.looksAt kind >>= fun seen => if !seen then Parse.fail fault else first')
      (Parse.looksAt kind >>= fun seen => if !seen then Parse.fail fault else second') := by
  intro here there holds value result onward last ran running
  rw [Parse.looksAt_bind] at ran running
  cases seen : here.looksAt kind with
  | false =>
      rw [seen] at ran
      exact absurd ran Parse.fail_ne_done
  | true =>
      cases seen' : there.looksAt kind with
      | false =>
          rw [seen'] at running
          exact absurd running Parse.fail_ne_done
      | true =>
          rw [seen] at ran
          rw [seen'] at running
          exact joins here there holds value result onward last ran running

/-- A reader that does not go on in front of some tokens. -/
theorem refrain {stops : Token → Bool} {fault : SyntaxFault}
    (joins : Joins before later first' second') :
    Joins before later
      (Parse.peek >>= fun next => if stops next then Parse.fail fault else first')
      (Parse.peek >>= fun next => if stops next then Parse.fail fault else second') := by
  intro here there holds value result onward last ran running
  rw [Parse.peek_bind] at ran running
  cases stop : stops here.peek with
  | true =>
      rw [stop] at ran
      exact absurd ran Parse.fail_ne_done
  | false =>
      cases stop' : stops there.peek with
      | true =>
          rw [stop'] at running
          exact absurd running Parse.fail_ne_done
      | false =>
          rw [stop] at ran
          rw [stop'] at running
          exact joins here there holds value result onward last ran running

/-- A reader that goes on behind a semicolon only. -/
theorem behindSemicolon {fault : SyntaxFault}
    (joins : known → Joins fork.Beside later first' second') :
    Joins (fork.Soft known fun here => here.previous.kind ≠ .semicolon) later
      (Parse.previous >>= fun last =>
        if last.kind ≠ .semicolon then Parse.fail fault else first')
      (Parse.previous >>= fun last =>
        if last.kind ≠ .semicolon then Parse.fail fault else second') := by
  intro here there holds value result onward last ran running
  rw [Parse.previous_bind] at ran running
  by_cases is : here.previous.kind = .semicolon
  · by_cases is' : there.previous.kind = .semicolon
    · rw [if_neg (not_not.mpr is)] at ran
      rw [if_neg (not_not.mpr is')] at running
      rcases holds with ⟨knows, beside⟩ | ⟨-, apart⟩
      · exact joins knows here there beside value result onward last ran running
      · exact absurd is apart
    · rw [if_pos is'] at running
      exact absurd running Parse.fail_ne_done
  · rw [if_pos is] at ran
    exact absurd ran Parse.fail_ne_done

variable (parts : fork.Parts)

include parts

theorem require_behind {next further : Token → Parse β} {what : String}
    (rest : known → ∀ token other, token.kind = kind →
      Joins (fun here there => fork.Beside here there ∧ here.previous = token) later (next token)
        (further other)) :
    Joins (fork.Soft known loose) later (Parse.require kind what >>= next)
      (Parse.require kind what >>= further) := by
  intro here there holds value result onward last ran running
  obtain ⟨token, between, began, rested⟩ := Parse.bind_eq_done.mp ran
  obtain ⟨other, meanwhile, begun, resting⟩ := Parse.bind_eq_done.mp running
  obtain ⟨previous, tokens, rfl, is, goes, rfl⟩ := Parse.require_eq_done.mp began
  obtain ⟨before, others, rfl, is', -, rfl⟩ := Parse.require_eq_done.mp begun
  have ahead : Cursor.ahead ⟨previous, token :: tokens⟩ = kind := Cursor.ahead_cons.trans is
  have apart : fork.Turn → ¬fork.Parting ⟨previous, token :: tokens⟩ ⟨before, other :: others⟩ := by
    intro turn parting
    refine turn.differ ?_
    rw [← parting.firstKind, ← parting.secondKind, ahead, Cursor.ahead_cons, is']
  obtain ⟨knows, _, _, ⟨_, _, same, _, beside⟩⟩ := holds.facing parts (ahead ▸ goes) apart
  exact rest knows token other is _ _ ⟨beside, rfl⟩ value result onward last rested resting

theorem require {next further : Token → Parse β} {what : String}
    (rest : known → ∀ token other, token.kind = kind →
      Joins fork.Beside later (next token) (further other)) :
    Joins (fork.Soft known loose) later (Parse.require kind what >>= next)
      (Parse.require kind what >>= further) :=
  require_behind parts fun knows token other is =>
    (rest knows token other is).stronger fun _ _ => And.left

theorem looksAt {next further : Bool → Parse β} (stop : kind.isTurn = false)
    (rest : known → ∀ seen, Joins (fun here there => fork.Beside here there ∧
      (here.looksAt kind = seen)) later (next seen) (further seen))
    (leaves : fork.Leaves later (next false)) :
    Joins (fork.Soft known loose) later (Parse.looksAt kind >>= next)
      (Parse.looksAt kind >>= further) := by
  intro here there holds value result onward last ran running
  rw [Parse.looksAt_bind] at ran running
  have ended (spent : fork.Spent here) : later value result onward last := by
    rw [spent.not_looksAt] at ran
    exact leaves here spent value onward ran result last
  rcases holds with ⟨knows, beside⟩ | ⟨spent, -⟩
  · rcases beside.alike parts with spent | alike
    · exact ended spent
    · have same : there.looksAt kind = here.looksAt kind := by
        simp only [Cursor.looksAt_eq, alike kind stop]
      rw [same] at running
      exact rest knows _ here there ⟨beside, rfl⟩ value result onward last ran running
  · exact ended spent

/-- Both readers accept a token, or both do not. -/
theorem accept_alike {next further : Bool → Parse β} (stop : kind.isTurn = false)
    (goes : kind ≠ .endOfInput) (yes : Joins fork.Beside later (next true) (further true))
    (no : Joins fork.Beside later (next false) (further false)) :
    Joins (fun here there => fork.Beside here there ∧ (there.ahead = kind ↔ here.ahead = kind))
      later (Parse.accept kind >>= next) (Parse.accept kind >>= further) := by
  rintro here there ⟨beside, alike⟩ value result onward last ran running
  by_cases is : here.ahead = kind
  · have apart (turn : fork.Turn) (parting : fork.Parting here there) : False :=
      (turn.ahead_ne parting stop).1 is
    obtain ⟨token, other, facing⟩ := beside.facing parts (is ▸ goes) apart
    obtain ⟨previous, before, same, _, beyond⟩ := facing
    have is' := Cursor.ahead_cons.symm.trans (alike.mpr is)
    rw [Parse.accept_bind_of_ahead (Cursor.ahead_cons.symm.trans is) goes] at ran
    rw [Parse.accept_bind_of_ahead is' goes] at running
    exact yes _ _ beyond value result onward last ran running
  · rw [Parse.accept_bind_of_not is] at ran
    rw [Parse.accept_bind_of_not (mt alike.mp is)] at running
    exact no here there beside value result onward last ran running

theorem accept {next further : Bool → Parse β} (stop : kind.isTurn = false)
    (goes : kind ≠ .endOfInput) (yes : known → Joins fork.Beside later (next true) (further true))
    (no : known → Joins fork.Beside later (next false) (further false))
    (leaves : fork.Leaves later (next false)) :
    Joins (fork.Soft known loose) later (Parse.accept kind >>= next)
      (Parse.accept kind >>= further) := by
  intro here there holds value result onward last ran running
  have ended (spent : fork.Spent here) : later value result onward last := by
    rw [Parse.accept_bind_of_not (spent.ahead ▸ goes.symm)] at ran
    exact leaves here spent value onward ran result last
  rcases holds with ⟨knows, beside⟩ | ⟨spent, -⟩
  · rcases beside.alike parts with spent | alike
    · exact ended spent
    · exact accept_alike parts stop goes (yes knows) (no knows) here there
        ⟨beside, alike kind stop⟩ value result onward last ran running
  · exact ended spent

theorem name (what : String) :
    Joins (fork.Soft True loose) (fun value result here there =>
        result.text = value.text ∧ fork.Beside here there)
      (Parse.name what) (Parse.name what) := by
  intro here there holds value result onward last ran running
  have is := Parse.name_ahead (holds.some parts) ran
  have apart (turn : fork.Turn) (parting : fork.Parting here there) : False :=
    (turn.ahead_ne parting rfl).1 is
  obtain ⟨-, token, other, ⟨previous, before, same, _, beside⟩⟩ :=
    holds.facing parts (is ▸ nofun) apart
  obtain ⟨is, rfl, rfl⟩ := Parse.name_cons ran
  obtain ⟨is', rfl, rfl⟩ := Parse.name_cons running
  rw [Token.word_name is, Token.word_name is'] at same
  exact ⟨Word.name.inj same, beside⟩

/-- A reader that stops in front of a semicolon, a closing brace or the end. -/
theorem stopping (fact : Cursor → Prop)
    (stays : Joins (fun here there => fork.Beside here there ∧ fact here) later first' second')
    (goes : Joins fork.Beside later first'' second'')
    (leaves : ∀ here, fork.Spent here → fact here → ∀ value next,
      first' here = .done value next → ∀ result last, later value result next last) :
    Joins (fun here there => fork.Beside here there ∧ fact here) later
      (Parse.looksAt .semicolon >>= fun semicolon => Parse.looksAt .rightBrace >>= fun brace =>
        Parse.atEnd >>= fun ended => if semicolon || brace || ended then first' else first'')
      (Parse.looksAt .semicolon >>= fun semicolon => Parse.looksAt .rightBrace >>= fun brace =>
        Parse.atEnd >>= fun ended =>
          if semicolon || brace || ended then second' else second'') := by
  rintro here there ⟨beside, holds⟩ value result onward last ran running
  rw [Parse.looksAt_bind, Parse.looksAt_bind, Parse.atEnd_bind] at ran running
  rcases beside.alike parts with spent | alike
  · rw [spent.not_looksAt, spent.not_looksAt, spent.atEnd] at ran
    exact leaves here spent holds value onward ran result last
  · have same : (there.looksAt .semicolon || there.looksAt .rightBrace || there.atEnd) =
        (here.looksAt .semicolon || here.looksAt .rightBrace || here.atEnd) := by
      simp only [Cursor.looksAt_eq, Cursor.atEnd_eq, alike .semicolon rfl, alike .rightBrace rfl,
        alike .endOfInput rfl]
    rw [same] at running
    cases decided : here.looksAt .semicolon || here.looksAt .rightBrace || here.atEnd with
    | true =>
        rw [decided] at ran running
        exact stays here there ⟨beside, holds⟩ value result onward last ran running
    | false =>
        rw [decided] at ran running
        exact goes here there beside value result onward last ran running

/-- A semicolon that may be missing; at its end the first reader stays where it is. -/
theorem optionalSemicolon {fact : Cursor → Prop} (span other : Span) :
    Joins (fun here there => fork.Soft known loose here there ∧ fact here)
      (fun _ _ => fork.Soft known fact) (Parse.optionalSemicolon span)
      (Parse.optionalSemicolon other) := by
  rintro here there ⟨soft, holds⟩ value result onward last ran running
  have ended (spent : fork.Spent here) : fork.Soft known fact onward last := by
    rw [Parse.optionalSemicolon_of_not (spent.ahead ▸ nofun)] at ran
    cases ran
    exact .inr ⟨spent, holds⟩
  rcases soft with ⟨knows, beside⟩ | ⟨spent, -⟩
  · rcases beside.alike parts with spent | alike
    · exact ended spent
    · by_cases is : here.ahead = .semicolon
      · have apart (turn : fork.Turn) (parting : fork.Parting here there) : False :=
          (turn.ahead_ne parting rfl).1 is
        obtain ⟨token, semicolon, facing⟩ := beside.facing parts (is ▸ nofun) apart
        obtain ⟨previous, before, same, _, beyond⟩ := facing
        have is' := (alike _ rfl).mpr is
        rw [Cursor.ahead_cons] at is is'
        rw [Parse.optionalSemicolon_of_ahead is] at ran
        rw [Parse.optionalSemicolon_of_ahead is'] at running
        cases ran
        cases running
        exact .inl ⟨knows, beyond⟩
      · rw [Parse.optionalSemicolon_of_not is] at ran
        rw [Parse.optionalSemicolon_of_not (mt (alike _ rfl).mp is)] at running
        cases ran
        cases running
        exact .inl ⟨knows, beside⟩
  · exact ended spent

/-! ## Readers of words -/

theorem parameters (fuel more : Nat) {done did : List Name}
    (same : did.map Name.withoutSpan = done.map Name.withoutSpan) :
    Joins fork.Ready
      (fun value result => fork.Soft (result.map Name.withoutSpan = value.map Name.withoutSpan)
        fun _ => True)
      (Parse.parameters fuel done) (Parse.parameters more did) := by
  induction fuel generalizing more done did with
  | zero => exact .short fun _ => rfl
  | succ fuel ih =>
      cases more with
      | zero => exact .short_second fun _ => rfl
      | succ more =>
          rw [Parse.parameters, Parse.parameters]
          refine (name parts _).bind fun parameter read => .assuming fun texts => ?_
          have longer : (read :: did).map Name.withoutSpan =
              (parameter :: done).map Name.withoutSpan := by
            rw [List.map_cons, List.map_cons, same, Name.withoutSpan_eq_iff.mpr texts]
          refine ready
            (accept parts rfl (by decide) (fun _ => ?_) (fun _ => .pure fun _ _ beside => ?_) ?_)
          · exact (ih more longer).ready
          · refine .inl ⟨?_, beside⟩
            rw [List.map_reverse, List.map_reverse, longer]
          · rintro here spent _ _ ⟨⟩ _ _
            exact .inr ⟨spent, trivial⟩

omit parts

variable {token other : Token}

/-- Two readers of a token that yield what it says. -/
theorem literal {value result : Expression} (same : result.core = value.core) :
    Joins (fork.Facing token other)
      (fork.Meets Expression.core)
      (Parse.advance >>= fun _ => Pure.pure value) (Parse.advance >>= fun _ => Pure.pure result) :=
  advance (.pure fun _ _ beside => ⟨same, beside⟩)

/-- The two tokens say the same. -/
theorem saying {later : β → β → Cursor → Cursor → Prop} {first second : Parse β}
    (joins : other.word = token.word → other.kind = token.kind →
      Joins (fork.Facing token other) later first second) :
    Joins (fork.Facing token other) later first second := by
  rintro _ _ ⟨previous, before, same, goes, next⟩
  have kinds : other.kind = token.kind := by rw [← other.kind_word, same, token.kind_word]
  exact joins same kinds _ _ ⟨previous, before, same, goes, next⟩

theorem integer (is : token.kind = .integer) :
    Joins (fork.Facing token other)
      (fork.Meets Expression.core)
      Parse.integer Parse.integer := by
  refine saying fun same kinds => peek ?_
  cases reads : Number.readInteger? token.lexeme.toList with
  | none => exact fun _ _ _ _ _ _ _ ran => absurd ran Parse.fail_ne_done
  | some value =>
      cases reads' : Number.readInteger? other.lexeme.toList with
      | none => exact fun _ _ _ _ _ _ _ _ running => absurd running Parse.fail_ne_done
      | some result =>
          rw [Token.word_integer is reads, Token.word_integer (kinds.trans is) reads'] at same
          obtain rfl := Word.integer.inj same
          exact literal rfl

theorem float (is : token.kind = .float) :
    Joins (fork.Facing token other)
      (fork.Meets Expression.core)
      Parse.float Parse.float := by
  refine saying fun same kinds => peek ?_
  cases reads : Number.readFloat? token.lexeme.toList with
  | none => exact fun _ _ _ _ _ _ _ ran => absurd ran Parse.fail_ne_done
  | some value =>
      cases reads' : Number.readFloat? other.lexeme.toList with
      | none => exact fun _ _ _ _ _ _ _ _ running => absurd running Parse.fail_ne_done
      | some result =>
          rw [Token.word_float is reads, Token.word_float (kinds.trans is) reads'] at same
          obtain rfl := Word.float.inj same
          exact literal rfl

end Joins

end Fork

end MonkeyLang
