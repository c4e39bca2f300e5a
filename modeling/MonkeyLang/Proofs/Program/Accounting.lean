import MonkeyLang.Proofs.Program.Taking
import MonkeyLang.Proofs.Program.Writing

/-!
# Readers that account for their tokens

A reader may be given any tokens, and it may fail. Whatever becomes of it, it moves over some of the
tokens from the first one on, never over the one for the end of input, and a failure is told about
the token behind those. If the reader succeeds, what it yields is made of what the tokens say that
it has moved over. And with enough fuel for the tokens that are left it does not go on for ever
(`Parse.Accounts`). Readers that run one after another account for their tokens together
(`Parse.Accounts.bind`).
-/

set_option autoImplicit false

namespace MonkeyLang

/-- The tokens ahead of one place are some tokens and those ahead of another place, which stands
behind them. All of them stand in front of the token that closes the list. -/
def Cursor.Passes (close previous : Token) (ahead taken left : List Token) (cursor : Cursor) :
    Prop :=
  ahead = taken ++ left ∧ cursor = ⟨taken.getLastD previous, left ++ [close]⟩

namespace Parse

variable {α β : Type}

/-- The reader accounts for the tokens that it takes: what it yields is good for what they say. It
comes to an end if the fuel is four for each token ahead, and some more. -/
def Accounts (close : Token) (parse : Parse α) (previous : Token) (ahead : List Token)
    (more fuel : Nat) (good : List Word → α → Prop) : Prop :=
  match parse ⟨previous, ahead ++ [close]⟩ with
  | .done value cursor => ∃ taken left, cursor.Passes close previous ahead taken left ∧
      good (taken.map Token.word) value
  | .failed failure cursor => ∃ taken left, cursor.Passes close previous ahead taken left ∧
      failure.found = cursor.peek
  | .endless => fuel < 4 * ahead.length + more

namespace Accounts

variable {close previous token : Token} {ahead : List Token} {more fuel : Nat} {parse : Parse α}
  {next : α → Parse β} {good : List Word → α → Prop} {fine : List Word → β → Prop}
  {kind : Token.Kind}

theorem of_done {value : α} (taken : List Token) {left : List Token} (split : ahead = taken ++ left)
    (ran : parse ⟨previous, ahead ++ [close]⟩ =
      .done value ⟨taken.getLastD previous, left ++ [close]⟩)
    (holds : good (taken.map Token.word) value) :
    parse.Accounts close previous ahead more fuel good := by
  rw [Accounts, ran]
  exact ⟨taken, left, ⟨split, rfl⟩, holds⟩

/-- A reader that fails on the spot. -/
theorem of_failed {failure : SyntaxFailure} {cursor : Cursor}
    (stays : cursor = ⟨previous, ahead ++ [close]⟩) (ran : parse cursor = .failed failure cursor)
    (found : failure.found = cursor.peek) :
    parse.Accounts close previous ahead more fuel good := by
  subst stays
  rw [Accounts, ran]
  exact ⟨[], ahead, ⟨rfl, rfl⟩, found⟩

/-- A reader that needs less than there is. -/
theorem lower {less few : Nat} (accounts : parse.Accounts close previous ahead less few good)
    (enough : less + fuel ≤ more + few) : parse.Accounts close previous ahead more fuel good := by
  unfold Accounts at accounts ⊢
  split at accounts
  · exact accounts
  · exact accounts
  · omega

theorem weaken {weak : List Word → α → Prop}
    (accounts : parse.Accounts close previous ahead more fuel good)
    (implies : ∀ words value, good words value → weak words value) :
    parse.Accounts close previous ahead more fuel weak := by
  unfold Accounts at accounts ⊢
  split at accounts
  · obtain ⟨taken, left, passes, holds⟩ := accounts
    exact ⟨taken, left, passes, implies _ _ holds⟩
  · exact accounts
  · exact accounts

theorem pure {value : α} (holds : good [] value) :
    (Pure.pure value : Parse α).Accounts close previous ahead more fuel good :=
  ⟨[], ahead, ⟨rfl, rfl⟩, holds⟩

theorem fail (fault : SyntaxFault) :
    (Parse.fail fault : Parse α).Accounts close previous ahead more fuel good :=
  ⟨[], ahead, ⟨rfl, rfl⟩, rfl⟩

theorem endless (short : fuel < 4 * ahead.length + more) :
    (Parse.endless : Parse α).Accounts close previous ahead more fuel good := short

/-- One reader runs behind another one. It may look at the last token, and what is left are the
tokens that were not taken. -/
theorem bind_between (first : parse.Accounts close previous ahead more fuel good)
    (second : ∀ value words last left, good words value →
      last.word = words.getLastD previous.word → ahead.drop words.length = left →
      (next value).Accounts close last left (more + 4 * words.length) fuel
        fun others => fine (words ++ others)) :
    (parse >>= next).Accounts close previous ahead more fuel fine := by
  have run : (parse >>= next) ⟨previous, ahead ++ [close]⟩ =
      andThen parse next ⟨previous, ahead ++ [close]⟩ := rfl
  unfold Accounts at first ⊢
  rw [run, andThen]
  cases ran : parse ⟨previous, ahead ++ [close]⟩ with
  | endless =>
      rw [ran] at first
      exact first
  | failed failure cursor =>
      rw [ran] at first
      exact first
  | done value cursor =>
      rw [ran] at first
      obtain ⟨taken, left, ⟨rfl, rfl⟩, holds⟩ := first
      have last : (taken.getLastD previous).word =
          (taken.map Token.word).getLastD previous.word := by
        simp only [List.getLastD_eq_getLast?, List.getLast?_map]
        cases taken.getLast? <;> rfl
      have rested := second value _ _ left holds last (by simp)
      unfold Accounts at rested
      dsimp only
      split at rested
      · obtain ⟨others, beyond, ⟨rfl, rfl⟩, well⟩ := rested
        refine ⟨taken ++ others, beyond, ⟨by simp, by rw [getLastD_append]⟩, ?_⟩
        rwa [List.map_append]
      · obtain ⟨others, beyond, ⟨rfl, rfl⟩, found⟩ := rested
        exact ⟨taken ++ others, beyond, ⟨by simp, by rw [getLastD_append]⟩, found⟩
      · simp only [List.length_map, List.length_append] at rested ⊢
        omega

/-- One reader runs behind another one, and may look at the last token. -/
theorem bind_last (first : parse.Accounts close previous ahead more fuel good)
    (second : ∀ value words last left, good words value →
      last.word = words.getLastD previous.word →
      (next value).Accounts close last left (more + 4 * words.length) fuel
        fun others => fine (words ++ others)) :
    (parse >>= next).Accounts close previous ahead more fuel fine :=
  first.bind_between fun value words last left holds is _ => second value words last left holds is

/-- One reader runs behind another one, in front of the tokens that are left. -/
theorem bind_left (first : parse.Accounts close previous ahead more fuel good)
    (second : ∀ value words last left, good words value → ahead.drop words.length = left →
      (next value).Accounts close last left (more + 4 * words.length) fuel
        fun others => fine (words ++ others)) :
    (parse >>= next).Accounts close previous ahead more fuel fine :=
  first.bind_between fun value words last left holds _ rest =>
    second value words last left holds rest

/-- One reader runs behind another one. -/
theorem bind (first : parse.Accounts close previous ahead more fuel good)
    (second : ∀ value words last left, good words value →
      (next value).Accounts close last left (more + 4 * words.length) fuel
        fun others => fine (words ++ others)) :
    (parse >>= next).Accounts close previous ahead more fuel fine :=
  first.bind_last fun value words last left holds _ => second value words last left holds

/-- One reader runs behind one that takes a single token. -/
theorem bind_word {word : α → Word}
    (first : parse.Accounts close previous ahead more fuel fun words value => words = [word value])
    (second : ∀ value last left, (next value).Accounts close last left (more + 4) fuel
      fun others => fine (word value :: others)) :
    (parse >>= next).Accounts close previous ahead more fuel fine := by
  refine first.bind fun value words last left taken => ?_
  subst taken
  exact second value last left

/-! ## Looking ahead -/

theorem peek {rest : Token → Parse β}
    (accounts : ∀ token, ahead.headD close = token →
      (rest token).Accounts close previous ahead more fuel fine) :
    (Parse.peek >>= rest).Accounts close previous ahead more fuel fine := by
  have sees : Cursor.peek ⟨previous, ahead ++ [close]⟩ = ahead.headD close := by
    cases ahead <;> rfl
  have run : (Parse.peek >>= rest) ⟨previous, ahead ++ [close]⟩ =
      rest (ahead.headD close) ⟨previous, ahead ++ [close]⟩ := by
    rw [← sees]
    rfl
  have accounted := accounts _ rfl
  unfold Accounts at accounted ⊢
  rwa [run]

theorem last {rest : Token → Parse β}
    (accounts : (rest previous).Accounts close previous ahead more fuel fine) :
    (Parse.previous >>= rest).Accounts close previous ahead more fuel fine := accounts

/-- What is seen does not matter. -/
theorem looksAt {rest : Bool → Parse β}
    (accounts : ∀ seen, (rest seen).Accounts close previous ahead more fuel fine) :
    (Parse.looksAt kind >>= rest).Accounts close previous ahead more fuel fine := accounts _

theorem atEnd {rest : Bool → Parse β}
    (accounts : ∀ seen, (rest seen).Accounts close previous ahead more fuel fine) :
    (Parse.atEnd >>= rest).Accounts close previous ahead more fuel fine := accounts _

/-! ## Single tokens -/

/-- The next token is not the last one of the list. -/
theorem exists_cons (closes : close.kind = .endOfInput) (sees : ahead.headD close = token)
    (goes : token.kind ≠ .endOfInput) : ∃ left, ahead = token :: left := by
  cases ahead with
  | nil =>
      obtain rfl : close = token := sees
      exact absurd closes goes
  | cons head left =>
      obtain rfl : head = token := sees
      exact ⟨left, rfl⟩

/-- A reader runs behind the token that is ahead, in front of the tokens behind that. -/
theorem advance_left {rest : Token → Parse β} (closes : close.kind = .endOfInput)
    (sees : ahead.headD close = token) (goes : token.kind ≠ .endOfInput)
    (accounts : ∀ last left, ahead = token :: left →
      (rest token).Accounts close last left (more + 4) fuel
        fun others => fine (token.word :: others)) :
    (Parse.advance >>= rest).Accounts close previous ahead more fuel fine := by
  obtain ⟨left, rfl⟩ := exists_cons closes sees goes
  have moved : Parse.advance ⟨previous, token :: left ++ [close]⟩ =
      .done token ⟨token, left ++ [close]⟩ := by
    rw [Parse.advance, List.cons_append, advance_cons goes]
  have taken : Parse.advance.Accounts close previous (token :: left) more fuel
      fun words value => words = [token.word] ∧ value = token :=
    of_done [token] rfl moved ⟨rfl, rfl⟩
  refine taken.bind_left fun value words last behind holds rest => ?_
  obtain ⟨rfl, rfl⟩ := holds
  exact accounts last behind (rest ▸ rfl)

/-- A reader runs behind the token that is ahead. -/
theorem advance {rest : Token → Parse β} (closes : close.kind = .endOfInput)
    (sees : ahead.headD close = token) (goes : token.kind ≠ .endOfInput)
    (accounts : ∀ last left, (rest token).Accounts close last left (more + 4) fuel
      fun others => fine (token.word :: others)) :
    (Parse.advance >>= rest).Accounts close previous ahead more fuel fine :=
  advance_left closes sees goes fun last left _ => accounts last left

/-- A token of a kind is ahead. -/
theorem exists_of_looksAt (closes : close.kind = .endOfInput)
    (looks : Cursor.looksAt ⟨previous, ahead ++ [close]⟩ kind = true) :
    ∃ token left, ahead = token :: left ∧ token.kind = kind ∧ token.kind ≠ .endOfInput := by
  cases ahead with
  | nil => simp [Cursor.looksAt, Cursor.atEnd, closes] at looks
  | cons token left =>
      simp only [Cursor.looksAt, Cursor.atEnd, Cursor.peek, List.cons_append, Bool.and_eq_true,
        Bool.not_eq_true', beq_eq_false_iff_ne, beq_iff_eq] at looks
      exact ⟨token, left, rfl, looks.2, looks.1⟩

variable (closes : close.kind = .endOfInput)

include closes

/-- A token that has to be of a kind of which no more is said. -/
theorem require (what : String) (fixed : kind.isFixed = true) :
    (Parse.require kind what).Accounts close previous ahead more fuel
      fun words _ => words = [.fixed kind] := by
  by_cases looks : Cursor.looksAt ⟨previous, ahead ++ [close]⟩ kind = true
  · obtain ⟨token, left, rfl, is, goes⟩ := exists_of_looksAt closes looks
    have ran : Parse.require kind what ⟨previous, token :: left ++ [close]⟩ =
        .done token ⟨token, left ++ [close]⟩ := by
      rw [Parse.require, if_pos looks, List.cons_append, advance_cons goes]
    refine of_done [token] rfl ran ?_
    rw [List.map_singleton, Token.word_fixed is fixed]
  · exact of_failed rfl (if_neg looks) rfl

theorem accept (fixed : kind.isFixed = true) :
    (Parse.accept kind).Accounts close previous ahead more fuel
      fun words taken => words = if taken then [.fixed kind] else [] := by
  by_cases looks : Cursor.looksAt ⟨previous, ahead ++ [close]⟩ kind = true
  · obtain ⟨token, left, rfl, is, goes⟩ := exists_of_looksAt closes looks
    have ran : Parse.accept kind ⟨previous, token :: left ++ [close]⟩ =
        .done true ⟨token, left ++ [close]⟩ := by
      rw [Parse.accept, if_pos looks, List.cons_append, advance_cons goes]
    refine of_done [token] rfl ran ?_
    rw [List.map_singleton, Token.word_fixed is fixed, if_pos rfl]
  · exact of_done [] rfl (if_neg looks) (if_neg Bool.false_ne_true).symm

/-- A semicolon that may be missing. -/
theorem optionalSemicolon (span : Span) :
    (Parse.optionalSemicolon span).Accounts close previous ahead more fuel
      fun words _ => words = [] ∨ words = [.fixed .semicolon] := by
  by_cases looks : Cursor.looksAt ⟨previous, ahead ++ [close]⟩ .semicolon = true
  · obtain ⟨token, left, rfl, is, goes⟩ := exists_of_looksAt closes looks
    have saw : Parse.looksAt .semicolon ⟨previous, token :: left ++ [close]⟩ = .done true _ :=
      congrArg (fun seen => Outcome.done seen _) looks
    have moved : Parse.advance ⟨previous, token :: left ++ [close]⟩ =
        .done token ⟨token, left ++ [close]⟩ := by
      rw [Parse.advance, List.cons_append, advance_cons goes]
    refine of_done [token] rfl ((bind_of_done saw).trans (bind_of_done moved)) (.inr ?_)
    rw [List.map_singleton, Token.word_fixed is rfl]
  · have saw : Parse.looksAt .semicolon ⟨previous, ahead ++ [close]⟩ = .done false _ :=
      congrArg (fun seen => Outcome.done seen _) (eq_false_of_ne_true looks)
    exact of_done [] rfl (bind_of_done saw) (.inl rfl)

/-- A name that has to stand here. -/
theorem name (what : String) :
    (Parse.name what).Accounts close previous ahead more fuel
      fun words value => words = [.name value.text] := by
  refine peek fun token sees => ?_
  split
  · next is =>
      have goes : token.kind ≠ .endOfInput := by rw [is]; decide
      refine advance closes sees goes fun last left => pure ?_
      rw [Token.word_name is]
  · split
    · exact fail _
    · exact fail _

end Accounts

end Parse

end MonkeyLang
