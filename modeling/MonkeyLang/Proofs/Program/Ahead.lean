import MonkeyLang.Proofs.Program.Spelling
import MonkeyLang.Proofs.Program.Taking
import MonkeyLang.Proofs.Program.Writing

/-!
# Readers that succeed, taken apart

What a reader that yields a value has done: each of its steps has yielded a value, and the cursor
was handed from one to the next. What a reader does depends on what the tokens ahead say
(`Cursor.words`), and most often only on the kind of the next one (`Cursor.ahead`).
-/

set_option autoImplicit false

namespace MonkeyLang

/-! ## What is ahead -/

@[simp] theorem Token.kind_word (token : Token) : token.word.kind = token.kind := by
  unfold Token.word
  split
  · next is => exact is.symm
  · next is => exact is.symm
  · next is => split <;> exact is.symm
  · next is => split <;> exact is.symm
  · rfl

namespace Cursor

/-- What the tokens that are left say. -/
def words (cursor : Cursor) : List Word := cursor.rest.map Token.word

/-- The kind of the next token. Behind the last one it is that of the end. -/
def ahead (cursor : Cursor) : Token.Kind := (cursor.words.headD (.fixed .endOfInput)).kind

variable {cursor : Cursor} {previous token : Token} {rest : List Token} {word : Word}
  {words : List Word} {kind : Token.Kind}

@[simp] theorem words_cons : Cursor.words ⟨previous, token :: rest⟩ =
    token.word :: Cursor.words ⟨token, rest⟩ := rfl

@[simp] theorem ahead_cons : Cursor.ahead ⟨previous, token :: rest⟩ = token.kind :=
  token.kind_word

theorem words_ne_nil : Cursor.words ⟨previous, token :: rest⟩ ≠ [] := List.cons_ne_nil _ _

theorem ahead_eq (is : cursor.words = word :: words) : cursor.ahead = word.kind := by
  rw [ahead, is]
  rfl

theorem exists_of_words (is : cursor.words = word :: words) :
    ∃ previous token rest, cursor = ⟨previous, token :: rest⟩ ∧ token.word = word ∧
      rest.map Token.word = words := by
  obtain ⟨previous, rest⟩ := cursor
  obtain ⟨token, rest, rfl, said, others⟩ := List.map_eq_cons_iff.mp is
  exact ⟨previous, token, rest, rfl, said, others⟩

theorem atEnd_eq : cursor.atEnd = decide (cursor.ahead = .endOfInput) := by
  obtain ⟨previous, rest⟩ := cursor
  cases rest with
  | nil => rfl
  | cons token rest =>
      rw [ahead_cons]
      rfl

theorem looksAt_eq :
    cursor.looksAt kind = (decide (cursor.ahead = kind) && decide (kind ≠ .endOfInput)) := by
  obtain ⟨previous, rest⟩ := cursor
  cases rest with
  | nil =>
      rw [looksAt, atEnd]
      cases kind <;> rfl
  | cons token rest =>
      rw [looksAt, atEnd, peek, ahead_cons, Bool.eq_iff_iff]
      simp only [Bool.and_eq_true, Bool.not_eq_true', beq_eq_false_iff_ne, beq_iff_eq,
        decide_eq_true_eq]
      constructor
      · rintro ⟨goes, rfl⟩
        exact ⟨rfl, goes⟩
      · rintro ⟨rfl, goes⟩
        exact ⟨goes, rfl⟩

theorem looksAt_iff : cursor.looksAt kind = true ↔ cursor.ahead = kind ∧ kind ≠ .endOfInput := by
  simp [looksAt_eq]

/-- Where a token is left, it is what is looked at. -/
theorem peek_kind (some : cursor.words ≠ []) : cursor.peek.kind = cursor.ahead := by
  obtain ⟨word, words, is⟩ := List.exists_cons_of_ne_nil some
  obtain ⟨previous, token, rest, rfl, -, -⟩ := exists_of_words is
  exact ahead_cons.symm

/-- A token of a kind that is left can be moved over. -/
theorem exists_of_ahead (is : cursor.ahead = kind) (goes : kind ≠ .endOfInput) :
    ∃ previous token rest, cursor = ⟨previous, token :: rest⟩ ∧ token.kind = kind := by
  obtain ⟨previous, rest⟩ := cursor
  cases rest with
  | nil => exact absurd is.symm goes
  | cons token rest => exact ⟨previous, token, rest, rfl, ahead_cons.symm.trans is⟩

end Cursor

/-! ## Steps of a reader -/

namespace Parse

variable {α β : Type} {cursor last : Cursor} {kind : Token.Kind}

theorem bind_eq_done {first : Parse α} {next : α → Parse β} {result : β} :
    (first >>= next) cursor = .done result last ↔ ∃ value middle,
      first cursor = .done value middle ∧ next value middle = .done result last := by
  show andThen first next cursor = _ ↔ _
  unfold andThen
  cases first cursor with
  | done value middle =>
      constructor
      · exact fun ran => ⟨value, middle, rfl, ran⟩
      · rintro ⟨_, _, ⟨⟩, ran⟩
        exact ran
  | failed failure middle => simp
  | endless => simp

theorem pure_eq_done {value result : α} :
    (Pure.pure value : Parse α) cursor = .done result last ↔ value = result ∧ cursor = last := by
  show Outcome.done value cursor = _ ↔ _
  simp

theorem fail_ne_done {fault : SyntaxFault} {result : α} :
    (fail fault : Parse α) cursor ≠ .done result last := nofun

theorem endless_ne_done {result : α} : (endless : Parse α) cursor ≠ .done result last := nofun

theorem peek_bind (next : Token → Parse β) : (peek >>= next) cursor = next cursor.peek cursor := rfl

theorem peek_bind_cons {before token : Token} {rest : List Token} (next : Token → Parse β) :
    (peek >>= next) ⟨before, token :: rest⟩ = next token ⟨before, token :: rest⟩ := rfl

theorem atEnd_bind (next : Bool → Parse β) : (atEnd >>= next) cursor = next cursor.atEnd cursor :=
  rfl

theorem looksAt_bind (next : Bool → Parse β) :
    (looksAt kind >>= next) cursor = next (cursor.looksAt kind) cursor := rfl

theorem previous_bind (next : Token → Parse β) :
    (previous >>= next) cursor = next cursor.previous cursor := rfl

theorem advance_bind {before token : Token} {rest : List Token} (goes : token.kind ≠ .endOfInput)
    (next : Token → Parse β) :
    (advance >>= next) ⟨before, token :: rest⟩ = next token ⟨token, rest⟩ :=
  bind_of_done (by rw [advance, advance_cons goes])

theorem accept_bind_of_ahead {before token : Token} {rest : List Token} (is : token.kind = kind)
    (goes : kind ≠ .endOfInput) (next : Bool → Parse β) :
    (accept kind >>= next) ⟨before, token :: rest⟩ = next true ⟨token, rest⟩ := by
  have looks : Cursor.looksAt ⟨before, token :: rest⟩ kind = true :=
    Cursor.looksAt_iff.mpr ⟨Cursor.ahead_cons.trans is, goes⟩
  refine bind_of_done ?_
  rw [accept, if_pos looks, advance_cons (is ▸ goes)]

theorem accept_bind_of_not (not : cursor.ahead ≠ kind) (next : Bool → Parse β) :
    (accept kind >>= next) cursor = next false cursor := by
  have looks : cursor.looksAt kind ≠ true := fun looks => not (Cursor.looksAt_iff.mp looks).1
  exact bind_of_done (if_neg looks)

theorem require_eq_done {what : String} {token : Token} :
    require kind what cursor = .done token last ↔
      ∃ previous rest, cursor = ⟨previous, token :: rest⟩ ∧ token.kind = kind ∧
        kind ≠ .endOfInput ∧ last = ⟨token, rest⟩ := by
  by_cases looks : cursor.looksAt kind = true
  · obtain ⟨is, goes⟩ := Cursor.looksAt_iff.mp looks
    obtain ⟨previous, other, rest, rfl, kind⟩ := Cursor.exists_of_ahead is goes
    rw [require, if_pos looks, advance_cons (kind ▸ goes)]
    constructor
    · rintro ⟨⟩
      exact ⟨previous, rest, rfl, kind, goes, rfl⟩
    · rintro ⟨_, _, same, -, -, rfl⟩
      cases same
      rfl
  · rw [require, if_neg looks]
    constructor
    · rintro ⟨⟩
    · rintro ⟨previous, rest, rfl, is, goes, -⟩
      exact absurd (Cursor.looksAt_iff.mpr ⟨Cursor.ahead_cons.trans is, goes⟩) looks

/-- A word that is required is there, and is moved over. -/
theorem require_words {what : String} {token : Token} {word : Word} {words : List Word}
    (ran : require kind what cursor = .done token last) (is : cursor.words = word :: words) :
    word.kind = kind ∧ last.words = words := by
  obtain ⟨previous, rest, rfl, of_kind, -, rfl⟩ := require_eq_done.mp ran
  obtain ⟨rfl, rfl⟩ := List.cons_eq_cons.mp is
  exact ⟨token.kind_word.trans of_kind, rfl⟩

theorem name_cons {what : String} {name : Name} {before token : Token} {rest : List Token}
    (ran : Parse.name what ⟨before, token :: rest⟩ = .done name last) :
    token.kind = .identifier ∧ name = ⟨token.lexeme, token.span⟩ ∧ last = ⟨token, rest⟩ := by
  rw [Parse.name, peek_bind_cons] at ran
  by_cases is : token.kind = .identifier
  · have goes : token.kind ≠ .endOfInput := is ▸ nofun
    rw [if_pos is, advance_bind goes] at ran
    obtain ⟨rfl, rfl⟩ := pure_eq_done.mp ran
    exact ⟨is, rfl, rfl⟩
  · rw [if_neg is] at ran
    by_cases keyword : (Token.Kind.keyword? token.lexeme).isSome
    · rw [if_pos keyword] at ran
      exact absurd ran fail_ne_done
    · rw [if_neg keyword] at ran
      exact absurd ran fail_ne_done

theorem name_ahead {what : String} {name : Name} (some : cursor.words ≠ [])
    (ran : Parse.name what cursor = .done name last) : cursor.ahead = .identifier := by
  obtain ⟨word, words, is⟩ := List.exists_cons_of_ne_nil some
  obtain ⟨previous, token, rest, rfl, -, -⟩ := Cursor.exists_of_words is
  exact Cursor.ahead_cons.trans (name_cons ran).1

/-- An expression does not go on with what binds less tightly. -/
theorem extensions_of_not {fuel : Nat} {floor : Precedence} {left : Expression}
    (some : cursor.words ≠ []) (stops : ¬floor.rank < cursor.ahead.precedence.rank) :
    extensions (fuel + 1) floor left cursor = .done left cursor := by
  rw [extensions, peek_bind, Cursor.peek_kind some, if_neg stops]
  rfl

/-- Statements end in front of a closing brace and at the end. -/
theorem blockStatements_of_stop {fuel : Nat} {done : List Statement}
    (stops : cursor.ahead = .rightBrace ∨ cursor.ahead = .endOfInput) :
    blockStatements (fuel + 1) done cursor = .done done.reverse cursor := by
  have stop : (cursor.looksAt .rightBrace || cursor.atEnd) = true := by
    rw [Cursor.looksAt_eq, Cursor.atEnd_eq]
    rcases stops with is | is <;> rw [is] <;> rfl
  rw [blockStatements, looksAt_bind, atEnd_bind, if_pos stop]
  rfl

theorem blockStatements_of_goes {fuel : Nat} {done : List Statement}
    (brace : cursor.ahead ≠ .rightBrace) (more : cursor.ahead ≠ .endOfInput) :
    blockStatements (fuel + 1) done cursor =
      (statement fuel >>= fun next => blockStatements fuel (next :: done)) cursor := by
  have goes : ¬(cursor.looksAt .rightBrace || cursor.atEnd) = true := by
    rw [Cursor.looksAt_eq, Cursor.atEnd_eq]
    simp [brace, more]
  rw [blockStatements, looksAt_bind, atEnd_bind, if_neg goes]

theorem parameters_ahead {fuel : Nat} {done names : List Name} (some : cursor.words ≠ [])
    (ran : parameters fuel done cursor = .done names last) : cursor.ahead = .identifier := by
  cases fuel with
  | zero => exact absurd ran endless_ne_done
  | succ fuel =>
      rw [parameters] at ran
      obtain ⟨name, middle, read, -⟩ := bind_eq_done.mp ran
      exact name_ahead some read

/-- A reader of an operand that succeeds begins with what opens an expression. -/
theorem operand_ahead {fuel : Nat} {value : Expression} (some : cursor.words ≠ [])
    (ran : operand fuel cursor = .done value last) : cursor.ahead.opensExpression = true := by
  cases fuel with
  | zero =>
      rw [operand] at ran
      exact absurd ran endless_ne_done
  | succ fuel =>
      rw [operand, peek_bind] at ran
      rw [← Cursor.peek_kind some]
      cases is : cursor.peek.kind <;> first
        | rfl
        | rw [is] at ran
          exact absurd ran fail_ne_done

theorem expression_ahead {fuel : Nat} {floor : Precedence} {value : Expression}
    (some : cursor.words ≠ []) (ran : expression fuel floor cursor = .done value last) :
    cursor.ahead.opensExpression = true := by
  cases fuel with
  | zero =>
      rw [expression] at ran
      exact absurd ran endless_ne_done
  | succ fuel =>
      rw [expression] at ran
      obtain ⟨left, middle, read, -⟩ := bind_eq_done.mp ran
      exact operand_ahead some read

theorem moreExpressions_ahead {fuel : Nat} {done values : List Expression}
    (some : cursor.words ≠ []) (ran : moreExpressions fuel done cursor = .done values last) :
    cursor.ahead.opensExpression = true := by
  cases fuel with
  | zero =>
      rw [moreExpressions] at ran
      exact absurd ran endless_ne_done
  | succ fuel =>
      rw [moreExpressions] at ran
      obtain ⟨item, middle, read, -⟩ := bind_eq_done.mp ran
      exact expression_ahead some read

theorem optionalSemicolon_of_ahead {span : Span} {before token : Token} {rest : List Token}
    (is : token.kind = .semicolon) :
    optionalSemicolon span ⟨before, token :: rest⟩ =
      .done (span.merge token.span) ⟨token, rest⟩ := by
  have looks : Cursor.looksAt ⟨before, token :: rest⟩ .semicolon = true :=
    Cursor.looksAt_iff.mpr ⟨Cursor.ahead_cons.trans is, nofun⟩
  rw [optionalSemicolon, looksAt_bind, looks]
  exact advance_bind (is ▸ nofun) _

theorem optionalSemicolon_of_not {span : Span} (not : cursor.ahead ≠ .semicolon) :
    optionalSemicolon span cursor = .done span cursor := by
  have looks : cursor.looksAt .semicolon = false := by
    rw [Cursor.looksAt_eq, decide_eq_false not]
    rfl
  rw [optionalSemicolon, looksAt_bind, looks]
  rfl

end Parse

end MonkeyLang
