import MonkeyLang.Program.Parser

/-!
# Readers that take tokens

A reader takes a list of tokens in front of others if it ends behind them, whatever was read
before (`Parse.Takes`). Readers that run one after another take one list after another
(`Parse.Takes.bind`), so that a reader is followed through the tokens it takes part by part.
Looking ahead takes nothing; what is seen depends on the first token that is left only.
-/

set_option autoImplicit false

namespace MonkeyLang

theorem getLastD_append {α : Type} (left right : List α) (first : α) :
    (left ++ right).getLastD first = right.getLastD (left.getLastD first) := by
  induction left generalizing first with
  | nil => rfl
  | cons item items ih => rw [List.cons_append, List.getLastD_cons, List.getLastD_cons, ih]

namespace Parse

variable {α β : Type}

theorem bind_of_done {first : Parse α} {next : α → Parse β} {cursor middle : Cursor} {value : α}
    (ran : first cursor = .done value middle) : (first >>= next) cursor = next value middle := by
  show andThen first next cursor = _
  rw [andThen, ran]

/-- The reader takes these tokens in front of the others. What it yields is good, and the last
token it has read is the last of those. -/
def Takes (parse : Parse α) (tokens others : List Token) (good : α → Prop) : Prop :=
  ∀ previous : Token, ∃ value,
    parse ⟨previous, tokens ++ others⟩ = .done value ⟨tokens.getLastD previous, others⟩ ∧ good value

namespace Takes

variable {parse : Parse α} {next : α → Parse β} {tokens left right others : List Token}
  {good : α → Prop} {fine : β → Prop} {token : Token}

theorem pure {value : α} (holds : good value) : (pure value : Parse α).Takes [] others good :=
  fun _ => ⟨value, rfl, holds⟩

theorem bind (first : parse.Takes left (right ++ others) good)
    (second : ∀ value, good value → (next value).Takes right others fine) :
    (parse >>= next).Takes (left ++ right) others fine := by
  intro previous
  obtain ⟨value, ran, holds⟩ := first previous
  obtain ⟨result, rested, well⟩ := second value holds (left.getLastD previous)
  refine ⟨result, ?_, well⟩
  rw [List.append_assoc, bind_of_done ran, rested, getLastD_append]

/-- A reader of a single token runs first. -/
theorem bind_token (first : parse.Takes [token] (right ++ others) good)
    (second : ∀ value, good value → (next value).Takes right others fine) :
    (parse >>= next).Takes (token :: right) others fine :=
  bind first second

/-- A reader of a single token runs first, and it is known what it yields. -/
theorem bind_cons {value : α} (first : parse.Takes [token] (right ++ others) (· = value))
    (second : (next value).Takes right others fine) :
    (parse >>= next).Takes (token :: right) others fine :=
  bind_token first fun _ is => is ▸ second

/-- What is left to do takes nothing more. -/
theorem bind_nil (first : parse.Takes tokens others good)
    (second : ∀ value, good value → (next value).Takes [] others fine) :
    (parse >>= next).Takes tokens others fine := by
  have both : (parse >>= next).Takes (tokens ++ []) others fine := bind first second
  rwa [List.append_nil] at both

/-- A reader runs last, and what it yields is changed. -/
theorem map {change : α → β} (takes : parse.Takes tokens others good)
    (holds : ∀ value, good value → fine (change value)) :
    (parse >>= fun value => Pure.pure (change value)).Takes tokens others fine := by
  intro previous
  obtain ⟨value, ran, fit⟩ := takes previous
  exact ⟨change value, bind_of_done ran, holds value fit⟩

theorem weaken {weak : α → Prop} (takes : parse.Takes tokens others good)
    (implies : ∀ value, good value → weak value) : parse.Takes tokens others weak := by
  intro previous
  obtain ⟨value, ran, holds⟩ := takes previous
  exact ⟨value, ran, implies value holds⟩

end Takes

/-! ## Single tokens -/

section

variable {others : List Token} {token previous : Token} {kind : Token.Kind}

theorem atEnd_cons (more : token.kind ≠ .endOfInput) :
    Cursor.atEnd ⟨previous, token :: others⟩ = false := by
  rw [Cursor.atEnd, beq_eq_false_iff_ne]
  exact more

theorem looksAt_cons (some : kind ≠ .endOfInput) :
    Cursor.looksAt ⟨previous, token :: others⟩ kind = decide (token.kind = kind) := by
  rw [Cursor.looksAt]
  by_cases same : token.kind = kind
  · rw [atEnd_cons (same ▸ some), Cursor.peek]
    simp [same]
  · rw [Cursor.peek]
    simp [same]

theorem advance_cons (more : token.kind ≠ .endOfInput) :
    Cursor.advance ⟨previous, token :: others⟩ = ⟨token, others⟩ := by
  have later : Cursor.atEnd ⟨previous, token :: others⟩ ≠ true := by simp [atEnd_cons more]
  exact if_neg later

theorem takes_advance (more : token.kind ≠ .endOfInput) :
    advance.Takes [token] others (· = token) := by
  intro previous
  refine ⟨token, ?_, rfl⟩
  rw [List.singleton_append, advance, advance_cons more]
  rfl

theorem takes_require (is : token.kind = kind) (some : kind ≠ .endOfInput) (what : String) :
    (require kind what).Takes [token] others (· = token) := by
  intro previous
  refine ⟨token, ?_, rfl⟩
  rw [List.singleton_append, require, looksAt_cons some, if_pos (decide_eq_true is),
    advance_cons (is ▸ some)]
  rfl

theorem takes_accept (is : token.kind = kind) (some : kind ≠ .endOfInput) :
    (accept kind).Takes [token] others (· = true) := by
  intro previous
  refine ⟨true, ?_, rfl⟩
  rw [List.singleton_append, accept, looksAt_cons some, if_pos (decide_eq_true is),
    advance_cons (is ▸ some)]
  rfl

end

/-! ## Looking ahead -/

namespace Takes

variable {tokens more others : List Token} {token : Token} {kind : Token.Kind} {fine : β → Prop}

theorem peek {rest : Token → Parse β} (ahead : tokens ++ others = token :: more)
    (takes : (rest token).Takes tokens others fine) :
    (Parse.peek >>= rest).Takes tokens others fine := by
  intro previous
  obtain ⟨value, ran, holds⟩ := takes previous
  refine ⟨value, Eq.trans (bind_of_done ?_) ran, holds⟩
  rw [ahead, Parse.peek, Cursor.peek]

theorem atEnd {rest : Bool → Parse β} (ahead : tokens ++ others = token :: more)
    (unfinished : token.kind ≠ .endOfInput) (takes : (rest false).Takes tokens others fine) :
    (Parse.atEnd >>= rest).Takes tokens others fine := by
  intro previous
  obtain ⟨value, ran, holds⟩ := takes previous
  refine ⟨value, Eq.trans (bind_of_done ?_) ran, holds⟩
  rw [ahead, Parse.atEnd, atEnd_cons unfinished]

theorem looksAt {rest : Bool → Parse β} (ahead : tokens ++ others = token :: more)
    (some : kind ≠ .endOfInput)
    (takes : (rest (decide (token.kind = kind))).Takes tokens others fine) :
    (Parse.looksAt kind >>= rest).Takes tokens others fine := by
  intro previous
  obtain ⟨value, ran, holds⟩ := takes previous
  refine ⟨value, Eq.trans (bind_of_done ?_) ran, holds⟩
  rw [ahead, Parse.looksAt, looksAt_cons some]

/-- A token of another kind is not accepted. -/
theorem decline {rest : Bool → Parse β} (ahead : tokens ++ others = token :: more)
    (some : kind ≠ .endOfInput) (other : token.kind ≠ kind)
    (takes : (rest false).Takes tokens others fine) :
    (Parse.accept kind >>= rest).Takes tokens others fine := by
  intro previous
  obtain ⟨value, ran, holds⟩ := takes previous
  refine ⟨value, Eq.trans (bind_of_done ?_) ran, holds⟩
  rw [ahead, Parse.accept, looksAt_cons some, if_neg (by simpa using other)]

/-- The token that was read last is the last one taken. -/
theorem bind_previous {parse : Parse α} {good : α → Prop} {next : α → Token → Parse β}
    {front right : List Token}
    (first : parse.Takes (front ++ [token]) (right ++ others) good)
    (second : ∀ value, good value → (next value token).Takes right others fine) :
    (parse >>= fun value => Parse.previous >>= next value).Takes
      ((front ++ [token]) ++ right) others fine := by
  intro previous
  obtain ⟨value, ran, holds⟩ := first previous
  obtain ⟨result, rested, well⟩ := second value holds token
  rw [getLastD_append, List.getLastD_cons, List.getLastD_nil] at ran
  have looked : (Parse.previous >>= next value) ⟨token, right ++ others⟩ =
      next value token ⟨token, right ++ others⟩ := rfl
  refine ⟨result, ?_, well⟩
  rw [List.append_assoc, bind_of_done ran, looked, rested, getLastD_append, getLastD_append,
    List.getLastD_cons, List.getLastD_nil]

end Takes

end Parse

end MonkeyLang
