import MonkeyLang.Proofs.Session.Answers
import MonkeyLang.Proofs.Token.Scanning

/-!
# Strings that are written down

Every text can be written between two quotes. A quote and a backslash have to be escaped. A line
feed, a carriage return and a tab may be escaped or not, each by itself (`Token.written`). All other
characters stand for themselves.

Such a literal is scanned as one token, which covers it and holds the text again
(`Token.scan_of_denotes`), whichever characters were escaped: no quote in it is taken for the one
that closes it, since what stands between the quotes is read escape by escape (`Token.Denotes`).
Evaluated alone, it yields the text (`evaluate_quoted`).
-/

set_option autoImplicit false

namespace MonkeyLang

namespace Token

/-! ## Writing -/

/-- A character in a string. Some characters are escaped only if it is wanted. -/
def writtenCharacter (wanted : Bool) : Char → List Char
  | '"' => ['\\', '"']
  | '\\' => ['\\', '\\']
  | '\n' => if wanted then ['\\', 'n'] else ['\n']
  | '\r' => if wanted then ['\\', 'r'] else ['\r']
  | '\t' => if wanted then ['\\', 't'] else ['\t']
  | c => [c]

/-- A text in a string, with the places where an escape is wanted though there need not be one. -/
def written (wanted : Nat → Bool) (text : List Char) : List Char :=
  text.zipIdx.flatMap fun (c, place) => writtenCharacter (wanted place) c

/-- A text as a string literal. -/
def quoted (wanted : Nat → Bool) (text : List Char) : List Char :=
  '"' :: (written wanted text ++ ['"'])

theorem denotes_writtenCharacter (wanted : Bool) (c : Char) :
    Denotes (writtenCharacter wanted c) [c] := by
  unfold writtenCharacter
  split
  case h_1 | h_2 => exact .escape (by decide) .nil
  case h_3 | h_4 | h_5 =>
    cases wanted
    · exact .plain (by decide) (by decide) .nil
    · exact .escape (by decide) .nil
  case h_6 no_quote no_backslash _ _ _ => exact .plain no_quote no_backslash .nil

/-- What is written stands for the text, whatever was wanted. -/
theorem denotes_written (wanted : Nat → Bool) (text : List Char) :
    Denotes (written wanted text) text := by
  have behind (text : List Char) (start : Nat) : Denotes
      ((text.zipIdx start).flatMap fun (c, place) => writtenCharacter (wanted place) c) text := by
    induction text generalizing start with
    | nil => exact .nil
    | cons c text ih =>
        rw [List.zipIdx_cons, List.flatMap_cons]
        exact (denotes_writtenCharacter (wanted start) c).append (ih (start + 1))
  exact behind text 0

/-! ## Scanning -/

theorem unescape?_of_mem_escapes {letter c : Char} (known : (letter, c) ∈ escapes) :
    unescape? letter = some c := by
  simp only [escapes, List.mem_cons, Prod.mk.injEq, List.not_mem_nil, or_false] at known
  rcases known with ⟨rfl, rfl⟩ | ⟨rfl, rfl⟩ | ⟨rfl, rfl⟩ | ⟨rfl, rfl⟩ | ⟨rfl, rfl⟩ <;> rfl

/-- A string is cut off up to its closing quote, and holds what stands in front of it. -/
theorem cutString_of_denotes {body meant : List Char} (denotes : Denotes body meant)
    (contents : List Char) (consumed : Nat) (rest : List Char) :
    cutString contents consumed none (body ++ '"' :: rest) =
      .sound .string (String.ofList (contents.reverse ++ meant)) (consumed + body.length + 1)
        rest := by
  induction denotes generalizing contents consumed with
  | nil => rw [List.nil_append, cutString, List.append_nil, List.length_nil, Nat.add_zero]
  | @plain c body meant no_quote no_backslash _ ih =>
      have further : consumed + 1 + body.length = consumed + (c :: body).length := by
        rw [List.length_cons]
        omega
      rw [List.cons_append, cutString]
      · rw [ih, List.reverse_cons, List.append_assoc, List.singleton_append, further]
      · exact no_quote
      · exact fun same => absurd same no_backslash
      · exact fun _ _ same => absurd same no_backslash
  | @escape letter c body meant known _ ih =>
      have further : consumed + 2 + body.length = consumed + ('\\' :: letter :: body).length := by
        rw [List.length_cons, List.length_cons]
        omega
      rw [List.cons_append, List.cons_append, cutString, unescape?_of_mem_escapes known]
      dsimp only
      rw [ih, List.reverse_cons, List.append_assoc, List.singleton_append, further]

/-- Between two quotes, what stands for a text is scanned as one token that holds the text. -/
theorem scan_of_denotes {body meant source : List Char} (denotes : Denotes body meant)
    (between : '"' :: (body ++ ['"']) = source) : scan source =
      ⟨[⟨.string, String.ofList meant, ⟨0, source.length⟩⟩,
        ⟨.endOfInput, "", ⟨source.length, source.length⟩⟩], []⟩ := by
  have length : source.length = 1 + body.length + 1 := by
    rw [← between, List.length_cons, List.length_append, List.length_singleton, Nat.add_comm 1]
  have cuts : cut '"' (body ++ ['"']) = .sound .string (String.ofList meant) source.length [] := by
    have string := cutString_of_denotes denotes [] 1 []
    rw [List.reverse_nil, List.nil_append, ← length] at string
    exact string
  have starts : skip false 0 source = (0, '"' :: (body ++ ['"'])) := by
    rw [← between]
    rfl
  have ends : skip false source.length [] = (source.length, []) := rfl
  rw [scan, scanFrom_of_skip_cons starts, cuts, Cut.sound]
  dsimp only
  rw [Nat.zero_add, scanFrom_of_skip_nil ends]
  simp [Cut.tokenAt, Cut.faultsAt]

end Token

/-! ## Evaluating -/

/-- The one token of a string is read as a literal. -/
theorem Program.ofTokens_string (lexeme : String) (span place : Span) :
    ofTokens [⟨.string, lexeme, span⟩, ⟨.endOfInput, "", place⟩] =
      some ⟨⟨[.expression (.literal (.string lexeme) span) span]⟩, []⟩ := rfl

/-- **Every text can be written down.** However it is written as a string, the literal is scanned as
one token that covers it, with the text as its contents, and there is nothing to complain about.
Evaluated on a machine with room for a value, it yields the text. -/
theorem evaluate_quoted (wanted : Nat → Bool) (text : String) {limits : Limits}
    (room : 0 < limits.stackSize) :
    let source := Token.quoted wanted text.toList
    (Token.scan source).tokens = [⟨.string, text, ⟨0, source.length⟩⟩,
      ⟨.endOfInput, "", ⟨source.length, source.length⟩⟩] ∧
    (Token.scan source).diagnostics source = [] ∧
    ∃ enough, ∀ steps, enough ≤ steps →
      evaluate steps limits source = ⟨some (.ok ⟨.string text, []⟩), ""⟩ := by
  intro source
  have scanned : Token.scan source = _ :=
    Token.scan_of_denotes (Token.denotes_written wanted text.toList) rfl
  rw [String.ofList_toList] at scanned
  have silent : (Token.scan source).diagnostics source = [] := by
    rw [scanned]
    rfl
  have read : Program.ofSource source = .ok
      ⟨[.expression (.literal (.string text) ⟨0, source.length⟩) ⟨0, source.length⟩]⟩ := by
    rw [Program.ofSource_eq]
    rw [silent, scanned]
    dsimp only
    rw [Program.ofTokens_string]
    rfl
  refine ⟨by rw [scanned], silent, ?_⟩
  exact evaluate_of_evaluates (.literal (.new limits) (.string text) _) (by decide) room
    (by rintro _ _ ⟨⟩; rfl) read

/-- A line feed is escaped and a tab is not, in front of a backslash and quotes. -/
theorem evaluate_quoted_mixed : 0 < Limits.default.stackSize ∧
    Token.quoted (· == 1) "a\n\t\\\"b\"".toList = "\"a\\n\t\\\\\\\"b\\\"\"".toList ∧
    ∃ enough, ∀ steps, enough ≤ steps →
      evaluate steps .default "\"a\\n\t\\\\\\\"b\\\"\"".toList =
        ⟨some (.ok ⟨.string "a\n\t\\\"b\"", []⟩), ""⟩ := by
  have room : 0 < Limits.default.stackSize := by decide
  have source : Token.quoted (· == 1) "a\n\t\\\"b\"".toList =
      "\"a\\n\t\\\\\\\"b\\\"\"".toList := by decide
  obtain ⟨-, -, comes⟩ := evaluate_quoted (· == 1) "a\n\t\\\"b\"" room
  rw [source] at comes
  exact ⟨room, source, comes⟩

end MonkeyLang
