import MonkeyLang.Token.Lexer

/-!
# The characters of identifiers

An identifier is cut off as long as its characters may continue a name, so all of them are letters,
digits of any script or underscores (`Token.scan_identifier`). No character that ends a line is one
of these (`Token.not_continuesName`).
-/

set_option autoImplicit false

namespace MonkeyLang.Token

/-- No line ends inside of a name. -/
theorem not_continuesName : continuesName '\n' = false ∧ continuesName '\r' = false := by
  decide +kernel

theorem cutOperator_kind {short long : Kind} (text : List Char) (one : short ≠ .identifier)
    (other : long ≠ .identifier) : (cutOperator short long text).kind ≠ .identifier := by
  unfold cutOperator
  split
  · exact other
  · exact one

theorem cutString_kind (contents : List Char) (consumed : Nat) (bad : Option (Fault × Nat))
    (text : List Char) : (cutString contents consumed bad text).kind ≠ .identifier := by
  fun_induction cutString contents consumed bad text with
  | case1 | case2 | case3 | case4 => exact Kind.noConfusion
  | case5 _ _ _ _ _ _ _ ih | case6 _ _ _ _ _ _ ih | case7 _ _ _ _ _ _ _ _ ih => exact ih

theorem cutInteger_kind (digits rest : List Char) :
    (cutInteger digits rest).kind ≠ .identifier := by
  unfold cutInteger
  dsimp only
  split <;> exact Kind.noConfusion

theorem cutNumber_kind (text : List Char) : (cutNumber text).kind ≠ .identifier := by
  unfold cutNumber
  dsimp only
  split
  · split
    · exact Kind.noConfusion
    · exact cutInteger_kind _ _
  · exact cutInteger_kind _ _

/-- Identifiers are cut off as names. -/
theorem cut_of_identifier {c : Char} {rest : List Char} (is : (cut c rest).kind = .identifier) :
    cut c rest = cutName (c :: rest) := by
  revert is
  unfold cut
  split
  case h_17 => exact fun is => absurd is (cutString_kind _ _ _ _)
  case h_18 =>
    split
    · exact fun is => absurd is (cutNumber_kind _)
    · split
      · exact fun _ => rfl
      · exact fun is => Kind.noConfusion is
  -- What is left are brackets, separators and operators.
  all_goals first
    | exact fun is => Kind.noConfusion is
    | exact fun is => absurd is (cutOperator_kind rest (by decide) (by decide))

/-- What is cut off as an identifier may continue a name. -/
theorem cut_identifier {c : Char} {rest : List Char} (is : (cut c rest).kind = .identifier) :
    ∀ d ∈ (cut c rest).lexeme.toList, continuesName d = true := by
  rw [cut_of_identifier is]
  intro d member
  rw [cutName, Cut.sound, String.toList_ofList] at member
  exact List.all_eq_true.mp List.all_takeWhile d member

theorem scanFrom_identifier (position : Nat) (text : List Char) (tokens : Array Token)
    (faults : Array (Fault × Span))
    (before : ∀ token ∈ tokens, token.kind = .identifier →
      ∀ c ∈ token.lexeme.toList, continuesName c = true) :
    ∀ token ∈ (scanFrom position text tokens faults).tokens, token.kind = .identifier →
      ∀ c ∈ token.lexeme.toList, continuesName c = true := by
  fun_induction scanFrom position text tokens faults with
  | case1 position text tokens faults start found =>
      intro token member is
      rcases Array.mem_push.mp (Array.mem_toList_iff.mp member) with earlier | rfl
      · exact before token earlier is
      · cases is
  | case2 position text tokens faults start c rest found next token more ih =>
      refine ih fun other member is => ?_
      rcases Array.mem_push.mp member with earlier | rfl
      · exact before other earlier is
      · exact cut_identifier is

/-- The characters of an identifier may continue a name. -/
theorem scan_identifier {source : List Char} {token : Token} (member : token ∈ (scan source).tokens)
    (is : token.kind = .identifier) : ∀ c ∈ token.lexeme.toList, continuesName c = true :=
  scanFrom_identifier 0 source #[] #[] (fun other none => absurd none (Array.not_mem_empty other))
    token member is

end MonkeyLang.Token
