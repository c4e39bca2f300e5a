import MonkeyLang.Proofs.Compiler.Culprits
import MonkeyLang.Proofs.Program.Nesting
import MonkeyLang.Proofs.Text.Lines
import MonkeyLang.Proofs.Token.Identifiers
import MonkeyLang.Proofs.Program.Parsing
import MonkeyLang.Session.Evaluate

/-!
# What is said of a name points at the name

A message about a name has passed through the whole front end. The scan cuts an identifier off the
text, whose characters it shows; the reader copies it into the tree, also where a short form is
written out (`Program.ofSource_named`); the compiler blames a name of the tree; and the message is
located by the line feeds in front of it, while its line is cut off elsewhere. An identifier lies
in one line, and so all of this comes to the same characters in the end: the marked ones are the
name, in the text as well as in the line that is shown (`compileSource_points`).
-/

set_option autoImplicit false

namespace MonkeyLang

/-- The finding shows where a name is written: its span covers the name, and so do the characters
that it marks in the line that it shows. -/
structure Diagnostic.PointsAt (source : List Char) (name : String) (diagnostic : Diagnostic) :
    Prop where
  covers : diagnostic.span.textOf source = name.toList
  line : diagnostic.line = 1 + (source.take diagnostic.span.start).count '\n'
  column : 1 ≤ diagnostic.column
  shows : (diagnostic.snippet.toList.drop (diagnostic.column - 1)).take diagnostic.length =
    name.toList

/-! ## Identifiers of a text -/

/-- The name is an identifier of a text that is cut into tokens without a fault. -/
def Name.WrittenIn (source : List Char) (name : Name) : Prop :=
  (Token.scan source).diagnostics source = [] ∧ ∃ token ∈ (Token.scan source).tokens,
    token.kind = .identifier ∧ name = ⟨token.lexeme, token.span⟩

variable {source : List Char}

/-- The tokens of a text lie one behind the other. -/
theorem Token.spread_scan (source : List Char) : Token.Spread (Token.scan source).tokens := by
  obtain ⟨⟨tokens, split, inside⟩, ordered, -⟩ := Token.scan_tiles source
  refine ⟨⟨tokens, _, split, rfl⟩, ordered, fun token member goes => ?_⟩
  rw [split, List.mem_append, List.mem_singleton] at member
  rcases member with member | rfl
  · exact (inside token member).2.1
  · exact absurd rfl goes

/-- A finding about an identifier is located in the line of the identifier, at the identifier. -/
theorem Diagnostic.points_of_written {name : Name} (written : name.WrittenIn source)
    {diagnostic : Diagnostic} (span : diagnostic.span = name.span)
    (length : diagnostic.length = name.span.length) :
    (diagnostic.locate source).PointsAt source name.text := by
  obtain ⟨silent, token, member, is, rfl⟩ := written
  obtain ⟨⟨tokens, split, all⟩, -, sound, -⟩ := Token.scan_tiles source
  have shows := (sound silent).2 token member
  rw [Token.Kind.Shows, if_neg (by rw [is]; decide)] at shows
  have inside : token.span.start < token.span.stop ∧ token.span.stop ≤ source.length := by
    rw [split, List.mem_append, List.mem_singleton] at member
    rcases member with member | rfl
    · exact (all token member).2
    · cases is
  -- No line ends inside of a name.
  have none : ∀ c, Token.continuesName c = false → c ∉ token.span.textOf source := by
    intro c breaks member'
    have continues := Token.scan_identifier member is c (shows ▸ member')
    rw [breaks] at continues
    cases continues
  have marks := Diagnostic.locate_shows source diagnostic (span ▸ inside.1) (span ▸ inside.2)
    (span ▸ none _ Token.not_continuesName.1) (span ▸ none _ Token.not_continuesName.2)
  have same : diagnostic.span.textOf source = token.lexeme.toList := by rw [span, shows]
  refine ⟨same, Nat.add_comm _ _, Nat.le_add_left _ _, ?_⟩
  have size : (diagnostic.locate source).length = diagnostic.span.length := by
    rw [span]
    exact length
  rw [size, marks, same]

/-! ## From the text to the message -/

namespace Program

/-- All names of a program are identifiers of the text that it was read from. -/
theorem ofSource_named {program : Program} (accepted : ofSource source = .ok program) :
    ∀ statement ∈ program.statements, statement.outline.NamesIn (Name.WrittenIn source) := by
  rw [ofSource_eq] at accepted
  split at accepted
  · next silent =>
      obtain ⟨reading, reads, nests, -⟩ := ofTokens_lays (Token.spread_scan source)
      rw [reads] at accepted
      split at accepted
      · next missing => cases missing
      · next other read =>
          obtain rfl := Option.some.inj read
          split at accepted
          · obtain rfl := Except.ok.inj accepted
            intro statement member name below
            obtain ⟨token, inside, is, same⟩ :=
              ((nests statement member).node_of_mem below).1.exists_token
            exact ⟨silent, token, inside, is, same⟩
          · cases accepted
  · cases accepted

/-- What is wrong with a text before it is compiled has codes of its own. -/
theorem ofSource_code {diagnostics : List Diagnostic} (rejected : ofSource source = .error diagnostics)
    {diagnostic : Diagnostic} (member : diagnostic ∈ diagnostics) :
    diagnostic.code = Diagnostic.Code.syntaxError ∨
      ∃ fault : Token.Fault, diagnostic.code = fault.code := by
  rw [ofSource_eq] at rejected
  split at rejected
  · split at rejected
    · cases rejected
      cases member
    · next reading read =>
        split at rejected
        · cases rejected
        · cases rejected
          obtain ⟨found, among, rfl⟩ := List.mem_map.mp member
          obtain ⟨failure, -, makes⟩ := List.mem_filterMap.mp among
          rw [SyntaxFailure.diagnostic?] at makes
          split at makes
          · cases makes
          · exact .inl (Option.some.inj makes ▸ rfl)
  · cases rejected
    obtain ⟨⟨fault, span⟩, -, rfl⟩ := List.mem_map.mp member
    exact .inr ⟨fault, rfl⟩

end Program

/-- The codes of faults about names. -/
def Diagnostic.Code.ofNames : List String := [undefinedName, capturedLocal, assignToBuiltin]

theorem CompileFault.name?_of_code {fault : CompileFault}
    (about : fault.code ∈ Diagnostic.Code.ofNames) :
    ∃ name, fault.name? = some name ∧ fault.span = name.span := by
  cases fault with
  | undefinedName name | assignToBuiltin name | capturedLocal name => exact ⟨name, rfl, rfl⟩
  | returnOutsideFunction span => exact absurd about (by simp [code]; decide)
  | limitExceeded limit span => exact absurd about (by simp [code]; decide)

theorem CompileFault.diagnostic_eq (fault : CompileFault) : fault.diagnostic.code = fault.code ∧
    fault.diagnostic.span = fault.span ∧ fault.diagnostic.length = fault.span.length := by
  cases fault <;> exact ⟨rfl, rfl, rfl⟩

/-! ## Compilations -/

theorem compileSource_of_rejected {diagnostics : List Diagnostic}
    (rejected : Program.ofSource source = .error diagnostics) :
    compileSource source = .error diagnostics := by
  rw [compileSource, rejected]
  rfl

section

variable {program : Program} {next : Compiler} (read : Program.ofSource source = .ok program)

include read

theorem compileSource_of_fault {fault : CompileFault}
    (made : Compiler.new.compile program = (.error fault, next)) :
    compileSource source = .error [fault.diagnostic.locate source] := by
  rw [compileSource, read]
  dsimp only [bind, Except.bind]
  rw [made]
  rfl

theorem compileSource_of_compiled {compiled : CompiledProgram}
    (made : Compiler.new.compile program = (.ok compiled, next)) :
    compileSource source =
      .ok ⟨program, compiled, next.warnings.toList.map (Diagnostic.locate source)⟩ := by
  rw [compileSource, read]
  dsimp only [bind, Except.bind]
  rw [made]
  rfl

end

/-- **What is said of a name points at the name.** If a text cannot be compiled because of a name,
the span of the message covers exactly that name, the line is the one behind as many line feeds as
there are in front of the name, and the marked characters of the line that is shown are the name.
The same holds of the name in each warning about a text that is compiled. -/
theorem compileSource_points (source : List Char) :
    (∀ diagnostics, compileSource source = .error diagnostics → ∀ diagnostic ∈ diagnostics,
      diagnostic.code ∈ Diagnostic.Code.ofNames →
        ∃ fault name, CompileFault.name? fault = some name ∧
          diagnostic = fault.diagnostic.locate source ∧ diagnostic.PointsAt source name.text) ∧
    ∀ compilation, compileSource source = .ok compilation → ∀ warning ∈ compilation.warnings,
      ∃ name, warning = (shadowingWarning name).locate source ∧
        warning.PointsAt source name.text := by
  cases read : Program.ofSource source with
  | error diagnostics =>
      rw [compileSource_of_rejected read]
      refine ⟨?_, fun _ same => by cases same⟩
      rintro _ ⟨⟩ diagnostic member about
      rcases Program.ofSource_code read member with is | ⟨fault, is⟩
      · rw [is] at about
        exact absurd about (by decide)
      · rw [is] at about
        exact absurd about (by cases fault <;> simp [Token.Fault.code] <;> decide)
  | ok program =>
      have named := Program.ofSource_named read
      cases made : Compiler.new.compile program with
      | mk result next =>
          obtain ⟨blames, warns⟩ := Compiler.compile_blames named made
          cases result with
          | error fault =>
              rw [compileSource_of_fault read made]
              refine ⟨?_, fun _ same => by cases same⟩
              rintro _ ⟨⟩ _ member about
              obtain rfl := List.mem_singleton.mp member
              obtain ⟨code, span, length⟩ := fault.diagnostic_eq
              obtain ⟨name, is, own⟩ := CompileFault.name?_of_code (code ▸ about)
              exact ⟨fault, name, is, rfl, Diagnostic.points_of_written
                (blames fault rfl name is) (span.trans own) (length.trans (own ▸ rfl))⟩
          | ok compiled =>
              rw [compileSource_of_compiled read made]
              refine ⟨fun _ same => (by cases same), ?_⟩
              rintro _ ⟨⟩ _ member
              obtain ⟨warning, among, rfl⟩ := List.mem_map.mp member
              obtain ⟨name, known, rfl⟩ := warns warning (Array.mem_toList_iff.mp among)
              exact ⟨name, rfl, Diagnostic.points_of_written known rfl rfl⟩

/-- A text whose second line asks for a name that means nothing. -/
def asking : List Char := "var x = 1;\r\n  x + größe;\n".toList

/-- A text whose second line gives the name of a builtin function to something else. -/
def shadowing : List Char := "// Länge\r\nvar a = 1; var len = a;\r\n".toList

/-- What is said of a text that does not compile. -/
def complaintsOf : Except (List Diagnostic) Compilation → List Diagnostic
  | .error diagnostics => diagnostics
  | .ok _ => []

/-- Columns count characters, whatever the line ends with and whatever else stands in it. -/
theorem compileSource_points_asking :
    (∃ diagnostics diagnostic, compileSource asking = .error diagnostics ∧
      diagnostic ∈ diagnostics ∧ diagnostic.message = "undefined variable größe" ∧
      diagnostic.line = 2 ∧ diagnostic.column = 7 ∧
      diagnostic.code ∈ Diagnostic.Code.ofNames ∧ ∃ name, diagnostic.PointsAt asking name) ∧
    ∃ compilation warning, compileSource shadowing = .ok compilation ∧
      warning ∈ compilation.warnings ∧ warning.line = 2 ∧ warning.column = 16 ∧
      ∃ name, warning.PointsAt shadowing name := by
  constructor
  · have seen : ((complaintsOf (compileSource asking)).map fun diagnostic =>
        (diagnostic.code, diagnostic.message, diagnostic.line, diagnostic.column)) =
          [("MK0002", "undefined variable größe", 2, 7)] := by
      decide +kernel
    cases ends : compileSource asking with
    | ok compilation =>
        rw [ends] at seen
        cases seen
    | error diagnostics =>
        rw [ends] at seen
        obtain ⟨diagnostic, rfl, only⟩ := List.map_eq_singleton_iff.mp seen
        simp only [Prod.mk.injEq] at only
        obtain ⟨code, message, line, column⟩ := only
        have about : diagnostic.code ∈ Diagnostic.Code.ofNames := by
          rw [code]
          decide
        obtain ⟨-, name, -, -, points⟩ := (compileSource_points asking).1 _ ends diagnostic
          (List.mem_singleton_self _) about
        exact ⟨_, diagnostic, rfl, List.mem_singleton_self _, message, line, column, about,
          name.text, points⟩
  · have seen : ((compileSource shadowing).toOption.map fun compilation =>
        compilation.warnings.map fun warning => (warning.line, warning.column)) =
          some [(2, 16)] := by
      decide +kernel
    cases ends : compileSource shadowing with
    | error diagnostics =>
        rw [ends] at seen
        cases seen
    | ok compilation =>
        rw [ends] at seen
        obtain ⟨warning, same, only⟩ :=
          List.map_eq_singleton_iff.mp (Option.some.inj seen)
        obtain ⟨line, column⟩ := Prod.mk.inj only
        have member : warning ∈ compilation.warnings := by
          rw [same]
          exact List.mem_singleton_self _
        obtain ⟨name, -, points⟩ := (compileSource_points shadowing).2 _ ends warning member
        exact ⟨compilation, warning, rfl, member, line, column, name.text, points⟩

end MonkeyLang
