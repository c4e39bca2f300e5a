import MonkeyLang.Json.Reader
import MonkeyLang.Json.Writer
import MonkeyLang.Program.Reader

/-!
# The library that documents are exchanged with

The library that runs writes the indented form. A text that is no JSON is looked through from its
front for what is wrong first: the outermost value has to be an object, and its version is judged
where it stands, before the rest of the text is read.
-/

set_option autoImplicit false

namespace MonkeyLang.Json

/-- The value that a text holds, with nothing but gaps around it. -/
def whole? (text : List Char) : Option Json :=
  match readValue depthLimit text with
  | .ok (value, rest) => if (skipGaps rest).isEmpty then some value else none
  | .error _ => none

/-- The refusal of a text that is no JSON. -/
def Refusal.ofFault : Fault → Refusal
  | .unfinished => .unfinished
  | .malformed => .malformed

/-- A value whose shape matters only if it is no array and no object: those are refused at
sight. -/
def readScalar (text : List Char) : Except Refusal (Json × List Char) :=
  match skipGaps text with
  | '[' :: _ => .error .misshapen
  | '\x7b' :: _ => .error .misshapen
  | text => (readValue depthLimit text).mapError Refusal.ofFault

/-- The version of a document. -/
def readVersion (text : List Char) : Except Refusal (Json × List Char) := do
  let (value, rest) ← readScalar text
  match value.naturalUpTo? ProgramDocument.greatestVersion with
  | some _ => return (value, rest)
  | none => throw .misshapen

/-- The members of a document up to its brace; `done` holds those read, the last one first.  Every
member has at least one character, so that the length of the text is fuel enough. -/
def readMembers : Nat → List (String × Json) → List Char → Except Refusal (List (String × Json))
  | 0, _, _ => .error .malformed
  | fuel + 1, done, text => do
    let (name, rest) ← (nextName done.isEmpty text).mapError Refusal.ofFault
    match name with
    | none => return done.reverse
    | some "ast_version" =>
      if done.any (·.1 == "ast_version") then throw .misshapen
      let (version, rest) ← readVersion rest
      readMembers fuel (("ast_version", version) :: done) rest
    | some name =>
      let (value, rest) ← (readValue (depthLimit - 1) rest).mapError Refusal.ofFault
      readMembers fuel ((name, value) :: done) rest

/-- What is wrong first with a text that is no JSON. -/
def firstRefusal (text : List Char) : Refusal :=
  match skipGaps text with
  | '\x7b' :: rest =>
    match readMembers (text.length + 1) [] rest with
    | .error refusal => refusal
    | .ok members =>
      -- something stands behind the object
      if (ProgramDocument.ofJson? (.object members)).isSome then .malformed else .misshapen
  | text =>
    match readScalar text with
    | .error refusal => refusal
    | .ok _ => .misshapen

/-- The library that runs. -/
def Library.standard : Library where
  depthLimit := Json.depthLimit
  write := indented
  read? := whole?
  refusal := firstRefusal

end MonkeyLang.Json
