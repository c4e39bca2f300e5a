import MonkeyLang.Number.Read
import MonkeyLang.Toml.Basic
import MonkeyLang.Toml.Strings
import MonkeyLang.Toml.Writer

/-!
# Reading tables

A file is read line by line.  A line opens a section, or gives a value to a key, or is blank; a
comment may stand at its end.  Before the first section a key may name its section, as in
`section.key`; such lines may come in any order, but a section is either opened by a line of its
own, or given as a value, or built up by such lines.  No key may get two values.  Doubles and
moments are not read.
-/

set_option autoImplicit false

namespace MonkeyLang.Toml

/-! ## Between the parts -/

/-- The text without blanks at its start. -/
def skipBlanks (text : List Char) : List Char := text.dropWhile isBlank

/-- The text behind a comment that may stand at its start. -/
def skipComment : List Char → List Char
  | '#' :: rest => rest.dropWhile isPlain
  | text => text

/-- The text behind the end of the line, if nothing of importance stands before it. -/
def endLine? (text : List Char) : Option (List Char) :=
  match skipComment (skipBlanks text) with
  | [] => some []
  | rest => behindLineEnd? rest

/-- The text without blanks, line ends and comments at its start.  In a comment every character
that may stand in a line is skipped. -/
def skipGaps (inComment : Bool) : List Char → List Char
  | [] => []
  | '\n' :: rest => skipGaps false rest
  | '\r' :: '\n' :: rest => skipGaps false rest
  | c :: rest =>
    if inComment then if isPlain c then skipGaps true rest else c :: rest
    else if isBlank c then skipGaps false rest
    else if c = '#' then skipGaps true rest
    else c :: rest

/-! ## Keys -/

/-- One key. -/
def key? (text : List Char) : StringReading :=
  match text.takeWhile isBare with
  | [] => shortString? text
  | bare => some (String.ofList bare, text.dropWhile isBare)

/-- A key, or the name of a section and a key with a point between them. -/
def path? (text : List Char) : Option ((String × Option String) × List Char) := do
  let (first, rest) ← key? text
  match skipBlanks rest with
  | '.' :: rest =>
    let (second, rest) ← key? (skipBlanks rest)
    return ((first, some second), rest)
  | rest => return ((first, none), rest)

/-! ## Numbers -/

/-- Digits of a kind, at least one, and a single underscore between two of them where wanted. -/
def digits? (isDigit : Char → Bool) : List Char → Option (List Char × List Char)
  | [] => none
  | c :: rest =>
    if !isDigit c then none
    else
      match rest with
      | '_' :: more => (digits? isDigit more).map fun (digits, rest) => (c :: digits, rest)
      | next :: more =>
        if isDigit next then
          (digits? isDigit (next :: more)).map fun (digits, rest) => (c :: digits, rest)
        else some ([c], rest)
      | [] => some ([c], [])

/-- The number that digits of a base stand for. -/
def numberOf (base : Nat) (digits : List Char) : Nat :=
  digits.foldl (fun number c => base * number + (hexDigit? c).getD 0) 0

/-- Whether a character is a digit of a base up to sixteen. -/
def isDigitOf (base : Nat) (c : Char) : Bool :=
  match hexDigit? c with
  | some digit => digit < base
  | none => false

/-- A whole number of a base without a sign. -/
def basedNumber? (base : Nat) (text : List Char) : Option (Int × List Char) := do
  let (digits, rest) ← digits? (isDigitOf base) text
  return (numberOf base digits, rest)

/-- A decimal number without its sign.  It has no zeros in front. -/
def decimal? (text : List Char) : Option (Int × List Char) :=
  match text with
  | '0' :: rest => some (0, rest)
  | text => basedNumber? 10 text

/-- A whole number of sixty-four bits. -/
def integer? (text : List Char) : Option (Value × List Char) := do
  let (number, rest) ←
    match text with
    | '0' :: 'x' :: rest => basedNumber? 16 rest
    | '0' :: 'o' :: rest => basedNumber? 8 rest
    | '0' :: 'b' :: rest => basedNumber? 2 rest
    | '-' :: rest => (decimal? rest).map fun (number, rest) => (-number, rest)
    | '+' :: rest => decimal? rest
    | text => decimal? text
  if Number.leastInteger ≤ number && number ≤ Number.greatestInteger then
    return (.integer number, rest)
  else none

/-! ## Values -/

mutual

/-- A value.  Values inside of one another use up fuel; the length of the text is enough. -/
def value? : Nat → List Char → Option (Value × List Char)
  | 0, _ => none
  | fuel + 1, text =>
    match text with
    | '"' :: _ => (string? text).map fun (text, rest) => (.string text, rest)
    | '\'' :: _ => (string? text).map fun (text, rest) => (.string text, rest)
    | 't' :: 'r' :: 'u' :: 'e' :: rest => some (.boolean true, rest)
    | 'f' :: 'a' :: 'l' :: 's' :: 'e' :: rest => some (.boolean false, rest)
    | '[' :: rest => items? fuel [] rest
    | '\x7b' :: rest =>
      match skipBlanks rest with
      | '\x7d' :: rest => some (.table [], rest)
      | rest => entries? fuel [] rest
    | text => integer? text

/-- The items of an array up to its bracket; `done` holds those read, the last one first.  A
comma may stand behind the last item. -/
def items? : Nat → List Value → List Char → Option (Value × List Char)
  | 0, _, _ => none
  | fuel + 1, done, text =>
    match skipGaps false text with
    | ']' :: rest => some (.array done.reverse, rest)
    | text =>
      match value? fuel text with
      | none => none
      | some (item, rest) =>
        match skipGaps false rest with
        | ',' :: rest => items? fuel (item :: done) rest
        | ']' :: rest => some (.array (item :: done).reverse, rest)
        | _ => none

/-- The entries of a table on one line up to its brace. -/
def entries? : Nat → Table → List Char → Option (Value × List Char)
  | 0, _, _ => none
  | fuel + 1, done, text =>
    match key? (skipBlanks text) with
    | none => none
    | some (key, rest) =>
      match skipBlanks rest with
      | '=' :: rest =>
        match value? fuel (skipBlanks rest) with
        | none => none
        | some (value, rest) =>
          match done.insert? key value, skipBlanks rest with
          | some table, ',' :: rest => entries? fuel table rest
          | some table, '\x7d' :: rest => some (.table table, rest)
          | _, _ => none
      | _ => none

end

/-! ## Files -/

/-- What has been read of a file. -/
structure Progress where
  table : Table
  /-- The sections built up by lines that name them. -/
  extensible : List String
  /-- The section that was opened last. -/
  current : Option String

namespace Progress

/-- Nothing has been read. -/
def start : Progress := ⟨[], [], none⟩

/-- A section is opened. -/
def openSection? (progress : Progress) (name : String) : Option Progress := do
  let table ← progress.table.insert? name (.table [])
  return { progress with table, current := some name }

/-- A key gets a value. -/
def assign? (progress : Progress) (path : String × Option String) (value : Value) :
    Option Progress := do
  match progress.current, path with
  | none, (key, none) => return { progress with table := ← progress.table.insert? key value }
  | some name, (key, none) =>
    return { progress with table := ← progress.table.insertInto? name key value }
  | none, (name, some key) =>
    if progress.extensible.contains name then
      return { progress with table := ← progress.table.insertInto? name key value }
    else
      let table ← progress.table.insert? name (.table [(key, value)])
      return { progress with table, extensible := name :: progress.extensible }
  | some _, (_, some _) => none

end Progress

/-- A line that opens a section, behind its bracket. -/
def sectionLine? (progress : Progress) (text : List Char) : Option (Progress × List Char) := do
  let (name, rest) ← key? (skipBlanks text)
  match skipBlanks rest with
  | ']' :: rest => return (← progress.openSection? name, ← endLine? rest)
  | _ => none

/-- A line that gives a value to a key. -/
def valueLine? (progress : Progress) (text : List Char) : Option (Progress × List Char) := do
  let (path, rest) ← path? text
  match skipBlanks rest with
  | '=' :: rest =>
    let text := skipBlanks rest
    let (value, rest) ← value? (text.length + 1) text
    return (← progress.assign? path value, ← endLine? rest)
  | _ => none

/-- One line, or none of importance. -/
def line? (progress : Progress) (text : List Char) : Option (Progress × List Char) :=
  match skipBlanks text with
  | '[' :: rest => sectionLine? progress rest
  | text =>
    match endLine? text with
    | some rest => some (progress, rest)
    | none => valueLine? progress text

/-- All lines.  Every line has at least one character, so that the length of the text is fuel
enough. -/
def lines? : Nat → Progress → List Char → Option Progress
  | _, progress, [] => some progress
  | 0, _, _ => none
  | fuel + 1, progress, text => do
    let (progress, rest) ← line? progress text
    lines? fuel progress rest

/-- The text without the mark that some editors put in front. -/
def withoutMark : List Char → List Char
  | '\ufeff' :: text => text
  | text => text

/-- The table that a file holds. -/
def Table.read? (text : List Char) : Option Table :=
  (lines? text.length .start (withoutMark text)).map Progress.table

/-- The library that runs. -/
def Library.standard : Library := ⟨Table.read?, Table.write?⟩

end MonkeyLang.Toml
