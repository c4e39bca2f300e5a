/-!
# Paths

A path is a list of names with slashes between them.  A name that is a single point means the
directory itself: it counts at the start of a path and nowhere else.  Slashes at the end do not
count, and several slashes count as one.
-/

set_option autoImplicit false

namespace MonkeyLang.Path

/-- A path, last character first, without what does not count at its end. -/
def trimEnd : List Char → List Char
  | ['/'] => ['/']
  | '/' :: rest => trimEnd rest
  | '.' :: '/' :: rest => trimEnd ('/' :: rest)
  | other => other

/-- The path without its last name; none if it has no name. -/
def parent? (path : String) : Option String :=
  match trimEnd path.toList.reverse with
  | [] => none
  | ['/'] => none
  | trimmed => some (String.ofList (trimEnd (trimmed.dropWhile (· != '/'))).reverse)

/-- A path and the paths around it, at most a given number of them. -/
def ancestorsUpTo : Nat → String → List String
  | 0, _ => []
  | count + 1, path =>
    match parent? path with
    | some parent => path :: ancestorsUpTo count parent
    | none => [path]

/-- A path and the paths around it, the innermost first.  Each is shorter than the one before. -/
def ancestors (path : String) : List String := ancestorsUpTo (path.length + 1) path

/-- A path inside of a directory.  A path that starts with a slash stays as it is. -/
def join (directory path : String) : String :=
  if path.startsWith "/" || directory.isEmpty then path
  else if directory.endsWith "/" then directory ++ path
  else directory ++ "/" ++ path

end MonkeyLang.Path
