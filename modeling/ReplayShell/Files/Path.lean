import ReplayShell.Text.Lines

/-!
# Paths

A path is a text with slashes. Empty and single-dot components say nothing; two dots mean the
parent and stay in the text until the path is followed.

* `Path.components` are the components that say something.
* `Path.ancestors` is the path with those above it.
* `Path.join` puts a path below another, `Path.absolute` makes it independent of the working
  directory.
-/
namespace ReplayShell.Path

/-- Whether the path starts at the root. -/
def isAbsolute (path : String) : Bool := path.toList.head? = some '/'

/-- Whether the path ends with a slash, so that it can only name a directory. -/
def namesDirectory (path : String) : Bool := path.toList.getLast? = some '/'

/-- The components of the path between its slashes. -/
def rawComponents (path : String) : List String :=
  ((Text.cut '/' path.toList).map String.ofList).filter fun name => name ≠ ""

/-- The components of the path, single dots left out. -/
def components (path : String) : List String :=
  (rawComponents path).filter fun name => name ≠ "."

/-- One path below another: exactly one slash between them, or the second alone if absolute. -/
def join (base path : String) : String :=
  if isAbsolute path || base = "" then path
  else if namesDirectory base then base ++ path
  else base ++ "/" ++ path

/-- The path of some components, from the root or from the working directory. -/
def ofComponents (absolute : Bool) (names : List String) : String :=
  (if absolute then "/" else "") ++ "/".intercalate names

/-- The paths of some components, given in reverse, and of those above them, the longest first. -/
def upward (absolute : Bool) : List String → List String
  | [] => []
  | name :: above => ofComponents absolute (name :: above).reverse :: upward absolute above

/-- The path as it is written, then those of the directories above it, without single dots. -/
def ancestors (path : String) : List String :=
  path :: upward (isAbsolute path) (components path).reverse.tail

/-- Where an absolute path begins. Exactly two slashes at the front are kept. -/
def rootOf (path : String) : String :=
  match path.toList with
  | '/' :: '/' :: '/' :: _ => "/"
  | '/' :: '/' :: _ => "//"
  | _ => "/"

/-- The path from the root. Empty and single-dot components are dropped, a slash at the end is kept;
the empty path stays as it is. -/
def absolute (workingDirectory path : String) : String :=
  if path = "" then path
  else
    let start := if isAbsolute path then rootOf path else workingDirectory
    let whole := (components path).foldl join start
    if namesDirectory path && !namesDirectory whole then whole ++ "/" else whole

end ReplayShell.Path
