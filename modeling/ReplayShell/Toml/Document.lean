import ReplayShell.Toml.Scalar

/-!
# Reading TOML documents

* `value` reads a value; arrays and inline tables nest less than `maxDepth` deep.
* `Document.lines` takes the lines of a document one after the other.
* `parseDocument` reads a whole document; a byte-order mark at its front does not count.
-/
namespace ReplayShell.Toml

/-- Passes over blanks, line ends and comments. A comment must end with its line. -/
def skipTrivia (inComment : Bool) : List Char → Option (List Char)
  | '\n' :: rest => skipTrivia false rest
  | '\r' :: '\n' :: rest => skipTrivia false rest
  | c :: rest =>
    if inComment then if isPlain c then skipTrivia true rest else none
    else if c = '#' then skipTrivia true rest
    else if isSpace c then skipTrivia false rest
    else some (c :: rest)
  | [] => if inComment then none else some []

/-- The values of an array up to its closing bracket; one comma may stand before that. -/
def arrayValues (item : Reader Value) (text : List Char) : Option (List Value × List Char) :=
  match skipTrivia false text with
  | none => none
  | some (']' :: rest) => some ([], rest)
  | some start =>
    match item start with
    | none => none
    | some (value, rest) =>
      match skipTrivia false rest with
      | some (']' :: rest) => some ([value], rest)
      | some (',' :: rest) =>
        if _h : rest.length < text.length then
          (arrayValues item rest).map fun (values, rest) => (value :: values, rest)
        else none
      | _ => none
termination_by text.length

/-- The entries of an inline table up to its closing brace, at least one. -/
def inlineEntries (item : Reader Value) (text : List Char) :
    Option (List (KeyPath × String × Value) × List Char) :=
  match key text with
  | some ((parents, name), '=' :: rest) =>
    match item (skipSpace rest) with
    | none => none
    | some (value, rest) =>
      match skipSpace rest with
      | '}' :: rest => some ([(parents, name, value)], rest)
      | ',' :: rest =>
        if _h : rest.length < text.length then
          (inlineEntries item rest).map fun (entries, rest) =>
            ((parents, name, value) :: entries, rest)
        else none
      | _ => none
  | _ => none
termination_by text.length

/-- An inline table after its opening brace. -/
def inlineTable (item : Reader Value) (text : List Char) : Option (Value × List Char) :=
  let read := match skipSpace text with
    | '}' :: rest => some ([], rest)
    | _ => inlineEntries item text
  match read with
  | none => none
  | some (entries, rest) =>
    if (Table.ofInline entries).isSome then
      some (.inlineTable (entries.map fun (parents, name, value) => (parents ++ [name], value)),
        rest)
    else none

/-- A value without parts. -/
def scalar (text : List Char) : Option (Value × List Char) :=
  match text with
  | '"' :: _ => (string text).map fun (body, rest) => (.string body, rest)
  | '\'' :: _ => (string text).map fun (body, rest) => (.string body, rest)
  | 't' :: 'r' :: 'u' :: 'e' :: rest => some (.boolean true, rest)
  | 'f' :: 'a' :: 'l' :: 's' :: 'e' :: rest => some (.boolean false, rest)
  | _ => number text

/-- A value in which arrays and inline tables nest at most so deep. -/
def value : Nat → Reader Value
  | 0, text => scalar text
  | depth + 1, text =>
    match text with
    | '[' :: rest =>
      (arrayValues (value depth) rest).map fun (values, rest) => (.array values, rest)
    | '{' :: rest => inlineTable (value depth) rest
    | _ => scalar text

/-- A document as far as it has been read: its tables, and where the last header leads. -/
structure Document where
  root : Table := .empty
  current : KeyPath := []

/-- Reads a header after its brackets, up to the end of its line. -/
def Document.header (document : Document) (isArray : Bool) (text : List Char) :
    Option (Document × List Char) := do
  let ((parents, name), rest) ← key text
  let rest ← exactly ']' rest
  let rest ← if isArray then exactly ']' rest else some rest
  let rest ← endLine rest
  let root ←
    if isArray then document.root.openArray parents name
    else document.root.openTable parents name
  return (⟨root, parents ++ [name]⟩, rest)

/-- Reads a key and its value, up to the end of their line. -/
def Document.keyValue (document : Document) (text : List Char) :
    Option (Document × List Char) := do
  let ((parents, name), rest) ← key text
  let rest ← exactly '=' rest
  let (value, rest) ← value (maxDepth - 1) (skipSpace rest)
  let rest ← endLine rest
  let root ← document.root.define document.current parents name value
  return (⟨root, document.current⟩, rest)

/-- Reads one line. -/
def Document.line (document : Document) (text : List Char) : Option (Document × List Char) :=
  match skipSpace text with
  | '[' :: '[' :: rest => document.header true rest
  | '[' :: rest => document.header false rest
  | start =>
    match endLine start with
    | some rest => some (document, rest)
    | none => document.keyValue start

/-- Reads the remaining lines. -/
def Document.lines (document : Document) (text : List Char) : Option Document :=
  if text = [] then some document
  else
    match document.line text with
    | none => none
    | some (document, rest) =>
      if _h : rest.length < text.length then document.lines rest else none
termination_by text.length

/-- The tables of a whole document, or nothing if it is malformed. -/
def parseDocument (text : String) : Option Table :=
  let characters := match text.toList with
    | '\ufeff' :: rest => rest
    | characters => characters
  (({} : Document).lines characters).map Document.root

end ReplayShell.Toml
