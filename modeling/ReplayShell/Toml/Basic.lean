/-!
# TOML documents

* `Value` is a value on the right of an equals sign, `Item` and `Table` are what the headers of a
  document build.
* `Table.modify` changes the table at a path of keys, making the tables on the way.
* `Table.define`, `Table.openTable` and `Table.openArray` are the three ways in which a line of a
  document adds to it; each refuses to define anything twice.
-/
namespace ReplayShell.Toml

/-- Values. Numbers with a fraction or an exponent, and dates and times, are kept as written. -/
inductive Value where
  | string (text : String)
  | boolean (value : Bool)
  | integer (value : Int)
  | float (text : String)
  | dateTime (text : String)
  | array (values : List Value)
  | inlineTable (entries : List (List String × Value))

/-- A part of a path of keys, the next key first. -/
abbrev KeyPath := List String

mutual

/-- What a key of a table holds. -/
inductive Item where
  | value (value : Value)
  | table (table : Table)
  /-- An array of tables: the last table, and those before it, the nearest first. -/
  | tables (last : Table) (earlier : List Table)

/-- A table. It is implicit as long as it has only been named on the way to another one, and dotted
if a key with dots has made it. -/
inductive Table where
  | mk (implicit dotted : Bool) (entries : List (String × Item))

end

namespace Table

/-- The table without entries that a header makes. -/
def empty : Table := .mk false false []

def implicit : Table → Bool
  | .mk implicit _ _ => implicit

def dotted : Table → Bool
  | .mk _ dotted _ => dotted

def entries : Table → List (String × Item)
  | .mk _ _ entries => entries

/-- What a key holds. -/
def find? (table : Table) (key : String) : Option Item := table.entries.lookup key

/-- Replaces what a key holds in a list of entries, or adds it at the end. -/
def setEntry (key : String) (item : Item) : List (String × Item) → List (String × Item)
  | [] => [(key, item)]
  | (other, old) :: rest =>
    if other = key then (key, item) :: rest else (other, old) :: setEntry key item rest

/-- The table with a key set. -/
def set (table : Table) (key : String) (item : Item) : Table :=
  match table with
  | .mk implicit dotted entries => .mk implicit dotted (setEntry key item entries)

/-- The table marked as defined by a header of its own. -/
def explicit : Table → Table
  | .mk _ _ entries => .mk false false entries

/-- Changes the table at a path. Missing tables on the way are made; of an array of tables the last
one is taken; a value stands in the way. A path of dotted keys does not enter a table that a header
has defined. -/
def modify (viaDots : Bool) (change : Table → Option Table) : KeyPath → Table → Option Table
  | [], table => change table
  | key :: rest, table =>
    match table.find? key with
    | none =>
      (modify viaDots change rest (.mk true viaDots [])).map fun inner =>
        table.set key (.table inner)
    | some (.value _) => none
    | some (.tables last earlier) =>
      (modify viaDots change rest last).map fun inner => table.set key (.tables inner earlier)
    | some (.table inner) =>
      if viaDots && !inner.implicit then none
      else (modify viaDots change rest inner).map fun inner => table.set key (.table inner)

/-- Defines a key in a table that the keys before it lead to. -/
def defineAt (viaDots : Bool) (key : String) (value : Value) (table : Table) : Option Table :=
  if table.dotted ≠ viaDots then none
  else if (table.find? key).isSome then none
  else some (table.set key (.value value))

/-- Defines a key, with the keys before its last dot, in the table of the current header. -/
def define (current : KeyPath) (before : KeyPath) (key : String) (value : Value)
    (root : Table) : Option Table :=
  root.modify false (modify true (defineAt (!before.isEmpty) key value) before) current

/-- Opens a table by a header. Only a table that was just named on the way may exist already. -/
def openTable (parents : KeyPath) (key : String) (root : Table) : Option Table :=
  root.modify false (fun parent =>
    match parent.find? key with
    | none => some (parent.set key (.table empty))
    | some (.table inner) =>
      if inner.implicit && !inner.dotted then some (parent.set key (.table inner.explicit))
      else none
    | some _ => none) parents

/-- Opens a new table at the end of an array of tables. -/
def openArray (parents : KeyPath) (key : String) (root : Table) : Option Table :=
  root.modify false (fun parent =>
    match parent.find? key with
    | none => some (parent.set key (.tables empty []))
    | some (.tables last earlier) => some (parent.set key (.tables empty (last :: earlier)))
    | some _ => none) parents

/-- The entries of an inline table as a table of its own, unless a key is defined twice. -/
def ofInline (entries : List (KeyPath × String × Value)) : Option Table :=
  entries.foldlM (fun table (before, key, value) => table.define [] before key value) empty

end Table

end ReplayShell.Toml
