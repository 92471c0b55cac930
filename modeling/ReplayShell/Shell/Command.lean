import ReplayShell.Text.Blank

/-!
# Commands

A submission whose first character after white space is a colon is a command.

* `Command` lists the commands; `Command.all` is the order in which they are offered, and
  `Command.table` what is told of each. `Command.ofName?_isSome_iff`: a name is that of a command just
  if it stands there.
* `words` splits a command line: double quotes group, and inside them a doubled quote is a quote.
* `Request.ofLine` reads a command line: a command with the right number of arguments, or what is
  wrong with it.
-/
namespace ReplayShell

/-- The commands of the shell. -/
inductive Command where
  | exit
  | clearScreen
  | reset
  | showTree
  | showProgram
  | load
  | listSymbols
  | dump
  deriving DecidableEq, Repr

namespace Command

/-- The commands in the order in which they are offered. -/
def all : List Command :=
  [.exit, .clearScreen, .reset, .showTree, .showProgram, .load, .listSymbols, .dump]

/-- The name, without the colon. -/
def name : Command → String
  | .exit => "exit"
  | .clearScreen => "cls"
  | .reset => "reset"
  | .showTree => "showTree"
  | .showProgram => "showProgram"
  | .load => "load"
  | .listSymbols => "ls"
  | .dump => "dump"

/-- What the command does, in a line. -/
def description : Command → String
  | .exit => "Exits the shell"
  | .clearScreen => "Clears the screen"
  | .reset => "Forgets all previous submissions"
  | .showTree => "Toggles printing of parse trees"
  | .showProgram => "Toggles printing of bound programs"
  | .load => "Loads a script file"
  | .listSymbols => "Lists all symbols"
  | .dump => "Shows the bound body of a function"

/-- The names of the arguments. -/
def parameters : Command → List String
  | .load => ["path"]
  | .dump => ["functionName"]
  | _ => []

/-- The command as typed, without arguments. -/
def typed (command : Command) : String := ":" ++ command.name

/-- How the command is used. -/
def usage (command : Command) : String :=
  command.typed ++ String.join (command.parameters.map fun parameter => " <" ++ parameter ++ ">")

/-- What is told of a command. -/
structure Descriptor where
  name : String
  description : String
  parameters : List String
  usage : String
  deriving DecidableEq, Repr

/-- The row of the command in the table. -/
def descriptor (command : Command) : Descriptor where
  name := command.name
  description := command.description
  parameters := command.parameters
  usage := command.usage

/-- The table of the commands. -/
def table : List Descriptor := all.map descriptor

/-- The command of a name. -/
def ofName? (name : String) : Option Command := all.find? (·.name = name)

/-- A name is that of a command just if it stands in the table. -/
theorem ofName?_isSome_iff (name : String) :
    (ofName? name).isSome ↔ name ∈ table.map Descriptor.name := by
  have hnames : table.map Descriptor.name = all.map Command.name := List.map_map
  simp only [hnames, ofName?, List.find?_isSome, List.mem_map, decide_eq_true_eq]

theorem ofName?_name (command : Command) : ofName? command.name = some command := by
  cases command <;> decide

end Command

/-- Whether the submission is a command. -/
def isCommand (text : List Char) : Bool := (Text.trimStart text).head? = some ':'

/-- Splits the rest of a command line, inside or outside quotes. `current` is the word begun, its
last character first; `quoted` says that it has had a quote, so that it counts even if empty. -/
def wordsFrom (inQuotes quoted : Bool) (current : List Char) : List Char → List (List Char)
  | [] => if quoted || !current.isEmpty then [current.reverse] else []
  | '"' :: rest =>
    match inQuotes, rest with
    | true, '"' :: rest => wordsFrom true quoted ('"' :: current) rest
    | _, rest => wordsFrom (!inQuotes) true current rest
  | c :: rest =>
    if Text.isBlank c && !inQuotes then
      if quoted || !current.isEmpty then current.reverse :: wordsFrom false false [] rest
      else wordsFrom false false [] rest
    else wordsFrom inQuotes quoted (c :: current) rest

/-- The words of a command line. -/
def words (line : List Char) : List (List Char) := wordsFrom false false [] line

/-- What a command line asks for. -/
inductive Request where
  | run (command : Command) (arguments : List String)
  | unknownCommand (name : String)
  | wrongArity (command : Command)
  deriving DecidableEq, Repr

/-- Reads a command line. -/
def Request.ofLine (line : List Char) : Request :=
  let trimmed := Text.trimStart line
  let body := if trimmed.head? = some ':' then trimmed.tail else trimmed
  let (name, arguments) := match (words body).map String.ofList with
    | [] => ("", [])
    | name :: arguments => (name, arguments)
  match Command.ofName? name with
  | none => .unknownCommand name
  | some command =>
    if arguments.length = command.parameters.length then .run command arguments
    else .wrongArity command

end ReplayShell
