import ReplayShell.Shell.Command
import ReplayShell.Shell.Submission
import ReplayShell.Terminal.Highlight

/-!
# The operations of the shell

* `Shell.submit` takes one finished submission, a command or program text.
* `Shell.replay` evaluates every stored text again, without storing it again.
-/
namespace ReplayShell.Shell

open Terminal (Output)

/-- A reply without failure that leaves the files alone. -/
def answer (shell : Shell) (files : FileSystem) (output : Output)
    (outcome : Outcome := .continue) : Option (Reply Outcome) :=
  some ⟨.ok outcome, output, shell, files⟩

/-- A complaint to the user. -/
def complain (shell : Shell) (files : FileSystem) (message : String) : Option (Reply Outcome) :=
  shell.answer files (Output.paintedLine .red message)

/-- Forgets the session, then the store. -/
def reset (shell : Shell) (files : FileSystem) : Option (Reply Outcome) :=
  let shell := { shell with session := {} }
  let (result, files) := Store.clear files shell.store
  some ⟨result.map fun () => .continue, [], shell, files⟩

/-- Switches the display of trees. -/
def toggleTree (shell : Shell) (files : FileSystem) : Option (Reply Outcome) :=
  let shell := { shell with showTree := !shell.showTree }
  shell.answer files (Output.paintedLine .gray
    (if shell.showTree then "Showing parse trees." else "Not showing parse trees."))

/-- Switches the display of resolved programs. -/
def toggleProgram (shell : Shell) (files : FileSystem) : Option (Reply Outcome) :=
  let shell := { shell with showProgram := !shell.showProgram }
  shell.answer files (Output.paintedLine .gray
    (if shell.showProgram then "Showing bound programs." else "Not showing bound programs."))

/-- Evaluates the text of a file as a submission. -/
def load (fuel : Nat) (shell : Shell) (files : FileSystem) (path : String) :
    Option (Reply Outcome) :=
  let path := Path.absolute (FileSystem.placeText files.workingDirectory) path
  if files.isFile path then
    match files.readText path with
    | .error error =>
      shell.complain files ("error: cannot read '" ++ path ++ "': " ++ error.message)
    | .ok text =>
      (shell.evaluate fuel true files text).map fun reply =>
        ⟨reply.result.map fun () => .continue, reply.output, reply.shell, reply.files⟩
  else shell.complain files ("error: file does not exist '" ++ path ++ "'")

/-- The visible names in the order of a listing. -/
def sortedSymbols (shell : Shell) : List Symbol :=
  shell.session.compilation.symbols.mergeSort fun a b => (a.order b).isLE

/-- Lists the visible names. -/
def listSymbols (shell : Shell) (files : FileSystem) : Option (Reply Outcome) :=
  shell.answer files (shell.sortedSymbols.flatMap fun symbol =>
    Terminal.renderLine symbol.signature ++ Output.plain "\n")

/-- Shows a function as it was resolved. -/
def dump (shell : Shell) (files : FileSystem) (name : String) : Option (Reply Outcome) :=
  match shell.sortedSymbols.filter fun symbol => symbol.kind = .function ∧ symbol.name = name with
  | [] => shell.complain files ("error: function '" ++ name ++ "' does not exist")
  | [symbol] =>
    shell.answer files (Output.plain (shell.session.compilation.functionListing symbol.name))
  | _ => shell.complain files ("error: function name '" ++ name ++ "' is ambiguous")

/-- Runs a command; a command without a first argument that needs one takes the empty text. -/
def runCommand (fuel : Nat) (shell : Shell) (files : FileSystem) (command : Command)
    (arguments : List String) : Option (Reply Outcome) :=
  match command with
  | .exit => shell.answer files [] .exit
  | .clearScreen => shell.answer files [] .clearScreen
  | .reset => shell.reset files
  | .showTree => shell.toggleTree files
  | .showProgram => shell.toggleProgram files
  | .load => shell.load fuel files (arguments.headD "")
  | .listSymbols => shell.listSymbols files
  | .dump => shell.dump files (arguments.headD "")

/-- Runs a command line. -/
def execute (fuel : Nat) (shell : Shell) (files : FileSystem) (line : String) :
    Option (Reply Outcome) :=
  match Request.ofLine line.toList with
  | .unknownCommand name => shell.complain files ("Unknown command ':" ++ name ++ "'")
  | .wrongArity command =>
    shell.complain files ("Wrong number of arguments, usage: " ++ command.usage)
  | .run command arguments => shell.runCommand fuel files command arguments

/-- Takes one finished submission; blank text does nothing. `none` if the fuel does not suffice. -/
def submit (fuel : Nat) (shell : Shell) (files : FileSystem) (text : String) :
    Option (Reply Outcome) :=
  if isCommand text.toList then shell.execute fuel files text
  else if Text.isBlankText text.toList then shell.answer files []
  else
    (shell.evaluate fuel true files text).map fun reply =>
      ⟨reply.result.map fun () => .continue, reply.output, reply.shell, reply.files⟩

/-- Evaluates texts in order without storing them; `output` is what has been written before. -/
def replayAll (fuel : Nat) (shell : Shell) (files : FileSystem) (output : Output) :
    List String → Option (Shell × FileSystem × Output)
  | [] => some (shell, files, output)
  | text :: rest =>
    match shell.evaluate fuel false files text with
    | none => none
    | some reply => replayAll fuel reply.shell reply.files (output ++ reply.output) rest

/-- Evaluates every stored text again, in order, and gives their number. A text that fails is
reported and the next one is taken. -/
def replay (fuel : Nat) (shell : Shell) (files : FileSystem) : Option (Reply Nat) :=
  match Store.texts files shell.store with
  | .error failure => some ⟨.error failure, [], shell, files⟩
  | .ok [] => some ⟨.ok 0, [], shell, files⟩
  | .ok texts =>
    let count := texts.length
    let notice := Output.paintedLine .faint ("Loaded " ++ toString count ++ " submission(s)")
    (shell.replayAll fuel files notice texts).map fun (shell, files, output) =>
      ⟨.ok count, output, shell, files⟩

end ReplayShell.Shell
