import ReplayShell.Input
import ReplayShell.Invocation
import ReplayShell.Settings
import ReplayShell.Shell.Dispatch

/-!
# Runs of the program

A run opens a shell as the arguments and the settings say, evaluates the stored submissions again,
and gives the shell one entry of the input after the other until one exits. Where the platform keeps
files, what arguments and documents say, and how lines are read is left to `Libraries`.

* `Console.start` is the opening, `Console.enter` handles an entry, `Console.converse` all of them.
* `Console.runWith` is a whole run, and `Transcript` how it has gone. `Console.run` is the
  program's, with `Libraries.standard`. What a run writes to its log is no part of the files.
* `Ending.status` and `Ending.complaint` are what is left for the caller of the program.
-/
namespace ReplayShell

/-- How a run of the program ends. -/
inductive Ending where
  /-- An entry has asked for it, or the input is at its end. -/
  | finished
  | failed (failure : Failure)
  /-- The platform has no place for what is needed. -/
  | unplaced (base : MissingBase)
  /-- A line of the input is not text. -/
  | inputNotText
  /-- A backspace in the input would tear a character. -/
  | characterTorn
  /-- The arguments are wrong. -/
  | rejected
  deriving DecidableEq, Repr

namespace Ending

/-- The exit status. -/
def status : Ending → Nat
  | .finished => 0
  | .failed _ => 1
  | .unplaced _ => 1
  | .inputNotText => 1
  | .characterTorn => 101
  | .rejected => 2

/-- What is written about it, apart from the output. -/
def complaint : Ending → String
  | .finished => ""
  | .failed failure => "Error: " ++ failure.message ++ "\n"
  | .unplaced base => "Error: " ++ base.message ++ "\n"
  | .inputNotText =>
    let message := FileError.notText.message
    "Error: " ++ message ++ "\n\nCaused by:\n    " ++ message ++ "\n"
  | .characterTorn => "a backspace would tear a character\n"
  | .rejected =>
    "error: invalid arguments\n\nUsage: kiln [OPTIONS]\n\nFor more information, try '--help'.\n"

end Ending

/-- What a run leaves to its platform and to others. -/
structure Libraries where
  /-- The base of all configuration, if the platform has one. -/
  configBase : Option String
  /-- The base of all data, if the platform has one. -/
  dataBase : Option String
  /-- What the arguments choose. -/
  arguments : List String → Invocation
  /-- The table that a document writes. -/
  document : String → Option Toml.Table
  /-- What reads the lines of the input. -/
  reader : Input.LineReader

/-- The libraries of the program. -/
def Libraries.standard (bases : BaseDirectories) : Libraries where
  configBase := some bases.configBase
  dataBase := some bases.dataBase
  arguments := Invocation.ofArguments
  document := Toml.parseDocument
  reader := Input.advance

/-- A run that is over. -/
structure Transcript where
  ending : Ending
  output : Terminal.Output
  files : FileSystem

namespace Console

open Terminal (Output)

/-- What a part of a run gives: what it has written, the files after it, and the shell that goes on
or the end of the run. -/
structure Step where
  output : Output
  files : FileSystem
  next : Except Ending Shell

/-- A step that leaves the shell running unless it has failed. -/
def Step.ofReply (reply : Reply α) : Step :=
  ⟨reply.output, reply.files,
    match reply.result with
    | .ok _ => .ok reply.shell
    | .error failure => .error (.failed failure)⟩

/-- The settings for a run. -/
def settings (libraries : Libraries) (files : FileSystem) (options : Options) :
    Except Ending Settings :=
  match options.config, libraries.configBase with
  | some path, _ => (Settings.loadWith libraries.document files path true).mapError .failed
  | none, some base =>
    (Settings.loadWith libraries.document files (configFileIn base) false).mapError .failed
  | none, none => .error (.unplaced .config)

/-- The directory of the store: the one in the arguments, else in the settings, else the usual
one. -/
def storeDirectory (libraries : Libraries) (options : Options) (settings : Settings) :
    Option String :=
  (options.store.or settings.storeDirectory).or (libraries.dataBase.map submissionsIn)

/-- The files with the directory of the logs, if that can be made. -/
def withLogs (libraries : Libraries) (files : FileSystem) : FileSystem :=
  match libraries.dataBase with
  | none => files
  | some base => (files.makeDirectories (logsIn base)).2

/-- Opens the shell. -/
def start (fuel : Nat) (libraries : Libraries) (files : FileSystem) (options : Options)
    (settings : Settings) : Option Step :=
  let files := withLogs libraries files
  match storeDirectory libraries options settings with
  | none => some ⟨[], files, .error (.unplaced .data)⟩
  | some store =>
    let shell : Shell :=
      { showTree := settings.showTree, showProgram := settings.showProgram, store := store }
    if settings.replayOnStart && !options.noReplay then
      (shell.replay fuel files).map Step.ofReply
    else some ⟨[], files, .ok shell⟩

/-- Gives the shell an entry, unless it is blank. Clearing the screen is for terminals. -/
def enter (fuel : Nat) (shell : Shell) (files : FileSystem) (text : List Char) : Option Step :=
  if Text.isBlankText text then some ⟨[], files, .ok shell⟩
  else
    (shell.submit fuel files (String.ofList text)).map fun reply =>
      match reply.result with
      | .ok .exit => ⟨reply.output, reply.files, .error .finished⟩
      | _ => Step.ofReply reply

/-- Gives the shell entry after entry until the run ends; `output` is what has been written before,
and `ending` is how the run ends after the last entry. -/
def converse (fuel : Nat) (ending : Ending) (shell : Shell) (files : FileSystem)
    (output : Output) : List Input.Entry → Option Transcript
  | [] => some ⟨ending, output, files⟩
  | entry :: entries =>
    match enter fuel shell files entry.text with
    | none => none
    | some ⟨written, files, .error ending⟩ => some ⟨ending, output ++ written, files⟩
    | some ⟨written, files, .ok shell⟩ =>
      converse fuel ending shell files (output ++ written) entries

/-- How a run ends after the last entry of its input. -/
def endingOf (libraries : Libraries) (input : Input) : Ending :=
  if (input.entries libraries.reader).2 = .torn then .characterTorn
  else if input.broken then .inputNotText
  else .finished

/-- A whole run with its arguments and its input; `none` if the fuel does not suffice. -/
def runWith (fuel : Nat) (libraries : Libraries) (files : FileSystem) (arguments : List String)
    (input : Input) : Option Transcript :=
  match libraries.arguments arguments with
  | .rejected => some ⟨.rejected, [], files⟩
  | .answered text => some ⟨.finished, Output.plain text, files⟩
  | .start options =>
    match settings libraries files options with
    | .error ending => some ⟨ending, [], files⟩
    | .ok settings =>
      match start fuel libraries files options settings with
      | none => none
      | some ⟨output, files, .error ending⟩ => some ⟨ending, output, files⟩
      | some ⟨output, files, .ok shell⟩ =>
        converse fuel (endingOf libraries input) shell files output
          (input.entries libraries.reader).1

/-- A whole run of the program. -/
def run (fuel : Nat) (bases : BaseDirectories) : FileSystem → (arguments : List String) → Input →
    Option Transcript :=
  runWith fuel (.standard bases)

end Console

end ReplayShell
