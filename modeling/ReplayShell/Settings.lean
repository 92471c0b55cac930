import ReplayShell.Failure
import ReplayShell.Files.FileSystem
import ReplayShell.Toml.Document

/-!
# Settings

What a configuration file can set. Each key may be left out, and other keys say nothing.

* `Settings.ofTable?` reads the top level of a document; a value of the wrong type spoils it.
* `Settings.loadWith` reads the file, whatever way it is written, and `Settings.load` as TOML. A
  missing file is an error only if the user has asked for it.
-/
namespace ReplayShell

/-- The settings, each with the value that it has if the file does not mention it. -/
structure Settings where
  /-- What is written before each submission. -/
  prompt : String := "» "
  /-- Whether the tree of each submission is shown. -/
  showTree : Bool := false
  /-- Whether the resolved program of each submission is shown. -/
  showProgram : Bool := false
  /-- Whether the stored submissions are evaluated again at the start. -/
  replayOnStart : Bool := true
  /-- The directory of the store, in place of the usual one. -/
  storeDirectory : Option String := none
  /-- Which events are logged. -/
  logLevel : String := "info"
  deriving DecidableEq, Repr

namespace Settings

/-- The text that a key is set to, or a default if the key is missing. -/
def textOf? (table : Toml.Table) (key : String) (default : α) (read : String → α) : Option α :=
  match table.find? key with
  | none => some default
  | some (.value (.string text)) => some (read text)
  | some _ => none

/-- The truth value that a key is set to, or a default if the key is missing. -/
def flagOf? (table : Toml.Table) (key : String) (default : Bool) : Option Bool :=
  match table.find? key with
  | none => some default
  | some (.value (.boolean value)) => some value
  | some _ => none

/-- The settings of a document, unless a value has the wrong type. -/
def ofTable? (table : Toml.Table) : Option Settings := do
  let defaults : Settings := {}
  return {
    prompt := ← textOf? table "prompt" defaults.prompt id
    showTree := ← flagOf? table "show_tree" defaults.showTree
    showProgram := ← flagOf? table "show_program" defaults.showProgram
    replayOnStart := ← flagOf? table "replay_on_start" defaults.replayOnStart
    storeDirectory := ← textOf? table "store_dir" defaults.storeDirectory some
    logLevel := ← textOf? table "log_level" defaults.logLevel id }

/-- The settings that a text says; `document` reads the table that it writes. -/
def parse (document : String → Option Toml.Table) (text : String) : Except Failure Settings :=
  match (document text).bind ofTable? with
  | some settings => .ok settings
  | none => .error .configMalformed

/-- The settings in a file; `asked` says that the user has named the file. -/
def loadWith (document : String → Option Toml.Table) (files : FileSystem) (path : String)
    (asked : Bool) : Except Failure Settings :=
  match files.readText path with
  | .ok text => parse document text
  | .error .notFound => if asked then .error (.configMissing path) else .ok {}
  | .error error => .error (.file error)

/-- The settings in a file of TOML. -/
def load : FileSystem → (path : String) → (asked : Bool) → Except Failure Settings :=
  loadWith Toml.parseDocument

end Settings

end ReplayShell
