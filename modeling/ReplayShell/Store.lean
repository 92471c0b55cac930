import ReplayShell.Failure
import ReplayShell.Files.FileSystem
import ReplayShell.Text.Letter

/-!
# The store

The accepted submissions are kept in a directory, one file each, numbered in order.

* `recordName` and `sequenceOf?` are the two directions between numbers and file names; a name that
  is no record's is left alone.
* `records` lists the records by number, `texts` what can be read of them.
* `append` adds a record after the last one; `save` are the steps by which it is written. `clear`
  removes the directory.
-/
namespace ReplayShell.Store

/-- What the names of records begin with. -/
def namePrefix : List Char := "submission".toList

/-- The greatest number of a record. -/
def maxSequence : Nat := 4294967295

/-- The file name of a record: its number has at least four digits. -/
def recordName (sequence : Nat) : String :=
  let digits := (toString sequence).toList
  String.ofList (namePrefix ++ List.replicate (4 - digits.length) '0' ++ digits)

/-- The number of the record with a file name. -/
def sequenceOf? (name : String) : Option Nat :=
  let characters := name.toList
  if namePrefix.isPrefixOf characters then
    let digits := characters.drop namePrefix.length
    if 4 ≤ digits.length ∧ digits.all Text.isDigit then
      let sequence := digits.foldl (fun value digit => 10 * value + (digit.toNat - '0'.toNat)) 0
      if sequence ≤ maxSequence then some sequence else none
    else none
  else none

/-- A record: its number and its path. -/
structure Record where
  sequence : Nat
  path : String
  deriving DecidableEq, Repr

/-- The record that an entry of the directory is: a file with the name of one. -/
def recordOf? (directory : String) : Entry → Option Record
  | ⟨some name, .file _⟩ =>
    (sequenceOf? name).map fun sequence => ⟨sequence, Path.join directory name⟩
  | _ => none

/-- The records in the order of their numbers; none if the directory does not exist. -/
def records (files : FileSystem) (directory : String) : Except FileError (List Record) :=
  match files.entries directory with
  | .ok entries =>
    .ok ((entries.filterMap (recordOf? directory)).mergeSort fun a b => a.sequence ≤ b.sequence)
  | .error .notFound => .ok []
  | .error error => .error error

/-- The texts of the records that can be read, in order. -/
def texts (files : FileSystem) (directory : String) : Except Failure (List String) :=
  match records files directory with
  | .ok records => .ok (records.filterMap fun record => (files.readText record.path).toOption)
  | .error error => .error (.file error)

/-- The number of the next record. -/
def nextSequence (files : FileSystem) (directory : String) : Except Failure Nat :=
  match records files directory with
  | .error error => .error (.file error)
  | .ok records =>
    match records.getLast? with
    | none => .ok 0
    | some record =>
      if record.sequence < maxSequence then .ok (record.sequence + 1)
      else .error .sequenceExhausted

/-- Writes a record, first under a temporary name: until the text has got through to the medium
there is no record. -/
def save (files : FileSystem) (directory : String) (sequence : Nat) (text : String) :
    Except FileError Unit × FileSystem :=
  let path := Path.join directory (recordName sequence)
  let temporary := Path.join directory (recordName sequence ++ ".tmp")
  match files.writeThrough temporary text.toUTF8 with
  | (.error error, files) => (.error error, files)
  | (.ok (), files) =>
    match files.rename temporary path with
    | .error error => (.error error, files)
    | .ok files => (.ok (), files)

/-- Adds a record with the text after all others. -/
def append (files : FileSystem) (directory text : String) : Except Failure Unit × FileSystem :=
  match files.makeDirectories directory with
  | (.error error, files) => (.error (.file error), files)
  | (.ok (), files) =>
    match nextSequence files directory with
    | .error failure => (.error failure, files)
    | .ok sequence =>
      let (result, files) := save files directory sequence text
      (result.mapError .file, files)

/-- Removes every record, and whatever else the directory holds. -/
def clear (files : FileSystem) (directory : String) : Except Failure Unit × FileSystem :=
  match files.removeAll directory with
  | (.ok (), files) => (.ok (), files)
  | (.error .notFound, files) => (.ok (), files)
  | (.error error, files) => (.error (.file error), files)

end ReplayShell.Store
