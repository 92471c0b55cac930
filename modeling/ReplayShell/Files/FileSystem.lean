import ReplayShell.Files.FileError
import ReplayShell.Files.Path
import ReplayShell.Text.Bytes
import Std.Data.ExtTreeMap

/-!
# File systems

A file system is a map from places to files and directories. A place is the list of names from the
root down to it; the root itself is always a directory.

* `Medium` says which changes are broken off although the files would allow them, and what they have
  done by then. It can always be read.
* `FileSystem.follow` walks a path one name at a time, as each name is looked up in a directory that
  must exist.
* `isFile`, `read`, `readText`, `list` and `entries` look; `makeDirectory`, `makeDirectories`,
  `writeThrough`, `rename` and `removeAll` change. An operation that fails half-way keeps what it
  has done.
-/
namespace ReplayShell

/-- What is found at a place. -/
inductive Node where
  | file (content : ByteArray)
  | directory

/-- A place: the names from the root down. -/
abbrev Place := List String

/-- The medium that holds the files: which changes it breaks off. By default it breaks off none. -/
structure Medium where
  /-- The fault at which a directory is not made. -/
  makeDirectory : String → Option Fault := fun _ => none
  /-- The fault at which a file is not made, nor emptied. -/
  create : String → Option Fault := fun _ => none
  /-- The fault at which writing bytes to a file breaks off, and the bytes that are then in it. -/
  write : String → ByteArray → Option (Fault × ByteArray) := fun _ _ => none
  /-- The fault at which the bytes of a file do not get to the medium, and those that are then in
  it. -/
  sync : String → Option (Fault × ByteArray) := fun _ => none
  /-- The fault at which a file does not get another path. -/
  rename : String → String → Option Fault := fun _ _ => none
  /-- The fault at which the removal of a directory breaks off, and what has been removed below. -/
  remove : String → Option (Fault × (Place → Bool)) := fun _ => none

/-- Files and directories on a medium, and the directory that relative paths start from. -/
structure FileSystem where
  nodes : Std.ExtTreeMap Place Node compare
  workingDirectory : Place
  /-- What lies in a directory under names that are not text. No path leads there. -/
  nameless : Place → List Node := fun _ => []
  medium : Medium := {}

/-- An entry of a directory; the name is missing if it is not text. -/
structure Entry where
  name? : Option String
  node : Node

namespace FileSystem

/-- Nothing but the root, on a medium that breaks off nothing. -/
def empty : FileSystem := { nodes := ∅, workingDirectory := [] }

/-- The longest name of a file, in bytes. -/
def maxNameSize : Nat := 255

/-- Paths of this many bytes or more are refused. -/
def maxPathSize : Nat := 4096

/-- The text of a place. -/
def placeText (place : Place) : String := "/" ++ "/".intercalate place

/-- What is at a place. -/
def node? (files : FileSystem) (place : Place) : Option Node :=
  if place = [] then some .directory else files.nodes[place]?

/-- What the directory at a place holds, in the order of the names. -/
def children (files : FileSystem) (place : Place) : List (String × Node) :=
  files.nodes.toList.filterMap fun (other, node) =>
    match other.getLast? with
    | some name => if other.dropLast = place then some (name, node) else none
    | none => none

/-- Fails unless there is a directory at the place. -/
def requireDirectory (files : FileSystem) (place : Place) : Except FileError Unit :=
  match files.node? place with
  | some .directory => .ok ()
  | some (.file _) => .error .notDirectory
  | none => .error .notFound

/-- Follows names from a place on. -/
def follow (files : FileSystem) (place : Place) : List String → Except FileError Place
  | [] => .ok place
  | name :: rest =>
    match files.requireDirectory place with
    | .error error => .error error
    | .ok () =>
      if name = "." then follow files place rest
      else if name = ".." then follow files place.dropLast rest
      else if maxNameSize < Text.byteSize name.toList then .error .nameTooLong
      else if (files.node? (place ++ [name])).isSome then follow files (place ++ [name]) rest
      else .error .notFound

/-- Where a path starts from. -/
def start (files : FileSystem) (path : String) : Place :=
  if Path.isAbsolute path then [] else files.workingDirectory

/-- Fails for a path that no file can have. -/
def checkPath (path : String) : Except FileError Unit :=
  if path.toList.contains '\x00' then .error .nulInPath
  else if path = "" then .error .notFound
  else if maxPathSize ≤ Text.byteSize path.toList then .error .nameTooLong
  else .ok ()

/-- The place that a path leads to, and what is there. -/
def locate (files : FileSystem) (path : String) : Except FileError (Place × Node) :=
  match checkPath path with
  | .error error => .error error
  | .ok () =>
    match files.follow (files.start path) (Path.rawComponents path) with
    | .error error => .error error
    | .ok place =>
      match files.node? place with
      | none => .error .notFound
      | some .directory => .ok (place, .directory)
      | some (.file content) =>
        if Path.namesDirectory path then .error .notDirectory else .ok (place, .file content)

/-- The place of the directory that holds what the path names, and the name there. -/
def locateParent (files : FileSystem) (path : String) : Except FileError (Place × String) :=
  match checkPath path with
  | .error error => .error error
  | .ok () =>
    let names := Path.rawComponents path
    match names.getLast? with
    | none => .error .isDirectory
    | some name =>
      match files.follow (files.start path) names.dropLast with
      | .error error => .error error
      | .ok parent =>
        match files.requireDirectory parent with
        | .error error => .error error
        | .ok () =>
          if maxNameSize < Text.byteSize name.toList then .error .nameTooLong
          else .ok (parent, name)

/-- Whether the path leads to a file. -/
def isFile (files : FileSystem) (path : String) : Bool :=
  match files.locate path with
  | .ok (_, .file _) => true
  | _ => false

/-- Whether the path leads to a directory. -/
def isDirectory (files : FileSystem) (path : String) : Bool :=
  match files.locate path with
  | .ok (_, .directory) => true
  | _ => false

/-- The bytes of a file. -/
def read (files : FileSystem) (path : String) : Except FileError ByteArray :=
  match files.locate path with
  | .error error => .error error
  | .ok (_, .directory) => .error .isDirectory
  | .ok (_, .file content) => .ok content

/-- The text of a file. -/
def readText (files : FileSystem) (path : String) : Except FileError String :=
  match files.read path with
  | .error error => .error error
  | .ok content =>
    match String.fromUTF8? content with
    | some text => .ok text
    | none => .error .notText

/-- What a directory holds under names that are text. -/
def list (files : FileSystem) (path : String) : Except FileError (List (String × Node)) :=
  match files.locate path with
  | .error error => .error error
  | .ok (_, .file _) => .error .notDirectory
  | .ok (place, .directory) => .ok (files.children place)

/-- All that a directory holds. -/
def entries (files : FileSystem) (path : String) : Except FileError (List Entry) :=
  match files.locate path with
  | .error error => .error error
  | .ok (_, .file _) => .error .notDirectory
  | .ok (place, .directory) =>
    .ok ((files.children place).map (fun (name, node) => ⟨some name, node⟩) ++
      (files.nameless place).map fun node => ⟨none, node⟩)

/-- Puts something at a place. -/
def put (files : FileSystem) (place : Place) (node : Node) : FileSystem :=
  { files with nodes := files.nodes.insert place node }

/-- Makes one directory. -/
def makeDirectory (files : FileSystem) (path : String) : Except FileError FileSystem :=
  match files.locate path with
  | .ok _ => .error .exists
  | .error _ =>
    match files.locateParent path with
    | .error error => .error error
    | .ok (parent, name) =>
      if (files.node? (parent ++ [name])).isSome then .error .exists
      else match files.medium.makeDirectory path with
        | some fault => .error (.medium fault)
        | none => .ok (files.put (parent ++ [name]) .directory)

/-- Makes the first directory of a path and its ancestors, after those that are missing above it. -/
def makeAncestors (files : FileSystem) : List String → Except FileError Unit × FileSystem
  | [] => (.ok (), files)
  | path :: above =>
    match files.makeDirectory path with
    | .ok files => (.ok (), files)
    | .error .notFound =>
      match makeAncestors files above with
      | (.error error, files) => (.error error, files)
      | (.ok (), files) =>
        match files.makeDirectory path with
        | .ok files => (.ok (), files)
        | .error error => (if files.isDirectory path then .ok () else .error error, files)
    | .error error => (if files.isDirectory path then .ok () else .error error, files)

/-- Makes a directory and those above it, where they are missing. -/
def makeDirectories (files : FileSystem) (path : String) : Except FileError Unit × FileSystem :=
  if path = "" then (.ok (), files) else files.makeAncestors (Path.ancestors path)

/-- Puts a content where a path leads, into a new file or in place of the old content. -/
def write (files : FileSystem) (path : String) (content : ByteArray) :
    Except FileError FileSystem :=
  match files.locateParent path with
  | .error error => .error error
  | .ok (parent, name) =>
    if Path.namesDirectory path || name = "." || name = ".." then .error .isDirectory
    else match files.node? (parent ++ [name]) with
      | some .directory => .error .isDirectory
      | _ => .ok (files.put (parent ++ [name]) (.file content))

/-- Makes an empty file, or empties the one that is there. -/
def create (files : FileSystem) (path : String) : Except FileError FileSystem :=
  match files.write path ByteArray.empty with
  | .error error => .error error
  | .ok made =>
    match files.medium.create path with
    | some fault => .error (.medium fault)
    | none => .ok made

/-- What is left of a file that a fault has struck. -/
def struck (files : FileSystem) (path : String) :
    Fault × ByteArray → Except FileError Unit × FileSystem
  | (fault, left) =>
    match files.write path left with
    | .error error => (.error error, files)
    | .ok files => (.error (.medium fault), files)

/-- Writes bytes to a file that has been made. -/
def fill (files : FileSystem) (path : String) (content : ByteArray) :
    Except FileError Unit × FileSystem :=
  match files.medium.write path content with
  | some broken => files.struck path broken
  | none =>
    match files.write path content with
    | .error error => (.error error, files)
    | .ok files => (.ok (), files)

/-- Waits until the bytes of a file have got to the medium. -/
def sync (files : FileSystem) (path : String) : Except FileError Unit × FileSystem :=
  match files.medium.sync path with
  | some broken => files.struck path broken
  | none => (.ok (), files)

/-- Writes a file, new or in place of the old content, through to the medium. -/
def writeThrough (files : FileSystem) (path : String) (content : ByteArray) :
    Except FileError Unit × FileSystem :=
  match files.create path with
  | .error error => (.error error, files)
  | .ok made =>
    match made.fill path content with
    | (.error error, files) => (.error error, files)
    | (.ok (), files) => files.sync path

/-- Puts something at another place. -/
def move (files : FileSystem) (place target : Place) (node : Node) : FileSystem :=
  { files with nodes := (files.nodes.erase place).insert target node }

/-- Gives a file another path, in place of a file that may be there. -/
def rename (files : FileSystem) (source target : String) : Except FileError FileSystem :=
  match files.locate source with
  | .error error => .error error
  | .ok (place, node) =>
    match files.locateParent target with
    | .error error => .error error
    | .ok (parent, name) =>
      match files.node? (parent ++ [name]), files.medium.rename source target with
      | some .directory, _ => .error .isDirectory
      | _, some fault => .error (.medium fault)
      | _, none => .ok (files.move place (parent ++ [name]) node)

/-- Removes what is chosen of all that lies below a place. -/
def removeSome (files : FileSystem) (place : Place) (chosen : Place → Bool) : FileSystem :=
  { files with
    nodes := files.nodes.filter fun other _ =>
      !(place.isPrefixOf other && other ≠ place && chosen other)
    nameless := fun other =>
      if place.isPrefixOf other && chosen other then [] else files.nameless other }

/-- Removes all that lies below a place. -/
def removeBelow (files : FileSystem) (place : Place) : FileSystem :=
  files.removeSome place fun _ => true

/-- Removes an empty directory by its path. -/
def removeDirectory (files : FileSystem) (path : String) : Except FileError FileSystem :=
  match (Path.rawComponents path).getLast? with
  | none => .error .busy
  | some "." => .error .invalidArgument
  | some ".." =>
    match files.locateParent path with
    | .error error => .error error
    | .ok _ => .error .notEmpty
  | some _ =>
    match files.locate path with
    | .error error => .error error
    | .ok (place, _) => .ok { files with nodes := files.nodes.erase place }

/-- Removes a directory with all that it holds. -/
def removeAll (files : FileSystem) (path : String) : Except FileError Unit × FileSystem :=
  match files.locate path with
  | .error error => (.error error, files)
  | .ok (_, .file _) => (.error .notDirectory, files)
  | .ok (place, .directory) =>
    match files.medium.remove path with
    | some (fault, chosen) => (.error (.medium fault), files.removeSome place chosen)
    | none =>
      let files := files.removeBelow place
      match files.removeDirectory path with
      | .ok files => (.ok (), files)
      | .error .notFound => (.ok (), files)
      | .error error => (.error error, files)

end FileSystem

end ReplayShell
