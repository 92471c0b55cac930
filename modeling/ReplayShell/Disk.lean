import ReplayShell.Files.FileSystem

/-!
# The disk

Operations work on a `FileSystem`, a value. This module fills it with what they can look at, and
carries out on the disk what they have changed.

* `Disk.lookAlong` notes what is on the way of a path, `Disk.lookBelow` what a directory holds.
* `Disk.save` makes the disk agree with the changes.
-/
namespace ReplayShell.Disk

/-- Notes what is at a place. -/
def look (files : FileSystem) (place : Place) : IO FileSystem := do
  let nothing : FileSystem := { files with nodes := files.nodes.erase place }
  try
    let path ← IO.FS.realPath (FileSystem.placeText place)
    if ← path.isDir then return files.put place .directory
    else return files.put place (.file (← IO.FS.readBinFile path))
  catch _ => return nothing

/-- The place that one more name of a path leads to. -/
def descend (place : Place) (name : String) : Place :=
  if name = "." then place else if name = ".." then place.dropLast else place ++ [name]

/-- Notes what is on the way from a place through some names. -/
def lookThrough (files : FileSystem) (place : Place) : List String → IO FileSystem
  | [] => return files
  | name :: rest => do
    let place := descend place name
    lookThrough (← look files place) place rest

/-- Notes what is on the way of a path. -/
def lookAlong (files : FileSystem) (path : String) : IO FileSystem :=
  lookThrough files (files.start path) (Path.rawComponents path)

/-- Forgets what a directory holds, and all that is below it if `deeply`. -/
def forget (deeply : Bool) (files : FileSystem) (place : Place) : FileSystem :=
  if deeply then files.removeBelow place
  else
    (files.children place).foldl (fun files child =>
      { files with nodes := files.nodes.erase (place ++ [child.1]) }) files

/-- Notes what a directory holds, and all that is below it if `deeply`. -/
partial def lookInto (deeply : Bool) (files : FileSystem) (place : Place) : IO FileSystem := do
  match files.node? place with
  | some .directory =>
    let path ← IO.FS.realPath (FileSystem.placeText place)
    (← path.readDir).foldlM (fun files entry => do
      let inner := place ++ [entry.fileName]
      let files ← look files inner
      if deeply then lookInto deeply files inner else return files) files
  | _ => return files

/-- Notes what the directory of a path holds, also if a part of the path is missing, as it can be
made before the directory is read. -/
def lookBelow (deeply : Bool) (files : FileSystem) (path : String) : IO FileSystem := do
  let files ← lookAlong files path
  let place := (Path.rawComponents path).foldl descend (files.start path)
  lookInto deeply (forget deeply files place) place

/-- The files before anything is known but the working directory. -/
def atWorkingDirectory : IO FileSystem := do
  let path := toString (← IO.currentDir)
  let files : FileSystem := { nodes := ∅, workingDirectory := Path.components path }
  lookAlong files path

/-- Removes from the disk what is at a place. -/
def erase (place : Place) : Node → IO Unit
  | .directory => IO.FS.removeDir (FileSystem.placeText place)
  | .file _ => IO.FS.removeFile (FileSystem.placeText place)

/-- Writes to the disk what is at a place. A file appears there only when it is complete. -/
def put (place : Place) : Node → IO Unit
  | .directory => IO.FS.createDir (FileSystem.placeText place)
  | .file content => do
    let path := FileSystem.placeText place
    IO.FS.writeBinFile (path ++ ".tmp") content
    IO.FS.rename (path ++ ".tmp") path

/-- Whether what has been found at a place is still there. -/
def unchanged : Option Node → Node → Bool
  | some .directory, .directory => true
  | some (.file old), .file new => old.data == new.data
  | _, _ => false

/-- Carries out the changes between two states of the files: removals from the bottom up, then
additions from the top down. -/
def save (before after : FileSystem) : IO Unit := do
  for (place, node) in before.nodes.toList.reverse do
    unless after.nodes.contains place do erase place node
  for (place, node) in after.nodes.toList do
    unless unchanged before.nodes[place]? node do put place node

end ReplayShell.Disk
