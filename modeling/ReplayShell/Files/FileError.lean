/-!
# Errors of file operations

`FileError` lists why a file operation can fail: because of the files that are there, or because the
medium that holds them does not carry it out (`Fault`). `FileError.message` is the system's own
wording and `FileError.kind` the class of the error.
-/
namespace ReplayShell

/-- Why the medium does not carry out an operation that the files would allow. -/
inductive Fault where
  | inputOutput
  | permissionDenied
  | fileTooLarge
  | noSpace
  | readOnly
  | quotaExceeded
  /-- No more bytes are taken. -/
  | noMoreBytes
  deriving DecidableEq, Repr

/-- Why a file operation fails. -/
inductive FileError where
  | notFound
  | busy
  | exists
  | notDirectory
  | isDirectory
  | invalidArgument
  | nameTooLong
  | notEmpty
  /-- A path holds the character U+0000. -/
  | nulInPath
  /-- A file to be read as text is not UTF-8. -/
  | notText
  | medium (fault : Fault)
  deriving DecidableEq, Repr

namespace Fault

/-- The wording of the error. -/
def message : Fault → String
  | .inputOutput => "Input/output error (os error 5)"
  | .permissionDenied => "Permission denied (os error 13)"
  | .fileTooLarge => "File too large (os error 27)"
  | .noSpace => "No space left on device (os error 28)"
  | .readOnly => "Read-only file system (os error 30)"
  | .quotaExceeded => "Disk quota exceeded (os error 122)"
  | .noMoreBytes => "failed to write whole buffer"

/-- The class of the error. -/
def kind : Fault → String
  | .inputOutput => "Uncategorized"
  | .permissionDenied => "PermissionDenied"
  | .fileTooLarge => "FileTooLarge"
  | .noSpace => "StorageFull"
  | .readOnly => "ReadOnlyFilesystem"
  | .quotaExceeded => "QuotaExceeded"
  | .noMoreBytes => "WriteZero"

end Fault

namespace FileError

/-- The wording of the error. -/
def message : FileError → String
  | .notFound => "No such file or directory (os error 2)"
  | .busy => "Device or resource busy (os error 16)"
  | .exists => "File exists (os error 17)"
  | .notDirectory => "Not a directory (os error 20)"
  | .isDirectory => "Is a directory (os error 21)"
  | .invalidArgument => "Invalid argument (os error 22)"
  | .nameTooLong => "File name too long (os error 36)"
  | .notEmpty => "Directory not empty (os error 39)"
  | .nulInPath => "file name contained an unexpected NUL byte"
  | .notText => "stream did not contain valid UTF-8"
  | .medium fault => fault.message

/-- The class of the error. -/
def kind : FileError → String
  | .notFound => "NotFound"
  | .busy => "ResourceBusy"
  | .exists => "AlreadyExists"
  | .notDirectory => "NotADirectory"
  | .isDirectory => "IsADirectory"
  | .invalidArgument => "InvalidInput"
  | .nameTooLong => "InvalidFilename"
  | .notEmpty => "DirectoryNotEmpty"
  | .nulInPath => "InvalidInput"
  | .notText => "InvalidData"
  | .medium fault => fault.kind

end FileError

end ReplayShell
