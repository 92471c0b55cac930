import ReplayShell.Files.FileError

/-!
# Failures

A failure ends an operation of the shell, unlike a diagnostic, which is only reported.
`Failure.message` words it.
-/
namespace ReplayShell

/-- What can make an operation fail. -/
inductive Failure where
  | file (error : FileError)
  /-- There is no number after that of the last record. -/
  | sequenceExhausted
  /-- The configuration file that was asked for does not exist. -/
  | configMissing (path : String)
  /-- The configuration file cannot be understood. -/
  | configMalformed
  deriving DecidableEq, Repr

/-- The wording of a failure. -/
def Failure.message : Failure → String
  | .file error => "IO error: " ++ error.message ++ " (kind: " ++ error.kind ++ ")"
  | .sequenceExhausted => "Internal error: submission sequence exhausted"
  | .configMissing path => "Entity not found: config file '" ++ path ++ "'"
  | .configMalformed => "Serialization error: TOML"

end ReplayShell
