import ReplayShell.Files.Path

/-!
# Locations

Where the shell keeps its files, unless it is told otherwise.

* `configFileIn`, `submissionsIn` and `logsIn` are the locations below the base of all configuration
  and that of all data; nothing is created here. `MissingBase` says which one there is not.
* `BaseDirectories` is what the user's environment says about the two.
-/
namespace ReplayShell

/-- The name of the program, and of its directories. -/
def programName : String := "kiln"

/-- The configuration file below a base of configuration. -/
def configFileIn (base : String) : String := Path.join (Path.join base programName) "config.toml"

/-- The store below a base of data. -/
def submissionsIn (base : String) : String := Path.join (Path.join base programName) "Submissions"

/-- The directory of the logs below a base of data. -/
def logsIn (base : String) : String := Path.join (Path.join base programName) "logs"

/-- A base that the platform does not have. -/
inductive MissingBase where
  | config
  | data
  deriving DecidableEq, Repr

/-- The wording of the failure. -/
def MissingBase.message : MissingBase → String
  | .config => "Configuration error: Cannot find configuration directory"
  | .data => "Configuration error: Cannot find local data directory"

/-- The directories that the environment names. -/
structure BaseDirectories where
  /-- The home directory. -/
  home : String
  /-- The base of all configuration, if set. -/
  configHome : Option String
  /-- The base of all data, if set. -/
  dataHome : Option String

namespace BaseDirectories

/-- The directory that is set, if its path is absolute, else one below the home directory. -/
def choose (bases : BaseDirectories) (chosen : Option String) (fallback : String) : String :=
  match chosen with
  | some path => if Path.isAbsolute path then path else Path.join bases.home fallback
  | none => Path.join bases.home fallback

/-- The base of all configuration. -/
def configBase (bases : BaseDirectories) : String := bases.choose bases.configHome ".config"

/-- The base of all data. -/
def dataBase (bases : BaseDirectories) : String := bases.choose bases.dataHome ".local/share"

/-- The directory of the configuration. -/
def configDirectory (bases : BaseDirectories) : String := Path.join bases.configBase programName

/-- The configuration file. -/
def configFile (bases : BaseDirectories) : String := configFileIn bases.configBase

/-- The directory of the data. -/
def dataDirectory (bases : BaseDirectories) : String := Path.join bases.dataBase programName

/-- The store. -/
def submissions (bases : BaseDirectories) : String := submissionsIn bases.dataBase

/-- The directory of the logs. -/
def logs (bases : BaseDirectories) : String := logsIn bases.dataBase

end BaseDirectories

end ReplayShell
