import ReplayShell.Locations

/-!
# Invocations

The arguments of the program are read from left to right. The first that asks for the version or for
help decides the invocation, and so does the first that is wrong.

* `Argument.classify` says what a single argument is.
* `Invocation.ofArguments` reads them all. A path may stand in the argument itself, after an equals
  sign, or be the next argument; nothing may be given twice.
-/
namespace ReplayShell

/-- The options that take a path. -/
inductive PathOption where
  | config
  | store
  deriving DecidableEq, Repr

/-- What the arguments choose. -/
structure Options where
  /-- The configuration file. -/
  config : Option String := none
  /-- The directory of the store. -/
  store : Option String := none
  /-- Whether the stored submissions are left alone at the start. -/
  noReplay : Bool := false
  deriving DecidableEq, Repr

/-- What the program is to do. -/
inductive Invocation where
  | start (options : Options)
  /-- To write a text, and no more. -/
  | answered (text : String)
  | rejected
  deriving DecidableEq, Repr

/-- What a single argument is. -/
inductive Argument where
  /-- An option with a path, which may be attached to it. -/
  | path (option : PathOption) (attached : Option String)
  | noReplay
  | version
  | help
  /-- Two dashes: what follows is no option. -/
  | separator
  | unknown
  deriving DecidableEq, Repr

namespace Argument

/-- An argument that begins with two dashes, by its name and what follows an equals sign. -/
def long (name : String) (attached : Option String) : Argument :=
  match name, attached with
  | "config", _ => .path .config attached
  | "store-dir", _ => .path .store attached
  | "no-replay", none => .noReplay
  | "version", none => .version
  | "help", none => .help
  | _, _ => .unknown

/-- What an argument is. Of single letters after one dash only the first counts, as each of the two
that exist decides everything. -/
def classify (argument : String) : Argument :=
  match argument.toList with
  | ['-', '-'] => .separator
  | '-' :: '-' :: body =>
    match body.dropWhile (· ≠ '=') with
    | _ :: value => long (String.ofList (body.takeWhile (· ≠ '='))) (some (String.ofList value))
    | [] => long (String.ofList body) none
  | '-' :: 'V' :: _ => .version
  | '-' :: 'h' :: _ => .help
  | _ => .unknown

/-- Whether an argument can be a path on its own: it is not taken for an option. -/
def isValue (argument : String) : Bool :=
  argument = "-" || argument.toList.head? ≠ some '-'

end Argument

/-- Sets an option that takes a path, unless the path is empty or the option is set already. -/
def Options.set? (options : Options) (option : PathOption) (path : String) : Option Options :=
  if path = "" then none
  else match option with
    | .config => if options.config.isSome then none else some { options with config := some path }
    | .store => if options.store.isSome then none else some { options with store := some path }

namespace Invocation

/-- What is written when the version is asked for. -/
def versionText : String := programName ++ " 0.1.0\n"

/-- The lines that are written when help is asked for. -/
def helpLines : List String :=
  ["Interactive Kiln language shell",
   "",
   "Usage: kiln [OPTIONS]",
   "",
   "Options:",
   "      --config <CONFIG>        Configuration file to use instead of the platform default",
   "      --store-dir <STORE_DIR>  Directory holding stored submissions",
   "      --no-replay              Start with an empty session instead of replaying stored " ++
     "submissions",
   "  -h, --help                   Print help",
   "  -V, --version                Print version"]

/-- What is written when help is asked for. -/
def helpText : String := String.join (helpLines.map (· ++ "\n"))

/-- Reads the arguments after those that have given the options. -/
def readFrom (options : Options) : List String → Invocation
  | [] => .start options
  | argument :: rest =>
    match Argument.classify argument with
    | .version => .answered versionText
    | .help => .answered helpText
    | .unknown => .rejected
    | .separator => if rest = [] then .start options else .rejected
    | .noReplay =>
      if options.noReplay then .rejected else readFrom { options with noReplay := true } rest
    | .path option (some path) =>
      match options.set? option path with
      | some options => readFrom options rest
      | none => .rejected
    | .path option none =>
      match rest with
      | [] => .rejected
      | path :: rest =>
        if Argument.isValue path then
          match options.set? option path with
          | some options => readFrom options rest
          | none => .rejected
        else .rejected

/-- Reads the arguments of the program. -/
def ofArguments (arguments : List String) : Invocation := readFrom {} arguments

end Invocation

end ReplayShell
