import ReplayShell.Console
import ReplayShell.Disk

/-!
# The program

Reads the arguments, the environment and the input, line by line, and lets `Console` decide.
-/
namespace ReplayShell.Main

/-- More fuel than any evaluation that ends can use. -/
def fuel : Nat := 1000000000000000000

/-- The directories that the environment names. -/
def baseDirectories : IO BaseDirectories := do
  return ⟨(← IO.getEnv "HOME").getD "", ← IO.getEnv "XDG_CONFIG_HOME", ← IO.getEnv "XDG_DATA_HOME"⟩

/-- Whether the output has colour: if it is forced, or if it goes to a terminal and is not unwanted. -/
def wantsColor : IO Bool := do
  let isOn (value : Option String) : Bool := value.any (· ≠ "0")
  if isOn (← IO.getEnv "CLICOLOR_FORCE") then return true
  if (← IO.getEnv "NO_COLOR").isSome then return false
  let allowed := (← IO.getEnv "CLICOLOR").all (· ≠ "0")
  return allowed && (← (← IO.getStdout).isTty)

/-- Writes output. -/
def write (color : Bool) (output : Terminal.Output) : IO Unit := do
  let stream ← IO.getStdout
  stream.putStr (output.render color)
  stream.flush

/-- Writes what is left to say at the end of a run, and gives its status. -/
def finish (ending : Ending) : IO UInt32 := do
  (← IO.getStderr).putStr ending.complaint
  return ending.status.toUInt32

/-- Reads the bytes of a line with its end; none at the end of the input. -/
partial def readLine (stream : IO.FS.Stream) (line : ByteArray) : IO ByteArray := do
  let bytes ← stream.read 1
  let line := line ++ bytes
  if bytes.isEmpty || bytes[0]? = some 10 then return line else readLine stream line

/-- Carries out a step of a run: its changes and its output. -/
def perform (color : Bool) (before : FileSystem) (step : Console.Step) : IO Unit := do
  Disk.save before step.files
  write color step.output

/-- Looks at the files that an entry can need. -/
def lookFor (shell : Shell) (files : FileSystem) (text : List Char) : IO FileSystem := do
  if isCommand text then
    match Request.ofLine text with
    | .run .load (path :: _) => Disk.lookAlong (← Disk.lookBelow false files shell.store) path
    | .run .reset _ => Disk.lookBelow true files shell.store
    | _ => return files
  else Disk.lookBelow false files shell.store

/-- Reads lines and gives the shell the entries that they make. -/
partial def loop (color : Bool) (prompt : String) (shell : Shell) (files : FileSystem)
    (pending : List Char) : IO UInt32 := do
  let stream ← IO.getStdin
  if pending.isEmpty && (← stream.isTty) then write color (Terminal.Output.plain prompt)
  let bytes ← readLine stream ByteArray.empty
  if bytes.isEmpty then return ← finish .finished
  match String.fromUTF8? bytes with
  | none => finish .inputNotText
  | some line =>
    match Input.advance isReady pending line.toList with
    | .unready (.pending text) => loop color prompt shell files text
    | .unready .torn => finish .characterTorn
    | .ready entry =>
      let files ← lookFor shell files entry.text
      match Console.enter fuel shell files entry.text with
      | none => finish .finished
      | some step =>
        perform color files step
        match step.next with
        | .ok shell => loop color prompt shell step.files []
        | .error ending => finish ending

/-- Opens the shell and runs it. -/
def session (options : Options) : IO UInt32 := do
  let color ← wantsColor
  let bases ← baseDirectories
  let libraries := Libraries.standard bases
  let files ← Disk.atWorkingDirectory
  let files ← Disk.lookAlong files (options.config.getD bases.configFile)
  match Console.settings libraries files options with
  | .error ending => finish ending
  | .ok settings =>
    let files ← Disk.lookAlong files bases.logs
    let store := Console.storeDirectory libraries options settings
    let files ← Disk.lookBelow false files (store.getD bases.submissions)
    match Console.start fuel libraries files options settings with
    | none => finish .finished
    | some step =>
      perform color files step
      match step.next with
      | .ok shell => loop color settings.prompt shell step.files []
      | .error ending => finish ending

end ReplayShell.Main

/-- The program. -/
def main (arguments : List String) : IO UInt32 := do
  match ReplayShell.Invocation.ofArguments arguments with
  | .start options => ReplayShell.Main.session options
  | .answered text =>
    IO.print text
    return 0
  | .rejected => ReplayShell.Main.finish .rejected
