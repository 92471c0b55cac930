import ReplayShell.Shell.Command
import ReplayShell.Text.Bytes

/-!
# Help for the line editor

* `matchingCommands` lists the commands that a line may be the beginning of.
* `completions` offers them for the text before the cursor, `hint` shows what is left of the first
  longer one when the cursor is at the end.
-/
namespace ReplayShell.Editor

/-- The commands, as typed, that begin with the line, if it is a bare command name. -/
def matchingCommands (line : List Char) : List String :=
  if line.head? = some ':' && !line.any Text.isBlank then
    (Command.all.map Command.typed).filter fun command => line.isPrefixOf command.toList
  else []

/-- The commands offered for the text before byte `position` of the line. -/
def completions (line : List Char) (position : Nat) : List String :=
  matchingCommands (Text.splitFloor position line).1

/-- The rest of the first command that is longer than the line, if the cursor is at its end. -/
def hint (line : List Char) (position : Nat) : Option String :=
  if position < Text.byteSize line then none
  else
    ((matchingCommands line).find? fun command => line.length < command.toList.length).map
      fun command => String.ofList (command.toList.drop line.length)

end ReplayShell.Editor
