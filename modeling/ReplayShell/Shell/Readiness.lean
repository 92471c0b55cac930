import ReplayShell.Shell.Command
import ReplayShell.Syntax.Parser
import ReplayShell.Text.Lines

/-!
# Readiness of input

Input is read line by line until it makes a submission. `isReady` decides: blank text and commands
are ready at once, two empty lines force anything, and other text is ready when the last token of
its last member is there.
-/
namespace ReplayShell

/-- Whether the last two lines of the text are empty. -/
def endsWithTwoEmptyLines (text : List Char) : Bool :=
  match ((Text.splitLines text).map Text.dropReturn).reverse with
  | [] :: [] :: _ => true
  | _ => false

/-- Whether the text can be submitted, or more lines are to be read. -/
def isReady (text : List Char) : Bool :=
  if Text.isBlankText text then true
  else if isCommand text then true
  else if endsWithTwoEmptyLines text then true
  else match (Syntax.parse (String.ofList text)).1.lastToken with
    | some token => !token.missing
    | none => true

end ReplayShell
