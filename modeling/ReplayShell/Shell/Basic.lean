import ReplayShell.Compilation
import ReplayShell.Failure
import ReplayShell.Files.FileSystem
import ReplayShell.Terminal.Output

/-!
# Sessions and shells

* `Session` is what the accepted submissions have built up: the last compilation and the values of
  the global variables.
* `Shell` is a session with its settings and the directory of its store.
* `Reply` is what an operation of the shell gives back: a result or a failure, the output written,
  the shell and the files afterwards. The output, the shell and the files of a failed operation are
  those at the point of failure.
-/
namespace ReplayShell

/-- What the accepted submissions have built up. -/
structure Session where
  /-- The compilation of the last accepted submission, if there is one. -/
  handle : Option Compilation := none
  globals : Variables := ∅

/-- A session with its settings. -/
structure Shell where
  session : Session := {}
  /-- Whether the tree of each submission is shown. -/
  showTree : Bool := false
  /-- Whether the resolved program of each submission is shown. -/
  showProgram : Bool := false
  /-- The directory of the store. -/
  store : String

/-- What the shell asks of its front end after a submission. -/
inductive Outcome where
  | continue
  | clearScreen
  | exit
  deriving DecidableEq, Repr

/-- What an operation of the shell gives back. -/
structure Reply (α : Type) where
  result : Except Failure α
  output : Terminal.Output
  shell : Shell
  files : FileSystem

namespace Session

/-- The compilation that the next submission is chained on, for questions about names. -/
def compilation (session : Session) : Compilation := session.handle.getD .empty

/-- The session after a submission that was accepted. -/
def commit (_session : Session) (compilation : Compilation) (globals : Variables) : Session :=
  { handle := some compilation, globals := globals }

end Session

end ReplayShell
