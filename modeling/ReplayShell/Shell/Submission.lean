import ReplayShell.Shell.Basic
import ReplayShell.Shell.Report
import ReplayShell.Store
import ReplayShell.Syntax.Outline

/-!
# Evaluating a submission

A submission is parsed, compiled on top of the session and run. If anything is wrong with it the
session stays as it was; otherwise its compilation and variables become the session's, and its text
is stored.

* `Shell.displays` is what the settings ask to show before the run.
* `Shell.evaluate` is the whole; `keep` says whether an accepted text is stored.
-/
namespace ReplayShell.Shell

open Terminal (Output)

/-- The tree and the program of a submission, as far as the settings ask for them. -/
def displays (shell : Shell) (tree : Syntax.Submission) (compilation : Compilation) : Output :=
  (if shell.showTree then Output.painted .gray tree.outline else []) ++
    (if shell.showProgram then Output.painted .gray compilation.listing else [])

/-- The value of a submission, on a line of its own. -/
def showValue : Option Value → Output
  | none => []
  | some value => Output.paintedLine .magenta value.text

/-- Evaluates a submission; `none` if the fuel does not suffice. -/
def evaluate (fuel : Nat) (keep : Bool) (shell : Shell) (files : FileSystem) (text : String) :
    Option (Reply Unit) :=
  let parsed := Syntax.parse text
  let compilation := Compilation.chain shell.session.handle parsed
  let shown := shell.displays parsed.1 compilation
  match compilation.evaluate fuel shell.session.globals with
  | none => none
  | some evaluation =>
    let printed := shown ++ Output.plain evaluation.printed
    if evaluation.diagnostics.isEmpty then
      let output := printed ++ showValue evaluation.value
      let shell :=
        { shell with session := shell.session.commit compilation evaluation.globals }
      if keep then
        let (result, files) := Store.append files shell.store text
        some ⟨result, output, shell, files⟩
      else some ⟨.ok (), output, shell, files⟩
    else some ⟨.ok (), printed ++ report text.toList evaluation.diagnostics, shell, files⟩

end ReplayShell.Shell
