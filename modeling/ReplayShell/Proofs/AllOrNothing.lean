import ReplayShell.Proofs.Retelling
import ReplayShell.Proofs.StoreSight

/-!
# Submissions are all or nothing

A program is accepted or rejected. `Shell.Accepted` is all that an accepted one changes,
`Shell.Rejected` says that a rejected one changes nothing: what its run has assigned before it
failed is gone with the run. `all_or_nothing` sorts every submission that ends without failure.

The one gap is a store that is out of sight. If it is so because a directory on its path is missing,
its list gains what has lain there as well; under the empty path it gains nothing.
-/
namespace ReplayShell

namespace Shell

/-- A text that ran without a diagnostic: its compilation, on top of the old one, and its variables
are the session's, and its text is in the store. -/
structure Accepted (shell : Shell) (files : FileSystem) (stored : List String) (text : String)
    (evaluation : Evaluation) (shell' : Shell) (files' : FileSystem) : Prop where
  faultless : evaluation.diagnostics = []
  session : ∃ handle, shell' = { shell with session := ⟨some handle, evaluation.globals⟩ } ∧
    handle = Compilation.chain shell.session.handle (Syntax.parse text) ∧
    handle.base = shell.session.handle.map Compilation.generation ∧
    handle.generation = (shell.session.handle.map Compilation.generation).getD 0 + 1
  listed : Store.texts files' shell.store = .ok (stored ++ [text]) ↔
    Store.InSight files shell.store
  kept : shell.store ≠ "" →
    Store.texts files' shell.store = .ok (Store.lying files shell.store ++ [text])

/-- A text with diagnostics, from whatever stage: they are reported, and everything is as it was. -/
structure Rejected (shell : Shell) (files : FileSystem) (text : String) (evaluation : Evaluation)
    (output : Terminal.Output) (shell' : Shell) (files' : FileSystem) : Prop where
  faulty : evaluation.diagnostics ≠ []
  reported : ∃ before, output = before ++ report text.toList evaluation.diagnostics
  shell : shell' = shell
  files : files' = files

variable {shell : Shell} {files : FileSystem} {fuel : Nat}

/-- The generations of a session count its submissions. -/
theorem generation_chain (previous : Option Compilation)
    (tree : Syntax.Submission × List Diagnostic) :
    (Compilation.chain previous tree).generation =
      (previous.map Compilation.generation).getD 0 + 1 := by
  cases previous <;> rfl

theorem evaluate_all_or_nothing {stored : List String} {text : String} {reply : Reply Unit}
    (hs : Store.texts files shell.store = .ok stored)
    (h : shell.evaluate fuel true files text = some reply) (hr : reply.result = .ok ()) :
    ∃ evaluation, (Compilation.chain shell.session.handle (Syntax.parse text)).evaluate fuel
        shell.session.globals = some evaluation ∧
      (Accepted shell files stored text evaluation reply.shell reply.files ∨
        Rejected shell files text evaluation reply.output reply.shell reply.files) := by
  obtain ⟨evaluation, he, ⟨hd, hshell, hkeep⟩ | ⟨hd, hreport, -, hshell, hf⟩⟩ := evaluate_cases h
  · obtain ⟨-, ha⟩ := hkeep.resolve_right fun hk => by cases hk.1
    rw [hr] at ha
    refine ⟨evaluation, he, .inl ⟨hd, ⟨_, hshell, rfl, rfl, generation_chain _ _⟩,
      Store.texts_append_iff hs ha, fun hne => ?_⟩⟩
    obtain ⟨sight, hlying⟩ := Store.texts_append_lying hne ha
    exact sight.listed.trans (congrArg _ hlying)
  · exact ⟨evaluation, he, .inr ⟨hd, hreport, hshell, hf⟩⟩

/-- **Submissions are all or nothing.** A program, typed or loaded from a file, is evaluated, and it
is accepted with all that it does or rejected with nothing done. A reset leaves neither a session
nor a text in the store. Anything else leaves the session and the files alone. -/
theorem all_or_nothing {stored : List String} {line : String} {reply : Reply Outcome}
    {outcome : Outcome} (hs : Store.texts files shell.store = .ok stored)
    (h : shell.submit fuel files line = some reply) (hr : reply.result = .ok outcome) :
    match Task.of files line with
    | .program text =>
      ∃ output shell' files', shell.evaluate fuel true files text =
          some ⟨.ok (), output, shell', files'⟩ ∧
        reply = ⟨.ok .continue, output, shell', files'⟩ ∧
        ∃ evaluation, (Compilation.chain shell.session.handle (Syntax.parse text)).evaluate fuel
            shell.session.globals = some evaluation ∧
          (Accepted shell files stored text evaluation shell' files' ∨
            Rejected shell files text evaluation output shell' files')
    | .reset => reply.shell = { shell with session := {} } ∧
        Store.texts reply.files shell.store = .ok []
    | _ => reply.shell.session = shell.session ∧ reply.shell.store = shell.store ∧
        reply.files = files := by
  have done := submit_does h
  generalize Task.of files line = task at done
  cases task with
  | program text =>
    obtain ⟨⟨result, output, shell', files'⟩, he, rfl⟩ := done
    cases result with
    | error failure => cases hr
    | ok _ => exact ⟨output, shell', files', he, rfl, evaluate_all_or_nothing hs he rfl⟩
  | reset =>
    obtain ⟨result, hc, hresult, -, hshell⟩ := done
    cases result with
    | error failure =>
      rw [hresult] at hr
      cases hr
    | ok _ => exact ⟨hshell, (Store.texts_of_clear hc).1⟩
  | switch =>
    obtain ⟨-, hf, _, _, hshell⟩ := done
    rw [hshell]
    exact ⟨rfl, rfl, hf⟩
  | exit =>
    obtain rfl := done
    exact ⟨rfl, rfl, rfl⟩
  | look =>
    obtain ⟨_, _, -, rfl⟩ := done
    exact ⟨rfl, rfl, rfl⟩

theorem all_or_nothing_firstText :
    Store.texts .empty "s" = .ok [] ∧ ∃ reply outcome,
      (Shell.fresh "s").submit 9 .empty "var a = 1" = some reply ∧ reply.result = .ok outcome ∧
        ∃ output shell' files', (Shell.fresh "s").evaluate 9 true .empty "var a = 1" =
            some ⟨.ok (), output, shell', files'⟩ ∧
          reply = ⟨.ok .continue, output, shell', files'⟩ ∧
          ∃ evaluation, (Compilation.chain none (Syntax.parse "var a = 1")).evaluate 9 ∅ =
              some evaluation ∧
            (Accepted (Shell.fresh "s") .empty [] "var a = 1" evaluation shell' files' ∨
              Rejected (Shell.fresh "s") .empty "var a = 1" evaluation output shell' files') := by
  have hs : Store.texts .empty (Shell.fresh "s").store = .ok [] := rfl
  obtain ⟨reply, hsubmit, hok⟩ : ∃ reply,
      (Shell.fresh "s").submit 9 .empty "var a = 1" = some reply ∧ reply.result.isOk = true :=
    (Option.any_eq_true _ _).1 (by decide +kernel)
  cases hr : reply.result with
  | error failure => simp [hr, Except.isOk, Except.toBool] at hok
  | ok outcome =>
    have htask : Task.of .empty "var a = 1" = .program "var a = 1" := by decide +kernel
    have h := all_or_nothing hs hsubmit hr
    rw [htask] at h
    exact ⟨rfl, reply, outcome, hsubmit, hr, h⟩

end Shell

end ReplayShell
