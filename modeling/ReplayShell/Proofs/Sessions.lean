import ReplayShell.Proofs.Chains
import ReplayShell.Proofs.Retelling

/-!
# The sessions of a shell

Whatever is submitted to a shell, and whatever happens to its files in between, its session is built
on faultless submissions.

* `Shell.Reachable` is what a shell can come to.
* `becomes_submit`: a submission leaves the session, forgets it, or takes it to the next one.
* `Session.Clean` is the invariant, `clean_of_reachable` says that it holds.
-/
namespace ReplayShell

open Compilation (Clean)

/-- What a shell can come to, on files that anyone may change at any time. -/
inductive Shell.Reachable : Shell → Prop
  | fresh (store : String) : Reachable (Shell.fresh store)
  | show {shell : Shell} (h : Reachable shell) (tree program : Bool) :
      Reachable { shell with showTree := tree, showProgram := program }
  | submit {shell : Shell} {fuel : Nat} {files : FileSystem} {text : String}
      {reply : Reply Outcome} (h : Reachable shell)
      (hs : shell.submit fuel files text = some reply) : Reachable reply.shell
  | replay {shell : Shell} {fuel : Nat} {files : FileSystem} {reply : Reply Nat}
      (h : Reachable shell) (hs : shell.replay fuel files = some reply) : Reachable reply.shell

/-- The session is built on texts without a diagnostic. -/
def Session.Clean (session : Session) : Prop := ∃ texts, Compilation.Clean texts session.handle

/-- An evaluation without a diagnostic is one of a compilation without a diagnostic. -/
theorem Compilation.diagnostics_of_evaluate {compilation : Compilation} {fuel : Nat}
    {globals : Variables} {evaluation : Evaluation}
    (h : compilation.evaluate fuel globals = some evaluation)
    (hd : evaluation.diagnostics = []) : compilation.diagnostics = [] := by
  unfold Compilation.evaluate at h
  split at h
  · rename_i hempty
    exact List.isEmpty_iff.1 hempty
  · rename_i hempty
    obtain rfl := Option.some.inj h
    exact absurd (List.isEmpty_iff.2 hd) hempty

theorem Session.Clean.next {session session' : Session} {fuel : Nat} {text : String}
    (clean : session.Clean) (h : session.next fuel text = some session') : session'.Clean := by
  obtain ⟨texts, clean⟩ := clean
  obtain ⟨evaluation, he, hs⟩ := Option.map_eq_some_iff.1 h
  by_cases hd : evaluation.diagnostics.isEmpty = true
  · rw [if_pos hd] at hs
    subst hs
    have hc := Compilation.diagnostics_of_evaluate he (List.isEmpty_iff.1 hd)
    exact ⟨texts ++ [text], .text clean hc⟩
  · rw [if_neg hd] at hs
    exact ⟨texts, hs ▸ clean⟩

theorem Session.Told.clean {session last : Session} {texts : List String}
    (h : Session.Told session texts last) (clean : session.Clean) : last.Clean := by
  induction h with
  | nothing => exact clean
  | text head _ ih => exact ih (clean.next head)

/-- What may become of a session. -/
def Session.Becomes (session session' : Session) : Prop :=
  session' = session ∨ session' = {} ∨ ∃ fuel text, session.next fuel text = some session'

theorem Session.Becomes.clean {session session' : Session} (h : session.Becomes session')
    (clean : session.Clean) : session'.Clean := by
  rcases h with rfl | rfl | ⟨fuel, text, hn⟩
  · exact clean
  · exact ⟨[], .nothing⟩
  · exact clean.next hn

namespace Shell

variable {shell : Shell} {files : FileSystem} {fuel : Nat} {reply : Reply Outcome}

theorem becomes_evaluate {keep : Bool} {text : String} {reply : Reply Unit}
    (h : shell.evaluate fuel keep files text = some reply) :
    shell.session.Becomes reply.shell.session := by
  obtain ⟨session, hn, hs, -⟩ := evaluate_ok h
  rw [hs]
  exact .inr (.inr ⟨fuel, text, hn⟩)

/-- A submission leaves the session, forgets it, or takes it to the next one. -/
theorem becomes_submit {text : String} (h : shell.submit fuel files text = some reply) :
    shell.session.Becomes reply.shell.session := by
  have done := submit_does h
  generalize Task.of files text = task at done
  cases task with
  | program text =>
    obtain ⟨evaluated, he, rfl⟩ := done
    exact becomes_evaluate he
  | reset =>
    obtain ⟨_, -, -, -, hs⟩ := done
    rw [hs]
    exact .inr (.inl rfl)
  | switch =>
    obtain ⟨-, -, _, _, hs⟩ := done
    rw [hs]
    exact .inl rfl
  | exit =>
    cases done
    exact .inl rfl
  | look =>
    obtain ⟨_, _, -, rfl⟩ := done
    exact .inl rfl

theorem clean_replay {reply : Reply Nat} (clean : shell.session.Clean)
    (h : shell.replay fuel files = some reply) : reply.shell.session.Clean := by
  cases hr : reply.result with
  | ok count =>
    obtain ⟨stored, session, -, told, hs, -⟩ := replay_ok h hr
    rw [hs]
    exact told.clean clean
  | error failure =>
    unfold replay at h
    split at h
    · cases h
      exact clean
    · cases h
      exact clean
    · obtain ⟨result, -, rfl⟩ := Option.map_eq_some_iff.1 h
      cases hr

/-- The session of a shell is built on texts without a diagnostic. -/
theorem clean_of_reachable (h : Reachable shell) : shell.session.Clean := by
  induction h with
  | fresh => exact ⟨[], .nothing⟩
  | «show» _ _ _ ih => exact ih
  | submit _ hs ih => exact (becomes_submit hs).clean ih
  | replay _ hs ih => exact clean_replay ih hs

end Shell

end ReplayShell
