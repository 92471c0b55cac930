import ReplayShell.Console
import ReplayShell.Proofs.Fuel
import ReplayShell.Proofs.Tasks

/-!
# The course of a run

While no entry ends it, a run goes from shell to shell, and what it does with later entries depends
on the shell and the files that it has come to.

* `Console.Follows` is a stretch of a run that goes on. It keeps account of the texts that have been
  accepted since the last reset (`Session.retained`).
* `converse_of_follows` cuts a stretch off the front of a run; `follows_of_converse` finds one in a
  run that has come to the end of its input.
* `converse_output`: what has been written before does not matter.
-/
namespace ReplayShell

open Terminal (Output)

/-- Whether a submission is a command whose effect ends with the run: an exit, or the switch of a
display. -/
def isTransient (text : List Char) : Bool :=
  isCommand text && match Request.ofLine text with
    | .run .exit _ => true
    | .run .showTree _ => true
    | .run .showProgram _ => true
    | _ => false

theorem isTransient_of_task {files : FileSystem} {line : String}
    (h : Task.of files line = .switch ∨ Task.of files line = .exit) :
    isTransient line.toList = true := by
  unfold Task.of at h
  unfold isTransient
  split at h
  · rename_i hc
    rw [hc, Bool.true_and]
    cases hr : Request.ofLine line.toList with
    | unknownCommand name => simp [hr] at h
    | wrongArity command => simp [hr] at h
    | run command arguments =>
      simp only [hr] at h
      cases command with
      | exit | showTree | showProgram => rfl
      | reset | clearScreen | listSymbols | dump => simp [Task.ofCommand] at h
      | load =>
        simp only [Task.ofCommand] at h
        split at h <;> simp at h
  · split at h <;> simp at h

/-- A blank line asks for nothing. -/
theorem Task.of_blank (files : FileSystem) {line : String}
    (h : Text.isBlankText line.toList = true) : Task.of files line = .look := by
  have hc : ¬isCommand line.toList = true := by
    intro hc
    have hmem : ':' ∈ line.toList :=
      (List.dropWhile_sublist _).mem (List.mem_of_mem_head? (of_decide_eq_true hc))
    exact absurd (List.all_eq_true.1 h _ hmem) (by decide)
  rw [Task.of, if_neg hc, if_pos h]

/-- The texts accepted since the last reset, after one more submission: a program has been accepted
if the session has grown. -/
def Session.retained (kept : List String) (files : FileSystem) (line : String)
    (before after : Session) : List String :=
  match Task.of files line with
  | .program text =>
    if after.compilation.generation = before.compilation.generation then kept else kept ++ [text]
  | .reset => []
  | _ => kept

/-- The transcript of a run that has written something before. -/
def Transcript.after (output : Output) (transcript : Transcript) : Transcript :=
  { transcript with output := output ++ transcript.output }

namespace Console

variable {fuel fuel' : Nat} {shell shell' : Shell} {files files' : FileSystem}

/-- An entry is blank, or it is submitted. -/
theorem enter_some {text : List Char} {step : Step} (h : enter fuel shell files text = some step) :
    Text.isBlankText text = true ∧ step = ⟨[], files, .ok shell⟩ ∨
      ∃ reply, shell.submit fuel files (String.ofList text) = some reply ∧
        step = ⟨reply.output, reply.files, match reply.result with
          | .ok .exit => .error .finished
          | .ok _ => .ok reply.shell
          | .error failure => .error (.failed failure)⟩ := by
  unfold enter at h
  split at h
  · exact .inl ⟨‹_›, (Option.some.inj h).symm⟩
  · obtain ⟨reply, hs, rfl⟩ := Option.map_eq_some_iff.1 h
    refine .inr ⟨reply, hs, ?_⟩
    rcases reply with ⟨result, output, shell', files'⟩
    cases result with
    | error failure => rfl
    | ok outcome => cases outcome <;> rfl

theorem enter_of_le {text : List Char} {step : Step} (hle : fuel ≤ fuel')
    (h : enter fuel shell files text = some step) : enter fuel' shell files text = some step := by
  unfold enter at h ⊢
  split
  · rename_i hb
    rwa [if_pos hb] at h
  · rename_i hb
    rw [if_neg hb] at h
    obtain ⟨reply, hs, rfl⟩ := Option.map_eq_some_iff.1 h
    rw [Shell.submit_of_le hle hs]
    rfl

theorem start_of_le {libraries : Libraries} {options : Options} {settings : Settings}
    {step : Step} (hle : fuel ≤ fuel')
    (h : start fuel libraries files options settings = some step) :
    start fuel' libraries files options settings = some step := by
  unfold start at h ⊢
  dsimp only at h ⊢
  split
  · rename_i hs
    rwa [hs] at h
  · rename_i hs
    rw [hs] at h
    dsimp only at h
    split
    · rename_i hr
      rw [if_pos hr] at h
      obtain ⟨reply, hs, rfl⟩ := Option.map_eq_some_iff.1 h
      rw [Shell.replay_of_le hle hs]
      rfl
    · rename_i hr
      rwa [if_neg hr] at h

/-- What has been written before an entry stays in front of the rest. -/
theorem converse_output (ending : Ending) (output : Output) (entries : List Input.Entry) :
    converse fuel ending shell files output entries =
      (converse fuel ending shell files [] entries).map (Transcript.after output) := by
  induction entries generalizing shell files output with
  | nil => simp [converse, Transcript.after]
  | cons entry entries ih =>
    rw [converse, converse]
    cases enter fuel shell files entry.text with
    | none => rfl
    | some step =>
      obtain ⟨written, files', next⟩ := step
      cases next with
      | error ending => rfl
      | ok shell' =>
        dsimp only
        rw [ih (output ++ written), ih ([] ++ written), Option.map_map]
        refine congrArg (Option.map · _) (funext fun transcript => ?_)
        simp [Transcript.after]

/-- A stretch of a run that goes on to its end, with what it writes. The lists are the texts
accepted since the last reset, at the beginning and at the end. -/
inductive Follows (fuel : Nat) : Shell → FileSystem → List String → List Input.Entry → Output →
    Shell → FileSystem → List String → Prop
  | nothing (shell : Shell) (files : FileSystem) (kept : List String) :
      Follows fuel shell files kept [] [] shell files kept
  | entry {shell next last : Shell} {files files' files'' : FileSystem} {kept kept' : List String}
      {entry : Input.Entry} {entries : List Input.Entry} {written more : Output}
      (head : enter fuel shell files entry.text = some ⟨written, files', .ok next⟩)
      (tail : Follows fuel next files'
        (Session.retained kept files (String.ofList entry.text) shell.session next.session)
        entries more last files'' kept') :
      Follows fuel shell files kept (entry :: entries) (written ++ more) last files'' kept'

variable {kept kept' : List String} {entries : List Input.Entry} {written : Output}

theorem Follows.of_le (hle : fuel ≤ fuel')
    (h : Follows fuel shell files kept entries written shell' files' kept') :
    Follows fuel' shell files kept entries written shell' files' kept' := by
  induction h with
  | nothing => exact .nothing _ _ _
  | entry head _ ih => exact .entry (enter_of_le hle head) ih

/-- A run goes along a stretch and then on. -/
theorem converse_of_follows (h : Follows fuel shell files kept entries written shell' files' kept')
    (ending : Ending) (output : Output) (more : List Input.Entry) :
    converse fuel ending shell files output (entries ++ more) =
      converse fuel ending shell' files' (output ++ written) more := by
  induction h generalizing output with
  | nothing => rw [List.nil_append, List.append_nil]
  | entry head _ ih =>
    rw [List.cons_append, converse, head]
    dsimp only
    rw [ih, List.append_assoc]

/-- Without an exit an entry does not finish the run. -/
theorem enter_ne_finished {text : List Char} {step : Step} (ht : isTransient text = false)
    (h : enter fuel shell files text = some step) : step.next ≠ .error .finished := by
  rcases enter_some h with ⟨-, rfl⟩ | ⟨reply, hs, rfl⟩
  · intro hn
    cases hn
  intro hn
  have hexit : reply.result = .ok .exit := by
    dsimp only at hn
    cases hr : reply.result with
    | error failure =>
      rw [hr] at hn
      cases hn
    | ok outcome => cases outcome <;> simp_all
  have htask := (Shell.submit_does hs).eq_exit hexit
  have htransient := isTransient_of_task (.inr htask)
  rw [String.toList_ofList, ht] at htransient
  cases htransient

/-- A run that has come to the end of its input has gone along all of it. -/
theorem follows_of_converse {ending : Ending} {output output' : Output} (kept : List String)
    (hlasting : ∀ entry ∈ entries, isTransient entry.text = false)
    (h : converse fuel ending shell files output entries = some ⟨.finished, output', files'⟩) :
    ending = .finished ∧ ∃ written shell' kept', output' = output ++ written ∧
      Follows fuel shell files kept entries written shell' files' kept' := by
  induction entries generalizing shell files output kept with
  | nil =>
    cases h
    exact ⟨rfl, [], shell, kept, (List.append_nil _).symm, .nothing _ _ _⟩
  | cons entry entries ih =>
    rw [converse] at h
    cases he : enter fuel shell files entry.text with
    | none =>
      rw [he] at h
      cases h
    | some step =>
      rw [he] at h
      obtain ⟨written, files₁, next⟩ := step
      cases next with
      | error ending =>
        cases h
        exact absurd rfl (enter_ne_finished (hlasting entry List.mem_cons_self) he)
      | ok next =>
        obtain ⟨hending, more, last, kept', rfl, tail⟩ :=
          ih _ (fun other hm => hlasting other (List.mem_cons_of_mem _ hm)) h
        exact ⟨hending, written ++ more, last, kept', List.append_assoc _ _ _, .entry he tail⟩

end Console

end ReplayShell
