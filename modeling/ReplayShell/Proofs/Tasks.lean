import ReplayShell.Shell.Dispatch

/-!
# What a submission asks for

To the session and the store it does not matter how a submission is spelled. It is a program, given
as text or as the file of `:load`, or it resets them, or it leaves them alone.

* `evaluate_cases` is all that an evaluation can do: its text is accepted or rejected.
* `Task.of` says what a submission asks for; only the file of `:load` is looked up for it.
* `Task.Done` is what the shell replies to a task, `submit_does` that it does so.
-/
namespace ReplayShell

/-- What comes of an evaluation. -/
theorem Shell.evaluate_cases {fuel : Nat} {keep : Bool} {shell : Shell} {files : FileSystem}
    {text : String} {reply : Reply Unit} (h : shell.evaluate fuel keep files text = some reply) :
    ∃ evaluation, (Compilation.chain shell.session.handle (Syntax.parse text)).evaluate fuel
        shell.session.globals = some evaluation ∧
      (evaluation.diagnostics = [] ∧
          reply.shell = { shell with
            session := shell.session.commit
              (Compilation.chain shell.session.handle (Syntax.parse text)) evaluation.globals } ∧
          (keep = true ∧ Store.append files shell.store text = (reply.result, reply.files) ∨
            keep = false ∧ reply.result = .ok () ∧ reply.files = files) ∨
        evaluation.diagnostics ≠ [] ∧
          (∃ before, reply.output = before ++ report text.toList evaluation.diagnostics) ∧
          reply.result = .ok () ∧ reply.shell = shell ∧ reply.files = files) := by
  unfold evaluate at h
  dsimp only at h
  split at h
  · cases h
  rename_i evaluation he
  refine ⟨evaluation, he, ?_⟩
  split at h
  · rename_i hd
    refine .inl ⟨List.isEmpty_iff.1 hd, ?_⟩
    cases keep with
    | true =>
      cases h
      exact ⟨rfl, .inl ⟨rfl, rfl⟩⟩
    | false =>
      cases h
      exact ⟨rfl, .inr ⟨rfl, rfl, rfl⟩⟩
  · rename_i hd
    cases h
    exact .inr ⟨fun hn => hd (List.isEmpty_iff.2 hn), ⟨_, rfl⟩, rfl, rfl, rfl⟩

/-- What a submission asks for. -/
inductive Task where
  /-- To evaluate a program, and to keep it. -/
  | program (text : String)
  | reset
  /-- To switch a display on or off. -/
  | switch
  | exit
  /-- To show something: names, a function, a complaint, an empty screen or nothing at all. -/
  | look
  deriving DecidableEq, Repr

namespace Task

/-- What a command asks for. A file that cannot be loaded is only complained about. -/
def ofCommand (files : FileSystem) (arguments : List String) : Command → Task
  | .load =>
    let path := Path.absolute (FileSystem.placeText files.workingDirectory) (arguments.headD "")
    match files.readText path with
    | .ok text => .program text
    | .error _ => .look
  | .reset => .reset
  | .showTree => .switch
  | .showProgram => .switch
  | .exit => .exit
  | .clearScreen => .look
  | .listSymbols => .look
  | .dump => .look

/-- What a submission asks for. -/
def of (files : FileSystem) (line : String) : Task :=
  if isCommand line.toList then
    match Request.ofLine line.toList with
    | .run command arguments => ofCommand files arguments command
    | .unknownCommand _ => .look
    | .wrongArity _ => .look
  else if Text.isBlankText line.toList then .look
  else .program line

/-- What the shell replies to a task. -/
def Done (fuel : Nat) (shell : Shell) (files : FileSystem) (reply : Reply Outcome) : Task → Prop
  | .program text => ∃ evaluated, shell.evaluate fuel true files text = some evaluated ∧
      reply = ⟨evaluated.result.map fun () => .continue, evaluated.output, evaluated.shell,
        evaluated.files⟩
  | .reset => ∃ result, Store.clear files shell.store = (result, reply.files) ∧
      reply.result = result.map (fun () => .continue) ∧ reply.output = [] ∧
      reply.shell = { shell with session := {} }
  | .switch => reply.result = .ok .continue ∧ reply.files = files ∧
      ∃ showTree showProgram,
        reply.shell = { shell with showTree := showTree, showProgram := showProgram }
  | .exit => reply = ⟨.ok .exit, [], shell, files⟩
  | .look => ∃ outcome output, outcome ≠ .exit ∧ reply = ⟨.ok outcome, output, shell, files⟩

/-- Only an exit makes the shell exit. -/
theorem Done.eq_exit {task : Task} {fuel : Nat} {shell : Shell} {files : FileSystem}
    {reply : Reply Outcome} (done : task.Done fuel shell files reply)
    (h : reply.result = .ok .exit) : task = .exit := by
  cases task with
  | exit => rfl
  | program text =>
    obtain ⟨⟨result, _, _, _⟩, -, rfl⟩ := done
    cases result <;> cases h
  | reset =>
    obtain ⟨result, -, hresult, -⟩ := done
    rw [hresult] at h
    cases result <;> cases h
  | switch =>
    rw [done.1] at h
    cases h
  | look =>
    obtain ⟨outcome, _, hne, rfl⟩ := done
    exact absurd (Except.ok.inj h) hne

end Task

/-- Only the text of a file can be read. -/
theorem FileSystem.isFile_of_readText {files : FileSystem} {path text : String}
    (h : files.readText path = .ok text) : files.isFile path = true := by
  unfold readText read at h
  unfold isFile
  split at h
  · cases h
  rename_i content hr
  split at hr
  · cases hr
  · cases hr
  · rename_i hl
    rw [hl]

namespace Shell

variable {shell : Shell} {files : FileSystem} {fuel : Nat} {reply : Reply Outcome}

theorem runCommand_does {command : Command} {arguments : List String}
    (h : shell.runCommand fuel files command arguments = some reply) :
    (Task.ofCommand files arguments command).Done fuel shell files reply := by
  cases command with
  | load =>
    simp only [runCommand, load] at h
    simp only [Task.ofCommand]
    split
    · rename_i text ht
      rw [if_pos (FileSystem.isFile_of_readText ht), ht] at h
      obtain ⟨evaluated, he, rfl⟩ := Option.map_eq_some_iff.1 h
      exact ⟨evaluated, he, rfl⟩
    · rename_i error ht
      rw [ht] at h
      split at h <;> exact ⟨_, _, by decide, (Option.some.inj h).symm⟩
  | reset =>
    obtain rfl := Option.some.inj h
    exact ⟨_, rfl, rfl, rfl, rfl⟩
  | showTree | showProgram =>
    obtain rfl := Option.some.inj h
    exact ⟨rfl, rfl, _, _, rfl⟩
  | exit => exact (Option.some.inj h).symm
  | clearScreen | listSymbols => exact ⟨_, _, by decide, (Option.some.inj h).symm⟩
  | dump =>
    simp only [runCommand, dump] at h
    split at h <;> exact ⟨_, _, by decide, (Option.some.inj h).symm⟩

/-- What the shell does with a submission. -/
theorem submit_does {line : String} (h : shell.submit fuel files line = some reply) :
    (Task.of files line).Done fuel shell files reply := by
  unfold submit at h
  unfold Task.of
  split at h
  · rename_i hc
    rw [if_pos hc]
    unfold execute at h
    split at h
    · rename_i hr
      rw [hr]
      exact ⟨_, _, by decide, (Option.some.inj h).symm⟩
    · rename_i hr
      rw [hr]
      exact ⟨_, _, by decide, (Option.some.inj h).symm⟩
    · rename_i hr
      rw [hr]
      exact runCommand_does h
  rename_i hc
  rw [if_neg hc]
  split at h
  · rename_i hb
    rw [if_pos hb]
    exact ⟨_, _, by decide, (Option.some.inj h).symm⟩
  · rename_i hb
    rw [if_neg hb]
    obtain ⟨evaluated, he, rfl⟩ := Option.map_eq_some_iff.1 h
    exact ⟨evaluated, he, rfl⟩

end Shell

end ReplayShell
