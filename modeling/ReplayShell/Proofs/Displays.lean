import Mathlib.Data.List.Forall2
import ReplayShell.Proofs.Tasks

/-!
# Displays change the output only

The shell can show the tree and the program of every text that it evaluates. Which of them it shows
makes no difference to anything but its output, and there they stand where the text begins.

* `Passage` is what the output tells about the evaluation of a text. Its tree and its program come
  first, as far as they are shown, then what the evaluation itself writes.
* `Session.passages` are the passages of texts one after another. They belong to the session and the
  texts; the displays have no part in them. `evaluate_eq`, `replayAll_eq`: all that an evaluation
  does, said by its passage.
* `Turn` is an operation of the shell with what came of it, `Shell.turns` a run. `perform_agrees`
  compares an operation on two shells that differ in their displays, `displays_transparent` a run.
-/
namespace ReplayShell

open Terminal (Output)

/-! ## Passages -/

/-- A text evaluated in a session, and what came of it. -/
structure Passage where
  session : Session
  text : String
  evaluation : Evaluation

namespace Passage

def compilation (passage : Passage) : Compilation :=
  Compilation.chain passage.session.handle (Syntax.parse passage.text)

/-- The text of its tree. -/
def tree (passage : Passage) : String := (Syntax.parse passage.text).1.outline

/-- The text of its resolved program. -/
def program (passage : Passage) : String := passage.compilation.listing

def isAccepted (passage : Passage) : Bool := passage.evaluation.diagnostics.isEmpty

/-- The session after it. -/
def after (passage : Passage) : Session :=
  if passage.isAccepted then
    passage.session.commit passage.compilation passage.evaluation.globals
  else passage.session

/-- What the evaluation writes itself: what is printed, then its value or what is wrong with it. -/
def own (passage : Passage) : Output :=
  Output.plain passage.evaluation.printed ++
    if passage.isAccepted then Shell.showValue passage.evaluation.value
    else report passage.text.toList passage.evaluation.diagnostics

/-- All that is written, with the displays that are switched on. -/
def output (showTree showProgram : Bool) (passage : Passage) : Output :=
  (if showTree then Output.painted .gray passage.tree else []) ++
    (if showProgram then Output.painted .gray passage.program else []) ++ passage.own

/-- The output without colour: the displays that are switched on stand before the rest. -/
def uncoloured (showTree showProgram : Bool) (passage : Passage) : String :=
  (if showTree then passage.tree else "") ++ (if showProgram then passage.program else "") ++
    passage.own.render false

theorem render_output (showTree showProgram : Bool) (passage : Passage) :
    (passage.output showTree showProgram).render false =
      passage.uncoloured showTree showProgram := by
  have display : ∀ (shown : Bool) (text : String),
      Output.render false (if shown then Output.painted .gray text else []) =
        if shown then text else "" := by
    intro shown text
    cases shown <;> simp [Output.render, Output.renderWith, Output.painted,
      Terminal.Fragment.render, Terminal.painter]
  rw [output, uncoloured, Output.render_append, Output.render_append, display, display]

/-- What becomes of the text in the store. -/
def kept (passage : Passage) (keep : Bool) (files : FileSystem) (store : String) :
    Except Failure Unit × FileSystem :=
  if passage.isAccepted && keep then Store.append files store passage.text else (.ok (), files)

end Passage

namespace Session

/-- The passage of a text. -/
def passage (fuel : Nat) (session : Session) (text : String) : Option Passage :=
  ((Compilation.chain session.handle (Syntax.parse text)).evaluate fuel session.globals).map
    fun evaluation => ⟨session, text, evaluation⟩

/-- The passages of texts, each in the session that the one before it leaves. -/
def passages (fuel : Nat) (session : Session) : List String → Option (List Passage)
  | [] => some []
  | text :: rest =>
    (session.passage fuel text).bind fun passage =>
      (passages fuel passage.after rest).map (passage :: ·)

/-- The session after the passages. -/
def afterAll (session : Session) (passages : List Passage) : Session :=
  passages.foldl (fun _ passage => passage.after) session

theorem passages_singleton (fuel : Nat) (session : Session) (text : String) :
    session.passages fuel [text] = (session.passage fuel text).map ([·]) := by
  cases h : session.passage fuel text <;> simp [passages, h]

end Session

namespace Shell

variable {fuel : Nat} {files : FileSystem}

/-- What the shell writes about texts that it evaluates. -/
def writes (shell : Shell) (passages : List Passage) : Output :=
  passages.flatMap (Passage.output shell.showTree shell.showProgram)

/-- Everything that an evaluation does. -/
theorem evaluate_eq (fuel : Nat) (keep : Bool) (shell : Shell) (files : FileSystem)
    (text : String) :
    shell.evaluate fuel keep files text = (shell.session.passage fuel text).map fun passage =>
      ⟨(passage.kept keep files shell.store).1,
        passage.output shell.showTree shell.showProgram,
        { shell with session := passage.after },
        (passage.kept keep files shell.store).2⟩ := by
  unfold evaluate Session.passage
  dsimp only
  cases (Compilation.chain shell.session.handle (Syntax.parse text)).evaluate fuel
      shell.session.globals with
  | none => rfl
  | some evaluation =>
    by_cases hd : evaluation.diagnostics = [] <;> cases keep <;>
      simp [hd, displays, Passage.kept, Passage.output, Passage.own, Passage.after,
        Passage.isAccepted, Passage.tree, Passage.program, Passage.compilation]

theorem replayAll_eq (fuel : Nat) (shell : Shell) (files : FileSystem) (output : Output)
    (texts : List String) :
    shell.replayAll fuel files output texts =
      (shell.session.passages fuel texts).map fun passages =>
        ({ shell with session := shell.session.afterAll passages }, files,
          output ++ shell.writes passages) := by
  induction texts generalizing shell output with
  | nil => simp [replayAll, Session.passages, Session.afterAll, writes]
  | cons text rest ih =>
    rw [replayAll, evaluate_eq, Session.passages]
    cases shell.session.passage fuel text with
    | none => rfl
    | some passage =>
      have later := ih { shell with session := passage.after }
        (output ++ passage.output shell.showTree shell.showProgram)
      simp only [Option.map_some, Option.bind_some, Passage.kept, Bool.and_false,
        Bool.false_eq_true, if_false, later]
      cases passage.after.passages fuel rest <;>
        simp [Session.afterAll, writes]

end Shell

/-! ## Operations -/

/-- What can be asked of a shell. -/
inductive Action where
  | submit (line : String)
  | replay

/-- What comes of it, if nothing fails. -/
inductive Answer where
  | outcome (outcome : Outcome)
  | replayed (count : Nat)

def Reply.map {α β : Type} (f : α → β) (reply : Reply α) : Reply β :=
  ⟨reply.result.map f, reply.output, reply.shell, reply.files⟩

/-- Does what is asked. -/
def Shell.perform (fuel : Nat) (shell : Shell) (files : FileSystem) :
    Action → Option (Reply Answer)
  | .submit line => (shell.submit fuel files line).map (Reply.map .outcome)
  | .replay => (shell.replay fuel files).map (Reply.map .replayed)

/-- The text that a task evaluates, if it is one to do so. -/
def Task.texts : Task → List String
  | .program text => [text]
  | _ => []

namespace Action

/-- The texts that the shell evaluates for it. -/
def texts (files : FileSystem) (store : String) : Action → List String
  | .submit line => (Task.of files line).texts
  | .replay =>
    match Store.texts files store with
    | .ok texts => texts
    | .error _ => []

/-- Whether a display is switched on or off. -/
def Switches : Action → Prop
  | .submit line => isCommand line.toList = true ∧ ∃ arguments,
      Request.ofLine line.toList = .run .showTree arguments ∨
        Request.ofLine line.toList = .run .showProgram arguments
  | .replay => False

end Action

/-- An operation, where it was done and what came of it. -/
structure Turn where
  shell : Shell
  files : FileSystem
  action : Action
  reply : Reply Answer

/-- A run: one operation after another, whatever comes of them. -/
def Shell.turns (fuel : Nat) (shell : Shell) (files : FileSystem) :
    List Action → Option (List Turn)
  | [] => some []
  | action :: rest =>
    (shell.perform fuel files action).bind fun reply =>
      (turns fuel reply.shell reply.files rest).map (⟨shell, files, action, reply⟩ :: ·)

namespace Turn

/-- The passages of the texts that are evaluated. -/
def passages (fuel : Nat) (turn : Turn) : Option (List Passage) :=
  turn.shell.session.passages fuel (turn.action.texts turn.files turn.shell.store)

/-- The operations do the same, and tell of it as their displays ask. -/
structure Agrees (fuel : Nat) (turn turn' : Turn) : Prop where
  result : turn'.reply.result = turn.reply.result
  session : turn'.reply.shell.session = turn.reply.shell.session
  store : turn'.reply.shell.store = turn.reply.shell.store
  files : turn'.reply.files = turn.reply.files
  /-- The same texts are evaluated, with the same of everything but the displays. Only a command
  that switches a display can be answered in different ways. -/
  output : ∃ passages notice notice', turn.passages fuel = some passages ∧
    turn'.passages fuel = some passages ∧
    turn.reply.output = notice ++ turn.shell.writes passages ∧
    turn'.reply.output = notice' ++ turn'.shell.writes passages ∧
    (¬turn.action.Switches → notice' = notice)
  displays : ¬turn.action.Switches →
    (turn.reply.shell.showTree = turn.shell.showTree ∧
      turn.reply.shell.showProgram = turn.shell.showProgram) ∧
    turn'.reply.shell.showTree = turn'.shell.showTree ∧
      turn'.reply.shell.showProgram = turn'.shell.showProgram

end Turn

namespace Shell

/-- The shell with its displays switched on or off. -/
def displaying (shell : Shell) (showTree showProgram : Bool) : Shell :=
  { shell with showTree := showTree, showProgram := showProgram }

variable {shell : Shell} {files : FileSystem} {fuel : Nat}

/-- An operation that writes a notice and then evaluates texts. -/
theorem agrees_told (showTree showProgram : Bool) {action : Action} {passages : List Passage}
    (ht : shell.session.passages fuel (action.texts files shell.store) = some passages)
    (result : Except Failure Answer) (notice : Output) (session : Session)
    (files' : FileSystem) :
    Turn.Agrees fuel
      ⟨shell, files, action,
        ⟨result, notice ++ shell.writes passages, { shell with session := session }, files'⟩⟩
      ⟨shell.displaying showTree showProgram, files, action,
        ⟨result, notice ++ (shell.displaying showTree showProgram).writes passages,
          { shell.displaying showTree showProgram with session := session }, files'⟩⟩ where
  result := rfl
  session := rfl
  store := rfl
  files := rfl
  output := ⟨passages, notice, notice, ht, ht, rfl, rfl, fun _ => rfl⟩
  displays := fun _ => ⟨⟨rfl, rfl⟩, rfl, rfl⟩

/-- An operation that evaluates no text and answers both shells alike. -/
theorem agrees_quiet (showTree showProgram : Bool) {action : Action}
    (ht : action.texts files shell.store = []) (result : Except Failure Answer) (notice : Output)
    (session : Session) (files' : FileSystem) :
    Turn.Agrees fuel
      ⟨shell, files, action, ⟨result, notice, { shell with session := session }, files'⟩⟩
      ⟨shell.displaying showTree showProgram, files, action, ⟨result, notice,
        { shell.displaying showTree showProgram with session := session }, files'⟩⟩ := by
  have told : shell.session.passages fuel (action.texts files shell.store) = some [] := by
    rw [ht, Session.passages]
  simpa only [writes, List.flatMap_nil, List.append_nil] using
    agrees_told showTree showProgram told result notice session files'

/-- The answer to a command that switches a display says what is shown from now on. -/
theorem agrees_switch (showTree showProgram : Bool) {action : Action} (hs : action.Switches)
    (ht : action.texts files shell.store = []) (answer : Answer) (notice notice' : Output)
    (tree program tree' program' : Bool) :
    Turn.Agrees fuel
      ⟨shell, files, action, ⟨.ok answer, notice, shell.displaying tree program, files⟩⟩
      ⟨shell.displaying showTree showProgram, files, action,
        ⟨.ok answer, notice', shell.displaying tree' program', files⟩⟩ where
  result := rfl
  session := rfl
  store := rfl
  files := rfl
  output := by
    have told : shell.session.passages fuel (action.texts files shell.store) = some [] := by
      rw [ht, Session.passages]
    exact ⟨[], notice, notice', told, told, (List.append_nil _).symm, (List.append_nil _).symm,
      fun hn => absurd hs hn⟩
  displays := fun hn => absurd hs hn

/-- The reply to a submission whose text is evaluated. -/
def replyOf (evaluated : Reply Unit) : Reply Outcome := evaluated.map fun () => .continue

/-- A text that is evaluated and kept. -/
theorem evaluate_agrees (showTree showProgram : Bool) {action : Action} {text : String}
    (ht : action.texts files shell.store = [text]) {evaluated : Reply Unit}
    (h : shell.evaluate fuel true files text = some evaluated) :
    ∃ evaluated', (shell.displaying showTree showProgram).evaluate fuel true files text =
        some evaluated' ∧
      Turn.Agrees fuel ⟨shell, files, action, (replyOf evaluated).map .outcome⟩
        ⟨shell.displaying showTree showProgram, files, action,
          (replyOf evaluated').map .outcome⟩ := by
  rw [evaluate_eq, Option.map_eq_some_iff] at h
  obtain ⟨passage, hp, rfl⟩ := h
  have hp' : (shell.displaying showTree showProgram).session.passage fuel text = some passage := hp
  refine ⟨_, by rw [evaluate_eq, hp', Option.map_some], ?_⟩
  have told : shell.session.passages fuel (action.texts files shell.store) = some [passage] := by
    rw [ht, Session.passages_singleton, hp, Option.map_some]
  have agrees := agrees_told showTree showProgram told
    (((passage.kept true files shell.store).1.map fun () => .continue).map .outcome) []
    passage.after (passage.kept true files shell.store).2
  simp only [writes, List.flatMap_singleton, List.nil_append] at agrees
  exact agrees

theorem runCommand_agrees (showTree showProgram : Bool) {line : String} {command : Command}
    {arguments : List String} (hc : isCommand line.toList = true)
    (hr : Request.ofLine line.toList = .run command arguments) {reply : Reply Outcome}
    (h : shell.runCommand fuel files command arguments = some reply) :
    ∃ reply', (shell.displaying showTree showProgram).runCommand fuel files command arguments =
        some reply' ∧
      Turn.Agrees fuel ⟨shell, files, .submit line, reply.map .outcome⟩
        ⟨shell.displaying showTree showProgram, files, .submit line, reply'.map .outcome⟩ := by
  have ht : (Action.submit line).texts files shell.store =
      (Task.ofCommand files arguments command).texts := by
    simp only [Action.texts, Task.of, hc, hr, if_true]
  cases command with
  | exit | clearScreen | reset | listSymbols =>
    obtain rfl := Option.some.inj h
    exact ⟨_, rfl, agrees_quiet showTree showProgram ht _ _ _ _⟩
  | showTree =>
    have switches : (Action.submit line).Switches := ⟨hc, arguments, .inl hr⟩
    obtain rfl := Option.some.inj h
    exact ⟨_, rfl, agrees_switch showTree showProgram switches ht _ _ _ _ _ _ _⟩
  | showProgram =>
    have switches : (Action.submit line).Switches := ⟨hc, arguments, .inr hr⟩
    obtain rfl := Option.some.inj h
    exact ⟨_, rfl, agrees_switch showTree showProgram switches ht _ _ _ _ _ _ _⟩
  | dump =>
    have same : (shell.displaying showTree showProgram).sortedSymbols = shell.sortedSymbols := rfl
    simp only [runCommand, dump, same] at h ⊢
    split at h <;> obtain rfl := Option.some.inj h <;>
      exact ⟨_, rfl, agrees_quiet showTree showProgram ht _ _ _ _⟩
  | load =>
    simp only [runCommand, load] at h ⊢
    by_cases hf : files.isFile (Path.absolute (FileSystem.placeText files.workingDirectory)
        (arguments.headD "")) = true
    · rw [if_pos hf] at h ⊢
      cases hread : files.readText (Path.absolute (FileSystem.placeText files.workingDirectory)
          (arguments.headD "")) with
      | error error =>
        rw [hread] at h
        obtain rfl := Option.some.inj h
        refine ⟨_, rfl, agrees_quiet showTree showProgram (ht.trans ?_) _ _ _ _⟩
        simp only [Task.ofCommand, hread, Task.texts]
      | ok text =>
        rw [hread] at h
        obtain ⟨evaluated, he, rfl⟩ := Option.map_eq_some_iff.1 h
        obtain ⟨evaluated', he', agrees⟩ := evaluate_agrees showTree showProgram
          (ht.trans (by simp only [Task.ofCommand, hread, Task.texts])) he
        exact ⟨_, Option.map_eq_some_iff.2 ⟨evaluated', he', rfl⟩, agrees⟩
    · rw [if_neg hf] at h ⊢
      obtain rfl := Option.some.inj h
      refine ⟨_, rfl, agrees_quiet showTree showProgram (ht.trans ?_) _ _ _ _⟩
      simp only [Task.ofCommand]
      split
      · rename_i text hread
        exact absurd (FileSystem.isFile_of_readText hread) hf
      · rfl

theorem submit_agrees (showTree showProgram : Bool) {line : String} {reply : Reply Outcome}
    (h : shell.submit fuel files line = some reply) :
    ∃ reply', (shell.displaying showTree showProgram).submit fuel files line = some reply' ∧
      Turn.Agrees fuel ⟨shell, files, .submit line, reply.map .outcome⟩
        ⟨shell.displaying showTree showProgram, files, .submit line, reply'.map .outcome⟩ := by
  unfold submit at h ⊢
  by_cases hc : isCommand line.toList = true
  · rw [if_pos hc] at h ⊢
    unfold execute at h ⊢
    cases hr : Request.ofLine line.toList with
    | run command arguments =>
      simp only [hr] at h
      exact runCommand_agrees showTree showProgram hc hr h
    | unknownCommand | wrongArity =>
      have ht : (Action.submit line).texts files shell.store = [] := by
        simp only [Action.texts, Task.of, hc, hr, if_true, Task.texts]
      simp only [hr] at h
      obtain rfl := Option.some.inj h
      exact ⟨_, rfl, agrees_quiet showTree showProgram ht _ _ _ _⟩
  · rw [if_neg hc] at h ⊢
    by_cases hb : Text.isBlankText line.toList = true
    · rw [if_pos hb] at h ⊢
      have ht : (Action.submit line).texts files shell.store = [] := by
        simp only [Action.texts, Task.of, if_neg hc, if_pos hb, Task.texts]
      obtain rfl := Option.some.inj h
      exact ⟨_, rfl, agrees_quiet showTree showProgram ht _ _ _ _⟩
    · rw [if_neg hb] at h ⊢
      have ht : (Action.submit line).texts files shell.store = [line] := by
        simp only [Action.texts, Task.of, if_neg hc, if_neg hb, Task.texts]
      obtain ⟨evaluated, he, rfl⟩ := Option.map_eq_some_iff.1 h
      obtain ⟨evaluated', he', agrees⟩ := evaluate_agrees showTree showProgram ht he
      exact ⟨_, Option.map_eq_some_iff.2 ⟨evaluated', he', rfl⟩, agrees⟩

theorem replay_agrees (showTree showProgram : Bool) {reply : Reply Nat}
    (h : shell.replay fuel files = some reply) :
    ∃ reply', (shell.displaying showTree showProgram).replay fuel files = some reply' ∧
      Turn.Agrees fuel ⟨shell, files, .replay, reply.map .replayed⟩
        ⟨shell.displaying showTree showProgram, files, .replay, reply'.map .replayed⟩ := by
  have same : (shell.displaying showTree showProgram).store = shell.store := rfl
  unfold replay at h ⊢
  rw [same]
  cases hs : Store.texts files shell.store with
  | error failure =>
    have ht : Action.replay.texts files shell.store = [] := by simp only [Action.texts, hs]
    simp only [hs] at h
    obtain rfl := Option.some.inj h
    exact ⟨_, rfl, agrees_quiet showTree showProgram ht _ _ _ _⟩
  | ok texts =>
    have ht : Action.replay.texts files shell.store = texts := by simp only [Action.texts, hs]
    cases texts with
    | nil =>
      simp only [hs] at h
      obtain rfl := Option.some.inj h
      exact ⟨_, rfl, agrees_quiet showTree showProgram ht _ _ _ _⟩
    | cons text rest =>
      simp only [hs, replayAll_eq, Option.map_eq_some_iff] at h ⊢
      obtain ⟨-, ⟨passages, hp, rfl⟩, rfl⟩ := h
      refine ⟨_, ⟨_, ⟨passages, hp, rfl⟩, rfl⟩, ?_⟩
      exact agrees_told showTree showProgram (ht ▸ hp) _ _ _ _

/-- Shells that differ in their displays do the same. -/
theorem perform_agrees {other : Shell} (hsession : other.session = shell.session)
    (hstore : other.store = shell.store) {action : Action} {reply : Reply Answer}
    (h : shell.perform fuel files action = some reply) :
    ∃ reply', other.perform fuel files action = some reply' ∧
      Turn.Agrees fuel ⟨shell, files, action, reply⟩ ⟨other, files, action, reply'⟩ := by
  have hother : other = shell.displaying other.showTree other.showProgram := by
    rw [displaying, ← hsession, ← hstore]
  rw [hother]
  cases action with
  | submit line =>
    obtain ⟨inner, hi, rfl⟩ := Option.map_eq_some_iff.1 h
    obtain ⟨inner', hi', agrees⟩ := submit_agrees other.showTree other.showProgram hi
    exact ⟨_, Option.map_eq_some_iff.2 ⟨inner', hi', rfl⟩, agrees⟩
  | replay =>
    obtain ⟨inner, hi, rfl⟩ := Option.map_eq_some_iff.1 h
    obtain ⟨inner', hi', agrees⟩ := replay_agrees other.showTree other.showProgram hi
    exact ⟨_, Option.map_eq_some_iff.2 ⟨inner', hi', rfl⟩, agrees⟩

end Shell

/-! ## Runs -/

theorem render_flatMap (color : Bool) (write : Passage → Output) (passages : List Passage) :
    Output.render color (passages.flatMap write) =
      String.join (passages.map fun passage => (write passage).render color) := by
  induction passages with
  | nil => rfl
  | cons passage rest ih =>
    rw [List.flatMap_cons, Output.render_append, ih, List.map_cons, String.join_cons]

namespace Turn

/-- Without colour, the second turn writes what the first one does, and for each text that it
evaluates its displays, just before what the evaluation itself writes. -/
def Displays (fuel : Nat) (showTree showProgram : Bool) (turn turn' : Turn) : Prop :=
  ∃ passages notice, turn.passages fuel = some passages ∧
    turn.reply.output.render false =
      notice ++ String.join (passages.map fun passage => passage.own.render false) ∧
    turn'.reply.output.render false =
      notice ++ String.join (passages.map (Passage.uncoloured showTree showProgram))

/-- Turns that agree differ in their displays only, if the first shell shows none. -/
theorem Agrees.displayed {fuel : Nat} {turn turn' : Turn} (agrees : Agrees fuel turn turn')
    (hs : ¬turn.action.Switches) (htree : turn.shell.showTree = false)
    (hprogram : turn.shell.showProgram = false) :
    Displays fuel turn'.shell.showTree turn'.shell.showProgram turn turn' := by
  obtain ⟨passages, notice, notice', told, -, houtput, houtput', hnotice⟩ := agrees.output
  refine ⟨passages, notice.render false, told, ?_, ?_⟩
  · rw [houtput, Output.render_append, Shell.writes, render_flatMap, htree, hprogram]
    rfl
  · rw [houtput', hnotice hs, Output.render_append, Shell.writes, render_flatMap]
    simp only [Passage.render_output]

end Turn

/-- **Displays change the output only.** Two shells start in the same session, on the same store,
and are asked for the same, one thing after another. Whatever they display, the second run ends as the
first one does, and after every operation the results, the sessions and the files are the same, and
so is what each evaluated text has printed. If no display is switched meanwhile and the first shell
shows none, then without colour its output is that of the second one with the displays taken out,
which stand just before what the evaluation of their text writes itself. -/
theorem displays_transparent {first second : Shell} (hsession : second.session = first.session)
    (hstore : second.store = first.store) {fuel : Nat} {files : FileSystem} {actions : List Action}
    {turns : List Turn} (h : first.turns fuel files actions = some turns) :
    ∃ turns', second.turns fuel files actions = some turns' ∧
      List.Forall₂ (Turn.Agrees fuel) turns turns' ∧
      ((∀ action ∈ actions, ¬action.Switches) → first.showTree = false →
        first.showProgram = false →
          List.Forall₂ (Turn.Displays fuel second.showTree second.showProgram) turns turns') := by
  induction actions generalizing first second files turns with
  | nil =>
    cases h
    exact ⟨[], rfl, .nil, fun _ _ _ => .nil⟩
  | cons action rest ih =>
    obtain ⟨reply, hr, h⟩ := Option.bind_eq_some_iff.1 h
    obtain ⟨more, hmore, rfl⟩ := Option.map_eq_some_iff.1 h
    obtain ⟨reply', hr', agrees⟩ := Shell.perform_agrees hsession hstore hr
    obtain ⟨more', hmore', later, displayed⟩ := ih agrees.session agrees.store hmore
    refine ⟨⟨second, files, action, reply'⟩ :: more', ?_, .cons agrees later, ?_⟩
    · rw [Shell.turns, hr', Option.bind_some, agrees.files, hmore', Option.map_some]
    · intro quiet htree hprogram
      obtain ⟨hs, hrest⟩ := List.forall_mem_cons.1 quiet
      obtain ⟨⟨hfirstTree, hfirstProgram⟩, hsecondTree, hsecondProgram⟩ := agrees.displays hs
      rw [← hsecondTree, ← hsecondProgram]
      refine .cons ?_ (displayed hrest (hfirstTree.trans htree) (hfirstProgram.trans hprogram))
      rw [hsecondTree, hsecondProgram]
      exact agrees.displayed hs htree hprogram

theorem displays_transparent_firstTexts :
    ∃ turns, Shell.turns 9 { store := "s" } .empty [.replay, .submit "let a = 1 + 1", .submit "a"] =
        some turns ∧
      ∃ turns', Shell.turns 9 { store := "s", showTree := true, showProgram := true } .empty
          [.replay, .submit "let a = 1 + 1", .submit "a"] = some turns' ∧
        List.Forall₂ (Turn.Agrees 9) turns turns' ∧
        List.Forall₂ (Turn.Displays 9 true true) turns turns' := by
  obtain ⟨turns, h⟩ : ∃ turns, Shell.turns 9 { store := "s" } .empty
      [.replay, .submit "let a = 1 + 1", .submit "a"] = some turns :=
    Option.isSome_iff_exists.1 (by decide +kernel)
  have quiet : ∀ action ∈ [Action.replay, .submit "let a = 1 + 1", .submit "a"],
      ¬action.Switches := by
    intro action ha
    simp only [List.mem_cons, List.not_mem_nil, or_false] at ha
    rcases ha with rfl | rfl | rfl
    · exact id
    · exact fun hs => absurd hs.1 (by decide)
    · exact fun hs => absurd hs.1 (by decide)
  obtain ⟨turns', h', agrees, displayed⟩ := @displays_transparent { store := "s" }
    { store := "s", showTree := true, showProgram := true } rfl rfl _ _ _ _ h
  exact ⟨turns, h, turns', h', agrees, displayed quiet rfl rfl⟩

end ReplayShell
