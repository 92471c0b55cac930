import ReplayShell.Proofs.Courses
import ReplayShell.Proofs.InputCuts
import ReplayShell.Proofs.Retelling
import ReplayShell.Proofs.StoreSight

/-!
# Durability

A run on one input and then another run on a second do what a single run on both does.

* `Store.Holds`: the store lists the texts that tell the session, and no other lies there.
  `follows_holds` keeps this along a run.
* `run_durable` puts two runs together, with any libraries, for a store that is in sight when the
  first run opens it.
  The second run must find its settings and the directory of the logs as they were: a reset removes
  them if they lie in the store.
* `start_emptyPath`: under the empty path a run begins with nothing, whatever has been stored.
-/
namespace ReplayShell

open Terminal (Output)

/-- The store lists the texts that tell the session, and no other lies there. -/
structure Store.Holds (files : FileSystem) (directory : String) (kept : List String)
    (session : Session) : Prop where
  sight : Store.InSight files directory
  listed : Store.texts files directory = .ok kept
  told : Session.Told {} kept session

theorem Session.commit_grows (session : Session) (tree : Syntax.Submission × List Diagnostic)
    (globals : Variables) :
    (session.commit (Compilation.chain session.handle tree) globals).compilation.generation ≠
      session.compilation.generation :=
  Nat.succ_ne_self _

namespace Shell

variable {fuel : Nat} {shell : Shell} {files : FileSystem} {kept : List String}

theorem evaluate_holds {text : String} {reply : Reply Unit}
    (holds : Store.Holds files shell.store kept shell.session)
    (h : shell.evaluate fuel true files text = some reply) (hr : reply.result = .ok ()) :
    ∃ session, reply.shell = { shell with session := session } ∧
      Store.Holds reply.files shell.store
        (if session.compilation.generation = shell.session.compilation.generation then kept
          else kept ++ [text]) session := by
  obtain ⟨evaluation, he, ⟨hd, hshell, hkeep⟩ | ⟨-, -, -, hshell, hf⟩⟩ := evaluate_cases h
  · obtain ⟨-, ha⟩ := hkeep.resolve_right fun hk => by cases hk.1
    rw [hr] at ha
    have hn : shell.session.next fuel text = some (shell.session.commit
        (Compilation.chain shell.session.handle (Syntax.parse text)) evaluation.globals) := by
      rw [Session.next, he, Option.map_some, if_pos (List.isEmpty_iff.2 hd)]
    refine ⟨_, hshell, ?_⟩
    rw [if_neg (Session.commit_grows _ _ _)]
    exact ⟨(Store.texts_append_lying holds.sight.named ha).1,
      (Store.texts_append_iff holds.listed ha).2 holds.sight, holds.told.concat hn⟩
  · refine ⟨shell.session, hshell, ?_⟩
    rw [if_pos rfl, hf]
    exact holds

/-- Every submission whose effect outlasts the run leaves a store that tells the session. -/
theorem submit_holds {line : String} {reply : Reply Outcome} {outcome : Outcome}
    (holds : Store.Holds files shell.store kept shell.session)
    (ht : isTransient line.toList = false) (h : shell.submit fuel files line = some reply)
    (hr : reply.result = .ok outcome) :
    ∃ session, reply.shell = { shell with session := session } ∧
      Store.Holds reply.files shell.store (shell.session.retained kept files line session)
        session := by
  have done := submit_does h
  unfold Session.retained
  cases htask : Task.of files line with
  | program text =>
    rw [htask] at done
    obtain ⟨⟨result, output, shell', files'⟩, he, rfl⟩ := done
    cases result with
    | error failure => cases hr
    | ok _ => exact evaluate_holds holds he rfl
  | reset =>
    rw [htask] at done
    obtain ⟨result, hc, hresult, -, hshell⟩ := done
    cases result with
    | error failure =>
      rw [hresult] at hr
      cases hr
    | ok _ =>
      obtain ⟨hs, sight⟩ := Store.texts_of_clear hc
      exact ⟨{}, hshell, sight holds.sight, hs, .nothing _⟩
  | switch =>
    rw [isTransient_of_task (.inl htask)] at ht
    cases ht
  | exit =>
    rw [isTransient_of_task (.inr htask)] at ht
    cases ht
  | look =>
    rw [htask] at done
    obtain ⟨_, _, -, rfl⟩ := done
    exact ⟨shell.session, rfl, holds⟩

end Shell

namespace Console

variable {fuel : Nat} {shell shell' : Shell} {files files' : FileSystem} {kept kept' : List String}
variable {libraries : Libraries} {options : Options} {settings : Settings} {directory : String}

theorem enter_holds {text : List Char} {written : Output}
    (holds : Store.Holds files shell.store kept shell.session) (ht : isTransient text = false)
    (h : enter fuel shell files text = some ⟨written, files', .ok shell'⟩) :
    ∃ session, shell' = { shell with session := session } ∧
      Store.Holds files' shell.store
        (shell.session.retained kept files (String.ofList text) session) session := by
  rcases enter_some h with ⟨hb, hstep⟩ | ⟨reply, hs, hstep⟩
  · cases hstep
    refine ⟨shell.session, rfl, ?_⟩
    rw [Session.retained, Task.of_blank files (by rwa [String.toList_ofList])]
    exact holds
  · obtain ⟨result, output, after, files''⟩ := reply
    cases result with
    | error failure => cases hstep
    | ok outcome =>
      obtain ⟨session, hshell, holds'⟩ :=
        Shell.submit_holds holds (by rwa [String.toList_ofList]) hs rfl
      dsimp only at hshell
      cases outcome <;> cases hstep <;> exact ⟨session, hshell, holds'⟩

/-- Along a run only the session changes, and the store keeps up with it. -/
theorem follows_holds {entries : List Input.Entry} {written : Output}
    (h : Follows fuel shell files kept entries written shell' files' kept')
    (holds : Store.Holds files shell.store kept shell.session)
    (ht : ∀ entry ∈ entries, isTransient entry.text = false) :
    ∃ session, shell' = { shell with session := session } ∧
      Store.Holds files' shell.store kept' session := by
  induction h with
  | nothing shell files kept => exact ⟨shell.session, rfl, holds⟩
  | entry head _ ih =>
    obtain ⟨session, rfl, holds'⟩ := enter_holds holds (ht _ List.mem_cons_self) head
    obtain ⟨last, rfl, holds''⟩ := ih holds' fun entry hm => ht entry (List.mem_cons_of_mem _ hm)
    exact ⟨last, rfl, holds''⟩

/-! ## The beginning of a run -/

/-- The shell of a run before anything has been evaluated. -/
def opened (directory : String) (settings : Settings) : Shell :=
  { showTree := settings.showTree, showProgram := settings.showProgram, store := directory }

theorem start_replaying (hd : storeDirectory libraries options settings = some directory)
    (hon : settings.replayOnStart = true) (hno : options.noReplay = false) :
    start fuel libraries files options settings =
      ((opened directory settings).replay fuel (withLogs libraries files)).map Step.ofReply := by
  simp [start, opened, hd, hon, hno]

/-- A run that has opened its shell has a directory for the store. -/
theorem storeDirectory_of_start {output : Output}
    (h : start fuel libraries files options settings = some ⟨output, files', .ok shell⟩) :
    ∃ directory, storeDirectory libraries options settings = some directory := by
  unfold start at h
  dsimp only at h
  split at h
  · cases h
  · rename_i directory hd
    exact ⟨directory, hd⟩

/-- A run that begins with a replay begins with the session that the store tells. -/
theorem start_ok {output : Output} (hd : storeDirectory libraries options settings = some directory)
    (hon : settings.replayOnStart = true) (hno : options.noReplay = false)
    (h : start fuel libraries files options settings = some ⟨output, files', .ok shell⟩) :
    ∃ stored session, files' = withLogs libraries files ∧
      shell = { opened directory settings with session := session } ∧
      Store.texts files' directory = .ok stored ∧ Session.Told {} stored session := by
  rw [start_replaying hd hon hno] at h
  obtain ⟨⟨result, written, after, files''⟩, hr, hstep⟩ := Option.map_eq_some_iff.1 h
  cases result with
  | error failure => cases hstep
  | ok count =>
    cases hstep
    obtain ⟨stored, session, hs, told, hshell, hf⟩ := Shell.replay_ok hr rfl
    dsimp only at hshell hf
    subst hf
    exact ⟨stored, session, rfl, hshell, hs, told⟩

/-- Opening a run does not finish it. -/
theorem start_ne_finished {step : Step}
    (h : start fuel libraries files options settings = some step) :
    step.next ≠ .error .finished := by
  unfold start at h
  dsimp only at h
  split at h
  · cases h
    exact fun hn => by cases hn
  split at h
  · obtain ⟨⟨result, _, _, _⟩, -, rfl⟩ := Option.map_eq_some_iff.1 h
    cases result <;> exact fun hn => by cases hn
  · cases h
    exact fun hn => by cases hn

/-- Under the empty path a run begins with nothing. -/
theorem start_emptyPath (hd : storeDirectory libraries options settings = some "") :
    start fuel libraries files options settings =
      some ⟨[], withLogs libraries files, .ok (opened "" settings)⟩ := by
  unfold start
  simp only [hd]
  split <;> rfl

theorem broken_of_finished {input : Input} (h : endingOf libraries input = .finished) :
    input.broken = false := by
  unfold endingOf at h
  split at h
  · cases h
  split at h
  · cases h
  · rename_i hb
    simpa using hb

/-- A run whose shell could be opened goes on with its entries. -/
theorem run_of_start {arguments : List String} {before : Output}
    (hargs : libraries.arguments arguments = .start options)
    (hsettings : Console.settings libraries files options = .ok settings)
    (hs : start fuel libraries files options settings = some ⟨before, files', .ok shell⟩)
    (input : Input) :
    runWith fuel libraries files arguments input =
      converse fuel (endingOf libraries input) shell files' before
        (input.entries libraries.reader).1 := by
  unfold runWith
  simp only [hargs, hsettings, hs]

/-- A run that finishes has opened its shell. -/
theorem start_of_finished {arguments : List String} {input : Input} {output : Output}
    (hargs : libraries.arguments arguments = .start options)
    (hsettings : Console.settings libraries files options = .ok settings)
    (h : runWith fuel libraries files arguments input = some ⟨.finished, output, files'⟩) :
    ∃ before made first,
      start fuel libraries files options settings = some ⟨before, made, .ok first⟩ := by
  unfold runWith at h
  simp only [hargs, hsettings] at h
  cases hs : start fuel libraries files options settings with
  | none => simp [hs] at h
  | some step =>
    obtain ⟨before, made, next⟩ := step
    cases next with
    | error ending =>
      simp only [hs, Option.some.injEq, Transcript.mk.injEq] at h
      exact absurd (congrArg Except.error h.1) (start_ne_finished hs)
    | ok first => exact ⟨before, made, first, rfl⟩

/-! ## Two runs -/

/-- **Durability.** Whatever reads the arguments, the configuration and the lines, the first run
reads an input that another can follow, finishes, and submits nothing whose effect ends with the
run. If its store is in sight, the texts that it has accepted since the last reset are stored in the
end, in order, and a second run begins where it has ended, by evaluating them again. From there it
does what the first run would have done with the second input: the same output, the same files and
the same ending. Under the empty path the second run begins with nothing, whatever the first has
accepted. -/
theorem run_durable {arguments : List String} {a : ByteArray} {output : Output}
    (hargs : libraries.arguments arguments = .start options) (hno : options.noReplay = false)
    (hsettings : Console.settings libraries files options = .ok settings)
    (hon : settings.replayOnStart = true)
    (hlast : ∀ byte ∈ a.toList.getLast?, byte = 10)
    (hpending : ((Input.ofBytes a).entries libraries.reader).2 = .pending [])
    (hlasting : ∀ entry ∈ ((Input.ofBytes a).entries libraries.reader).1,
      isTransient entry.text = false)
    (hrun : runWith fuel libraries files arguments (Input.ofBytes a) =
      some ⟨.finished, output, files'⟩)
    (hagain : Console.settings libraries files' options = .ok settings)
    (hlogs : withLogs libraries files' = files') (b : ByteArray) :
    ∃ directory, storeDirectory libraries options settings = some directory ∧
      (Store.InSight (withLogs libraries files) directory →
        ∃ before stored first written last kept replayed enough,
          start fuel libraries files options settings =
              some ⟨before, withLogs libraries files, .ok first⟩ ∧
            first.store = directory ∧
            Store.texts (withLogs libraries files) directory = .ok stored ∧
            Follows fuel first (withLogs libraries files) stored
              ((Input.ofBytes a).entries libraries.reader).1 written last files' kept ∧
            output = before ++ written ∧
            Store.texts files' directory = .ok kept ∧
            ∀ fuel', enough ≤ fuel' →
              start fuel' libraries files' options settings =
                  some ⟨replayed, files', .ok last⟩ ∧
              ∃ rest : Option Transcript,
                runWith fuel' libraries files' arguments (Input.ofBytes b) =
                    rest.map (Transcript.after replayed) ∧
                  runWith fuel' libraries files arguments (Input.ofBytes (a ++ b)) =
                    rest.map (Transcript.after output)) ∧
      (directory = "" → ∀ fuel',
        start fuel' libraries files' options settings =
          some ⟨[], files', .ok (opened "" settings)⟩) := by
  -- The first run opens the shell and goes along its whole input.
  obtain ⟨before, made, first, hs⟩ := start_of_finished hargs hsettings hrun
  obtain ⟨directory, hd⟩ := storeDirectory_of_start hs
  refine ⟨directory, hd, fun sight => ?_, fun hempty fuel' => by
    rw [start_emptyPath (hempty ▸ hd), hlogs]⟩
  rw [run_of_start hargs hsettings hs] at hrun
  obtain ⟨stored, session, rfl, rfl, hstored, told⟩ := start_ok hd hon hno hs
  obtain ⟨hending, written, last, kept, rfl, follows⟩ :=
    follows_of_converse stored hlasting hrun
  -- Its store tells the session that it has come to, so that a replay leads there.
  obtain ⟨session', rfl, holds⟩ := follows_holds follows ⟨sight, hstored, told⟩ hlasting
  have hlisted : Store.texts files' (opened directory settings).store = .ok kept := holds.listed
  have htold : Session.Told (opened directory settings).session kept session' := holds.told
  obtain ⟨fuel₁, count, replayed, hreplay⟩ := Shell.replay_of_told hlisted htold
  refine ⟨before, stored, _, written, _, kept, replayed, max fuel fuel₁, hs, rfl, hstored, follows,
    rfl, holds.listed, fun fuel' hle => ?_⟩
  have hfuel : fuel ≤ fuel' := Nat.le_trans (Nat.le_max_left _ _) hle
  have hstart : start fuel' libraries files' options settings =
      some ⟨replayed, files', .ok { opened directory settings with session := session' }⟩ := by
    rw [start_replaying hd hon hno, hlogs,
      Shell.replay_of_le (Nat.le_trans (Nat.le_max_right _ _) hle) hreplay]
    rfl
  refine ⟨hstart, converse fuel' (endingOf libraries (Input.ofBytes b))
    { opened directory settings with session := session' } files' []
    ((Input.ofBytes b).entries libraries.reader).1, ?_, ?_⟩
  · rw [run_of_start hargs hagain hstart]
    exact converse_output _ _ _
  · obtain ⟨hentries, hbroken⟩ :=
      Input.entries_ofBytes_append hlast (broken_of_finished hending) hpending b
    have hendings : endingOf libraries (Input.ofBytes (a ++ b)) =
        endingOf libraries (Input.ofBytes b) := by
      unfold endingOf
      rw [hentries, hbroken]
    rw [run_of_start hargs hsettings (start_of_le hfuel hs), hentries, hendings,
      converse_of_follows (follows.of_le hfuel)]
    exact converse_output _ _ _

/-- A user with a directory for each purpose. -/
def plainBases : BaseDirectories := ⟨"/h", some "/c", some "/d"⟩

theorem run_durable_firstRun :
    ∃ output files, run 9 plainBases .empty ["--store-dir", "s"] (Input.ofBytes "1\n".toUTF8) =
        some ⟨.finished, output, files⟩ ∧
      ∀ b : ByteArray, ∃ replayed enough, ∀ fuel, enough ≤ fuel → ∃ rest : Option Transcript,
        run fuel plainBases files ["--store-dir", "s"] (Input.ofBytes b) =
            rest.map (Transcript.after replayed) ∧
          run fuel plainBases .empty ["--store-dir", "s"] (Input.ofBytes ("1\n".toUTF8 ++ b)) =
            rest.map (Transcript.after output) := by
  have sight : Store.InSight (withLogs (.standard plainBases) .empty) "s" := by
    refine Store.inSight_of_no_record (by decide) (fun name record hr => ?_) (by decide +kernel)
    exact Store.not_recordAt_empty _ _ _
      ((Store.recordAt_of_adds (FileSystem.makeDirectories_adds _ _) _ _).1 hr)
  obtain ⟨⟨ending, output, files⟩, hrun, hafter⟩ : ∃ transcript,
      run 9 plainBases .empty ["--store-dir", "s"] (Input.ofBytes "1\n".toUTF8) = some transcript ∧
        (decide (transcript.ending = .finished) && transcript.files.isDirectory plainBases.logs &&
          decide ((Console.settings (.standard plainBases) transcript.files
            { store := some "s" }).toOption = some {})) = true :=
    (Option.any_eq_true _ _).1 (by decide +kernel)
  simp only [Bool.and_eq_true, decide_eq_true_eq] at hafter
  obtain ⟨⟨rfl, hlogs⟩, hsettings⟩ := hafter
  have hagain : Console.settings (.standard plainBases) files { store := some "s" } = .ok {} := by
    cases hs : Console.settings (.standard plainBases) files { store := some "s" } with
    | error ending => simp [hs, Except.toOption] at hsettings
    | ok settings => simpa [hs, Except.toOption] using hsettings
  refine ⟨output, files, hrun, fun b => ?_⟩
  obtain ⟨directory, hd, hdurable, -⟩ :=
    run_durable rfl rfl rfl rfl (by decide +kernel) (by decide +kernel) (by decide +kernel) hrun
      hagain (FileSystem.makeDirectories_of_isDirectory hlogs) b
  obtain rfl : "s" = directory := Option.some.inj hd
  obtain ⟨_, _, _, _, _, _, replayed, enough, -, -, -, -, -, -, h⟩ := hdurable sight
  exact ⟨replayed, enough, fun fuel hle => (h fuel hle).2⟩

end Console

end ReplayShell
