import ReplayShell.Proofs.Retelling

/-!
# Restarts

A shell may be left at any time, and a new one that replays the store goes on where it stood.

* `Event` lists what can happen between two submissions, `Step` is one event in a `World`, `Steps`
  a sequence of them. What a step shows are the outcome and the output of a submission.
* `step_tells`, `steps_tell`: the store tells the session after every step, so after every run.
* `restart_transparent`: a new shell always comes back to the session, and restarts put anywhere
  into a run, or taken out of it, change nothing.
-/
namespace ReplayShell

open Terminal (Output)

/-- A store that looks as it did, to anyone who goes by its path. Other files may have changed. -/
structure Store.Untouched (directory : String) (files files' : FileSystem) : Prop where
  place : files'.placeOf directory = files.placeOf directory
  listing : files'.list directory = files.list directory
  node : ∀ name, files'.node? (files'.placeOf directory ++ [name]) =
    files.node? (files.placeOf directory ++ [name])
  reading : ∀ name, files'.read (Path.join directory name) = files.read (Path.join directory name)

/-- What happens to a shell on its store. -/
inductive Event where
  | submit (text : String)
  /-- The shell is left and a new one replays the store; its displays are set as they were. -/
  | restart
  /-- Someone else changes files that are not the store's. -/
  | outside (files : FileSystem)

/-- Whether the event is a restart. -/
def Event.isRestart : Event → Bool
  | .restart => true
  | _ => false

/-- A shell and the files around it. -/
structure World where
  shell : Shell
  files : FileSystem

/-- The shell with the displays of another. -/
def Shell.displayingAs (shell other : Shell) : Shell :=
  { shell with showTree := other.showTree, showProgram := other.showProgram }

/-- One event that ends and fails nowhere, with what it shows. -/
inductive Step : World → Event → List (Outcome × Output) → World → Prop
  | submit {fuel : Nat} {shell shell' : Shell} {files files' : FileSystem} {text : String}
      {outcome : Outcome} {output : Output}
      (h : shell.submit fuel files text = some ⟨.ok outcome, output, shell', files'⟩) :
      Step ⟨shell, files⟩ (.submit text) [(outcome, output)] ⟨shell', files'⟩
  | restart {fuel count : Nat} {shell shell' : Shell} {files files' : FileSystem} {output : Output}
      (h : (Shell.fresh shell.store).replay fuel files = some ⟨.ok count, output, shell', files'⟩) :
      Step ⟨shell, files⟩ .restart [] ⟨shell'.displayingAs shell, files'⟩
  | outside {shell : Shell} {files files' : FileSystem}
      (h : Store.Untouched shell.store files files') :
      Step ⟨shell, files⟩ (.outside files') [] ⟨shell, files'⟩

/-- Events one after another, with all that they show. -/
inductive Steps : World → List Event → List (Outcome × Output) → World → Prop
  | nothing (world : World) : Steps world [] [] world
  | event {world world' last : World} {event : Event} {events : List Event}
      {shown more : List (Outcome × Output)} (head : Step world event shown world')
      (tail : Steps world' events more last) : Steps world (event :: events) (shown ++ more) last

/-- A shell whose store tells its session. -/
structure World.Told (directory : String) (world : World) : Prop where
  store : world.shell.store = directory
  tells : Store.Tells world.files directory world.shell.session

variable {directory : String} {world world' : World} {shown : List (Outcome × Output)}

theorem Store.Tells.of_untouched {files files' : FileSystem} {session : Session}
    (tells : Store.Tells files directory session) (h : Store.Untouched directory files files') :
    Store.Tells files' directory session := by
  obtain ⟨ordered, stored, hs, told⟩ := tells
  have hrecord : ∀ name record, Store.RecordAt files' directory name record →
      Store.RecordAt files directory name record := by
    intro name record hr
    exact ⟨hr.number, h.node name ▸ hr.node⟩
  refine ⟨⟨fun name record hr => ?_, fun name name' record record' hr hr' => ?_⟩, stored, ?_, told⟩
  · rw [h.reading]
    exact ordered.readable name record (hrecord name record hr)
  · exact ordered.distinct name name' record record' (hrecord _ _ hr) (hrecord _ _ hr')
  · have hrecords := Store.records_congr h.listing
    rw [← hs, Store.texts, Store.texts, hrecords]
    cases hl : Store.records files directory with
    | error error => rfl
    | ok listed =>
      refine congrArg Except.ok (List.filterMap_congr fun record hm => ?_)
      obtain ⟨name, hpath⟩ := Store.path_of_records hl hm
      rw [FileSystem.readText, FileSystem.readText, hpath, h.reading]

/-- A new shell on a store that tells a session comes to the session. -/
theorem Store.Tells.replay {files : FileSystem} {session : Session}
    (tells : Store.Tells files directory session) :
    ∃ fuel count output, (Shell.fresh directory).replay fuel files =
      some ⟨.ok count, output, { Shell.fresh directory with session := session }, files⟩ := by
  obtain ⟨-, stored, hs, told⟩ := tells
  exact Shell.replay_of_told hs told

/-- Any replay without failure of such a store does so. -/
theorem Store.Tells.of_replay {files : FileSystem} {session : Session} {fuel : Nat}
    {reply : Reply Nat} {count : Nat} (tells : Store.Tells files directory session)
    (h : (Shell.fresh directory).replay fuel files = some reply) (hr : reply.result = .ok count) :
    reply.shell = { Shell.fresh directory with session := session } ∧ reply.files = files := by
  obtain ⟨-, stored, hs, told⟩ := tells
  obtain ⟨stored', session', hs', told', hshell, hfiles⟩ := Shell.replay_ok h hr
  obtain rfl : stored = stored' := Except.ok.inj (hs.symm.trans hs')
  obtain rfl := told.unique told'
  exact ⟨hshell, hfiles⟩

/-- A restart leads back to where the shell stood. -/
theorem step_restart_iff (told : World.Told directory world) :
    Step world .restart shown world' ↔ shown = [] ∧ world' = world := by
  obtain ⟨⟨session, showTree, showProgram, store⟩, files⟩ := world
  obtain ⟨rfl, tells⟩ := told
  constructor
  · intro h
    cases h with
    | restart h =>
      obtain ⟨hs, hf⟩ := tells.of_replay h rfl
      dsimp only at hs hf
      rw [hs, hf]
      exact ⟨rfl, rfl⟩
  · rintro ⟨rfl, rfl⟩
    obtain ⟨fuel, count, output, hr⟩ := tells.replay
    exact Step.restart hr

theorem step_tells {event : Event} (hd : directory ≠ "") (told : World.Told directory world)
    (h : Step world event shown world') : World.Told directory world' := by
  cases h with
  | @submit fuel shell shell' files files' text outcome output hs =>
    obtain ⟨rfl, tells⟩ := told
    obtain ⟨hstore, tells'⟩ := Shell.submit_tells hd tells hs
    exact ⟨hstore, tells'⟩
  | restart hr =>
    obtain ⟨-, hw⟩ := (step_restart_iff told).1 (Step.restart hr)
    rw [hw]
    exact told
  | outside hu =>
    obtain ⟨rfl, tells⟩ := told
    exact ⟨rfl, tells.of_untouched hu⟩

/-- The store tells the session after every run. -/
theorem steps_tell {events : List Event} (hd : directory ≠ "") (told : World.Told directory world)
    (h : Steps world events shown world') : World.Told directory world' := by
  induction h with
  | nothing world => exact told
  | event head _ ih => exact ih (step_tells hd told head)

theorem steps_cons_iff {event : Event} {events : List Event} :
    Steps world (event :: events) shown world' ↔
      ∃ first next rest, Step world event first next ∧ Steps next events rest world' ∧
        shown = first ++ rest := by
  constructor
  · intro h
    cases h with
    | event head tail => exact ⟨_, _, _, head, tail, rfl⟩
  · rintro ⟨first, next, rest, head, tail, rfl⟩
    exact .event head tail

/-- A run does the same with its restarts and without them. -/
theorem steps_filter_restart_iff {events : List Event} (hd : directory ≠ "")
    (told : World.Told directory world) :
    Steps world (events.filter fun event => !event.isRestart) shown world' ↔
      Steps world events shown world' := by
  induction events generalizing world shown with
  | nil => rfl
  | cons event events ih =>
    cases event with
    | restart =>
      rw [List.filter_cons_of_neg (by simp [Event.isRestart]), ih told, steps_cons_iff]
      constructor
      · intro h
        exact ⟨[], world, shown, (step_restart_iff told).2 ⟨rfl, rfl⟩, h, rfl⟩
      · rintro ⟨first, next, rest, head, tail, rfl⟩
        obtain ⟨rfl, rfl⟩ := (step_restart_iff told).1 head
        exact tail
    | submit | outside =>
      rw [List.filter_cons_of_pos (by simp [Event.isRestart]), steps_cons_iff, steps_cons_iff]
      refine exists_congr fun first => exists_congr fun next => exists_congr fun rest => ?_
      refine and_congr_right fun head => ?_
      rw [ih (step_tells hd told head)]

/-- **Restarts are transparent.** A new shell replays an orderly store, and then anything happens
that ends and fails nowhere. Whenever one looks, another new shell on the store comes to the very
same session by replaying it. And the run shows the same, and ends in the same way, however many
restarts are put into it or taken out of it. -/
theorem restart_transparent {files files₀ : FileSystem} {fuel count : Nat} {output : Output}
    {shell : Shell} (hd : directory ≠ "") (ordered : Store.Orderly files directory)
    (h : (Shell.fresh directory).replay fuel files = some ⟨.ok count, output, shell, files₀⟩)
    (events : List Event) (shown : List (Outcome × Output)) (world : World) :
    (Steps ⟨shell, files₀⟩ events shown world →
      ∃ fuel count output, ∀ fuel', fuel ≤ fuel' →
        (Shell.fresh directory).replay fuel' world.files =
          some ⟨.ok count, output, { Shell.fresh directory with session := world.shell.session },
            world.files⟩) ∧
      (Steps ⟨shell, files₀⟩ (events.filter fun event => !event.isRestart) shown world ↔
        Steps ⟨shell, files₀⟩ events shown world) := by
  have told : World.Told directory ⟨shell, files₀⟩ := by
    obtain ⟨stored, session, hs, told, hshell, hfiles⟩ := Shell.replay_ok h rfl
    dsimp only at hshell hfiles
    rw [hshell, hfiles]
    exact ⟨rfl, ordered, stored, hs, told⟩
  refine ⟨fun hsteps => ?_, steps_filter_restart_iff hd told⟩
  obtain ⟨fuel, count, output, hr⟩ := (steps_tell hd told hsteps).tells.replay
  exact ⟨fuel, count, output, fun fuel' hle => Shell.replay_of_le hle hr⟩

/-- The files after the first submission ever. -/
def firstRecord : FileSystem := (Store.append .empty "s" "var a = 1").2

theorem restart_transparent_firstRecord :
    Store.Orderly firstRecord "s" ∧ ∃ fuel count output shell,
      (Shell.fresh "s").replay fuel firstRecord = some ⟨.ok count, output, shell, firstRecord⟩ ∧
        shell.session.handle.isSome ∧ ∀ events shown world,
          (Steps ⟨shell, firstRecord⟩ events shown world →
            ∃ fuel count output, ∀ fuel', fuel ≤ fuel' →
              (Shell.fresh "s").replay fuel' world.files =
                some ⟨.ok count, output, { Shell.fresh "s" with session := world.shell.session },
                  world.files⟩) ∧
            (Steps ⟨shell, firstRecord⟩ (events.filter fun event => !event.isRestart) shown world ↔
              Steps ⟨shell, firstRecord⟩ events shown world) := by
  have empty : Store.Orderly .empty "s" := .of_no_record (Store.not_recordAt_empty "s")
  have appended : Store.append .empty "s" "var a = 1" = (.ok (), firstRecord) := by
    refine Prod.ext ?_ rfl
    have hok : (Store.append .empty "s" "var a = 1").1.isOk = true := by decide +kernel
    cases hr : (Store.append .empty "s" "var a = 1").1 with
    | error failure => simp [hr, Except.isOk, Except.toBool] at hok
    | ok _ => rfl
  obtain ⟨ordered, hs⟩ := Store.texts_append (by decide) empty rfl appended
  obtain ⟨session, hn, hh⟩ : ∃ session, Session.next 9 {} "var a = 1" = some session ∧
      session.handle.isSome = true := (Option.any_eq_true _ _).1 (by decide +kernel)
  have told : Session.Told (Shell.fresh "s").session ["var a = 1"] session := .text hn (.nothing _)
  obtain ⟨fuel, count, output, hr⟩ := Shell.replay_of_told hs told
  exact ⟨ordered, fuel, count, output, _, hr, hh, restart_transparent (by decide) ordered hr⟩

end ReplayShell
