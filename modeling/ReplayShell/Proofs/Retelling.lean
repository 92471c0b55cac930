import ReplayShell.Proofs.Fuel
import ReplayShell.Proofs.StoreOrder
import ReplayShell.Proofs.Tasks

/-!
# Retelling a session

What a submission does to the session depends on the session and the text alone, so a session can be
told by a list of texts.

* `Session.next` is the session after a text, `Session.Told` that after a list of them.
* `Shell.evaluate_ok`: an evaluation takes the session to the next one, and appends the text to the
  store if it may and the text was accepted. `replay_ok`, `replay_of_told`: a replay tells the
  session by the texts of the store.
* `Tells` says that the store tells the session; `submit_tells`: every submission without failure
  keeps it so.
-/
namespace ReplayShell

/-! ## Sessions told by texts -/

namespace Session

/-- The session after a text; a text that is wrong leaves it as it was. -/
def next (fuel : Nat) (session : Session) (text : String) : Option Session :=
  let compilation := Compilation.chain session.handle (Syntax.parse text)
  (compilation.evaluate fuel session.globals).map fun evaluation =>
    if evaluation.diagnostics.isEmpty then session.commit compilation evaluation.globals
    else session

/-- The texts, one after another, lead from the first session to the second. -/
inductive Told : Session → List String → Session → Prop
  | nothing (session : Session) : Told session [] session
  | text {fuel : Nat} {session session' last : Session} {text : String} {rest : List String}
      (head : session.next fuel text = some session') (tail : Told session' rest last) :
      Told session (text :: rest) last

theorem next_of_le {fuel fuel' : Nat} {session session' : Session} {text : String}
    (hle : fuel ≤ fuel') (h : session.next fuel text = some session') :
    session.next fuel' text = some session' := by
  simp only [next, Option.map_eq_some_iff] at h ⊢
  obtain ⟨evaluation, he, rfl⟩ := h
  exact ⟨evaluation, Compilation.evaluate_of_le hle he, rfl⟩

namespace Told

variable {session middle last : Session} {texts : List String}

/-- The texts determine the session. -/
theorem unique {last' : Session} (h : Told session texts last) (h' : Told session texts last') :
    last = last' := by
  induction h with
  | nothing session =>
    cases h'
    rfl
  | @text fuel session session' last text rest head tail ih =>
    cases h' with
    | @text fuel' _ session'' _ _ _ head' tail' =>
      have hsame : session' = session'' := by
        rcases Nat.le_total fuel fuel' with hle | hle
        · exact Option.some.inj ((next_of_le hle head).symm.trans head')
        · exact Option.some.inj (head.symm.trans (next_of_le hle head'))
      exact ih (hsame ▸ tail')

theorem concat {fuel : Nat} {text : String} (h : Told session texts middle)
    (hn : middle.next fuel text = some last) : Told session (texts ++ [text]) last := by
  induction h with
  | nothing session => exact .text hn (.nothing _)
  | text head _ ih => exact .text head (ih hn)

end Told

end Session

/-! ## Evaluations and replays -/

namespace Shell

/-- A shell that has just been started on a store. -/
def fresh (store : String) : Shell := { store := store }

variable {shell : Shell} {files : FileSystem} {fuel : Nat}

/-- What an evaluation does to the session and to the store. -/
theorem evaluate_ok {keep : Bool} {text : String} {reply : Reply Unit}
    (h : shell.evaluate fuel keep files text = some reply) :
    ∃ session, shell.session.next fuel text = some session ∧
      reply.shell = { shell with session := session } ∧
      (reply.files = files ∧ (session = shell.session ∨ keep = false) ∨
        keep = true ∧ Store.append files shell.store text = (reply.result, reply.files)) := by
  obtain ⟨evaluation, he, ⟨hd, hs, hkeep⟩ | ⟨hd, -, -, hs, hf⟩⟩ := evaluate_cases h
  · refine ⟨_, ?_, hs, ?_⟩
    · rw [Session.next, he, Option.map_some, if_pos (List.isEmpty_iff.2 hd)]
    · rcases hkeep with ⟨hk, ha⟩ | ⟨hk, -, hf⟩
      · exact .inr ⟨hk, ha⟩
      · exact .inl ⟨hf, .inr hk⟩
  · refine ⟨shell.session, ?_, hs, .inl ⟨hf, .inl rfl⟩⟩
    rw [Session.next, he, Option.map_some, if_neg (mt List.isEmpty_iff.1 hd)]

/-- An evaluation that stores nothing does what the text does to the session. -/
theorem evaluate_of_next {text : String} {session : Session} (files : FileSystem)
    (h : shell.session.next fuel text = some session) :
    ∃ reply, shell.evaluate fuel false files text = some reply ∧
      reply.shell = { shell with session := session } ∧ reply.files = files := by
  unfold Session.next at h
  obtain ⟨evaluation, he, hs⟩ := Option.map_eq_some_iff.1 h
  unfold evaluate
  simp only [he]
  by_cases hd : evaluation.diagnostics.isEmpty = true
  · rw [if_pos hd] at hs ⊢
    exact ⟨_, rfl, by rw [← hs], rfl⟩
  · rw [if_neg hd] at hs ⊢
    exact ⟨_, rfl, by rw [← hs], rfl⟩

theorem replayAll_ok {output : Terminal.Output} {texts : List String}
    {result : Shell × FileSystem × Terminal.Output}
    (h : shell.replayAll fuel files output texts = some result) :
    ∃ session, Session.Told shell.session texts session ∧
      result.1 = { shell with session := session } ∧ result.2.1 = files := by
  induction texts generalizing shell files output with
  | nil =>
    cases h
    exact ⟨_, .nothing _, rfl, rfl⟩
  | cons text rest ih =>
    unfold replayAll at h
    split at h
    · cases h
    rename_i reply he
    obtain ⟨session, hn, hs, ⟨hf, -⟩ | ⟨hk, -⟩⟩ := evaluate_ok he
    · obtain ⟨last, hr, hl, hf'⟩ := ih h
      rw [hs] at hr hl
      exact ⟨last, .text hn hr, hl, hf'.trans hf⟩
    · cases hk

theorem replayAll_of_told {texts : List String} {session : Session} (files : FileSystem)
    (h : Session.Told shell.session texts session) (output : Terminal.Output) :
    ∃ fuel output',
      shell.replayAll fuel files output texts =
        some ({ shell with session := session }, files, output') := by
  generalize hfirst : shell.session = first at h
  induction h generalizing shell output with
  | nothing session =>
    subst hfirst
    exact ⟨0, output, rfl⟩
  | @text fuel session session' last text rest head tail ih =>
    subst hfirst
    obtain ⟨reply, he, hs, hf⟩ := evaluate_of_next files head
    have hsession : reply.shell.session = session' := by rw [hs]
    obtain ⟨fuel', output', hr⟩ := ih (output ++ reply.output) hsession
    refine ⟨max fuel fuel', output', ?_⟩
    rw [replayAll, evaluate_of_le (Nat.le_max_left fuel fuel') he]
    dsimp only
    rw [hf, replayAll_of_le (Nat.le_max_right fuel fuel') hr, hs]

/-- A replay without failure leaves the files alone and tells the session anew. -/
theorem replay_ok {reply : Reply Nat} {count : Nat} (h : shell.replay fuel files = some reply)
    (hr : reply.result = .ok count) :
    ∃ stored session, Store.texts files shell.store = .ok stored ∧
      Session.Told shell.session stored session ∧
      reply.shell = { shell with session := session } ∧ reply.files = files := by
  unfold replay at h
  split at h
  · cases h
    cases hr
  · rename_i ht
    cases h
    exact ⟨[], _, ht, .nothing _, rfl, rfl⟩
  · rename_i stored hne ht
    obtain ⟨result, ha, rfl⟩ := Option.map_eq_some_iff.1 h
    obtain ⟨session, hs, hshell, hf⟩ := replayAll_ok ha
    exact ⟨stored, session, ht, hs, hshell, hf⟩

/-- A session that the store tells is the one that a replay ends with. -/
theorem replay_of_told {stored : List String} {session : Session}
    (ht : Store.texts files shell.store = .ok stored)
    (h : Session.Told shell.session stored session) :
    ∃ fuel count output,
      shell.replay fuel files = some ⟨.ok count, output, { shell with session := session }, files⟩ := by
  cases stored with
  | nil =>
    cases h
    exact ⟨0, 0, [], by rw [replay, ht]⟩
  | cons text rest =>
    obtain ⟨fuel, output, ha⟩ := replayAll_of_told files h
      (Terminal.Output.paintedLine .faint
        ("Loaded " ++ toString (text :: rest).length ++ " submission(s)"))
    refine ⟨fuel, (text :: rest).length, output, ?_⟩
    simp only [replay, ht, ha, Option.map_some]

end Shell

/-! ## Stores that tell a session -/

/-- The store is in order, and its texts tell the session. -/
def Store.Tells (files : FileSystem) (directory : String) (session : Session) : Prop :=
  Store.Orderly files directory ∧
    ∃ stored, Store.texts files directory = .ok stored ∧ Session.Told {} stored session

namespace Shell

variable {shell shell' : Shell} {files files' : FileSystem} {fuel : Nat}

/-- An accepted text goes into the session and into the store, any other into neither. -/
theorem evaluate_tells {text : String} {output : Terminal.Output} (hd : shell.store ≠ "")
    (tells : Store.Tells files shell.store shell.session)
    (h : shell.evaluate fuel true files text = some ⟨.ok (), output, shell', files'⟩) :
    shell'.store = shell.store ∧ Store.Tells files' shell.store shell'.session := by
  obtain ⟨session, hn, rfl, ⟨rfl, rfl | hk⟩ | ⟨-, ha⟩⟩ := evaluate_ok h
  · exact ⟨rfl, tells⟩
  · cases hk
  · obtain ⟨ordered, stored, hs, told⟩ := tells
    obtain ⟨ordered', hs'⟩ := Store.texts_append hd ordered hs ha
    exact ⟨rfl, ordered', _, hs', told.concat hn⟩

/-- After every submission without failure the store tells the session, as it did before. -/
theorem submit_tells {text : String} {outcome : Outcome} {output : Terminal.Output}
    (hd : shell.store ≠ "") (tells : Store.Tells files shell.store shell.session)
    (h : shell.submit fuel files text = some ⟨.ok outcome, output, shell', files'⟩) :
    shell'.store = shell.store ∧ Store.Tells files' shell.store shell'.session := by
  have done := submit_does h
  generalize Task.of files text = task at done
  cases task with
  | program text =>
    obtain ⟨⟨result, _, _, _⟩, he, hr⟩ := done
    cases result with
    | error failure => cases hr
    | ok _ =>
      cases hr
      exact evaluate_tells hd tells he
  | reset =>
    obtain ⟨result, hc, hr, -, rfl⟩ := done
    cases result with
    | error failure => cases hr
    | ok _ =>
      obtain ⟨ordered, hs⟩ := Store.texts_clear hd tells.1 hc
      exact ⟨rfl, ordered, [], hs, .nothing _⟩
  | switch =>
    obtain ⟨-, rfl, _, _, rfl⟩ := done
    exact ⟨rfl, tells⟩
  | exit =>
    cases done
    exact ⟨rfl, tells⟩
  | look =>
    obtain ⟨_, _, -, hr⟩ := done
    cases hr
    exact ⟨rfl, tells⟩

end Shell

end ReplayShell
