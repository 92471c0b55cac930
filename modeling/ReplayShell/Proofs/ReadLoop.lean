import ReplayShell.Proofs.Courses
import ReplayShell.Proofs.InputText
import ReplayShell.Proofs.Durability
import ReplayShell.Proofs.Readiness

/-!
# The read loop

Lines are put together until they are ready, and what is ready is given to the shell. Nothing of the
input is lost on the way, and nothing is read twice.

* `LineReader.Appends` is what is asked of the reader of lines; `advance_appends`: that of the
  program does so.
* `Pending` is what holds of the pending text between two lines; `reads_ended` says what one line
  does to it, and `entriesFrom_pieces` what all lines do.
* `entriesFrom_emptyLines`: two empty lines make an entry of whatever is pending.
* `Console.Takes` is a shell that is given one submission after the other; `takes_of_converse` and
  `converse_of_takes` say which ones a run gives it.
* `input_kept` puts the parts together for the input in the bytes of a text.
-/
namespace ReplayShell

namespace Input

/-- The part of the input that an entry is: its text and the end of its last line. -/
def Entry.whole (entry : Entry) : List Char := entry.text ++ entry.lineEnd.text

/-- In front of none of its line ends is the text ready. A carriage return in front of a line feed
is part of the line end. -/
def Unready (text : List Char) : Prop :=
  ∀ front back, text = front ++ '\n' :: back → isReady (Text.dropReturn front) = false

/-- The pending text between two lines: it has come to the end of a line, and was not ready
before. -/
structure Pending (text : List Char) : Prop where
  ended : ∀ c ∈ text.getLast?, c = '\n'
  unready : Unready text
  plain : backspace ∉ text

theorem pending_nil : Pending [] where
  ended := fun _ h => (Option.not_mem_none _ h).elim
  unready := fun front back h => by simp at h
  plain := List.not_mem_nil

/-! ## One line -/

variable {reader : LineReader}

theorem splitEnd_append (line : List Char) :
    (splitEnd line).1 ++ (splitEnd line).2.text = line := by
  unfold splitEnd
  split
  · rename_i hn
    obtain ⟨body, rfl⟩ := List.getLast?_eq_some_iff.1 hn
    rw [List.dropLast_concat]
    dsimp only
    split
    · rename_i hr
      obtain ⟨front, rfl⟩ := List.getLast?_eq_some_iff.1 hr
      simp [LineEnd.text]
    · rfl
  · simp [LineEnd.text]

theorem splitEnd_body {body : List Char} :
    (splitEnd (body ++ ['\n'])).1 = Text.dropReturn body := by
  unfold splitEnd Text.dropReturn
  rw [List.getLast?_concat, if_pos rfl, List.dropLast_concat]
  dsimp only
  split <;> rfl

theorem splitEnd_unended {line : List Char} (h : '\n' ∉ line) :
    splitEnd line = (line, .missing) := by
  have hlast : line.getLast? ≠ some '\n' := fun hl => h (List.mem_of_getLast? hl)
  rw [splitEnd, if_neg hlast]

theorem rubOut_plain {text : List Char} (h : backspace ∉ text) : rubOut text = some text := by
  rw [rubOut, if_neg (by simpa using h)]

/-- A reader that takes lines as they are: it asks whether the pending text is ready with the line,
without the line end, and if it is not it puts the line end back and reads on. -/
def LineReader.Appends (reader : LineReader) : Prop :=
  ∀ ready pending line, backspace ∉ pending → backspace ∉ line →
    reader ready pending line =
      if ready (pending ++ (splitEnd line).1) then
        .ready ⟨pending ++ (splitEnd line).1, (splitEnd line).2⟩
      else .unready (.pending (pending ++ line))

theorem advance_appends : LineReader.Appends advance := by
  intro ready pending line hp hl
  have hbody : backspace ∉ pending ++ (splitEnd line).1 := by
    intro h
    rcases List.mem_append.1 h with h | h
    · exact hp h
    · apply hl
      rw [← splitEnd_append line]
      exact List.mem_append_left _ h
  unfold advance
  dsimp only
  rw [rubOut_plain hbody]
  dsimp only
  split
  · rfl
  · rw [List.append_assoc, splitEnd_append]

/-- Where the last line feed of a text is not in its last part, it is in the part before. -/
theorem Unready.append {pending body : List Char} (h : Unready pending) (hb : '\n' ∉ body) :
    Unready (pending ++ body) := by
  intro front back heq
  rcases List.append_eq_append_iff.1 heq with ⟨more, rfl, hmore⟩ | ⟨more, hpending, hmore⟩
  · exact absurd (by rw [hmore]; simp) hb
  · cases more with
    | nil =>
      rw [List.nil_append] at hmore
      exact absurd (by rw [← hmore]; simp) hb
    | cons c more =>
      obtain ⟨rfl, rfl⟩ := List.cons.inj hmore
      exact h front more hpending

theorem Unready.lineFeed {text : List Char} (h : Unready text)
    (hr : isReady (Text.dropReturn text) = false) : Unready (text ++ ['\n']) := by
  intro front back heq
  rcases List.append_eq_append_iff.1 heq with ⟨more, rfl, hmore⟩ | ⟨more, rfl, hmore⟩
  · cases more with
    | nil => rwa [List.append_nil]
    | cons c more => simp at hmore
  · cases more with
    | nil => rwa [List.append_nil] at hr
    | cons c more =>
      obtain ⟨rfl, -⟩ := List.cons.inj hmore
      exact h front more rfl

theorem not_mem_dropReturn {c : Char} {body : List Char} (h : c ∉ body) :
    c ∉ Text.dropReturn body := by
  rcases Text.dropReturn_cases body with ⟨front, rfl, hfront⟩ | ⟨-, hbody⟩
  · rw [hfront]
    exact fun hm => h (List.mem_append_left _ hm)
  · rwa [hbody]

/-- A carriage return at the end of a line belongs to the line, for pending text ends otherwise. -/
theorem dropReturn_append {pending : List Char} (h : ∀ c ∈ pending.getLast?, c = '\n')
    (body : List Char) :
    Text.dropReturn (pending ++ body) = pending ++ Text.dropReturn body := by
  rcases Text.dropReturn_cases body with ⟨front, rfl, hfront⟩ | ⟨hne, hbody⟩
  · rw [hfront, ← List.append_assoc, Text.dropReturn_return]
  · rw [hbody, Text.dropReturn_of_ne]
    intro hlast
    rw [List.getLast?_append] at hlast
    cases hb : body.getLast? with
    | none =>
      rw [hb, Option.none_or] at hlast
      exact absurd (h _ hlast) (by decide)
    | some c =>
      rw [hb, Option.some_or] at hlast
      exact hne (hb.trans hlast)

/-- A line that does not make the pending text ready leaves it pending. -/
theorem Pending.line {pending body : List Char} (h : Pending pending) (hb : '\n' ∉ body)
    (hp : backspace ∉ body) (hr : isReady (pending ++ Text.dropReturn body) = false) :
    Pending (pending ++ (body ++ ['\n'])) where
  ended := by
    intro c hc
    rw [← List.append_assoc, List.getLast?_concat] at hc
    exact (Option.some.inj hc).symm
  unready := by
    rw [← List.append_assoc]
    apply (h.unready.append hb).lineFeed
    rwa [dropReturn_append h.ended]
  plain := by
    simp only [List.mem_append, List.mem_singleton, not_or]
    exact ⟨h.plain, hp, by decide⟩

/-- The entry is ready, but was not ready at an earlier line end. -/
structure Entry.Due (entry : Entry) : Prop where
  ready : isReady entry.text = true
  unready : Unready entry.text

/-- A line makes the pending text an entry, or is added to it. -/
theorem reads_ended (appends : reader.Appends) {pending body : List Char} (h : Pending pending)
    (hb : '\n' ∉ body) (hp : backspace ∉ body) :
    (∃ entry, reader isReady pending (body ++ ['\n']) = .ready entry ∧ entry.Due ∧
        entry.whole = pending ++ (body ++ ['\n'])) ∨
      reader isReady pending (body ++ ['\n']) =
          .unready (.pending (pending ++ (body ++ ['\n']))) ∧
        Pending (pending ++ (body ++ ['\n'])) := by
  have hline : backspace ∉ body ++ ['\n'] := by
    simp only [List.mem_append, List.mem_singleton, not_or]
    exact ⟨hp, by decide⟩
  have hread := appends isReady pending _ h.plain hline
  rw [splitEnd_body] at hread
  by_cases hr : isReady (pending ++ Text.dropReturn body) = true
  · rw [if_pos hr] at hread
    refine .inl ⟨_, hread, ⟨hr, h.unready.append (not_mem_dropReturn hb)⟩, ?_⟩
    have hsplit := splitEnd_append (body ++ ['\n'])
    rw [splitEnd_body] at hsplit
    rw [Entry.whole, List.append_assoc, hsplit]
  · rw [if_neg hr] at hread
    exact .inr ⟨hread, h.line hb hp (Bool.eq_false_iff.2 hr)⟩

/-- A last line without an end makes the pending text an entry, or is left over with it. -/
theorem reads_unended (appends : reader.Appends) {pending line : List Char} (h : Pending pending)
    (hl : '\n' ∉ line) (hp : backspace ∉ line) :
    (∃ entry, reader isReady pending line = .ready entry ∧ entry.Due ∧
        entry.whole = pending ++ line) ∨
      reader isReady pending line = .unready (.pending (pending ++ line)) ∧
        Unready (pending ++ line) := by
  have hread := appends isReady pending _ h.plain hp
  have hunready : Unready (pending ++ line) := h.unready.append hl
  rw [splitEnd_unended hl] at hread
  by_cases hr : isReady (pending ++ line) = true
  · rw [if_pos hr] at hread
    exact .inl ⟨_, hread, ⟨hr, hunready⟩, List.append_nil _⟩
  · rw [if_neg hr] at hread
    exact .inr ⟨hread, hunready⟩

/-! ## All lines -/

/-- The input is the entries, each with its line end, and then the rest. The entries are ready, but
were not before, and the rest was not ready either. -/
structure Divides (input : List Char) (entries : List Entry) (rest : List Char) : Prop where
  whole : entries.flatMap Entry.whole ++ rest = input
  due : ∀ entry ∈ entries, entry.Due
  unready : Unready rest

theorem divides_rest {rest : List Char} (h : Unready rest) : Divides rest [] rest where
  whole := List.nil_append rest
  due := fun _ hm => absurd hm List.not_mem_nil
  unready := h

theorem Divides.cons {input rest : List Char} {entries : List Entry} {entry : Entry}
    (hd : entry.Due) (h : Divides input entries rest) :
    Divides (entry.whole ++ input) (entry :: entries) rest where
  whole := by rw [List.flatMap_cons, List.append_assoc, h.whole]
  due := List.forall_mem_cons.2 ⟨hd, h.due⟩
  unready := h.unready

theorem entriesFrom_ready {pending line : List Char} {entry : Entry}
    (h : reader isReady pending line = .ready entry) (lines : List (List Char)) :
    entriesFrom reader pending (line :: lines) =
      (entry :: (entriesFrom reader [] lines).1, (entriesFrom reader [] lines).2) := by
  rw [entriesFrom, h]

theorem entriesFrom_unready {pending line text : List Char}
    (h : reader isReady pending line = .unready (.pending text)) (lines : List (List Char)) :
    entriesFrom reader pending (line :: lines) = entriesFrom reader text lines := by
  rw [entriesFrom, h]

/-- What is pending and the lines after it are divided into entries and a rest. -/
theorem entriesFrom_pieces (appends : reader.Appends) {lines : List (List Char)}
    (hl : Pieces '\n' lines) (hp : ∀ line ∈ lines, backspace ∉ line) {pending : List Char}
    (h : Pending pending) :
    ∃ entries rest, entriesFrom reader pending lines = (entries, .pending rest) ∧
      Divides (pending ++ lines.flatten) entries rest := by
  induction hl generalizing pending with
  | nothing =>
    refine ⟨[], pending, rfl, ?_⟩
    rw [List.flatten_nil, List.append_nil]
    exact divides_rest h.unready
  | @unended line _ hline =>
    have hplain := hp line List.mem_cons_self
    rw [List.flatten_singleton]
    rcases reads_unended appends h hline hplain with ⟨entry, he, hdue, hwhole⟩ | ⟨he, hunready⟩
    · rw [entriesFrom_ready he, ← hwhole, ← List.append_nil entry.whole]
      exact ⟨_, _, rfl, (divides_rest pending_nil.unready).cons hdue⟩
    · rw [entriesFrom_unready he]
      exact ⟨_, _, rfl, divides_rest hunready⟩
  | @ended body more hbody _ ih =>
    obtain ⟨hline, hmore⟩ := List.forall_mem_cons.1 hp
    have hplain : backspace ∉ body := fun hm => hline (List.mem_append_left _ hm)
    rw [List.flatten_cons, ← List.append_assoc]
    -- After an entry nothing is pending; else the line is a part of what is pending.
    rcases reads_ended appends h hbody hplain with ⟨entry, he, hdue, hwhole⟩ | ⟨he, hpending⟩
    · obtain ⟨entries, rest, hentries, hdivides⟩ := ih hmore pending_nil
      rw [List.nil_append] at hdivides
      rw [entriesFrom_ready he, hentries, ← hwhole]
      exact ⟨_, _, rfl, hdivides.cons hdue⟩
    · obtain ⟨entries, rest, hentries, hdivides⟩ := ih hmore hpending
      rw [entriesFrom_unready he]
      exact ⟨entries, rest, hentries, hdivides⟩

/-- The input of a text without backspaces is divided into its entries and a rest. -/
theorem entries_ofText (appends : reader.Appends) {text : List Char} (h : backspace ∉ text) :
    ∃ entries rest, (ofText text).entries reader = (entries, .pending rest) ∧
      Divides text entries rest := by
  have hplain : ∀ line ∈ cutAfter '\n' text, backspace ∉ line := by
    intro line hl hm
    apply h
    rw [← flatten_cutAfter '\n' text]
    exact List.mem_flatten.2 ⟨line, hl, hm⟩
  have hdivides := entriesFrom_pieces appends (pieces_cutAfter '\n' text) hplain pending_nil
  rwa [List.nil_append, flatten_cutAfter] at hdivides

/-! ## Two empty lines -/

theorem LineEnd.text_of_ne {lineEnd : LineEnd} (h : lineEnd ≠ .missing) :
    ∃ front, lineEnd.text = front ++ ['\n'] ∧ (front = [] ∨ front = ['\r']) := by
  cases lineEnd with
  | missing => exact absurd rfl h
  | feed => exact ⟨[], rfl, .inl rfl⟩
  | returnFeed => exact ⟨['\r'], rfl, .inr rfl⟩

theorem splitEnd_text (lineEnd : LineEnd) : splitEnd lineEnd.text = ([], lineEnd) := by
  cases lineEnd <;> rfl

theorem backspace_not_mem_text (lineEnd : LineEnd) : backspace ∉ lineEnd.text := by
  cases lineEnd <;> decide

/-- After one empty line the pending text is ready, if another one comes. -/
theorem isReady_emptyLine {pending : List Char} (hended : ∀ c ∈ pending.getLast?, c = '\n')
    (hne : pending ≠ []) {lineEnd : LineEnd} (h : lineEnd ≠ .missing) :
    isReady (pending ++ lineEnd.text) = true := by
  obtain ⟨line, hline, hempty⟩ := LineEnd.text_of_ne h
  have hfeed : '\n' ∉ line := by rcases hempty with rfl | rfl <;> decide
  obtain ⟨front, rfl⟩ : ∃ front, pending = front ++ ['\n'] := by
    have hlast := hended _ (List.getLast_mem_getLast? hne)
    exact List.getLast?_eq_some_iff.1 (by rw [List.getLast?_eq_some_getLast hne, hlast])
  have htwo : endsWithTwoEmptyLines (front ++ ['\n'] ++ lineEnd.text) = true := by
    rw [endsWithTwoEmptyLines_iff_lines, hline, Text.splitLines, List.append_assoc,
      List.singleton_append, Path.cut_append, Path.cut_append, Path.cut_of_not_mem hfeed]
    exact ⟨Text.cut '\n' front, line, [], rfl, hempty, .inl rfl⟩
  unfold isReady
  by_cases hb : Text.isBlankText (front ++ ['\n'] ++ lineEnd.text) = true
  · rw [if_pos hb]
  by_cases hc : isCommand (front ++ ['\n'] ++ lineEnd.text) = true
  · rw [if_neg hb, if_pos hc]
  · rw [if_neg hb, if_neg hc, if_pos htwo]

/-- Two empty lines make an entry of what is pending: the first one, if it is ready as it is, or the
second. -/
theorem entriesFrom_emptyLines (appends : reader.Appends) {pending : List Char}
    (h : Pending pending) {first : LineEnd} (h₁ : first ≠ .missing) (second : LineEnd)
    (lines : List (List Char)) :
    ∃ entry remaining,
      entriesFrom reader pending (first.text :: second.text :: lines) =
        (entry :: (entriesFrom reader [] remaining).1, (entriesFrom reader [] remaining).2) ∧
      (entry = ⟨pending, first⟩ ∧ remaining = second.text :: lines ∨
        entry = ⟨pending ++ first.text, second⟩ ∧ remaining = lines) := by
  have hread := appends isReady pending _ h.plain (backspace_not_mem_text first)
  rw [splitEnd_text, List.append_nil] at hread
  by_cases hr : isReady pending = true
  · rw [if_pos hr] at hread
    exact ⟨_, _, entriesFrom_ready hread _, .inl ⟨rfl, rfl⟩⟩
  rw [if_neg hr] at hread
  have hne : pending ≠ [] := by
    rintro rfl
    exact hr rfl
  have hplain : backspace ∉ pending ++ first.text := fun hm =>
    (List.mem_append.1 hm).elim h.plain (backspace_not_mem_text first)
  have hsecond := appends isReady _ _ hplain (backspace_not_mem_text second)
  rw [splitEnd_text, List.append_nil, if_pos (isReady_emptyLine h.ended hne h₁)] at hsecond
  rw [entriesFrom_unready hread]
  exact ⟨_, _, entriesFrom_ready hsecond _, .inr ⟨rfl, rfl⟩⟩

/-- After input that has come to the end of a line, the rest is pending. -/
theorem Divides.pending {input rest : List Char} {entries : List Entry}
    (h : Divides input entries rest) (hended : ∀ c ∈ input.getLast?, c = '\n')
    (hplain : backspace ∉ input) : Pending rest where
  ended := by
    intro c hc
    apply hended
    rw [← h.whole]
    rw [List.getLast?_append, hc]
    rfl
  unready := h.unready
  plain := by
    intro hm
    apply hplain
    rw [← h.whole]
    exact List.mem_append_right _ hm

theorem cutAfter_lineEnd {lineEnd : LineEnd} (h : lineEnd ≠ .missing) :
    cutAfter '\n' lineEnd.text = [lineEnd.text] := by
  cases lineEnd with
  | missing => exact absurd rfl h
  | feed => rfl
  | returnFeed => rfl

theorem ended_lineEnd (lineEnd : LineEnd) : ∀ c ∈ lineEnd.text.getLast?, c = '\n' := by
  intro c hc
  cases lineEnd <;> cases hc
  · rfl
  · rfl

/-- Whatever input has left pending, two empty lines after it make an entry of it. -/
theorem entries_emptyLines (appends : reader.Appends) {front : List Char}
    {first second : LineEnd} (hplain : backspace ∉ front)
    (hended : ∀ c ∈ front.getLast?, c = '\n') (h₁ : first ≠ .missing) (h₂ : second ≠ .missing)
    (back : List Char) :
    ∃ earlier pending entry later, (ofText front).entries reader = (earlier, .pending pending) ∧
      ((ofText (front ++ (first.text ++ (second.text ++ back)))).entries reader).1 =
        earlier ++ entry :: later ∧
      (entry = ⟨pending, first⟩ ∨ entry = ⟨pending ++ first.text, second⟩) := by
  obtain ⟨earlier, pending, hfront, hdivides⟩ := entries_ofText appends hplain
  have hpending := hdivides.pending hended hplain
  obtain ⟨entry, remaining, hlines, hentry⟩ :=
    entriesFrom_emptyLines appends hpending h₁ second (cutAfter '\n' back)
  refine ⟨earlier, pending, entry, (entriesFrom reader [] remaining).1, hfront, ?_, ?_⟩
  · have hcut : (ofText (front ++ (first.text ++ (second.text ++ back)))).lines =
        (ofText front).lines ++ first.text :: second.text :: cutAfter '\n' back := by
      simp only [ofText]
      rw [cutAfter_append hended, cutAfter_append (ended_lineEnd first),
        cutAfter_append (ended_lineEnd second), cutAfter_lineEnd h₁, cutAfter_lineEnd h₂]
      rfl
    rw [entries] at hfront
    rw [entries, hcut, entriesFrom_append (congrArg Prod.snd hfront), hfront, hlines]
  · exact hentry.imp And.left And.left

end Input

namespace Console

open Terminal (Output)

/-! ## What the shell is given -/

/-- The texts of the entries that are not blank. -/
def submissions (entries : List Input.Entry) : List String :=
  (entries.filter fun entry => !Text.isBlankText entry.text).map (String.ofList ·.text)

theorem submissions_blank {entry : Input.Entry} (h : Text.isBlankText entry.text = true)
    (entries : List Input.Entry) : submissions (entry :: entries) = submissions entries := by
  simp [submissions, h]

theorem submissions_text {entry : Input.Entry} (h : Text.isBlankText entry.text = false)
    (entries : List Input.Entry) :
    submissions (entry :: entries) = String.ofList entry.text :: submissions entries := by
  simp [submissions, h]

/-- The shell takes one submission after the other, all that there are or up to one that exits, and
none fails. -/
inductive Takes (fuel : Nat) : Shell → FileSystem → List String → Output → Bool → FileSystem → Prop
  | all (shell : Shell) (files : FileSystem) : Takes fuel shell files [] [] false files
  | exit {shell next : Shell} {files files' : FileSystem} {line : String} {written : Output}
      (h : shell.submit fuel files line = some ⟨.ok .exit, written, next, files'⟩) :
      Takes fuel shell files [line] written true files'
  | next {shell next : Shell} {files files' files'' : FileSystem} {line : String}
      {lines : List String} {outcome : Outcome} {written more : Output} {exited : Bool}
      (head : shell.submit fuel files line = some ⟨.ok outcome, written, next, files'⟩)
      (hne : outcome ≠ .exit) (tail : Takes fuel next files' lines more exited files'') :
      Takes fuel shell files (line :: lines) (written ++ more) exited files''

/-- The entries that a run has come to, and those that it has not read because one of the others has
asked for the end of the run. -/
structure Stops (entries returned unread : List Input.Entry) (exited : Bool) : Prop where
  order : entries = returned ++ unread
  read : exited = false → unread = []
  stopped : exited = true → ∃ entry ∈ returned.getLast?, Text.isBlankText entry.text = false

variable {fuel : Nat} {shell : Shell} {files files' : FileSystem}

theorem enter_blank {text : List Char} (h : Text.isBlankText text = true) :
    enter fuel shell files text = some ⟨[], files, .ok shell⟩ := by
  rw [enter, if_pos h]

theorem enter_goesOn {text : List Char} {outcome : Outcome} {written : Output} {next : Shell}
    (h : Text.isBlankText text = false) (hne : outcome ≠ .exit)
    (hs : shell.submit fuel files (String.ofList text) =
      some ⟨.ok outcome, written, next, files'⟩) :
    enter fuel shell files text = some ⟨written, files', .ok next⟩ := by
  rw [enter, if_neg (Bool.eq_false_iff.1 h), hs]
  cases outcome with
  | exit => exact absurd rfl hne
  | «continue» | clearScreen => rfl

theorem enter_exits {text : List Char} {written : Output} {next : Shell}
    (h : Text.isBlankText text = false)
    (hs : shell.submit fuel files (String.ofList text) =
      some ⟨.ok .exit, written, next, files'⟩) :
    enter fuel shell files text = some ⟨written, files', .error .finished⟩ := by
  rw [enter, if_neg (Bool.eq_false_iff.1 h), hs]
  rfl

theorem Stops.cons {entries returned unread : List Input.Entry} {exited : Bool}
    (entry : Input.Entry) (h : Stops entries returned unread exited) :
    Stops (entry :: entries) (entry :: returned) unread exited where
  order := by rw [h.order, List.cons_append]
  read := h.read
  stopped := by
    intro he
    obtain ⟨last, hlast, hb⟩ := h.stopped he
    refine ⟨last, ?_, hb⟩
    obtain ⟨front, rfl⟩ := List.getLast?_eq_some_iff.1 hlast
    rw [← List.cons_append, List.getLast?_concat]
    rfl

/-- A run that finishes has given the shell the entries that are not blank, up to an exit. -/
theorem takes_of_converse {entries : List Input.Entry} {output output' : Output}
    (h : converse fuel .finished shell files output entries = some ⟨.finished, output', files'⟩) :
    ∃ returned unread written exited, Stops entries returned unread exited ∧
      Takes fuel shell files (submissions returned) written exited files' ∧
      output' = output ++ written := by
  induction entries generalizing shell files output with
  | nil =>
    cases h
    refine ⟨[], [], [], false, ⟨rfl, fun _ => rfl, fun he => ?_⟩, .all _ _,
      (List.append_nil _).symm⟩
    cases he
  | cons entry entries ih =>
    rw [converse] at h
    by_cases hb : Text.isBlankText entry.text = true
    · rw [enter_blank hb] at h
      obtain ⟨returned, unread, written, exited, hstops, takes, hout⟩ := ih h
      refine ⟨entry :: returned, unread, written, exited, hstops.cons entry, ?_,
        by simpa using hout⟩
      rwa [submissions_blank hb]
    have htext : Text.isBlankText entry.text = false := Bool.eq_false_iff.2 hb
    cases he : enter fuel shell files entry.text with
    | none =>
      rw [he] at h
      cases h
    | some step =>
      obtain ⟨hblank, -⟩ | ⟨⟨result, written, next, files₁⟩, hs, rfl⟩ := enter_some he
      · exact absurd hblank hb
      by_cases hexit : result = .ok .exit
      · subst hexit
        rw [enter_exits htext hs] at h
        cases h
        refine ⟨[entry], entries, written, true,
          ⟨rfl, fun hread => ?_, fun _ => ⟨entry, rfl, htext⟩⟩, ?_, rfl⟩
        · cases hread
        · rw [submissions_text htext]
          exact .exit hs
      cases result with
      | error failure =>
        rw [he] at h
        cases h
      | ok outcome =>
        have hne : outcome ≠ .exit := fun hexits => hexit (congrArg Except.ok hexits)
        rw [enter_goesOn htext hne hs] at h
        obtain ⟨returned, unread, more, exited, hstops, takes, hout⟩ := ih h
        refine ⟨entry :: returned, unread, written ++ more, exited, hstops.cons entry, ?_, ?_⟩
        · rw [submissions_text htext]
          exact .next hs hne takes
        · rw [hout, List.append_assoc]

/-- If the shell takes the entries that are not blank, up to an exit, the run finishes. -/
theorem converse_of_takes {entries returned unread : List Input.Entry} {output written : Output}
    {exited : Bool} (hstops : Stops entries returned unread exited)
    (h : Takes fuel shell files (submissions returned) written exited files') :
    converse fuel .finished shell files output entries =
      some ⟨.finished, output ++ written, files'⟩ := by
  obtain ⟨rfl, hread, -⟩ := hstops
  induction returned generalizing shell files output written with
  | nil =>
    cases h
    rw [hread rfl, List.append_nil, List.append_nil, converse]
  | cons entry returned ih =>
    rw [List.cons_append, converse]
    by_cases hb : Text.isBlankText entry.text = true
    · rw [submissions_blank hb] at h
      rw [enter_blank hb]
      dsimp only
      rw [ih h, List.append_nil]
    have htext : Text.isBlankText entry.text = false := Bool.eq_false_iff.2 hb
    rw [submissions_text htext] at h
    generalize hlines : submissions returned = lines at h
    cases h with
    | exit hs => rw [enter_exits htext hs]
    | next hs hne tail =>
      subst hlines
      rw [enter_goesOn htext hne hs, ← List.append_assoc, ← ih tail]

/-! ## The whole input -/

variable {libraries : Libraries} {options : Options} {settings : Settings} {made : FileSystem}

/-- **Nothing of the input is lost or read twice.** The input is a text without backspaces, its
lines are read as they are, and the run has opened its shell. Then the input is entries, each with
its line end, and a rest; every entry is ready, but was not ready at an earlier line end. The run
finishes just if no submission fails; then it has come to all entries, or to those up to one that
exits, and the shell has been given the ones that are not blank, and no other. After any part of the
input that is still pending, two empty lines make an entry of that part. -/
theorem input_kept {text : String} {arguments : List String} {before : Output}
    (appends : libraries.reader.Appends) (hplain : Input.backspace ∉ text.toList)
    (hargs : libraries.arguments arguments = .start options)
    (hsettings : Console.settings libraries files options = .ok settings)
    (hs : start fuel libraries files options settings = some ⟨before, made, .ok shell⟩) :
    ∃ entries rest,
      (Input.ofBytes text.toUTF8).entries libraries.reader = (entries, .pending rest) ∧
      Input.Divides text.toList entries rest ∧
      (∀ output files', runWith fuel libraries files arguments (Input.ofBytes text.toUTF8) =
          some ⟨.finished, output, files'⟩ ↔
        ∃ returned unread written exited, Stops entries returned unread exited ∧
          returned.flatMap Input.Entry.whole ++ (unread.flatMap Input.Entry.whole ++ rest) =
            text.toList ∧
          Takes fuel shell made (submissions returned) written exited files' ∧
          output = before ++ written) ∧
      ∀ front back (first second : Input.LineEnd), first ≠ .missing → second ≠ .missing →
        (∀ c ∈ front.getLast?, c = '\n') →
        text.toList = front ++ (first.text ++ (second.text ++ back)) →
        ∃ earlier pending entry later,
          (Input.ofText front).entries libraries.reader = (earlier, .pending pending) ∧
          entries = earlier ++ entry :: later ∧
          (entry = ⟨pending, first⟩ ∨ entry = ⟨pending ++ first.text, second⟩) := by
  obtain ⟨entries, rest, hentries, hdivides⟩ := Input.entries_ofText appends hplain
  rw [Input.ofBytes_toUTF8]
  refine ⟨entries, rest, hentries, hdivides, fun output files' => ?_, ?_⟩
  · have hending : endingOf libraries (Input.ofText text.toList) = .finished := by
      rw [endingOf, hentries]
      rfl
    rw [run_of_start hargs hsettings hs, hending, hentries]
    constructor
    · intro hrun
      obtain ⟨returned, unread, written, exited, hstops, takes, hout⟩ := takes_of_converse hrun
      refine ⟨returned, unread, written, exited, hstops, ?_, takes, hout⟩
      rw [← List.append_assoc, ← List.flatMap_append, ← hstops.order]
      exact hdivides.whole
    · rintro ⟨returned, unread, written, exited, hstops, -, takes, rfl⟩
      exact converse_of_takes hstops takes
  · intro front back first second h₁ h₂ hended htext
    have hfront : Input.backspace ∉ front := by
      intro hm
      apply hplain
      rw [htext]
      exact List.mem_append_left _ hm
    obtain ⟨earlier, pending, entry, later, hearlier, hlater, hentry⟩ :=
      Input.entries_emptyLines appends hfront hended h₁ h₂ back
    refine ⟨earlier, pending, entry, later, hearlier, ?_, hentry⟩
    rw [← hlater, ← htext, hentries]

/-- A function that is never closed, and a line after an exit. -/
def openFunction : String := "function f( \x7b\r\n\r\n\n\n:exit\nx"

theorem input_kept_openFunction :
    ∃ entries rest,
      (Input.ofBytes openFunction.toUTF8).entries Input.advance = (entries, .pending rest) ∧
      Input.Divides openFunction.toList entries rest ∧
      ∃ before made shell, start 9 (.standard plainBases) .empty { store := some "s" } {} =
          some ⟨before, made, .ok shell⟩ ∧
        ∃ returned unread written exited files, Stops entries returned unread exited ∧
          returned.flatMap Input.Entry.whole ++ (unread.flatMap Input.Entry.whole ++ rest) =
            openFunction.toList ∧
          Takes 9 shell made (submissions returned) written exited files ∧
          ∃ earlier pending entry later,
            (Input.ofText "function f( \x7b\r\n".toList).entries Input.advance =
                (earlier, .pending pending) ∧
              entries = earlier ++ entry :: later ∧
              (entry = ⟨pending, .returnFeed⟩ ∨ entry = ⟨pending ++ ['\r', '\n'], .feed⟩) := by
  obtain ⟨⟨ending, output, files⟩, hrun, hfinished⟩ : ∃ transcript,
      run 9 plainBases .empty ["--store-dir", "s"] (Input.ofBytes openFunction.toUTF8) =
          some transcript ∧
        decide (transcript.ending = .finished) = true :=
    (Option.any_eq_true _ _).1 (by decide +kernel)
  obtain rfl : ending = .finished := of_decide_eq_true hfinished
  have hargs : (Libraries.standard plainBases).arguments ["--store-dir", "s"] =
      .start { store := some "s" } := rfl
  obtain ⟨before, made, shell, hs⟩ := start_of_finished hargs rfl hrun
  have hplain : Input.backspace ∉ openFunction.toList := by decide +kernel
  obtain ⟨entries, rest, hentries, hdivides, hiff, hempty⟩ :=
    input_kept Input.advance_appends hplain hargs rfl hs
  obtain ⟨returned, unread, written, exited, hstops, hwhole, takes, -⟩ := (hiff _ _).1 hrun
  have hended : ∀ c ∈ ("function f( \x7b\r\n".toList).getLast?, c = '\n' := by
    intro c hc
    have hlast : ("function f( \x7b\r\n".toList).getLast? = some '\n' := by decide +kernel
    rw [hlast] at hc
    exact (Option.some.inj hc).symm
  exact ⟨entries, rest, hentries, hdivides, before, made, shell, hs, returned, unread, written,
    exited, files, hstops, hwhole, takes,
    hempty _ "\n:exit\nx".toList .returnFeed .feed (by decide) (by decide) hended rfl⟩

example : (Input.ofBytes openFunction.toUTF8).entries Input.advance =
    ([⟨"function f( \x7b\r\n\r\n".toList, .feed⟩, ⟨[], .feed⟩, ⟨":exit".toList, .feed⟩,
      ⟨['x'], .missing⟩], .pending []) := by decide +kernel

end Console

end ReplayShell
