import ReplayShell.Shell.Command

/-!
# Words of a command line

A word is written in quotes, with each quote in it doubled, or bare if nothing in it would end it.
Words written so, with white space between them, are the words that a command line is split into.

* `WritesWord` and `WritesLine` say how a word and a list of words may be written;
  `writesLine_quoted`: every list of words can be.
* There is a lemma for each state of the splitting: between words (`words_blank`), in a bare word
  (`wordsFrom_bare`), inside quotes (`wordsFrom_quoted`), and where a word ends (`wordsFrom_ended`).
* `words_written`: the words come out as they were written, and a command gets those after its name.
-/
namespace ReplayShell

open Text (isBlank isBlankText)

/-- The text with each quote in it doubled. -/
def doubleQuotes : List Char → List Char
  | [] => []
  | c :: rest => if c = '"' then '"' :: '"' :: doubleQuotes rest else c :: doubleQuotes rest

/-- How a word may be written: in quotes, or bare if it is not empty and has neither white space nor
quotes. -/
inductive WritesWord : List Char → List Char → Prop
  | quoted (word : List Char) : WritesWord word ('"' :: (doubleQuotes word ++ ['"']))
  | bare {word : List Char} (hne : word ≠ []) (h : ∀ c ∈ word, isBlank c = false ∧ c ≠ '"') :
      WritesWord word word

/-- How a list of words may be written: with white space between any two, and perhaps around
them. -/
inductive WritesLine : List (List Char) → List Char → Prop
  | nothing {blank : List Char} (h : isBlankText blank = true) : WritesLine [] blank
  | last {word before written after : List Char} (hb : isBlankText before = true)
      (hw : WritesWord word written) (ha : isBlankText after = true) :
      WritesLine [word] (before ++ (written ++ after))
  | word {word next before written gap rest : List Char} {more : List (List Char)}
      (hb : isBlankText before = true) (hw : WritesWord word written)
      (hg : isBlankText gap = true) (hne : gap ≠ []) (hr : WritesLine (next :: more) rest) :
      WritesLine (word :: next :: more) (before ++ (written ++ (gap ++ rest)))

/-- The text ends here, or white space comes next. -/
def EndsWord (rest : List Char) : Prop := ∀ c ∈ rest.head?, isBlank c = true

theorem isBlankText_cons {c : Char} {rest : List Char} :
    isBlankText (c :: rest) = true ↔ isBlank c = true ∧ isBlankText rest = true := by
  simp [isBlankText]

theorem endsWord_append {gap : List Char} (hg : isBlankText gap = true) (rest : List Char)
    (hne : gap ≠ []) : EndsWord (gap ++ rest) := by
  cases gap with
  | nil => exact absurd rfl hne
  | cons c gap =>
    intro d hd
    cases hd
    exact (isBlankText_cons.1 hg).1

/-! ## One lemma for each state -/

theorem isBlank_quote : isBlank '"' = false := by decide

/-- Between words white space is passed over. -/
theorem words_blank {before : List Char} (hb : isBlankText before = true) (rest : List Char) :
    words (before ++ rest) = words rest := by
  induction before with
  | nil => rfl
  | cons c before ih =>
    obtain ⟨hc, hbefore⟩ := isBlankText_cons.1 hb
    have hq : c ≠ '"' := by
      rintro rfl
      simp [isBlank_quote] at hc
    have hstep : words (c :: (before ++ rest)) = words (before ++ rest) := by
      simp [words, wordsFrom, hc]
    rw [List.cons_append, hstep, ih hbefore]

/-- In a bare word every character is one of the word. -/
theorem wordsFrom_bare {word : List Char} (h : ∀ c ∈ word, isBlank c = false ∧ c ≠ '"')
    (quoted : Bool) (current rest : List Char) :
    wordsFrom false quoted current (word ++ rest) =
      wordsFrom false quoted (word.reverse ++ current) rest := by
  induction word generalizing current with
  | nil => rfl
  | cons c word ih =>
    obtain ⟨⟨hc, hq⟩, hword⟩ := List.forall_mem_cons.1 h
    have hstep : wordsFrom false quoted current (c :: (word ++ rest)) =
        wordsFrom false quoted (c :: current) (word ++ rest) := by
      simp [wordsFrom, hc]
    rw [List.cons_append, hstep, ih hword]
    simp

/-- Inside quotes a doubled quote is one of the word, and a single one ends the quotes. -/
theorem wordsFrom_quoted (word : List Char) {rest : List Char} (hr : rest.head? ≠ some '"')
    (current : List Char) :
    wordsFrom true true current (doubleQuotes word ++ '"' :: rest) =
      wordsFrom false true (word.reverse ++ current) rest := by
  induction word generalizing current with
  | nil =>
    cases rest with
    | nil => simp [doubleQuotes, wordsFrom]
    | cons d rest =>
      have hd : d ≠ '"' := fun hd => hr (congrArg some hd)
      simp [doubleQuotes, wordsFrom, hd]
  | cons c word ih =>
    by_cases hc : c = '"'
    · have hstep : wordsFrom true true current ('"' :: '"' :: (doubleQuotes word ++ '"' :: rest)) =
          wordsFrom true true ('"' :: current) (doubleQuotes word ++ '"' :: rest) := by
        simp [wordsFrom]
      rw [doubleQuotes, if_pos hc, List.cons_append, List.cons_append, hstep, ih, hc]
      simp
    · have hstep : wordsFrom true true current (c :: (doubleQuotes word ++ '"' :: rest)) =
          wordsFrom true true (c :: current) (doubleQuotes word ++ '"' :: rest) := by
        simp [wordsFrom]
      rw [doubleQuotes, if_neg hc, List.cons_append, hstep, ih]
      simp

/-- A word that has begun ends with the text or in front of white space. -/
theorem wordsFrom_ended {quoted : Bool} {current rest : List Char} (hr : EndsWord rest)
    (hw : quoted = true ∨ current ≠ []) :
    wordsFrom false quoted current rest = current.reverse :: words rest := by
  have hbegun : (quoted || !current.isEmpty) = true := by
    rcases hw with rfl | hne
    · rfl
    · simp [hne]
  cases rest with
  | nil => simp [words, wordsFrom, hbegun]
  | cons c rest =>
    have hc : isBlank c = true := hr c rfl
    have hq : c ≠ '"' := by
      rintro rfl
      simp [isBlank_quote] at hc
    have hone : isBlankText [c] = true := isBlankText_cons.2 ⟨hc, rfl⟩
    have hnext : words (c :: rest) = words rest := words_blank hone rest
    rw [hnext]
    simp only [wordsFrom, hc, hbegun, Bool.not_false, Bool.and_self, if_true, words]

/-! ## Words and lines -/

theorem words_of_blank {blank : List Char} (hb : isBlankText blank = true) : words blank = [] := by
  have h := words_blank hb []
  rw [List.append_nil] at h
  exact h

/-- A written word is read back, and what comes after it is split from the start. -/
theorem words_word {word written rest : List Char} (hw : WritesWord word written)
    (hr : EndsWord rest) : words (written ++ rest) = word :: words rest := by
  cases hw with
  | quoted =>
    have hopen : words ('"' :: (doubleQuotes word ++ '"' :: rest)) =
        wordsFrom true true [] (doubleQuotes word ++ '"' :: rest) := by
      simp [words, wordsFrom]
    have hnext : rest.head? ≠ some '"' := by
      intro hq
      have hblank := hr '"' hq
      simp [isBlank_quote] at hblank
    rw [List.cons_append, List.append_assoc, List.singleton_append, hopen,
      wordsFrom_quoted word hnext, wordsFrom_ended hr (.inl rfl)]
    simp
  | bare hne h =>
    rw [words, wordsFrom_bare h, wordsFrom_ended hr (.inr (by simpa using hne))]
    simp

theorem words_line {ws : List (List Char)} {line : List Char} (h : WritesLine ws line) :
    words line = ws := by
  induction h with
  | nothing hb => exact words_of_blank hb
  | @last word before written after hb hw ha =>
    have hends : EndsWord after := by
      intro c hc
      exact List.all_eq_true.1 ha c (List.mem_of_mem_head? hc)
    rw [words_blank hb, words_word hw hends, words_of_blank ha]
  | @word word next before written gap rest more hb hw hg hne _ ih =>
    have hends : EndsWord (gap ++ rest) := endsWord_append hg rest hne
    rw [words_blank hb, words_word hw hends, words_blank hg, ih]

/-- Every list of words can be written: each in quotes, with a space between any two. -/
theorem writesLine_quoted (ws : List (List Char)) : ∃ line, WritesLine ws line := by
  induction ws with
  | nil => exact ⟨[], .nothing rfl⟩
  | cons word more ih =>
    obtain ⟨rest, hr⟩ := ih
    cases more with
    | nil =>
      have hnone : isBlankText [] = true := rfl
      exact ⟨_, .last hnone (.quoted word) hnone⟩
    | cons next more =>
      have hnone : isBlankText [] = true := rfl
      have hspace : isBlankText [' '] = true := by decide
      exact ⟨_, .word hnone (.quoted word) hspace (List.cons_ne_nil _ _) hr⟩

/-- The white space in front of a command line and its colon are no part of its words. -/
theorem ofLine_command {before line : List Char} {command : Command} {arguments : List (List Char)}
    (hb : isBlankText before = true) (hw : words line = command.name.toList :: arguments) :
    Request.ofLine (before ++ ':' :: line) =
      if arguments.length = command.parameters.length then
        .run command (arguments.map String.ofList)
      else .wrongArity command := by
  have htrim : Text.trimStart (before ++ ':' :: line) = ':' :: line := by
    have hcolon : isBlank ':' = false := by decide
    rw [Text.trimStart, List.dropWhile_append_of_pos (List.all_eq_true.1 hb),
      List.dropWhile_cons_of_neg (by simp [hcolon])]
  simp only [Request.ofLine, htrim, List.head?_cons, if_true, List.tail_cons, hw, List.map_cons,
    String.ofList_toList, Command.ofName?_name, List.length_map]

/-- **Words are read back as they were written.** Every list of words, whatever they hold, can be
written, and a line with the words written in it is split into just these. If the first is the name
of a command, the command is given those after it, and their number decides whether it runs. -/
theorem words_written (ws : List (List Char)) :
    (∃ line, WritesLine ws line) ∧
      ∀ line, WritesLine ws line → words line = ws ∧
        ∀ (before : List Char) (command : Command) (arguments : List (List Char)),
          isBlankText before = true → ws = command.name.toList :: arguments →
            Request.ofLine (before ++ ':' :: line) =
              if arguments.length = command.parameters.length then
                .run command (arguments.map String.ofList)
              else .wrongArity command := by
  refine ⟨writesLine_quoted ws, fun line h => ?_⟩
  have hwords := words_line h
  refine ⟨hwords, fun before command arguments hb hws => ?_⟩
  exact ofLine_command hb (hwords.trans hws)

/-- A bare name, and a path with quotes at both of its ends and a line feed, behind a tab. -/
theorem words_written_quotedPath :
    WritesLine ["load".toList, "\"a\nb\"".toList] "load\t\"\"\"a\nb\"\"\" ".toList ∧
      Request.ofLine ('\t' :: ':' :: "load\t\"\"\"a\nb\"\"\" ".toList) =
        .run .load ["\"a\nb\""] := by
  have hname : WritesWord "load".toList "load".toList := by
    refine .bare (by decide) ?_
    change ∀ c ∈ ['l', 'o', 'a', 'd'], isBlank c = false ∧ c ≠ '"'
    simp only [List.forall_mem_cons]
    exact ⟨by decide, by decide, by decide, by decide, List.forall_mem_nil _⟩
  have hpath : WritesWord "\"a\nb\"".toList "\"\"\"a\nb\"\"\"".toList := .quoted _
  have hline : WritesLine ["load".toList, "\"a\nb\"".toList]
      ([] ++ ("load".toList ++ (['\t'] ++ ([] ++ ("\"\"\"a\nb\"\"\"".toList ++ [' ']))))) :=
    .word rfl hname (by decide) (by decide) (.last rfl hpath (by decide))
  have hrun := ((words_written _).2 _ hline).2 ['\t'] .load ["\"a\nb\"".toList] (by decide) rfl
  exact ⟨hline, hrun⟩

end ReplayShell
