import Mathlib.Data.List.DropRight
import Mathlib.Data.Prod.Lex
import ReplayShell.Proofs.Boundaries
import ReplayShell.Proofs.Places
import ReplayShell.Shell.Report

/-!
# Places of diagnostics

A diagnostic is shown with the line that its first byte stands in, whatever its span is.

* `Text.cut_append_eq` cuts a text around a place in it; `SourceLocation.of_eq` says what the place
  of an offset is.
* `SourceLocation.sliced?` finds the same by slices of bytes, `reportSliced?` writes a report so,
  and either gives nothing if a slice cuts a character; `reportSliced?_eq`: none does.
* `SourceLocation.strictMonoOn_place`: no two boundaries of a text have the same place.
* `report_faithful` is the whole.
-/
namespace ReplayShell

namespace Text

/-! ## Lines around a place -/

variable {separator : Char}

theorem length_cut (separator : Char) (text : List Char) :
    (cut separator text).length = text.count separator + 1 := by
  induction text with
  | nil => rfl
  | cons c rest ih =>
    obtain ⟨piece, pieces, hcut⟩ := List.exists_cons_of_ne_nil (cut_ne_nil separator rest)
    rw [hcut, List.length_cons] at ih
    by_cases hc : c = separator
    · simp [cut, hc, hcut, ih]
    · simp [cut, hc, hcut, ih]

theorem head?_cut (separator : Char) (text : List Char) :
    (cut separator text).head? = some (text.takeWhile (· ≠ separator)) := by
  induction text with
  | nil => rfl
  | cons c rest ih =>
    obtain ⟨piece, pieces, hcut⟩ := List.exists_cons_of_ne_nil (cut_ne_nil separator rest)
    rw [hcut, List.head?_cons, Option.some.injEq] at ih
    by_cases hc : c = separator
    · simp [cut, hc]
    · simp [cut, hc, hcut, ih]

/-- There is no separator behind the last one. -/
theorem not_mem_rtakeWhile (separator : Char) (text : List Char) :
    separator ∉ text.rtakeWhile (· ≠ separator) := by
  intro h
  have := List.mem_rtakeWhile_imp h
  simp at this

/-- Up to the last separator there is nothing, or the separator is the last. -/
theorem rdropWhile_cases (separator : Char) (text : List Char) :
    text.rdropWhile (· ≠ separator) = [] ∨
      ∃ front, text.rdropWhile (· ≠ separator) = front ++ [separator] := by
  by_cases h : text.rdropWhile (· ≠ separator) = []
  · exact .inl h
  · have hlast := List.rdropWhile_last_not (· ≠ separator) text h
    have heq : (text.rdropWhile (· ≠ separator)).getLast h = separator := by simpa using hlast
    refine .inr ⟨(text.rdropWhile (· ≠ separator)).dropLast, ?_⟩
    exact (heq ▸ List.dropLast_append_getLast h).symm

/-- A text that is cut around a place: as many lines before it as there are separators, and then the
line that it stands in. -/
theorem cut_append_eq (separator : Char) (before after : List Char) :
    ∃ lines, lines.length = before.count separator ∧
      cut separator before = lines ++ [before.rtakeWhile (· ≠ separator)] ∧
      cut separator (before ++ after) =
        lines ++ cut separator (before.rtakeWhile (· ≠ separator) ++ after) := by
  have hno := not_mem_rtakeWhile separator before
  have hparts : before.rdropWhile (· ≠ separator) ++ before.rtakeWhile (· ≠ separator) = before :=
    List.rdropWhile_append_rtakeWhile
  generalize before.rtakeWhile (· ≠ separator) = line at *
  rcases rdropWhile_cases separator before with hfront | ⟨front, hfront⟩
  · rw [hfront, List.nil_append] at hparts
    subst hparts
    exact ⟨[], (List.count_eq_zero_of_not_mem hno).symm, Path.cut_of_not_mem hno, rfl⟩
  · rw [hfront, List.append_assoc, List.singleton_append] at hparts
    subst hparts
    refine ⟨cut separator front, ?_, ?_, ?_⟩
    · rw [length_cut, List.count_append, List.count_cons_self, List.count_eq_zero_of_not_mem hno]
    · rw [Path.cut_append, Path.cut_of_not_mem hno]
    · rw [List.append_assoc, List.cons_append, Path.cut_append]

/-- The line that a place in a text stands in. -/
theorem getElem?_cut (separator : Char) (before after : List Char) :
    (cut separator (before ++ after))[before.count separator]? =
      some (before.rtakeWhile (· ≠ separator) ++ after.takeWhile (· ≠ separator)) := by
  obtain ⟨lines, hlength, -, hcut⟩ := cut_append_eq separator before after
  have hline : ∀ c ∈ before.rtakeWhile (· ≠ separator), decide (c ≠ separator) = true :=
    fun c hc => decide_eq_true fun heq => not_mem_rtakeWhile separator before (heq ▸ hc)
  rw [hcut, ← hlength, List.getElem?_append_right (Nat.le_refl _), Nat.sub_self,
    ← List.head?_eq_getElem?, head?_cut, List.takeWhile_append_of_pos hline]

/-! ## Slices -/

/-- Where a part of the text begins and ends, and something after it. -/
theorem slice?_of_append {text between : List Char} (before after : List Char) {start stop : Nat}
    (ht : text = before ++ (between ++ after)) (hs : start = byteSize before)
    (he : stop = byteSize before + byteSize between) : slice? text start stop = some between := by
  subst ht hs he
  exact slice?_append before between after

/-- A cut at or before the end of a part. -/
theorem splitExact?_append {front : List Char} (rest : List Char) {offset : Nat}
    (h : offset ≤ byteSize front) :
    splitExact? offset (front ++ rest) =
      (splitExact? offset front).map fun parts => (parts.1, parts.2 ++ rest) := by
  have hfloor : splitFloor offset (front ++ rest) =
      ((splitFloor offset front).1, (splitFloor offset front).2 ++ rest) := by
    induction front generalizing offset with
    | nil =>
      rw [Nat.le_zero.1 h]
      cases rest with
      | nil => rfl
      | cons c rest => simp [splitFloor, Nat.ne_of_gt c.utf8Size_pos]
    | cons c front ih =>
      rw [List.cons_append, splitFloor, splitFloor]
      split
      · have hle : offset - c.utf8Size ≤ byteSize front := by
          rw [byteSize] at h
          omega
        rw [ih hle]
      · rfl
  simp only [splitExact?, hfloor]
  split <;> rfl

theorem eq_of_splitExact? {offset : Nat} {text before after : List Char}
    (h : splitExact? offset text = some (before, after)) :
    text = before ++ after ∧ byteSize before = offset := by
  have hparts := splitFloor_append offset text
  unfold splitExact? at h
  dsimp only at h
  split at h
  · rename_i hsize
    rw [Option.some.injEq] at h
    rw [h] at hparts hsize
    exact ⟨hparts.symm, hsize⟩
  · cases h

/-- A line is cut at an offset and gives the slice up to there, or neither is possible since the
offset is inside of a character. -/
theorem slice?_cases {text before line rest : List Char} {start stop : Nat}
    (ht : text = before ++ (line ++ rest)) (hs : start = byteSize before) (hle : start ≤ stop)
    (h : stop ≤ start + byteSize line) :
    splitExact? (stop - start) line = none ∧ slice? text start stop = none ∨
      ∃ front back, splitExact? (stop - start) line = some (front, back) ∧
        slice? text start stop = some front ∧ text = before ++ front ++ (back ++ rest) ∧
          stop = byteSize (before ++ front) ∧ stop + byteSize back = start + byteSize line := by
  subst ht hs
  have hcut : splitExact? (stop - byteSize before) (line ++ rest) =
      (splitExact? (stop - byteSize before) line).map fun parts => (parts.1, parts.2 ++ rest) :=
    splitExact?_append rest (by omega)
  have hslice : slice? (before ++ (line ++ rest)) (byteSize before) stop =
      (splitExact? (stop - byteSize before) line).map Prod.fst := by
    simp only [slice?, splitExact?_byteSize, hcut, Option.bind_eq_bind, Option.bind_some,
      if_pos hle]
    cases splitExact? (stop - byteSize before) line <;> rfl
  cases hsplit : splitExact? (stop - byteSize before) line with
  | none => exact .inl ⟨rfl, by rw [hslice, hsplit, Option.map_none]⟩
  | some parts =>
    obtain ⟨front, back⟩ := parts
    obtain ⟨rfl, hsize⟩ := eq_of_splitExact? hsplit
    refine .inr ⟨front, back, rfl, by rw [hslice, hsplit, Option.map_some], by simp, ?_, ?_⟩
    · rw [byteSize_append]
      omega
    · rw [byteSize_append]
      omega

/-- A carriage return that is removed is one byte. -/
theorem byteSize_dropReturn (line : List Char) :
    byteSize (dropReturn line) =
      if line.getLast? = some '\r' then byteSize line - 1 else byteSize line := by
  rcases dropReturn_cases line with ⟨front, rfl, hfront⟩ | ⟨hne, hline⟩
  · rw [hfront, if_pos List.getLast?_concat, byteSize_append]
    rfl
  · rw [hline, if_neg hne]

theorem dropReturn_prefix (line : List Char) : dropReturn line <+: line := by
  rcases dropReturn_cases line with ⟨front, rfl, hfront⟩ | ⟨-, hline⟩
  · rw [hfront]
    exact List.prefix_append _ _
  · exact ⟨[], by rw [hline, List.append_nil]⟩

/-- A text that ends in a carriage return is not empty. -/
theorem byteSize_pos_of_getLast? {line : List Char} {c : Char} (h : line.getLast? = some c) :
    0 < byteSize line := by
  obtain ⟨front, rfl⟩ := List.getLast?_eq_some_iff.1 h
  have := c.utf8Size_pos
  rw [byteSize_append, byteSize, byteSize]
  omega

theorem rtakeWhile_append {p : Char → Bool} {before after : List Char}
    (h : ∀ c ∈ after, p c = true) :
    (before ++ after).rtakeWhile p = before.rtakeWhile p ++ after := by
  rw [List.rtakeWhile, List.reverse_append,
    List.takeWhile_append_of_pos fun c hc => h c (List.mem_reverse.1 hc), List.reverse_append,
    List.reverse_reverse]
  rfl

/-- An offset is rounded down to the greatest boundary that is not behind it. -/
theorem isGreatest_splitFloor (text : List Char) (offset : Nat) :
    IsGreatest {boundary | IsBoundary text boundary ∧ boundary ≤ offset}
      (byteSize (splitFloor offset text).1) := by
  have hcut : IsBoundary text (byteSize (splitFloor offset text).1) :=
    ⟨_, _, (splitFloor_append offset text).symm, rfl⟩
  refine ⟨⟨hcut, byteSize_splitFloor_le offset text⟩, ?_⟩
  clear hcut
  rintro _ ⟨⟨before, after, rfl, rfl⟩, hle⟩
  induction before generalizing offset with
  | nil => exact Nat.zero_le _
  | cons c before ih =>
    rw [byteSize] at hle
    rw [List.cons_append, splitFloor, if_pos (by omega)]
    simp only [byteSize]
    exact Nat.add_le_add_left (ih (offset - c.utf8Size) (by omega)) _

end Text

/-! ## The place of an offset -/

namespace SourceLocation

/-- A text around an offset: what is before the line, the line up to the offset, the rest of the
line with a carriage return at its end, and what is behind it. -/
structure Around (text : List Char) (offset : Nat) (front line ahead rest : List Char) : Prop where
  whole : text = front ++ ((line ++ ahead) ++ rest)
  split : Text.splitFloor offset text = (front ++ line, ahead ++ rest)
  front_eq : (front ++ line).rdropWhile (· ≠ '\n') = front
  line_eq : (front ++ line).rtakeWhile (· ≠ '\n') = line
  ahead_eq : (ahead ++ rest).takeWhile (· ≠ '\n') = ahead

theorem exists_around (text : List Char) (offset : Nat) :
    ∃ front line ahead rest, Around text offset front line ahead rest := by
  cases h : Text.splitFloor offset text with
  | mk before after =>
    have ht := Text.splitFloor_append offset text
    have hbefore : before.rdropWhile (· ≠ '\n') ++ before.rtakeWhile (· ≠ '\n') = before :=
      List.rdropWhile_append_rtakeWhile
    have hafter : after.takeWhile (· ≠ '\n') ++ after.dropWhile (· ≠ '\n') = after :=
      List.takeWhile_append_dropWhile
    rw [h] at ht
    refine ⟨_, _, _, _, ?_, h.trans (congrArg₂ _ hbefore.symm hafter.symm), by rw [hbefore],
      by rw [hbefore], by rw [hafter]⟩
    rw [List.append_assoc, hafter, ← List.append_assoc, hbefore, ht]

variable {text front line ahead rest : List Char} {offset : Nat}

/-- What the place of an offset is. -/
theorem of_eq (around : Around text offset front line ahead rest) :
    of text offset =
      { line := (front ++ line).count '\n'
        column := line.length
        lineStart := Text.byteSize front
        lineEnd := Text.byteSize front + Text.byteSize (Text.dropReturn (line ++ ahead))
        lineText := Text.dropReturn (line ++ ahead) } := by
  obtain ⟨lines, hlength, hcut, -⟩ := Text.cut_append_eq '\n' (front ++ line) []
  have hlast : (Text.splitLines (front ++ line)).getLast?.getD [] = line := by
    rw [Text.splitLines, hcut, around.line_eq, List.getLast?_concat, Option.getD_some]
  have hline : (Text.splitLines (front ++ line)).length - 1 = (front ++ line).count '\n' := by
    rw [Text.splitLines, Text.length_cut, Nat.add_sub_cancel]
  simp only [of, around.split, hlast, hline, around.ahead_eq, Text.byteSize_append,
    Nat.add_sub_cancel_right]

/-- The line of an offset is cut out of the text at its ends. -/
theorem exists_rest (around : Around text offset front line ahead rest) :
    ∃ behind, text = front ++ (Text.dropReturn (line ++ ahead) ++ behind) := by
  obtain ⟨ending, hending⟩ := Text.dropReturn_prefix (line ++ ahead)
  refine ⟨ending ++ rest, ?_⟩
  rw [← List.append_assoc (Text.dropReturn (line ++ ahead)), hending]
  exact around.whole

/-- The place of an offset as it is found in the bytes of a text: nothing, if a slice would cut a
character or leave the text. -/
def sliced? (text : List Char) (offset : Nat) : Option SourceLocation := do
  let offset := Text.byteSize (Text.splitFloor offset text).1
  let before ← Text.slice? text 0 offset
  let after ← Text.slice? text offset (Text.byteSize text)
  -- Behind the last line feed before the offset, and before the next one after it.
  let lineStart := Text.byteSize (before.rdropWhile (· ≠ '\n'))
  let contentEnd := offset + Text.byteSize (after.takeWhile (· ≠ '\n'))
  let content ← Text.slice? text lineStart contentEnd
  let lineEnd := if content.getLast? = some '\r' then contentEnd - 1 else contentEnd
  let beforeInLine ← Text.slice? text lineStart offset
  let lineText ← Text.slice? text lineStart lineEnd
  some { line := before.count '\n', column := beforeInLine.length, lineStart, lineEnd, lineText }

/-- No slice that the place of an offset is found by cuts a character. -/
theorem sliced?_eq (text : List Char) (offset : Nat) :
    sliced? text offset = some (of text offset) := by
  obtain ⟨front, line, ahead, rest, around⟩ := exists_around text offset
  obtain ⟨behind, hbehind⟩ := exists_rest around
  have ht := around.whole
  have hbefore : Text.slice? text 0 (Text.byteSize (front ++ line)) = some (front ++ line) :=
    Text.slice?_of_append [] (ahead ++ rest) (by simp [ht]) rfl
      (Nat.zero_add _).symm
  have hafter : Text.slice? text (Text.byteSize (front ++ line)) (Text.byteSize text) =
      some (ahead ++ rest) :=
    Text.slice?_of_append (front ++ line) [] (by simp [ht]) rfl
      (by rw [← Text.byteSize_append, ht]; simp)
  have hcontent : Text.slice? text (Text.byteSize front)
      (Text.byteSize (front ++ line) + Text.byteSize ahead) = some (line ++ ahead) :=
    Text.slice?_of_append _ _ ht rfl (by simp only [Text.byteSize_append]; omega)
  have hinLine : Text.slice? text (Text.byteSize front) (Text.byteSize (front ++ line)) =
      some line :=
    Text.slice?_of_append _ (ahead ++ rest) (by simp [ht]) rfl (Text.byteSize_append _ _)
  have hline : Text.slice? text (Text.byteSize front)
      (Text.byteSize front + Text.byteSize (Text.dropReturn (line ++ ahead))) =
        some (Text.dropReturn (line ++ ahead)) :=
    Text.slice?_of_append _ _ hbehind rfl rfl
  have hend : (if (line ++ ahead).getLast? = some '\r' then
      Text.byteSize (front ++ line) + Text.byteSize ahead - 1
      else Text.byteSize (front ++ line) + Text.byteSize ahead) =
        Text.byteSize front + Text.byteSize (Text.dropReturn (line ++ ahead)) := by
    have hsize := Text.byteSize_append front line
    have hsize' := Text.byteSize_append line ahead
    rw [Text.byteSize_dropReturn]
    split
    · rename_i hlast
      have hpos : 0 < Text.byteSize (line ++ ahead) :=
        Text.byteSize_pos_of_getLast? hlast
      omega
    · omega
  simp only [sliced?, around.split, hbefore, hafter, Option.bind_eq_bind, Option.bind_some,
    around.front_eq, around.ahead_eq, hcontent, hend, hinLine, hline, of_eq around]

/-- The offset counts as the boundary before it, and the place is read off the text up to there. -/
theorem of_spec (text : List Char) (offset : Nat) :
    ∃ front line rest, text = front ++ line ++ rest ∧
      IsGreatest {boundary | Text.IsBoundary text boundary ∧ boundary ≤ offset}
        (Text.byteSize (front ++ line)) ∧
      (front = [] ∨ ∃ before, front = before ++ ['\n']) ∧ '\n' ∉ line ∧
      (of text offset).line = (front ++ line).count '\n' ∧
      (of text offset).column = line.length ∧
      (of text offset).lineStart = Text.byteSize front := by
  obtain ⟨front, line, ahead, rest, around⟩ := exists_around text offset
  refine ⟨front, line, ahead ++ rest, by rw [around.whole]; simp, ?_, ?_, ?_, ?_⟩
  · have := Text.isGreatest_splitFloor text offset
    rwa [around.split] at this
  · have := Text.rdropWhile_cases '\n' (front ++ line)
    rwa [around.front_eq] at this
  · have := Text.not_mem_rtakeWhile '\n' (front ++ line)
    rwa [around.line_eq] at this
  · rw [of_eq around]
    exact ⟨rfl, rfl, rfl⟩

/-- The line of an offset is a line of the text, without a carriage return at its end. -/
theorem lineText_of (text : List Char) (offset : Nat) :
    (Text.splitLines text)[(of text offset).line]?.map Text.dropReturn =
      some (of text offset).lineText := by
  obtain ⟨front, line, ahead, rest, around⟩ := exists_around text offset
  have hget := Text.getElem?_cut '\n' (front ++ line) (ahead ++ rest)
  rw [around.line_eq, around.ahead_eq] at hget
  have ht : text = front ++ line ++ (ahead ++ rest) := by rw [around.whole]; simp
  rw [of_eq around, Text.splitLines, ht, hget]
  rfl

/-! ## Order of places -/

/-- The place of the end of a text's beginning. -/
theorem of_byteSize (before after : List Char) :
    (of (before ++ after) (Text.byteSize before)).line = before.count '\n' ∧
      (of (before ++ after) (Text.byteSize before)).column =
        (before.rtakeWhile (· ≠ '\n')).length := by
  obtain ⟨front, line, ahead, rest, around⟩ :=
    exists_around (before ++ after) (Text.byteSize before)
  have hbefore : before = front ++ line := by
    have := around.split
    rw [Text.splitFloor_byteSize] at this
    exact congrArg Prod.fst this
  rw [of_eq around, hbefore, around.line_eq]
  exact ⟨rfl, rfl⟩

/-- A longer beginning of a text ends at a later place. -/
theorem place_lt (before : List Char) {between : List Char} (hne : between ≠ []) :
    toLex (before.count '\n', (before.rtakeWhile (· ≠ '\n')).length) <
      toLex ((before ++ between).count '\n',
        ((before ++ between).rtakeWhile (· ≠ '\n')).length) := by
  rw [Prod.Lex.toLex_lt_toLex, List.count_append]
  by_cases hmem : '\n' ∈ between
  · have := List.count_pos_iff.2 hmem
    exact .inl (by dsimp only; omega)
  · have htail : ∀ c ∈ between, decide (c ≠ '\n') = true :=
      fun c hc => decide_eq_true fun heq => hmem (heq ▸ hc)
    have hline : (before ++ between).rtakeWhile (· ≠ '\n') =
        before.rtakeWhile (· ≠ '\n') ++ between := Text.rtakeWhile_append htail
    have hpos := List.length_pos_iff.2 hne
    refine .inr ⟨by simp [List.count_eq_zero_of_not_mem hmem], ?_⟩
    rw [hline, List.length_append]
    dsimp only
    omega

/-- Different boundaries of a text have different places, in their order. -/
theorem strictMonoOn_place (text : List Char) :
    StrictMonoOn (fun offset => toLex ((of text offset).line, (of text offset).column))
      {boundary | Text.IsBoundary text boundary} := by
  rintro _ ⟨before, after, rfl, rfl⟩ _ ⟨before', after', heq, rfl⟩ hlt
  have hprefix : before <+: before' := by
    refine List.prefix_of_prefix_length_le ⟨after, rfl⟩ ⟨after', heq.symm⟩ ?_
    by_contra hlength
    have hback : before' <+: before :=
      List.prefix_of_prefix_length_le ⟨after', heq.symm⟩ ⟨after, rfl⟩ (by omega)
    obtain ⟨between, rfl⟩ := hback
    rw [Text.byteSize_append] at hlt
    omega
  obtain ⟨between, rfl⟩ := hprefix
  have hne : between ≠ [] := by
    rintro rfl
    simp at hlt
  obtain ⟨hline, hcolumn⟩ := of_byteSize before after
  obtain ⟨hline', hcolumn'⟩ := of_byteSize (before ++ between) after'
  dsimp only
  rw [hline, hcolumn, heq, hline', hcolumn']
  exact place_lt before hne

end SourceLocation

/-! ## Reports -/

/-- `clamp`, which a reversed range does not admit. -/
def clamp? (low high offset : Nat) : Option Nat :=
  if low ≤ high then some (clamp low high offset) else none

/-- The first line of a report. -/
def reportHeader (location : SourceLocation) (diagnostic : Diagnostic) : String :=
  "(" ++ toString (location.line + 1) ++ ", " ++ toString (location.column + 1) ++ "): " ++
    diagnostic.problem.message

/-- The report of one diagnostic as it is written from the bytes of the text: nothing, if a place it
slices at is not valid. The three parts of the line are asked for, and may fail. -/
def reportOneSliced? (text : List Char) (diagnostic : Diagnostic) : Option Terminal.Output := do
  let location ← SourceLocation.sliced? text diagnostic.span.start
  let line ← Text.slice? text location.lineStart location.lineEnd
  let start ← clamp? location.lineStart location.lineEnd diagnostic.span.start
  let stop ← clamp? start location.lineEnd diagnostic.span.stop
  let shown :=
    match Text.slice? text location.lineStart start, Text.slice? text start stop,
        Text.slice? text stop location.lineEnd with
    | some before, some inside, some after =>
      Terminal.Output.plain (String.ofList before) ++
        Terminal.Output.painted .red (String.ofList inside) ++
        Terminal.Output.plain (String.ofList after)
    | _, _, _ => Terminal.Output.plain (String.ofList line)
  some (Terminal.Output.paintedLine .red (reportHeader location diagnostic) ++
    Terminal.Output.plain "    " ++ shown ++ Terminal.Output.plain "\n")

/-- The reports of diagnostics, written from the bytes of the text. -/
def reportSliced? (text : List Char) : List Diagnostic → Option Terminal.Output
  | [] => some []
  | diagnostic :: diagnostics => do
    let first ← reportOneSliced? text diagnostic
    let others ← reportSliced? text diagnostics
    some (first ++ others)

theorem clamp?_eq {low high : Nat} (h : low ≤ high) (offset : Nat) :
    clamp? low high offset = some (clamp low high offset) := if_pos h

theorem le_clamp (low high offset : Nat) : low ≤ clamp low high offset := Nat.le_max_left _ _

theorem clamp_le {low high : Nat} (h : low ≤ high) (offset : Nat) :
    clamp low high offset ≤ high := Nat.max_le.2 ⟨h, Nat.min_le_left _ _⟩

/-- The three parts of a line that are cut out of the text are those that the line is cut into. -/
theorem underline_eq {text front behind : List Char} {location : SourceLocation} (span : Span)
    (ht : text = front ++ (location.lineText ++ behind))
    (hstart : location.lineStart = Text.byteSize front)
    (hend : location.lineEnd = location.lineStart + Text.byteSize location.lineText) :
    underline location span =
      match Text.slice? text location.lineStart
          (clamp location.lineStart location.lineEnd span.start),
        Text.slice? text (clamp location.lineStart location.lineEnd span.start)
          (clamp (clamp location.lineStart location.lineEnd span.start) location.lineEnd span.stop),
        Text.slice? text
          (clamp (clamp location.lineStart location.lineEnd span.start) location.lineEnd span.stop)
          location.lineEnd with
      | some before, some inside, some after =>
        Terminal.Output.plain (String.ofList before) ++
          Terminal.Output.painted .red (String.ofList inside) ++
          Terminal.Output.plain (String.ofList after)
      | _, _, _ => Terminal.Output.plain (String.ofList location.lineText) := by
  have hle : location.lineStart ≤ location.lineEnd := by omega
  have hlow := le_clamp location.lineStart location.lineEnd span.start
  have hhigh := clamp_le hle span.start
  unfold underline
  dsimp only
  generalize clamp location.lineStart location.lineEnd span.start = start at *
  have hlow' := le_clamp start location.lineEnd span.stop
  have hhigh' := clamp_le hhigh span.stop
  generalize clamp start location.lineEnd span.stop = stop at *
  obtain ⟨hsplit, hslice⟩ | ⟨before, fromStart, hsplit, hslice, ht', hbefore, hsize⟩ :=
    Text.slice?_cases ht hstart hlow (by omega)
  · rw [hsplit, hslice]
  obtain ⟨hsplit', hslice'⟩ | ⟨inside, after, hsplit', hslice', ht'', hinside, hsize'⟩ :=
    Text.slice?_cases ht' hbefore hlow' (by omega)
  · simp only [hsplit, hslice, hsplit', hslice']
  have hlast : Text.slice? text stop location.lineEnd = some after :=
    Text.slice?_of_append _ behind ht'' hinside (by omega)
  simp only [hsplit, hslice, hsplit', hslice', hlast]

/-- A report is written whatever the span, and it is the one that cuts no bytes. -/
theorem reportOneSliced?_eq (text : List Char) (diagnostic : Diagnostic) :
    reportOneSliced? text diagnostic = some (reportOne text diagnostic) := by
  obtain ⟨front, line, ahead, rest, around⟩ :=
    SourceLocation.exists_around text diagnostic.span.start
  obtain ⟨behind, ht⟩ := SourceLocation.exists_rest around
  have hof := SourceLocation.of_eq around
  unfold reportOneSliced? reportOne
  rw [SourceLocation.sliced?_eq]
  generalize SourceLocation.of text diagnostic.span.start = location at *
  have htext : text = front ++ (location.lineText ++ behind) := by rw [hof]; exact ht
  have hstart : location.lineStart = Text.byteSize front := by rw [hof]
  have hend : location.lineEnd = location.lineStart + Text.byteSize location.lineText := by rw [hof]
  have hle : location.lineStart ≤ location.lineEnd := by omega
  have hslice : Text.slice? text location.lineStart location.lineEnd = some location.lineText :=
    Text.slice?_of_append _ _ htext hstart (by omega)
  simp only [Option.bind_eq_bind, Option.bind_some, hslice, clamp?_eq hle,
    clamp?_eq (clamp_le hle diagnostic.span.start), reportHeader,
    underline_eq diagnostic.span htext hstart hend]

theorem reportSliced?_eq (text : List Char) (diagnostics : List Diagnostic) :
    reportSliced? text diagnostics = some (report text diagnostics) := by
  induction diagnostics with
  | nil => rfl
  | cons diagnostic diagnostics ih => simp [reportSliced?, reportOneSliced?_eq, ih, report]

/-! ## Reports without colour -/

/-- The line of a text by its number, without a carriage return at its end. -/
def sourceLine? (text : List Char) (number : Nat) : Option String :=
  (Text.splitLines text)[number]?.map (String.ofList ∘ Text.dropReturn)

theorem render_painted (ink : Terminal.Ink) (text : String) :
    (Terminal.Output.painted ink text).render false = text := by
  simp [Terminal.Output.painted, Terminal.Output.render, Terminal.Output.renderWith,
    Terminal.Fragment.render, Terminal.painter]

theorem render_paintedLine (ink : Terminal.Ink) (text : String) :
    (Terminal.Output.paintedLine ink text).render false = text ++ "\n" := by
  simp [Terminal.Output.paintedLine, Terminal.Output.render, Terminal.Output.renderWith,
    Terminal.Fragment.render, Terminal.painter]

/-- The span of a diagnostic changes the ink of its line only. -/
theorem render_underline (location : SourceLocation) (span : Span) :
    (underline location span).render false = String.ofList location.lineText := by
  unfold underline
  dsimp only
  split
  · exact Terminal.Output.render_plain _ _
  · rename_i before fromStart hfirst
    split
    · exact Terminal.Output.render_plain _ _
    · rename_i inside after hsecond
      rw [(Text.eq_of_splitExact? hfirst).1, (Text.eq_of_splitExact? hsecond).1]
      simp only [Terminal.Output.render_append, Terminal.Output.render_plain, render_painted,
        String.ofList_append, String.append_assoc]

/-- Without colour a report is a header, and a line of the text behind four spaces. -/
theorem render_reportOne (text : List Char) (diagnostic : Diagnostic) :
    ∃ line, sourceLine? text (SourceLocation.of text diagnostic.span.start).line = some line ∧
      (reportOne text diagnostic).render false =
        reportHeader (SourceLocation.of text diagnostic.span.start) diagnostic ++ "\n" ++
          "    " ++ line ++ "\n" := by
  have hline := SourceLocation.lineText_of text diagnostic.span.start
  refine ⟨String.ofList (SourceLocation.of text diagnostic.span.start).lineText, ?_, ?_⟩
  · rw [sourceLine?, ← Option.map_map, hline, Option.map_some]
  · simp only [reportOne, reportHeader, Terminal.Output.render_append,
      Terminal.Output.render_plain, render_paintedLine, render_underline]

/-- Without colour, diagnostics are reported by one header and one line of the text each. -/
theorem render_report (text : List Char) (diagnostics : List Diagnostic) :
    ∃ lines : List String,
      (diagnostics.map fun diagnostic =>
        sourceLine? text (SourceLocation.of text diagnostic.span.start).line) = lines.map some ∧
      (report text diagnostics).render false =
        String.join (List.zipWith (fun diagnostic line =>
          reportHeader (SourceLocation.of text diagnostic.span.start) diagnostic ++ "\n" ++
            "    " ++ line ++ "\n") diagnostics lines) := by
  induction diagnostics with
  | nil => exact ⟨[], rfl, rfl⟩
  | cons diagnostic diagnostics ih =>
    obtain ⟨lines, hlines, hrender⟩ := ih
    obtain ⟨line, hline, hfirst⟩ := render_reportOne text diagnostic
    refine ⟨line :: lines, by rw [List.map_cons, hline, hlines, List.map_cons], ?_⟩
    rw [report, List.flatMap_cons, Terminal.Output.render_append, ← report, hfirst, hrender,
      List.zipWith_cons_cons, String.join_cons]

/-- Diagnostics with any spans are shown with the lines that they are at: writing the report never
cuts a character or leaves the text; without colour it is a header and a whole line of the text for
each; the header's line and column are those of the boundary that the offset is rounded down to;
and no two boundaries of a text have the same line and column, or are in another order. -/
theorem report_faithful (text : List Char) (diagnostics : List Diagnostic) :
    reportSliced? text diagnostics = some (report text diagnostics) ∧
      (∃ lines : List String,
        (diagnostics.map fun diagnostic =>
          sourceLine? text (SourceLocation.of text diagnostic.span.start).line) = lines.map some ∧
        (report text diagnostics).render false =
          String.join (List.zipWith (fun diagnostic line =>
            reportHeader (SourceLocation.of text diagnostic.span.start) diagnostic ++ "\n" ++
              "    " ++ line ++ "\n") diagnostics lines)) ∧
      (∀ offset, ∃ front line rest, text = front ++ line ++ rest ∧
        IsGreatest {boundary | Text.IsBoundary text boundary ∧ boundary ≤ offset}
          (Text.byteSize (front ++ line)) ∧
        (front = [] ∨ ∃ before, front = before ++ ['\n']) ∧ '\n' ∉ line ∧
        (SourceLocation.of text offset).line = (front ++ line).count '\n' ∧
        (SourceLocation.of text offset).column = line.length ∧
        (SourceLocation.of text offset).lineStart = Text.byteSize front) ∧
      StrictMonoOn (fun offset => toLex ((SourceLocation.of text offset).line,
        (SourceLocation.of text offset).column)) {boundary | Text.IsBoundary text boundary} :=
  ⟨reportSliced?_eq text diagnostics, render_report text diagnostics, SourceLocation.of_spec text,
    SourceLocation.strictMonoOn_place text⟩

end ReplayShell
