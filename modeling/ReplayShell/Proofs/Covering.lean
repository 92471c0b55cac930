import ReplayShell.Proofs.Boundaries
import ReplayShell.Terminal.Highlight

/-!
# Lines covered by any marks

Marks may overlap, come in any order, run backwards, lie past the end or cut characters.

* `Cuts` is the pass over a line as a loop over byte offsets. It takes its pieces out of the line
  with checked cuts, and has no rule for one that fails.
* `styleAt` says which mark counts at an offset: the first in the list that ends behind it.
* `cuts_cover` is about a pass from any point on: it ends, with the pieces that `cover` gives.
  `charStyles_cover`: each character from there on has the style of its offset.
* `cover_styles`: so it is for a whole line.
-/
namespace ReplayShell.Terminal

open Text (IsBoundary boundaryFrom byteSize slice?)

/-- The pass over a line from a byte offset on, and the pieces that it cuts off. -/
inductive Cuts (line : List Char) : Nat → List Mark → List Piece → Prop
  /-- The line is used up, whatever marks are left. -/
  | finished {position : Nat} {marks : List Mark} (h : byteSize line ≤ position) :
      Cuts line position marks []
  /-- No mark is left for the rest of the line. -/
  | unmarked {position : Nat} {text : List Char} (h : position < byteSize line)
      (hs : slice? line position (byteSize line) = some text) :
      Cuts line position [] [⟨.default, text⟩]
  /-- An empty mark, or one that ends before the rest, is passed over. -/
  | skip {position : Nat} {mark : Mark} {marks : List Mark} {pieces : List Piece}
      (h : position < byteSize line)
      (hm : mark.span.isEmpty = true ∨ mark.span.stop ≤ position)
      (later : Cuts line position marks pieces) : Cuts line position (mark :: marks) pieces
  /-- What lies before a mark is cut off first, and the mark is kept. -/
  | gap {position : Nat} {mark : Mark} {marks : List Mark} {pieces : List Piece} {text : List Char}
      (h : position < byteSize line)
      (hm : mark.span.isEmpty = false ∧ position < mark.span.stop)
      (hg : position < mark.span.start ∧ position < boundaryFrom line mark.span.start)
      (hs : slice? line position (boundaryFrom line mark.span.start) = some text)
      (later : Cuts line (boundaryFrom line mark.span.start) (mark :: marks) pieces) :
      Cuts line position (mark :: marks) (⟨.default, text⟩ :: pieces)
  /-- A mark that begins here, or has begun before, is cut off up to its end. -/
  | take {position : Nat} {mark : Mark} {marks : List Mark} {pieces : List Piece} {text : List Char}
      (h : position < byteSize line)
      (hm : mark.span.isEmpty = false ∧ position < mark.span.stop)
      (hg : ¬(position < mark.span.start ∧ position < boundaryFrom line mark.span.start))
      (ht : position < boundaryFrom line mark.span.stop)
      (hs : slice? line position (boundaryFrom line mark.span.stop) = some text)
      (later : Cuts line (boundaryFrom line mark.span.stop) marks pieces) :
      Cuts line position (mark :: marks) (⟨mark.style, text⟩ :: pieces)
  /-- A mark with no character to show it on is dropped. -/
  | drop {position : Nat} {mark : Mark} {marks : List Mark} {pieces : List Piece}
      (h : position < byteSize line)
      (hm : mark.span.isEmpty = false ∧ position < mark.span.stop)
      (hg : ¬(position < mark.span.start ∧ position < boundaryFrom line mark.span.start))
      (ht : ¬position < boundaryFrom line mark.span.stop)
      (later : Cuts line position marks pieces) : Cuts line position (mark :: marks) pieces

/-- Whether the mark is not empty and ends behind the offset. -/
def Mark.EndsBehind (line : List Char) (position : Nat) (mark : Mark) : Prop :=
  mark.span.start < mark.span.stop ∧ position < boundaryFrom line mark.span.stop

instance (line : List Char) (position : Nat) : DecidablePred (Mark.EndsBehind line position) :=
  fun _ => inferInstanceAs (Decidable (_ ∧ _))

/-- The style at an offset: that of the first mark that ends behind it, unless that begins behind
it too. -/
def styleAt (line : List Char) (marks : List Mark) (position : Nat) : Style :=
  match marks.find? (Mark.EndsBehind line position) with
  | some mark => if boundaryFrom line mark.span.start ≤ position then mark.style else .default
  | none => .default

/-- The offsets at which the characters of a text start. -/
def startsFrom : Nat → List Char → List Nat
  | _, [] => []
  | position, c :: rest => position :: startsFrom (position + c.utf8Size) rest

/-- The style of each character. -/
def charStyles (pieces : List Piece) : List Style :=
  pieces.flatMap fun piece => piece.text.map fun _ => piece.style

/-! ## Pieces and their characters -/

theorem charStyles_append (pieces more : List Piece) :
    charStyles (pieces ++ more) = charStyles pieces ++ charStyles more :=
  List.flatMap_append

theorem charStyles_piece (style : Style) (text : List Char) :
    charStyles (piece style text) = text.map fun _ => style := by
  cases text with
  | nil => rfl
  | cons c rest => exact List.append_nil _

theorem text_ne_nil_of_mem_piece {style : Style} {text : List Char} {cut : Piece}
    (h : cut ∈ piece style text) : cut.text ≠ [] := by
  unfold piece at h
  split at h
  · exact absurd h List.not_mem_nil
  · rename_i hne
    rw [List.mem_singleton.1 h]
    exact fun ht => hne (List.isEmpty_iff.2 ht)

theorem startsFrom_append (position : Nat) (text more : List Char) :
    startsFrom position (text ++ more) =
      startsFrom position text ++ startsFrom (position + byteSize text) more := by
  induction text generalizing position with
  | nil => rfl
  | cons c text ih => simp only [List.cons_append, startsFrom, ih, byteSize, Nat.add_assoc]

theorem bounds_of_mem_startsFrom {position start : Nat} {text : List Char}
    (h : start ∈ startsFrom position text) :
    position ≤ start ∧ start < position + byteSize text := by
  induction text generalizing position with
  | nil => exact absurd h List.not_mem_nil
  | cons c text ih =>
    have hc := c.utf8Size_pos
    simp only [byteSize]
    rcases List.mem_cons.1 h with rfl | h
    · omega
    · have := ih h
      omega

/-- Where each character has the same style, the text has. -/
theorem map_startsFrom {position : Nat} {text : List Char} {styles : Nat → Style} {style : Style}
    (h : ∀ start ∈ startsFrom position text, styles start = style) :
    (startsFrom position text).map styles = text.map fun _ => style := by
  induction text generalizing position with
  | nil => rfl
  | cons c text ih =>
    obtain ⟨hfirst, hrest⟩ := List.forall_mem_cons.1 h
    rw [startsFrom, List.map_cons, List.map_cons, hfirst, ih hrest]

/-! ## One mark -/

variable {line front rest : List Char} {mark : Mark} {marks : List Mark} {position : Nat}

/-- A mark that is not passed over cuts the rest of the line in three: what lies before it, what it
covers, and what lies behind. -/
theorem exists_parts (marks : List Mark) (hline : line = front ++ rest)
    (h : ¬(mark.span.isEmpty || decide (mark.span.stop ≤ byteSize front)) = true) :
    ∃ gap body after, rest = gap ++ (body ++ after) ∧
      byteSize (front ++ gap) = max (byteSize front) (boundaryFrom line mark.span.start) ∧
      byteSize (front ++ gap ++ body) =
        max (byteSize (front ++ gap)) (boundaryFrom line mark.span.stop) ∧
      cover (byteSize front) rest (mark :: marks) = piece .default gap ++
        (piece mark.style body ++ cover (byteSize (front ++ gap ++ body)) after marks) := by
  obtain ⟨gap, fromMark, hgap⟩ : ∃ gap fromMark,
    Text.splitCeil (mark.span.start - byteSize front) rest = (gap, fromMark) := ⟨_, _, rfl⟩
  obtain ⟨body, after, hbody⟩ : ∃ body after,
    Text.splitCeil (mark.span.stop - byteSize (front ++ gap)) fromMark = (body, after) :=
      ⟨_, _, rfl⟩
  have hrest : gap ++ fromMark = rest := by
    simpa only [hgap] using Text.splitCeil_append (mark.span.start - byteSize front) rest
  have hfromMark : body ++ after = fromMark := by
    simpa only [hbody] using
      Text.splitCeil_append (mark.span.stop - byteSize (front ++ gap)) fromMark
  subst hline hrest hfromMark
  have hstart := Text.add_byteSize_splitCeil front (gap ++ (body ++ after)) mark.span.start
  have hstop := Text.add_byteSize_splitCeil (front ++ gap) (body ++ after) mark.span.stop
  rw [hgap, ← Text.byteSize_append] at hstart
  rw [hbody, ← Text.byteSize_append, List.append_assoc front gap (body ++ after)] at hstop
  refine ⟨gap, body, after, rfl, hstart, hstop, ?_⟩
  rw [Text.byteSize_append] at hbody
  rw [cover, if_neg h]
  simp only [hgap, hbody, Text.byteSize_append]

/-- A boundary before which a mark ends is not before it. -/
theorem not_endsBehind (hline : line = front ++ rest)
    (h : mark.span.isEmpty = true ∨ mark.span.stop ≤ byteSize front)
    (hp : byteSize front ≤ position) : ¬mark.EndsBehind line position := by
  rintro ⟨hne, hb⟩
  rcases h with h | h
  · exact absurd (of_decide_eq_true h) (Nat.not_le.2 hne)
  · have := Text.boundaryFrom_le ⟨front, rest, hline, rfl⟩ ((Nat.min_le_left _ _).trans h)
    omega

theorem styleAt_cons_of_not (h : ¬mark.EndsBehind line position) :
    styleAt line (mark :: marks) position = styleAt line marks position := by
  unfold styleAt
  rw [List.find?_cons_of_neg (by simpa using h)]

theorem styleAt_cons (h : mark.EndsBehind line position) :
    styleAt line (mark :: marks) position =
      if boundaryFrom line mark.span.start ≤ position then mark.style else .default := by
  unfold styleAt
  rw [List.find?_cons_of_pos (by simpa using h)]

/-! ## A whole pass -/

/-- From any boundary on, each character has the style of its offset. -/
theorem charStyles_cover (hline : line = front ++ rest) (marks : List Mark) :
    charStyles (cover (byteSize front) rest marks) =
      (startsFrom (byteSize front) rest).map (styleAt line marks) := by
  induction marks generalizing front rest with
  | nil =>
    rw [cover, charStyles_piece]
    exact (map_startsFrom fun _ _ => rfl).symm
  | cons mark marks ih =>
    by_cases hskip : (mark.span.isEmpty || decide (mark.span.stop ≤ byteSize front)) = true
    · rw [cover, if_pos hskip, ih hline]
      refine List.map_congr_left fun start hs => (styleAt_cons_of_not ?_).symm
      rw [Bool.or_eq_true, decide_eq_true_eq] at hskip
      exact not_endsBehind hline hskip (bounds_of_mem_startsFrom hs).1
    · obtain ⟨gap, body, after, rfl, hgap, hbody, hcover⟩ := exists_parts marks hline hskip
      simp only [Span.isEmpty, Bool.or_eq_true, decide_eq_true_eq, not_or, Nat.not_le] at hskip
      have hmono : boundaryFrom line mark.span.start ≤ boundaryFrom line mark.span.stop :=
        Text.boundaryFrom_mono (Nat.le_of_lt hskip.1)
      have hline' : line = front ++ gap ++ body ++ after := by simpa using hline
      have hlater := ih hline'
      rw [hcover, charStyles_append, charStyles_append, charStyles_piece, charStyles_piece, hlater,
        startsFrom_append, startsFrom_append, List.map_append, List.map_append,
        ← Text.byteSize_append, ← Text.byteSize_append]
      have before : ∀ start ∈ startsFrom (byteSize front) gap,
          styleAt line (mark :: marks) start = .default := by
        intro start hs
        have hbounds := bounds_of_mem_startsFrom hs
        rw [← Text.byteSize_append] at hbounds
        rw [styleAt_cons ⟨hskip.1, by omega⟩, if_neg (by omega)]
      have within : ∀ start ∈ startsFrom (byteSize (front ++ gap)) body,
          styleAt line (mark :: marks) start = mark.style := by
        intro start hs
        have hbounds := bounds_of_mem_startsFrom hs
        rw [← Text.byteSize_append] at hbounds
        rw [styleAt_cons ⟨hskip.1, by omega⟩, if_pos (by omega)]
      have behind : ∀ start ∈ startsFrom (byteSize (front ++ gap ++ body)) after,
          styleAt line (mark :: marks) start = styleAt line marks start := by
        intro start hs
        refine styleAt_cons_of_not fun hb => ?_
        have hbounds := bounds_of_mem_startsFrom hs
        have := hb.2
        omega
      rw [map_startsFrom before, map_startsFrom within, List.map_congr_left behind]

/-- No piece is empty. -/
theorem text_ne_nil_of_mem_cover (position : Nat) (rest : List Char) (marks : List Mark) :
    ∀ cut ∈ cover position rest marks, cut.text ≠ [] := by
  induction marks generalizing position rest with
  | nil => exact fun _ => text_ne_nil_of_mem_piece
  | cons mark marks ih =>
    intro cut h
    unfold cover at h
    split at h
    · exact ih _ _ cut h
    · simp only [List.mem_append] at h
      rcases h with h | h | h
      · exact text_ne_nil_of_mem_piece h
      · exact text_ne_nil_of_mem_piece h
      · exact ih _ _ cut h

theorem cover_nil (position : Nat) (marks : List Mark) : cover position [] marks = [] := by
  induction marks generalizing position with
  | nil => rfl
  | cons mark marks ih =>
    unfold cover
    split
    · exact ih _
    · exact ih _

theorem piece_of_ne_nil {text : List Char} (style : Style) (h : text ≠ []) :
    piece style text = [⟨style, text⟩] :=
  if_neg (by simpa using h)

theorem byteSize_lt_of_ne_nil {more : List Char} (text : List Char) (h : more ≠ []) :
    byteSize text < byteSize (text ++ more) := by
  obtain ⟨c, more, rfl⟩ := List.exists_cons_of_ne_nil h
  have hc := c.utf8Size_pos
  simp only [Text.byteSize_append, byteSize]
  omega

/-- Behind the end of the line nothing is cut off. -/
theorem Cuts.eq_nil {pieces : List Piece} (h : Cuts line position marks pieces)
    (hend : byteSize line ≤ position) : pieces = [] := by
  cases h with
  | finished => rfl
  | unmarked h | skip h | gap h | take h | drop h => omega

/-- Where nothing lies before a mark that is not empty, its own piece is cut off. -/
theorem cuts_mark {body after : List Char} (hline : line = front ++ (body ++ after))
    (hne : mark.span.start < mark.span.stop)
    (hstart : boundaryFrom line mark.span.start ≤ byteSize front)
    (hbody : byteSize (front ++ body) = max (byteSize front) (boundaryFrom line mark.span.stop))
    {pieces : List Piece} (later : Cuts line (byteSize (front ++ body)) marks pieces) :
    Cuts line (byteSize front) (mark :: marks) (piece mark.style body ++ pieces) := by
  by_cases hend : byteSize line ≤ byteSize front
  · obtain rfl : body = [] := by
      by_contra hne
      have hmore : body ++ after ≠ [] := by simp [hne]
      have := byteSize_lt_of_ne_nil front hmore
      rw [← hline] at this
      omega
    rw [List.append_nil] at later
    rw [later.eq_nil hend]
    exact .finished hend
  have hlt : byteSize front < byteSize line := Nat.lt_of_not_le hend
  by_cases hstop : mark.span.stop ≤ byteSize front
  · have hb : boundaryFrom line mark.span.stop ≤ byteSize front :=
      Text.boundaryFrom_le ⟨front, _, hline, rfl⟩ ((Nat.min_le_left _ _).trans hstop)
    obtain rfl : body = [] := by
      by_contra hne
      have := byteSize_lt_of_ne_nil front hne
      omega
    rw [List.append_nil] at later
    exact .skip hlt (.inr hstop) later
  · have hb := Text.le_boundaryFrom line mark.span.stop
    have hsize : byteSize (front ++ body) = boundaryFrom line mark.span.stop := by omega
    have hbody : body ≠ [] := by
      rintro rfl
      rw [List.append_nil] at hsize
      omega
    have hslice : slice? line (byteSize front) (boundaryFrom line mark.span.stop) = some body := by
      rw [← hsize, Text.byteSize_append, hline]
      exact Text.slice?_append front body after
    rw [piece_of_ne_nil _ hbody]
    rw [hsize] at later
    refine .take hlt ⟨?_, by omega⟩ (by omega) (by omega) hslice later
    exact decide_eq_false (Nat.not_le.2 hne)

/-- The pass ends from any boundary on, and never cuts a character. -/
theorem cuts_cover (hline : line = front ++ rest) (marks : List Mark) :
    Cuts line (byteSize front) marks (cover (byteSize front) rest marks) := by
  induction marks generalizing front rest with
  | nil =>
    by_cases hrest : rest = []
    · subst hrest
      exact .finished (by rw [hline, List.append_nil])
    · have hslice := Text.slice?_append front rest []
      rw [List.append_nil, ← hline, ← Text.byteSize_append, ← hline] at hslice
      rw [cover, piece_of_ne_nil _ hrest]
      exact .unmarked (hline ▸ byteSize_lt_of_ne_nil front hrest) hslice
  | cons mark marks ih =>
    by_cases hend : byteSize line ≤ byteSize front
    · obtain rfl : rest = [] := by
        by_contra hne
        have := byteSize_lt_of_ne_nil front hne
        rw [← hline] at this
        omega
      rw [cover_nil]
      exact .finished hend
    have hlt : byteSize front < byteSize line := Nat.lt_of_not_le hend
    by_cases hskip : (mark.span.isEmpty || decide (mark.span.stop ≤ byteSize front)) = true
    · rw [cover, if_pos hskip]
      rw [Bool.or_eq_true, decide_eq_true_eq] at hskip
      exact .skip hlt hskip (ih hline)
    · obtain ⟨gap, body, after, rfl, hgap, hbody, hcover⟩ := exists_parts marks hline hskip
      simp only [Bool.or_eq_true, decide_eq_true_eq, not_or, Nat.not_le, Bool.not_eq_true] at hskip
      have hne : mark.span.start < mark.span.stop := Nat.lt_of_not_le (of_decide_eq_false hskip.1)
      have hline' : line = front ++ gap ++ (body ++ after) := by simpa using hline
      have hlater : line = front ++ gap ++ body ++ after := by simpa using hline
      have later := ih hlater
      have own := cuts_mark hline' hne (by omega) hbody later
      rw [hcover]
      by_cases hgapNil : gap = []
      · subst hgapNil
        have hnone : piece .default [] = [] := rfl
        simpa [hnone] using own
      have hsize := byteSize_lt_of_ne_nil front hgapNil
      have hfrom : byteSize (front ++ gap) = boundaryFrom line mark.span.start := by omega
      have hahead : byteSize front < mark.span.start := by
        by_contra hbehind
        have : boundaryFrom line mark.span.start ≤ byteSize front :=
          Text.boundaryFrom_le ⟨front, _, hline, rfl⟩ (by omega)
        omega
      have hslice :
          slice? line (byteSize front) (boundaryFrom line mark.span.start) = some gap := by
        rw [← hfrom, Text.byteSize_append, hline]
        exact Text.slice?_append front gap (body ++ after)
      rw [piece_of_ne_nil _ hgapNil]
      rw [hfrom] at own
      exact .gap hlt hskip ⟨hahead, by omega⟩ hslice own

/-- **Marks cover a line exactly.** Whatever marks there are, the pass over a line ends without ever
cutting a character, no piece that it cuts off is empty, and together they are the line. The style
of the character at an offset is that of the first mark in the list that is not empty and ends
behind it, both ends rounded up to characters; or none, if that mark begins behind it or there is
none. -/
theorem cover_styles (line : List Char) (marks : List Mark) :
    (∀ offset, IsLeast {boundary | IsBoundary line boundary ∧ min offset (byteSize line) ≤ boundary}
        (boundaryFrom line offset)) ∧
      Cuts line 0 marks (cover 0 line marks) ∧
      (∀ cut ∈ cover 0 line marks, cut.text ≠ []) ∧
      ((cover 0 line marks).map Piece.text).flatten = line ∧
      charStyles (cover 0 line marks) = (startsFrom 0 line).map (styleAt line marks) :=
  have hline : line = [] ++ line := rfl
  ⟨Text.isLeast_boundaryFrom line, cuts_cover hline marks, text_ne_nil_of_mem_cover 0 line marks,
    flatten_cover 0 line marks, charStyles_cover hline marks⟩

/-- The first mark ends inside of the second character and takes all of it; the second runs
backwards; the third begins where the first has ended. -/
example : cover 0 "aéb".toList [⟨.number, ⟨1, 2⟩⟩, ⟨.keyword, ⟨3, 1⟩⟩, ⟨.string, ⟨0, 9⟩⟩] =
    [⟨.default, ['a']⟩, ⟨.number, ['é']⟩, ⟨.string, ['b']⟩] := by decide +kernel

end ReplayShell.Terminal
