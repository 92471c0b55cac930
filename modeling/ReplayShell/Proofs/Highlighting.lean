import ReplayShell.Proofs.LineCuts
import ReplayShell.Proofs.Places
import ReplayShell.Proofs.TokenSpans
import ReplayShell.Terminal.Highlight

/-!
# Lines highlighted one by one

Only white space goes on over a line feed, and white space is not painted. So a text looks the same
whether it is cut into tokens as a whole or line by line.

* `styledPieces_eq`: the tokens of a line cover it with its lexemes.
* `shown` is what a text looks like; `shown_blank`: white space at the front stands for itself, so
  it does not matter where a run of it is cut.
* `shown_lineFeed` is the step over one line feed, `shown_splitLines` the whole text.
* `highlight_eq_renderLine`: both ways of painting give the same, whatever the painter, and without
  colour the text.
-/
namespace ReplayShell.Terminal

open Syntax (Lexeme Token lexemes)

/-! ## Lexemes as pieces -/

/-- A lexeme in the style of its kind. -/
def Piece.ofLexeme (lexeme : Lexeme) : Piece := ⟨.ofCategory lexeme.kind.category, lexeme.text⟩

/-- A token as a mark. -/
def Mark.ofToken (token : Token) : Mark := ⟨.ofCategory token.kind.category, token.span⟩

theorem splitCeil_byteSize (text rest : List Char) :
    Text.splitCeil (Text.byteSize text) (text ++ rest) = (text, rest) := by
  induction text with
  | nil => cases rest <;> rfl
  | cons c text ih =>
    have hc := c.utf8Size_pos
    rw [List.cons_append, Text.splitCeil, if_neg (by simp only [Text.byteSize]; omega)]
    simp only [Text.byteSize, Nat.add_sub_cancel_left, ih]

/-- A mark of just the text at the front takes it. -/
theorem cover_front {text : List Char} (h : text ≠ []) (style : Style) (position : Nat)
    (rest : List Char) (marks : List Mark) :
    cover position (text ++ rest) (⟨style, ⟨position, position + Text.byteSize text⟩⟩ :: marks) =
      ⟨style, text⟩ :: cover (position + Text.byteSize text) rest marks := by
  have hsize := Syntax.byteSize_pos h
  have hgap : Text.splitCeil 0 (text ++ rest) = ([], text ++ rest) := splitCeil_byteSize [] _
  have hahead : ((Span.mk position (position + Text.byteSize text)).isEmpty ||
      decide (position + Text.byteSize text ≤ position)) = false := by
    simp only [Span.isEmpty, Bool.or_self, decide_eq_false_iff_not]
    omega
  rw [cover, hahead]
  simp only [Bool.false_eq_true, if_false, Nat.sub_self, hgap, Text.byteSize, Nat.add_zero,
    Nat.add_sub_cancel_left, splitCeil_byteSize]
  simp [piece, h]

/-- Tokens that are laid out from where the text starts cover it with what they mark. -/
theorem cover_layOut (pieces : List Lexeme) (h : ∀ lexeme ∈ pieces, lexeme.text ≠ [])
    (position : Nat) (last : Mark) (hlast : last.span.isEmpty = true) :
    cover position (pieces.map Lexeme.text).flatten
        ((Syntax.layOut position pieces).map Mark.ofToken ++ [last]) =
      pieces.map Piece.ofLexeme := by
  induction pieces generalizing position with
  | nil => simp [Syntax.layOut, cover, hlast, piece]
  | cons lexeme rest ih =>
    have hne : lexeme.text ≠ [] := h lexeme (by simp)
    have hrest := ih (fun later hl => h later (List.mem_cons_of_mem _ hl))
      (position + Text.byteSize lexeme.text)
    calc cover position ((lexeme :: rest).map Lexeme.text).flatten
          ((Syntax.layOut position (lexeme :: rest)).map Mark.ofToken ++ [last])
        = Piece.ofLexeme lexeme :: cover (position + Text.byteSize lexeme.text)
            (rest.map Lexeme.text).flatten
            ((Syntax.layOut (position + Text.byteSize lexeme.text) rest).map Mark.ofToken ++
              [last]) := cover_front hne _ position _ _
      _ = (lexeme :: rest).map Piece.ofLexeme := by rw [hrest, List.map_cons]

/-- The styled pieces of a line are its lexemes. -/
theorem styledPieces_eq (line : String) :
    styledPieces line = (lexemes line.toList).map Piece.ofLexeme := by
  have hcover := cover_layOut (lexemes line.toList)
    (Syntax.text_ne_nil_of_mem_lexemes line.toList) 0
    (Mark.ofToken (Syntax.tokenize line).endOfFile)
    (by simp [Mark.ofToken, Syntax.tokenize, Span.isEmpty, Span.at])
  rw [Syntax.flatten_lexemes] at hcover
  rw [styledPieces, ← hcover, tokenMarks, Syntax.Tokens.all, List.map_append]
  rfl

/-! ## What a text looks like -/

/-- What the lexemes of a text look like, however they are painted. -/
def shown (paint : Painter) (text : List Char) : String :=
  Output.renderWith paint ((lexemes text).map fun lexeme => (Piece.ofLexeme lexeme).fragment)

theorem renderWith_renderLine (paint : Painter) (line : String) :
    (renderLine line).renderWith paint = shown paint line.toList := by
  rw [renderLine, styledPieces_eq, List.map_map, shown]
  rfl

theorem renderWith_cons (paint : Painter) (fragment : Fragment) (rest : Output) :
    Output.renderWith paint (fragment :: rest) =
      fragment.render paint ++ Output.renderWith paint rest := by
  rw [Output.renderWith, List.foldl_cons, Output.foldl_render, String.empty_append]

theorem shown_nil (paint : Painter) : shown paint [] = "" := by
  rw [shown, lexemes]
  rfl

theorem shown_cons (paint : Painter) (c : Char) (rest : List Char) :
    shown paint (c :: rest) = (Piece.ofLexeme (Lexeme.first c rest)).fragment.render paint ++
      shown paint (rest.drop ((Lexeme.first c rest).text.length - 1)) := by
  rw [shown, Syntax.lexemes_cons, List.map_cons, renderWith_cons, ← shown]

/-- A run of white space at the front is shown as it is. -/
theorem shown_run (paint : Painter) {c : Char} (hc : Text.isBlank c = true) (rest : List Char) :
    shown paint (c :: rest) = String.ofList (c :: rest.takeWhile Text.isBlank) ++
      shown paint (rest.dropWhile Text.isBlank) := by
  rw [shown, Syntax.lexemes_blank hc, List.map_cons, renderWith_cons, ← shown]
  rfl

/-- So is each character of it. -/
theorem shown_blank (paint : Painter) {c : Char} (hc : Text.isBlank c = true) (rest : List Char) :
    shown paint (c :: rest) = String.ofList [c] ++ shown paint rest := by
  have hrest : shown paint rest = String.ofList (rest.takeWhile Text.isBlank) ++
      shown paint (rest.dropWhile Text.isBlank) := by
    cases rest with
    | nil => simp [shown_nil]
    | cons d rest =>
      by_cases hd : Text.isBlank d = true
      · rw [shown_run paint hd, List.takeWhile_cons_of_pos hd, List.dropWhile_cons_of_pos hd]
      · rw [List.takeWhile_cons_of_neg hd, List.dropWhile_cons_of_neg hd, String.ofList_nil,
          String.empty_append]
  rw [shown_run paint hc, hrest, ← String.append_assoc, ← String.ofList_append,
    List.singleton_append]

/-- What is before a line feed and what is after it are shown apart. -/
theorem shown_lineFeed (paint : Painter) (line later : List Char) :
    shown paint (line ++ '\n' :: later) =
      shown paint line ++ (String.ofList ['\n'] ++ shown paint later) := by
  -- The induction takes lexeme by lexeme from the line, but white space character by character:
  -- the run that a line ends with goes on behind the line feed.
  induction hlength : line.length using Nat.strong_induction_on generalizing line with
  | _ length ih =>
    subst hlength
    cases line with
    | nil => rw [List.nil_append, shown_nil, String.empty_append, shown_blank paint (by decide)]
    | cons c rest =>
      by_cases hc : Text.isBlank c = true
      · rw [List.cons_append, shown_blank paint hc, shown_blank paint hc,
          ih rest.length (by simp) rest rfl, String.append_assoc]
      · have hfirst := Syntax.Lexeme.first_lineFeed (Bool.eq_false_iff.2 hc) rest later
        have hle : (Lexeme.first c rest).text.length - 1 ≤ rest.length := by
          have hprefix := (Lexeme.first_text_isPrefix c rest).length_le
          rw [List.length_cons] at hprefix
          omega
        have hshorter : (rest.drop ((Lexeme.first c rest).text.length - 1)).length <
            (c :: rest).length := by
          simp only [List.length_drop, List.length_cons]
          omega
        rw [List.cons_append, shown_cons, shown_cons, hfirst, List.drop_append_of_le_length hle,
          ih _ hshorter _ rfl, String.append_assoc]

/-! ## All lines -/

/-- The lines of a text, each painted on its own. -/
theorem shown_splitLines (paint : Painter) (text : List Char) :
    Output.renderWith paint ((Output.plain "\n").intercalate
        ((Text.splitLines text).map fun line => renderLine (String.ofList line))) =
      shown paint text := by
  have hline : ∀ line : List Char,
      (renderLine (String.ofList line)).renderWith paint = shown paint line := by
    intro line
    rw [renderWith_renderLine, String.toList_ofList]
  unfold Text.splitLines
  induction hlength : text.length using Nat.strong_induction_on generalizing text with
  | _ length ih =>
    subst hlength
    by_cases hfeed : '\n' ∈ text
    · obtain ⟨line, later, rfl, hno⟩ := List.eq_append_cons_of_mem hfeed
      obtain ⟨next, more, hmore⟩ := List.exists_cons_of_ne_nil (Text.cut_ne_nil '\n' later)
      have hlater := ih later.length (by simp; omega) later rfl
      rw [hmore, List.map_cons] at hlater
      rw [Path.cut_append, Path.cut_of_not_mem hno, hmore, List.singleton_append,
        List.map_cons, List.map_cons, List.intercalate_cons_cons, Output.renderWith_append,
        Output.renderWith_append, hlater, hline, shown_lineFeed, Output.renderWith_plain,
        String.append_assoc]
    · rw [Path.cut_of_not_mem hfeed, List.map_singleton,
        List.intercalate_singleton, hline]

/-- Without colour a text is shown as it is. -/
theorem shown_plain (text : List Char) : shown (painter false) text = String.ofList text := by
  have hplain : ∀ pieces : List Lexeme,
      Output.render false (pieces.map fun lexeme => (Piece.ofLexeme lexeme).fragment) =
        String.ofList (pieces.map Lexeme.text).flatten := by
    intro pieces
    induction pieces with
    | nil => rfl
    | cons lexeme rest ih =>
      have hfragment : (Piece.ofLexeme lexeme).fragment.render (painter false) =
          String.ofList lexeme.text := by
        unfold Fragment.render
        split <;> rfl
      rw [Output.render] at ih
      rw [Output.render, List.map_cons, renderWith_cons, ih, hfragment, List.map_cons,
        List.flatten_cons, String.ofList_append]
  have hlexemes := hplain (lexemes text)
  rwa [Syntax.flatten_lexemes] at hlexemes

/-- **Highlighting line by line.** A text with each of its lines cut into tokens and painted on its
own looks like the text cut into tokens as a whole, whatever the painter, and so with colour and
without; and without colour both are the text. -/
theorem highlight_eq_renderLine (text : String) :
    (∀ paint : Painter, (highlight text).renderWith paint = (renderLine text).renderWith paint) ∧
      (∀ color, (highlight text).render color = (renderLine text).render color) ∧
      (highlight text).render false = text ∧ (renderLine text).render false = text := by
  have hsame : ∀ paint : Painter,
      (highlight text).renderWith paint = (renderLine text).renderWith paint := by
    intro paint
    have hlines : (highlight text).renderWith paint = shown paint text.toList :=
      shown_splitLines paint text.toList
    rw [hlines, renderWith_renderLine]
  have hplain : (renderLine text).render false = text := by
    rw [Output.render, renderWith_renderLine, shown_plain, String.ofList_toList]
  exact ⟨hsame, fun color => hsame (painter color), (hsame (painter false)).trans hplain, hplain⟩

end ReplayShell.Terminal
