import ReplayShell.Syntax.Token
import ReplayShell.Terminal.Output
import ReplayShell.Text.Lines

/-!
# Highlighting

A line is cut into styled pieces that cover it exactly, whatever marks are given: they may overlap,
leave gaps, come in any order, or end inside a character.

* `cover` lays marks over a line; `flatten_cover`: the pieces put together are the line.
* `styledPieces` uses the tokens of the line as marks.
* `renderLine` paints a text as one line, `highlight` each line of a text on its own.
-/
namespace ReplayShell.Terminal

open Syntax (Category tokenize)

/-- The styles of pieces of a line. -/
inductive Style where
  | keyword
  | identifier
  | number
  | string
  | default
  deriving DecidableEq, Repr

/-- The style of a display class. -/
def Style.ofCategory : Category → Style
  | .keyword => .keyword
  | .identifier => .identifier
  | .number => .number
  | .string => .string
  | _ => .default

/-- The ink of a style; the default style is not painted. -/
def Style.ink : Style → Option Ink
  | .keyword => some .blue
  | .identifier => some .yellow
  | .number => some .cyan
  | .string => some .magenta
  | .default => none

/-- A claim that the bytes of a span have a style. -/
structure Mark where
  style : Style
  span : Span
  deriving DecidableEq, Repr

/-- A piece of a line in one style. -/
structure Piece where
  style : Style
  text : List Char
  deriving DecidableEq, Repr

/-- The piece as a list, empty if it has no text. -/
def piece (style : Style) (text : List Char) : List Piece :=
  if text.isEmpty then [] else [⟨style, text⟩]

/-- Lays marks over the rest of a line that starts at byte `position`. A mark that is empty or lies
behind is passed over; one that begins behind starts here; what no mark covers is default. -/
def cover (position : Nat) (rest : List Char) : List Mark → List Piece
  | [] => piece .default rest
  | mark :: marks =>
    if mark.span.isEmpty || mark.span.stop ≤ position then cover position rest marks
    else
      let (gap, fromMark) := Text.splitCeil (mark.span.start - position) rest
      let start := position + Text.byteSize gap
      let (body, after) := Text.splitCeil (mark.span.stop - start) fromMark
      piece .default gap ++ (piece mark.style body ++
        cover (start + Text.byteSize body) after marks)

/-- The tokens of a text as marks. -/
def tokenMarks (line : String) : List Mark :=
  (tokenize line).all.map fun token => ⟨.ofCategory token.kind.category, token.span⟩

/-- The styled pieces of a line. -/
def styledPieces (line : String) : List Piece := cover 0 line.toList (tokenMarks line)

/-- The fragment that shows a piece. -/
def Piece.fragment (piece : Piece) : Fragment := ⟨piece.style.ink, String.ofList piece.text⟩

/-- The text painted as one line. -/
def renderLine (line : String) : Output := (styledPieces line).map Piece.fragment

/-- The text with each of its lines painted on its own. -/
def highlight (text : String) : Output :=
  (Output.plain "\n").intercalate
    ((Text.splitLines text.toList).map fun line => renderLine (String.ofList line))

theorem flatten_piece (style : Style) (text : List Char) :
    ((piece style text).map Piece.text).flatten = text := by
  unfold piece
  split <;> simp_all

theorem flatten_cover (position : Nat) (rest : List Char) (marks : List Mark) :
    ((cover position rest marks).map Piece.text).flatten = rest := by
  induction marks generalizing position rest with
  | nil => exact flatten_piece .default rest
  | cons mark marks ih =>
    unfold cover
    split
    · exact ih position rest
    · simp only [List.map_append, List.flatten_append, flatten_piece, ih]
      rw [Text.splitCeil_append, Text.splitCeil_append]

end ReplayShell.Terminal
