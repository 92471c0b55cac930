/-!
# Terminal output

What the shell writes is a list of fragments, each with the ink it is painted in. Whether the
terminal shows colour is decided only when the fragments are rendered.

* `Ink.paint` wraps a text in the escape sequences of an ink. A `Painter` is any way of painting;
  `painter` is that of a terminal with or without colour.
* `Output.renderWith` joins the fragments, painted by a painter, and `Output.render` those for a
  terminal.
* `Output.renderWith_append` and `Output.renderWith_plain` say what rendering does to the pieces.
-/
namespace ReplayShell.Terminal

/-- The inks in use. -/
inductive Ink where
  | red
  | blue
  | yellow
  | cyan
  | magenta
  | gray
  | faint
  deriving DecidableEq, Repr

/-- The parameter of the escape sequence that selects the ink. -/
def Ink.code : Ink → String
  | .red => "31"
  | .blue => "34"
  | .yellow => "33"
  | .cyan => "36"
  | .magenta => "35"
  | .gray => "90"
  | .faint => "2"

/-- The escape sequence that selects the ink. -/
def Ink.opening (ink : Ink) : List Char := '\x1b' :: '[' :: ink.code.toList ++ ['m']

/-- The escape sequence that ends any ink. -/
def resetSequence : List Char := ['\x1b', '[', '0', 'm']

/-- Selects the ink again after every reset inside the text. -/
def reopen (opening : List Char) : List Char → List Char
  | '\x1b' :: '[' :: '0' :: 'm' :: rest => resetSequence ++ opening ++ reopen opening rest
  | c :: rest => c :: reopen opening rest
  | [] => []

/-- The text in the given ink, ended by a reset. -/
def Ink.paint (ink : Ink) (text : String) : String :=
  String.ofList (ink.opening ++ reopen ink.opening text.toList ++ resetSequence)

/-- A piece of output, painted unless `ink` is `none`. -/
structure Fragment where
  ink : Option Ink
  text : String
  deriving DecidableEq, Repr

/-- A way to paint a text in an ink. -/
abbrev Painter := Ink → String → String

/-- A terminal with or without colour. -/
def painter (color : Bool) : Painter := fun ink text => if color then ink.paint text else text

/-- The characters that the fragment becomes. -/
def Fragment.render (paint : Painter) (fragment : Fragment) : String :=
  match fragment.ink with
  | some ink => paint ink fragment.text
  | none => fragment.text

/-- Output in the order in which it is written. -/
abbrev Output := List Fragment

namespace Output

/-- The output as one text. -/
def renderWith (paint : Painter) (output : Output) : String :=
  output.foldl (fun text fragment => text ++ fragment.render paint) ""

/-- The output as one text for a terminal with or without colour. -/
def render (color : Bool) (output : Output) : String := output.renderWith (painter color)

/-- Text in the terminal's own ink. -/
def plain (text : String) : Output := [⟨none, text⟩]

/-- Text in an ink, not followed by a line end. -/
def painted (ink : Ink) (text : String) : Output := [⟨some ink, text⟩]

/-- A line painted without its line end. -/
def paintedLine (ink : Ink) (text : String) : Output := [⟨some ink, text⟩, ⟨none, "\n"⟩]

theorem foldl_render (paint : Painter) (output : Output) (text : String) :
    output.foldl (fun text fragment => text ++ fragment.render paint) text =
      text ++ output.renderWith paint := by
  induction output generalizing text with
  | nil => simp [renderWith]
  | cons fragment output ih =>
    simp only [renderWith, List.foldl_cons]
    rw [ih, ih ("" ++ fragment.render paint), String.empty_append, String.append_assoc]

theorem renderWith_append (paint : Painter) (first second : Output) :
    (first ++ second).renderWith paint = first.renderWith paint ++ second.renderWith paint := by
  rw [renderWith, List.foldl_append, foldl_render, ← renderWith]

theorem renderWith_plain (paint : Painter) (text : String) :
    (plain text).renderWith paint = text := by
  simp [plain, renderWith, Fragment.render]

theorem render_append (color : Bool) (first second : Output) :
    (first ++ second).render color = first.render color ++ second.render color :=
  renderWith_append _ _ _

theorem render_plain (color : Bool) (text : String) : (plain text).render color = text :=
  renderWith_plain _ _

end Output

end ReplayShell.Terminal
