import ReplayShell.Diagnostic
import ReplayShell.Terminal.Output
import ReplayShell.Text.Bytes
import ReplayShell.Text.Lines

/-!
# Reports of diagnostics

A diagnostic is reported by its place and message, then the source line with the span painted.

* `SourceLocation.of` finds the line and column of a byte offset in a text; an offset past the end
  or inside a character counts as the boundary before it.
* `report` writes a list of diagnostics about a text.
-/
namespace ReplayShell

/-- The place of a byte offset: line and column from zero, and the bytes of the line without its
line end. -/
structure SourceLocation where
  line : Nat
  column : Nat
  lineStart : Nat
  lineEnd : Nat
  /-- The text of the line. -/
  lineText : List Char
  deriving DecidableEq, Repr

/-- The place of a byte offset in a text. -/
def SourceLocation.of (text : List Char) (offset : Nat) : SourceLocation :=
  let (before, after) := Text.splitFloor offset text
  let lines := Text.splitLines before
  let beforeInLine := lines.getLast?.getD []
  let lineText := Text.dropReturn (beforeInLine ++ after.takeWhile (· ≠ '\n'))
  let lineStart := Text.byteSize before - Text.byteSize beforeInLine
  { line := lines.length - 1
    column := beforeInLine.length
    lineStart := lineStart
    lineEnd := lineStart + Text.byteSize lineText
    lineText := lineText }

/-- Moves an offset into a range. -/
def clamp (low high offset : Nat) : Nat := max low (min high offset)

/-- The line with the bytes of the span painted; not painted if the span cuts a character. -/
def underline (location : SourceLocation) (span : Span) : Terminal.Output :=
  let start := clamp location.lineStart location.lineEnd span.start
  let stop := clamp start location.lineEnd span.stop
  let whole := Terminal.Output.plain (String.ofList location.lineText)
  match Text.splitExact? (start - location.lineStart) location.lineText with
  | none => whole
  | some (before, fromStart) =>
    match Text.splitExact? (stop - start) fromStart with
    | none => whole
    | some (inside, after) =>
      Terminal.Output.plain (String.ofList before) ++
        Terminal.Output.painted .red (String.ofList inside) ++
        Terminal.Output.plain (String.ofList after)

/-- The report of one diagnostic. -/
def reportOne (text : List Char) (diagnostic : Diagnostic) : Terminal.Output :=
  let location := SourceLocation.of text diagnostic.span.start
  let header := "(" ++ toString (location.line + 1) ++ ", " ++ toString (location.column + 1) ++
    "): " ++ diagnostic.problem.message
  Terminal.Output.paintedLine .red header ++ Terminal.Output.plain "    " ++
    underline location diagnostic.span ++ Terminal.Output.plain "\n"

/-- The report of diagnostics in their order. -/
def report (text : List Char) (diagnostics : List Diagnostic) : Terminal.Output :=
  diagnostics.flatMap (reportOne text)

end ReplayShell
