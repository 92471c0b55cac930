import ReplayShell.Shell.Readiness
import ReplayShell.Text.Cluster

/-!
# Input

Input comes line by line, and the lines are put together until they can be submitted.

* `Input.ofText` and `Input.ofBytes` take the input apart into lines, which keep their ends.
* `rubOut` applies the backspaces in a text; `Kept` is what they have left.
* `exists_of_takeBytes` says that a backspace takes back as many bytes as it is told.
* A `LineReader` adds a line to what is pending: the result is an entry, which is ready, or is still
  pending. `advance` is the one of the program. The end of an entry's last line is not a part of it.
* `entries` are the entries of all lines, and what is left over.
-/
namespace ReplayShell.Input

/-- How a line ends. Only the last line of all may lack an end. -/
inductive LineEnd where
  | missing
  | feed
  | returnFeed
  deriving DecidableEq, Repr

/-- The characters of a line end. -/
def LineEnd.text : LineEnd → List Char
  | .missing => []
  | .feed => ['\n']
  | .returnFeed => ['\r', '\n']

/-- Takes the end off a line. -/
def splitEnd (line : List Char) : List Char × LineEnd :=
  if line.getLast? = some '\n' then
    let body := line.dropLast
    if body.getLast? = some '\r' then (body.dropLast, .returnFeed) else (body, .feed)
  else (line, .missing)

/-- The character that takes back the one before it. -/
def backspace : Char := '\x08'

/-- Sizes of clusters are kept modulo this number of bytes. -/
def sizeModulus : Nat := 256

/-- Takes bytes off the front of a text; none if that would tear a character. -/
def takeBytes : Nat → List Char → Option (List Char)
  | 0, text => some text
  | _ + 1, [] => none
  | size + 1, c :: rest =>
    if c.utf8Size ≤ size + 1 then takeBytes (size + 1 - c.utf8Size) rest else none

/-- What is taken off has the size that was asked for. -/
theorem exists_of_takeBytes {size : Nat} {text rest : List Char}
    (h : takeBytes size text = some rest) :
    ∃ taken, text = taken ++ rest ∧ Text.byteSize taken = size := by
  fun_induction takeBytes size text with
  | case1 text =>
    obtain rfl := Option.some.inj h
    exact ⟨[], rfl, rfl⟩
  | case2 => simp at h
  | case3 size c text fits ih =>
    obtain ⟨taken, rfl, hsize⟩ := ih h
    exact ⟨c :: taken, rfl, by rw [Text.byteSize, hsize]; omega⟩
  | case4 => simp at h

/-- What backspaces have left so far. -/
structure Kept where
  /-- The text, its last character first. -/
  text : List Char := []
  /-- The sizes of the clusters that can be taken back, the last one's first. -/
  sizes : List Nat := []
  deriving DecidableEq, Repr

/-- Adds a cluster, or takes one back if it is a backspace: as many bytes are removed as its size
says, so that of a cluster of `sizeModulus` bytes or more a part stays. -/
def Kept.add (kept : Kept) (cluster : List Char) : Option Kept :=
  if cluster = [backspace] then
    match kept.sizes with
    | [] => some kept
    | size :: sizes => (takeBytes size kept.text).map fun text => { text, sizes }
  else
    some
      { text := cluster.reverse ++ kept.text
        sizes := Text.byteSize cluster % sizeModulus :: kept.sizes }

/-- The text after each backspace has taken back the cluster before it; none if one would tear a
character. -/
def rubOut (text : List Char) : Option (List Char) :=
  if text.contains backspace then
    ((Text.clusters text).foldlM Kept.add {}).map fun kept => kept.text.reverse
  else some text

/-- A text that can be submitted, and the end of its last line. -/
structure Entry where
  text : List Char
  lineEnd : LineEnd
  deriving DecidableEq, Repr

/-- What is left where no entry is complete. -/
inductive Remainder where
  | pending (text : List Char)
  /-- A backspace would tear a character; nothing is read after it. -/
  | torn
  deriving DecidableEq, Repr

/-- What adding a line leads to. -/
inductive Progress where
  | ready (entry : Entry)
  | unready (remainder : Remainder)
  deriving DecidableEq, Repr

/-- What reads lines: it is given which texts are ready, the pending text, and a line. -/
abbrev LineReader := (ready : List Char → Bool) → (pending line : List Char) → Progress

/-- Adds a line to the pending text, and applies the backspaces in it. -/
def advance : LineReader := fun ready pending line =>
  let (body, lineEnd) := splitEnd line
  match rubOut (pending ++ body) with
  | none => .unready .torn
  | some text =>
    if ready text then .ready ⟨text, lineEnd⟩ else .unready (.pending (text ++ lineEnd.text))

/-- The entries that lines make after a pending text, and what is left after them. -/
def entriesFrom (reader : LineReader) (pending : List Char) :
    List (List Char) → List Entry × Remainder
  | [] => ([], .pending pending)
  | line :: lines =>
    match reader isReady pending line with
    | .unready (.pending text) => entriesFrom reader text lines
    | .unready .torn => ([], .torn)
    | .ready entry =>
      let (entries, remainder) := entriesFrom reader [] lines
      (entry :: entries, remainder)

/-- Cuts after each element that ends a piece. -/
def cutAfter [DecidableEq α] (last : α) : List α → List (List α)
  | [] => []
  | a :: rest =>
    if a = last then [a] :: cutAfter last rest
    else match cutAfter last rest with
      | [] => [[a]]
      | piece :: pieces => (a :: piece) :: pieces

theorem flatten_cutAfter [DecidableEq α] (last : α) (text : List α) :
    (cutAfter last text).flatten = text := by
  induction text with
  | nil => rfl
  | cons a rest ih =>
    unfold cutAfter
    split
    · simp [ih]
    · split
      · rename_i h
        rw [h] at ih
        simp [← ih]
      · rename_i h
        rw [h] at ih
        simp [← ih]

end Input

/-- Input as far as it is text. -/
structure Input where
  /-- The lines, with their ends. -/
  lines : List (List Char)
  /-- Whether a line that is not text comes after them. -/
  broken : Bool := false

namespace Input

/-- The input that is a text. -/
def ofText (text : List Char) : Input := { lines := cutAfter '\n' text }

/-- The lines that are text, up to one that is not. -/
def ofByteLines : List (List UInt8) → Input
  | [] => { lines := [] }
  | bytes :: rest =>
    match String.fromUTF8? bytes.toByteArray with
    | none => { lines := [], broken := true }
    | some line =>
      let input := ofByteLines rest
      { input with lines := line.toList :: input.lines }

/-- The input in some bytes. -/
def ofBytes (bytes : ByteArray) : Input := ofByteLines (cutAfter 10 bytes.toList)

/-- The entries of the input, and what is left after them. -/
def entries (input : Input) (reader : LineReader) : List Entry × Remainder :=
  entriesFrom reader [] input.lines

end Input

end ReplayShell
