/-!
# Byte offsets

Positions in a text are offsets into its UTF-8 form, and a cut must not fall inside a character.

* `byteSize` is the length of a text in bytes.
* `splitFloor` cuts at the last character boundary at or before an offset, `splitCeil` at the first
  one at or after it.
* `splitExact?` cuts at the offset itself and refuses one inside a character or past the end.
-/
namespace ReplayShell.Text

/-- The number of bytes of the text in UTF-8. -/
def byteSize : List Char → Nat
  | [] => 0
  | c :: rest => c.utf8Size + byteSize rest

/-- The characters that end at or before the offset, and the others. -/
def splitFloor : Nat → List Char → List Char × List Char
  | _, [] => ([], [])
  | offset, c :: rest =>
    if c.utf8Size ≤ offset then
      let (before, after) := splitFloor (offset - c.utf8Size) rest
      (c :: before, after)
    else ([], c :: rest)

/-- The characters that start before the offset, and the others. -/
def splitCeil : Nat → List Char → List Char × List Char
  | _, [] => ([], [])
  | offset, c :: rest =>
    if offset = 0 then ([], c :: rest)
    else
      let (before, after) := splitCeil (offset - c.utf8Size) rest
      (c :: before, after)

/-- Cuts the text at the offset if that is a character boundary. -/
def splitExact? (offset : Nat) (text : List Char) : Option (List Char × List Char) :=
  let parts := splitFloor offset text
  if byteSize parts.1 = offset then some parts else none

theorem byteSize_append (a b : List Char) : byteSize (a ++ b) = byteSize a + byteSize b := by
  induction a with
  | nil => simp [byteSize]
  | cons c a ih => simp [byteSize, ih, Nat.add_assoc]

theorem splitFloor_append (offset : Nat) (text : List Char) :
    (splitFloor offset text).1 ++ (splitFloor offset text).2 = text := by
  induction text generalizing offset with
  | nil => rfl
  | cons c rest ih =>
    unfold splitFloor
    split
    · exact congrArg (c :: ·) (ih _)
    · rfl

theorem splitCeil_append (offset : Nat) (text : List Char) :
    (splitCeil offset text).1 ++ (splitCeil offset text).2 = text := by
  induction text generalizing offset with
  | nil => rfl
  | cons c rest ih =>
    unfold splitCeil
    split
    · rfl
    · exact congrArg (c :: ·) (ih _)

theorem byteSize_splitFloor_le (offset : Nat) (text : List Char) :
    byteSize (splitFloor offset text).1 ≤ offset := by
  induction text generalizing offset with
  | nil => exact Nat.zero_le _
  | cons c rest ih =>
    unfold splitFloor
    split
    · have := ih (offset - c.utf8Size)
      simp only [byteSize]
      omega
    · exact Nat.zero_le _

end ReplayShell.Text
