import ReplayShell.Text.Ranges

/-!
# White space

* `blankRanges` is the Unicode property White_Space.
* `isBlank` decides it for a character.
* `trimStart` and `isBlankText` are the two uses of it on whole texts.
-/
namespace ReplayShell.Text

/-- The characters with the Unicode property White_Space. -/
def blankRanges : Ranges :=
  [(0x9, 0xd), (0x20, 0x20), (0x85, 0x85), (0xa0, 0xa0), (0x1680, 0x1680), (0x2000, 0x200a),
   (0x2028, 0x2029), (0x202f, 0x202f), (0x205f, 0x205f), (0x3000, 0x3000)]

/-- Whether the character is white space in Unicode's sense. -/
def isBlank (c : Char) : Bool := blankRanges.covers c

/-- The text without its leading white space. -/
def trimStart (text : List Char) : List Char := text.dropWhile isBlank

/-- Whether the text holds nothing but white space. -/
def isBlankText (text : List Char) : Bool := text.all isBlank

end ReplayShell.Text
