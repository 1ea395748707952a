import Licensing.Text.CodePoints

/-! # White space

White space in the sense of Unicode, together with the four separators U+001C to U+001F, which
end a field, a record, a group or a file.

* `isBlank` — the class.
* `strip` — a text without the white space at both ends.
-/

namespace Licensing.Text

def blanks : CodeRanges :=
  [(0x9, 0xD), (0x1C, 0x20), (0x85, 0x85), (0xA0, 0xA0), (0x1680, 0x1680), (0x2000, 0x200A),
   (0x2028, 0x2029), (0x202F, 0x202F), (0x205F, 0x205F), (0x3000, 0x3000)]

/-- Whether `c` is white space. -/
def isBlank (c : Char) : Bool :=
  blanks.has c

def strip (text : List Char) : List Char :=
  ((text.dropWhile isBlank).reverse.dropWhile isBlank).reverse

/-- `strip` on strings. -/
def stripString (text : String) : String :=
  String.ofList (strip text.toList)

/-- Whether nothing but white space occurs in the text. -/
def isAllBlank (text : String) : Bool :=
  text.toList.all isBlank

theorem isBlank_of_isWhitespace {c : Char} (h : c.isWhitespace = true) : isBlank c = true := by
  have : c = ' ' ∨ c = '\t' ∨ c = '\r' ∨ c = '\n' := by
    simpa [Char.isWhitespace, or_assoc] using h
  rcases this with rfl | rfl | rfl | rfl <;> decide

end Licensing.Text
