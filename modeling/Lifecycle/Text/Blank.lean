import Lifecycle.Text.Ranges

/-! # White space

The class of blanks is larger than the one of core: it holds the four ASCII separators 28 to 31, the
next-line control and the Unicode spaces. -/

namespace Lifecycle.Text

/-- Every blank, as closed ranges of code points. -/
def blankRanges : List Range :=
  [(9, 13), (28, 32), (133, 133), (160, 160), (5760, 5760), (8192, 8202), (8232, 8233),
    (8239, 8239), (8287, 8287), (12288, 12288)]

/-- The character is white space. -/
def isBlank (c : Char) : Bool := inRanges blankRanges c.toNat

/-- The character is white space other than one of the four separators. -/
def isSpace (c : Char) : Bool := isBlank c && !(28 ≤ c.toNat && c.toNat ≤ 31)

/-- The text holds nothing but white space. -/
def allBlank (s : String) : Bool := s.toList.all isBlank

/-- The list without the leading and trailing members that satisfy `p`. -/
def trim {α : Type} (p : α → Bool) (l : List α) : List α :=
  (((l.dropWhile p).reverse).dropWhile p).reverse

/-- The text without the white space around it. -/
def strip (s : String) : String := String.ofList (trim isBlank s.toList)

theorem isBlank_of_isWhitespace {c : Char} (h : c.isWhitespace = true) : isBlank c = true := by
  have : c = ' ' ∨ c = '\t' ∨ c = '\r' ∨ c = '\n' := by
    simpa [Char.isWhitespace, or_assoc] using h
  rcases this with rfl | rfl | rfl | rfl <;> decide

end Lifecycle.Text
