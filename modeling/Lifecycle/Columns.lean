import Lifecycle.Text.Blank
import Lifecycle.Text.Pictorial
import Lifecycle.Text.ZeroWidth

/-! # Columns

On a terminal a character takes one column or, like controls and combining marks, none. Two
characters act on their neighbours: a joiner shows the character behind it together with what stands
before it, and a selector turns the character before it into a picture of two columns. A text that
has to fit into a number of columns is cut into lines at its blanks; what happens to a word that
does not fit into any line depends on where the text stands. -/

namespace Lifecycle.Columns

/-! ### Measuring -/

/-- The character that joins the one behind it to what stands before it. -/
def joiner : Char := '\u200d'

/-- The character that asks for a picture of the character before it. -/
def selector : Char := '\ufe0f'

/-- What is known of a text while it is measured. -/
structure Measure where
  columns : Nat := 0
  /-- The last character that took a column, if no selector stood behind it. -/
  last : Option Char := none
  /-- A joiner waits for the next character. -/
  joining : Bool := false
  deriving DecidableEq, Repr

/-- Goes on to the next character. -/
def Measure.step (m : Measure) (c : Char) : Measure :=
  if m.joining then { m with joining := false }
  else if c == joiner then { m with joining := true }
  else if c == selector then
    { m with columns := m.columns + (if m.last.any Text.isPictorial then 1 else 0), last := none }
  else if Text.isZeroWidth c then m
  else { m with columns := m.columns + 1, last := some c }

/-- The number of columns that a text takes. -/
def count (text : List Char) : Nat := (text.foldl Measure.step {}).columns

/-- Puts the parts of a line together that stand between tabs, from a column on. In place of a tab
stand a space and as many more as reach up to the next column that is a multiple of eight. -/
def joinTabs (column : Nat) : List (List Char) → List Char
  | [] => []
  | [part] => part
  | part :: rest =>
    let spaced := part ++ [' ']
    let reached := column + count spaced
    let more := (8 - reached % 8) % 8
    spaced ++ List.replicate more ' ' ++ joinTabs (reached + more) rest

/-- The line with spaces in place of tabs. -/
def expandTabs (line : String) : List Char := joinTabs 0 ((line.splitOn "\t").map String.toList)

/-! ### Glyphs -/

/-- Characters that are shown as one and stay together. -/
structure Glyph where
  text : List Char
  columns : Nat
  deriving DecidableEq, Repr

/-- Goes on to the next character. The glyphs so far are kept with the last one first. A joiner at
the beginning of the text has nothing to join to. -/
def glyphStep (read : Measure × List Glyph) (c : Char) : Measure × List Glyph :=
  let (m, glyphs) := read
  let next := if glyphs.isEmpty && c == joiner then m else m.step c
  let taken := next.columns - m.columns
  match glyphs with
  | [] => (next, [⟨[c], taken⟩])
  | glyph :: before =>
    if 0 < taken && c != selector then (next, ⟨[c], taken⟩ :: glyphs)
    else (next, ⟨glyph.text ++ [c], glyph.columns + taken⟩ :: before)

/-- The glyphs of a text. -/
def glyphs (text : List Char) : List Glyph := (text.foldl glyphStep ({}, [])).2.reverse

/-- The characters of glyphs. -/
def spell (glyphs : List Glyph) : List Char := glyphs.flatMap Glyph.text

/-- The beginning of a text that takes so many columns. Where the end falls into a glyph, a space
stands in its place. -/
def take : Nat → List Glyph → List Char
  | _, [] => []
  | width, glyph :: rest =>
    if glyph.columns ≤ width then glyph.text ++ take (width - glyph.columns) rest
    else List.replicate width ' '

/-- Cuts glyphs into pieces of a width. The piece that is being filled, of `used` columns, is kept
with its last glyph first. -/
def chop (width : Nat) (piece : List Glyph) (used : Nat) : List Glyph → List (List Char)
  | [] => [spell piece.reverse]
  | glyph :: rest =>
    if width < used + glyph.columns then
      spell piece.reverse :: chop width [glyph] glyph.columns rest
    else chop width (glyph :: piece) (used + glyph.columns) rest

/-! ### Words -/

/-- Puts a character in front of a text that is cut into words: a blank belongs to the word before
it. -/
def consWord (c : Char) : List (List Char) → List (List Char)
  | [] => [[c]]
  | word :: rest =>
    if Text.isBlank c && !word.head?.any Text.isBlank then [c] :: word :: rest
    else (c :: word) :: rest

/-- Cuts a text into words. Each word is followed by its blanks, and the first one also preceded by
blanks. -/
def words (text : List Char) : List (List Char) :=
  match text.foldr consWord [] with
  | first :: second :: rest =>
    if first.all Text.isBlank then (first ++ second) :: rest else first :: second :: rest
  | short => short

/-- A text without the blanks at its end. -/
def trimEnd (text : List Char) : List Char := (text.reverse.dropWhile Text.isBlank).reverse

/-! ### Lines -/

/-- What happens to a word that is wider than a line. -/
inductive WideWord
  /-- It goes on in the next line. -/
  | folded
  /-- It has a line of its own, to be cut off. -/
  | alone
  deriving DecidableEq, Repr

/-- Fills lines of a width with words. The line that is being filled has words of `used` columns. A
word that is wider than a line begins a new one. -/
def fill (width : Nat) (wide : WideWord) (line : List Char) (used : Nat) :
    List (List Char) → List (List Char)
  | [] => [line]
  | word :: rest =>
    let needed := count (trimEnd word)
    if used + needed ≤ width then fill width wide (line ++ word) (used + count word) rest
    else
      let finished := if line.isEmpty then [] else [line]
      let pieces :=
        if width < needed ∧ wide = .folded then chop width [] 0 (glyphs word) else [word]
      let current := pieces.getLastD []
      finished ++ pieces.dropLast ++ fill width wide current (count current) rest

/-- Cuts a text without tabs and line feeds into lines. -/
def wrap (width : Nat) (wide : WideWord) (text : List Char) : List (List Char) :=
  fill width wide [] 0 (words text)

/-- The lines of a text. It begins a new line at every line feed. -/
def lines (width : Nat) (wide : WideWord) (text : String) : List (List Char) :=
  (text.splitOn "\n").flatMap fun line => wrap width wide (expandTabs line)

/-- The text with an ellipsis in place of what is too wide. -/
def cutOff (width : Nat) (text : List Char) : List Char :=
  if width < count text then take (width - 1) (glyphs text) ++ ['…'] else text

/-- The text without the blanks at its end that lie behind so many characters. -/
def trimBehind (width : Nat) (text : List Char) : List Char :=
  text.take (max width (trimEnd text).length)

/-- The text with spaces behind it, as many as it leaves free of a width. -/
def padRight (width : Nat) (text : List Char) : List Char :=
  text ++ List.replicate (width - count text) ' '

/-- The text with spaces behind it up to a width. A joiner at the end of the text takes the first of
them, and then one more is needed. -/
def padFully (width : Nat) (text : List Char) : List Char := padRight width (padRight width text)

/-- The text in the middle of a width, with the smaller half of the spaces in front of it. -/
def centre (width : Nat) (text : List Char) : List Char :=
  padRight width (List.replicate ((width - count text) / 2) ' ' ++ text)

end Lifecycle.Columns
