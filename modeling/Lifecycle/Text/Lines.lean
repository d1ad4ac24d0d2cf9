/-! # Lines

A text is cut into lines at its breaks. Which characters break a line depends on where the text
comes from: in a file only the line feed and the carriage return do, in a worker's log the vertical
controls, the ASCII separators and the Unicode line ends do as well. Everywhere a carriage return
and the line feed after it are one break, and a last line without a break counts if it is not empty.
-/

namespace Lifecycle.Text

/-- Cuts the rest of a text while `line` is open; the open line is kept in reverse. -/
def cutFrom (isBreak : Char → Bool) : List Char → List Char → List (List Char)
  | line, [] => if line.isEmpty then [] else [line.reverse]
  | line, '\r' :: '\n' :: rest => line.reverse :: cutFrom isBreak [] rest
  | line, c :: rest =>
    if isBreak c then line.reverse :: cutFrom isBreak [] rest else cutFrom isBreak (c :: line) rest

/-- The lines of a text, without their breaks. -/
def cut (isBreak : Char → Bool) (text : List Char) : List (List Char) := cutFrom isBreak [] text

/-- What ends a line of a file. -/
def isFileBreak (c : Char) : Bool := c == '\n' || c == '\r'

/-- What ends a line of a worker's log but not a line of a file. -/
def isLogOnlyBreak (c : Char) : Bool :=
  c == '\x0b' || c == '\x0c' || c == '\x1c' || c == '\x1d' || c == '\x1e' || c == '\u0085' ||
    c == '\u2028' || c == '\u2029'

/-- What ends a line of a worker's log. -/
def isLogBreak (c : Char) : Bool := isFileBreak c || isLogOnlyBreak c

/-- The lines of a file or of standard input. -/
def fileLines (text : String) : List String := (cut isFileBreak text.toList).map String.ofList

/-- The lines of a worker's log. -/
def logLines (text : String) : List String := (cut isLogBreak text.toList).map String.ofList

theorem cut_nil (isBreak : Char → Bool) : cut isBreak [] = [] := rfl

end Lifecycle.Text
