import Lifecycle.Text.Printable

/-! # Quoted text

The quoted form of a text stands between two quote marks and shows every character that a terminal
would not: tabs and line ends by a letter, other characters that are not printable by their number
in two, four or eight hexadecimal digits. The mark is a single quote, unless the text holds single
quotes and no double quote. -/

namespace Lifecycle.Text

/-- The mark that encloses the quoted form of a text. -/
def quoteMark (text : List Char) : Char :=
  if text.contains '\x27' && !text.contains '\x22' then '\x22' else '\x27'

/-- The last `width` hexadecimal digits of `n`, in lower case. -/
def hex : Nat → Nat → List Char
  | 0, _ => []
  | width + 1, n => hex width (n / 16) ++ [Nat.digitChar (n % 16)]

theorem length_hex (width n : Nat) : (hex width n).length = width := by
  induction width generalizing n with
  | zero => rfl
  | succ width ih => simp [hex, ih]

/-- One character inside a quoted text. -/
def quoteChar (mark c : Char) : List Char :=
  if c == mark || c == '\\' then ['\\', c]
  else if c == '\t' then ['\\', 't']
  else if c == '\n' then ['\\', 'n']
  else if c == '\r' then ['\\', 'r']
  else if isPrintable c then [c]
  else if c.toNat < 256 then '\\' :: 'x' :: hex 2 c.toNat
  else if c.toNat < 65536 then '\\' :: 'u' :: hex 4 c.toNat
  else '\\' :: 'U' :: hex 8 c.toNat

/-- The quoted form, as characters. -/
def quotedChars (text : List Char) : List Char :=
  let mark := quoteMark text
  mark :: (text.flatMap (quoteChar mark) ++ [mark])

/-- The quoted form of a text. -/
def quoted (s : String) : String := String.ofList (quotedChars s.toList)

theorem quoteChar_ne_nil (mark c : Char) : quoteChar mark c ≠ [] := by
  unfold quoteChar
  repeat' split
  all_goals simp

end Lifecycle.Text
