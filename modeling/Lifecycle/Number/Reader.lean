import Lifecycle.Number.Binary64
import Lifecycle.Text.Blank
import Lifecycle.Text.Digit
import Lifecycle.Text.Quoted

/-! # Reading numbers

Settings hold numbers as text. A number may have white space around it, digits of any script and
single underscores between digits. Whole numbers have any size up to a limit on their digits; other
numbers are read to the nearest binary64 value and may also be infinite or no number. -/

namespace Lifecycle.Number

/-- Why a text is no number. -/
inductive Fault
  | notWhole (text : String)
  | tooLong (digits : Nat)
  | notNumber (text : String)
  deriving DecidableEq, Repr

/-- The text of the refusal. A refused whole number is quoted in at most two hundred characters. -/
def Fault.message : Fault → String
  | .notWhole text =>
    "invalid literal for int() with base 10: " ++
      String.ofList ((Text.quotedChars text.toList).take 200)
  | .tooLong digits =>
    s!"Exceeds the limit ({maxDigits} digits) for integer string conversion: value has {digits} " ++
      "digits; use sys.set_int_max_str_digits() to increase the limit"
  | .notNumber text => "could not convert string to float: " ++ Text.quoted text

/-- A character as the reader sees it: above ASCII, a blank counts as a space and a digit of any
script as the ASCII digit of its value; all else is no part of a number. -/
def plainChar (c : Char) : Char :=
  if c.toNat < 127 then c
  else if Text.isBlank c then ' '
  else match Text.digit? c with
    | some d => Nat.digitChar d
    | none => '?'

/-- A space or one of the five controls from tab to carriage return. -/
def isPadding (c : Char) : Bool := c == ' ' || (9 ≤ c.toNat && c.toNat ≤ 13)

/-- The text in ASCII without the padding around it. -/
def normalise (text : String) : List Char := Text.trim isPadding (text.toList.map plainChar)

/-- A leading sign, and the rest. -/
def splitSign : List Char → Bool × List Char
  | '-' :: rest => (true, rest)
  | '+' :: rest => (false, rest)
  | rest => (false, rest)

/-- The text without its underscores, each of which must stand between two digits. `afterDigit` says
that a digit comes before. -/
def dropUnderscores (afterDigit : Bool) : List Char → Option (List Char)
  | [] => some []
  | '_' :: c :: rest =>
    if afterDigit && c.isDigit then (dropUnderscores true rest).map (c :: ·) else none
  | c :: rest => if c == '_' then none else (dropUnderscores c.isDigit rest).map (c :: ·)

/-- The value of a run of ASCII digits. -/
def digitsValue (digits : List Char) : Nat := digits.foldl (fun n c => 10 * n + (c.toNat - 48)) 0

/-- The value with its sign. -/
def signed (negative : Bool) (n : Nat) : Int := if negative then -(n : Int) else n

/-- Reads a whole number. The limit on its digits is checked before what follows them. -/
def readWhole (text : String) : Except Fault Int :=
  let (negative, body) := splitSign (normalise text)
  let run := body.takeWhile fun c => c.isDigit || c == '_'
  match dropUnderscores false run with
  | none => .error (.notWhole text)
  | some digits =>
    if digits.isEmpty then .error (.notWhole text)
    else if maxDigits < digits.length then .error (.tooLong digits.length)
    else if run.length < body.length then .error (.notWhole text)
    else .ok (signed negative (digitsValue digits))

/-- The exponent part at the end of a number: nothing, or a mark, a sign and at least one digit. -/
def readExponent : List Char → Option Int
  | [] => some 0
  | mark :: rest =>
    let (negative, digits) := splitSign rest
    if (mark == 'e' || mark == 'E') && !digits.isEmpty && digits.all Char.isDigit then
      some (signed negative (digitsValue digits))
    else none

/-- A decimal: digits with at most one point among them and at least one digit, and an exponent. -/
def readDecimal (negative : Bool) (body : List Char) : Option Binary64 :=
  let whole := body.takeWhile Char.isDigit
  let rest := body.dropWhile Char.isDigit
  let (fraction, rest) :=
    match rest with
    | '.' :: tail => (tail.takeWhile Char.isDigit, tail.dropWhile Char.isDigit)
    | _ => ([], rest)
  if whole.isEmpty && fraction.isEmpty then none
  else (readExponent rest).map fun e =>
    .ofDecimal negative (digitsValue (whole ++ fraction)) (e - fraction.length)

/-- The words for what is not finite, in any case. -/
def readWord (negative : Bool) (body : List Char) : Option Binary64 :=
  let word := String.ofList (body.map Char.toLower)
  if word = "inf" ∨ word = "infinity" then some (.infinite negative)
  else if word = "nan" then some .nan
  else none

/-- Reads an ASCII text without padding and underscores to the nearest binary64 value. -/
def readPlain? (text : List Char) : Option Binary64 :=
  let (negative, body) := splitSign text
  (readWord negative body).or (readDecimal negative body)

/-- Reads a number to the nearest binary64 value. -/
def readBinary64 (text : String) : Except Fault Binary64 :=
  match (dropUnderscores false (normalise text)).bind readPlain? with
  | some value => .ok value
  | none => .error (.notNumber text)

end Lifecycle.Number
