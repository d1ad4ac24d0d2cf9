import Lifecycle.Number.Reader

/-! # Loose numbers

People write numbers on the command line as they please. White space around a number, a plus sign,
leading zeros and single underscores mean nothing, and a whole number may have decimals that are all
zero. Digits are ASCII digits here. Among leading zeros underscores may stand in any number, so
`0__1` is one while `1__0` is no number. -/

namespace Lifecycle.Number

/-! ### Underscores -/

/-- Two underscores follow each other. -/
def hasDoubleUnderscore : List Char → Bool
  | '_' :: '_' :: _ => true
  | _ :: rest => hasDoubleUnderscore rest
  | [] => false

/-- The text without its underscores, if they are single and neither its first nor its last
character. -/
def dropLooseUnderscores (text : List Char) : Option (List Char) :=
  if text.head? == some '_' || text.getLast? == some '_' || hasDoubleUnderscore text then none
  else some (text.filter (· != '_'))

/-! ### Whole numbers -/

/-- What stands behind leading zeros and the underscores among them. The last of these, which is
`last` at first, is kept if no other digit follows. A minus sign may stand here as well. -/
def skipZeros (last : Char) : List Char → Option (List Char)
  | [] => some [last]
  | c :: rest =>
    if c == '0' || c == '_' then skipZeros c rest
    else if c.isDigit || c == '-' then some (c :: rest)
    else if c == '.' then some (last :: c :: rest)
    else none

/-- The text without its leading zeros, if it starts with a digit. -/
def dropLeadingZeros : List Char → Option (List Char)
  | [] => none
  | c :: rest =>
    if c == '0' then skipZeros '0' rest
    else if c.isDigit then some (c :: rest)
    else none

/-- The text without its decimals, if there are some and they are all zero. -/
def dropZeroDecimals (body : List Char) : List Char :=
  match body.dropWhile (· != '.') with
  | '.' :: '0' :: rest => if rest.all (· == '0') then body.takeWhile (· != '.') else body
  | _ => body

/-- A whole number without anything that means nothing, and of at most the largest number of digits.
-/
def plainWhole? (text : List Char) : Option Int :=
  let (negative, digits) := splitSign text
  let padded := digits.head? == some '0' && 1 < digits.length
  if !digits.isEmpty && digits.all Char.isDigit && !padded && digits.length ≤ maxDigits then
    some (signed negative (digitsValue digits))
  else none

/-- Reads a whole number. -/
def looseWhole? (text : String) : Option Int := do
  let (negative, body) := splitSign (Text.trim Text.isSpace text.toList)
  let body ← dropLeadingZeros body
  let whole := dropZeroDecimals (if negative then '-' :: body else body)
  plainWhole? (← dropLooseUnderscores whole)

/-! ### Other numbers -/

/-- Reads a number to the nearest binary64 value. Underscores mean nothing wherever they stand, also
beside a sign or a point and inside a word, but a text with underscores has no white space. -/
def looseBinary64? (text : String) : Option Binary64 :=
  (readPlain? (Text.trim Text.isSpace text.toList)).or
    ((dropLooseUnderscores text.toList).bind readPlain?)

end Lifecycle.Number
