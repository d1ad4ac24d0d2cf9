/-! # Digits of whole numbers

A whole number of any size can be reckoned with, but its decimal text is limited: a text with more
digits is not read, and a number with more digits is not written. The limit on writing belongs to
the process and may be lifted. -/

namespace Lifecycle.Number

/-- The number of decimal digits of a whole number. -/
def digitCount (n : Nat) : Nat := (Nat.toDigits 10 n).length

/-- The number can be written where numbers of more than `limit` digits cannot. Without a limit every
number can be written. -/
def isWithin (limit : Option Nat) (n : Int) : Bool := limit.all fun most => digitCount n.natAbs ≤ most

/-- The largest number of digits of a whole number in text, unless another limit is set. -/
def maxDigits : Nat := 4300

/-- The number can be written. -/
def isWritable (n : Int) : Bool := isWithin (some maxDigits) n

end Lifecycle.Number
