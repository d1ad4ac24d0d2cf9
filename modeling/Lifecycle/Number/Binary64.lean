import Lifecycle.Number.Digits

/-! # Binary64 values

A duration in the settings is a binary64 number. Here such a number is exact data: a signed
significand times a power of two, an infinity, or no number. Rounding takes an exact quotient to the
nearest value, a half going to the even neighbour, and nothing is left to machine arithmetic. -/

namespace Lifecycle

/-- A binary64 value. A finite value is `significand * 2 ^ exponent`, with the significand below
`2 ^ 53` and at least `2 ^ 52` unless the exponent is the least one. -/
inductive Binary64
  | nan
  | infinite (negative : Bool)
  | finite (negative : Bool) (significand : Nat) (exponent : Int)
  deriving DecidableEq, Repr, Inhabited

namespace Binary64

/-- A power of two. -/
def pow2 (k : Nat) : Nat := Nat.pow 2 k

/-- A power of ten. -/
def pow10 (k : Nat) : Nat := Nat.pow 10 k

/-- The exponent of the smallest values. -/
def minExponent : Int := -1074

/-- The exponent of the largest values. -/
def maxExponent : Int := 971

/-- Zero with a sign. -/
def zero (negative : Bool) : Binary64 := .finite negative 0 minExponent

/-- The quotient as a whole number, a half going to the even neighbour. -/
def divideEven (num den : Nat) : Nat :=
  let quotient := num / den
  let twice := 2 * (num % den)
  if twice < den then quotient
  else if den < twice then quotient + 1
  else quotient + quotient % 2

/-- The quotient `num / (den * 2 ^ e)` as a fraction of whole numbers. -/
def scaleDown (num den : Nat) (e : Int) : Nat × Nat :=
  (num * pow2 (-e).toNat, den * pow2 e.toNat)

/-- The exponent at which `num / den` has a significand of 53 bits, or the least exponent. -/
def exponentOf (num den : Nat) : Int :=
  let guess := (num.log2 : Int) - den.log2 - 52
  let (n, d) := scaleDown num den guess
  let e := if n < d * pow2 52 then guess - 1 else guess
  if e < minExponent then minExponent else e

/-- The value nearest to `num / den`. -/
def ofQuotient (negative : Bool) (num den : Nat) : Binary64 :=
  if num = 0 then zero negative
  else
    let e := exponentOf num den
    let (n, d) := scaleDown num den e
    let significand := divideEven n d
    let (significand, e) :=
      if significand = pow2 53 then (pow2 52, e + 1) else (significand, e)
    if maxExponent < e then .infinite negative else .finite negative significand e

/-- The value nearest to a rational number. -/
def ofRat (r : Rat) : Binary64 := ofQuotient (r < 0) r.num.natAbs r.den

/-- The value nearest to `digits * 10 ^ exponent`. Exponents far outside the range of the format are
answered without forming the power. -/
def ofDecimal (negative : Bool) (digits : Nat) (exponent : Int) : Binary64 :=
  let magnitude := (Number.digitCount digits : Int) + exponent
  if digits = 0 ∨ magnitude < -400 then zero negative
  else if 400 < magnitude then .infinite negative
  else ofQuotient negative (digits * pow10 exponent.toNat) (pow10 (-exponent).toNat)

/-- The exact value of a finite number. -/
def toRat? : Binary64 → Option Rat
  | .finite negative significand e =>
    let magnitude : Rat := mkRat (significand * pow2 e.toNat) (pow2 (-e).toNat)
    some (if negative then -magnitude else magnitude)
  | _ => none

theorem ofQuotient_zero (negative : Bool) (den : Nat) :
    ofQuotient negative 0 den = zero negative := by
  simp [ofQuotient]

end Binary64

end Lifecycle
