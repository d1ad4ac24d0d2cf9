import Lifecycle.Number.Binary64

/-! # The shortest decimal

A binary64 value is written with the fewest digits that read back as the value, and of several such
decimals with the nearest. The reals that read back as a value form an interval around it, whose
ends belong to it if the significand is even. On the decimal grid with `n` digits only the two
neighbours of the value have to be tried. -/

namespace Lifecycle.Binary64

/-- `coefficient * 10 ^ exponent`. -/
structure Decimal where
  coefficient : Nat
  exponent : Int
  deriving DecidableEq, Repr, Inhabited

/-- The interval that reads back as a value, in quarters of the unit of its last place. -/
structure Around where
  low : Nat
  value : Nat
  high : Nat
  closed : Bool
  /-- The power of two that a quarter stands for. -/
  exponent : Int

/-- The interval of the finite value `significand * 2 ^ exponent`. Below a power of two the values
lie twice as dense. -/
def around (significand : Nat) (exponent : Int) : Around where
  low := if significand = pow2 52 ∧ minExponent < exponent then 4 * significand - 1
    else 4 * significand - 2
  value := 4 * significand
  high := 4 * significand + 2
  closed := significand % 2 = 0
  exponent := exponent - 2

/-- `quarters * 2 ^ e` measured in `10 ^ grid`, as a fraction of whole numbers. -/
def onGrid (e grid : Int) (quarters : Nat) : Nat × Nat :=
  (quarters * pow2 e.toNat * pow10 (-grid).toNat, pow2 (-e).toNat * pow10 grid.toNat)

/-- The grid point `c * 10 ^ grid` reads back as the value. -/
def Around.holds (a : Around) (grid : Int) (c : Nat) : Bool :=
  let low := onGrid a.exponent grid a.low
  let high := onGrid a.exponent grid a.high
  if a.closed then low.1 ≤ c * low.2 && c * high.2 ≤ high.1
  else low.1 < c * low.2 && c * high.2 < high.1

/-- The neighbour on the grid that reads back, the nearer one if both do. -/
def Around.onGrid? (a : Around) (grid : Int) : Option Nat :=
  let (n, d) := onGrid a.exponent grid a.value
  let below := n / d
  match a.holds grid below, a.holds grid (below + 1) with
  | true, true => some (divideEven n d)
  | true, false => some below
  | false, true => some (below + 1)
  | false, false => none

/-- The place of the leading digit: `10 ^ place` is at most the value and `10 ^ (place + 1)` is
above it. The smallest value is above `10 ^ -324`, so 350 more places leave a whole number. -/
def Around.leadingPlace (a : Around) : Int :=
  let (n, d) := onGrid a.exponent (-350) a.value
  (Number.digitCount (n / d) : Int) - 351

/-- The first grid with a hit, from `n` digits on, with `fuel` more grids to try. Seventeen digits
always suffice. -/
def Around.search (a : Around) (n : Nat) : Nat → Decimal
  | 0 => ⟨0, 0⟩
  | fuel + 1 =>
    let grid := a.leadingPlace + 1 - n
    match a.onGrid? grid with
    | some c => ⟨c, grid⟩
    | none => a.search (n + 1) fuel

/-- The coefficient without the zeros at its end. -/
def Decimal.trim (d : Decimal) : Nat → Decimal
  | 0 => d
  | fuel + 1 =>
    if d.coefficient ≠ 0 ∧ d.coefficient % 10 = 0 then
      Decimal.trim ⟨d.coefficient / 10, d.exponent + 1⟩ fuel
    else d

/-- The decimal with the fewest digits that reads back as the value. -/
def shortest (significand : Nat) (exponent : Int) : Decimal :=
  ((around significand exponent).search 1 17).trim 17

/-- The digits with the point behind the first `point` of them, and at least one digit on each side.
-/
def positional (digits : List Char) (point : Int) : List Char :=
  if point ≤ 0 then '0' :: '.' :: (List.replicate (-point).toNat '0' ++ digits)
  else
    let whole := digits.take point.toNat
    let fraction := digits.drop point.toNat
    whole ++ List.replicate (point.toNat - digits.length) '0' ++
      '.' :: (if fraction.isEmpty then ['0'] else fraction)

/-- The digits with the point behind the first one, and an exponent of at least two digits. -/
def scientific (digits : List Char) (exponent : Int) : List Char :=
  let power := Nat.toDigits 10 exponent.natAbs
  digits.take 1 ++ (if digits.length ≤ 1 then [] else '.' :: digits.drop 1) ++
    'e' :: (if exponent < 0 then '-' else '+') :: (List.replicate (2 - power.length) '0' ++ power)

/-- The text of a positive finite value: positional from `10 ^ -4` up to below `10 ^ 16`. -/
def magnitudeText (significand : Nat) (exponent : Int) : List Char :=
  if significand = 0 then ['0', '.', '0']
  else
    let d := shortest significand exponent
    let digits := Nat.toDigits 10 d.coefficient
    let point := (digits.length : Int) + d.exponent
    if -4 < point ∧ point ≤ 16 then positional digits point else scientific digits (point - 1)

/-- The text of a value. -/
def text : Binary64 → String
  | .nan => "nan"
  | .infinite negative => if negative then "-inf" else "inf"
  | .finite negative significand exponent =>
    String.ofList ((if negative then ['-'] else []) ++ magnitudeText significand exponent)

end Lifecycle.Binary64
