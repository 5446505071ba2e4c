import Sieve.Binary64.Basic

/-!
The shortest decimal that reads back as a given binary64 number. A decimal reads back when it lies
between the midpoints to the two neighbours of the number, midpoints included when the last binary
digit is even. Grids of 1 to 17 digits are tried in turn; on the first one that has such a point
the point nearest to the number is taken, and of two equally near ones the even one.
-/

namespace Sieve

/-- A decimal number `coefficient * 10 ^ exponent`. -/
structure Decimal where
  coefficient : Nat
  exponent : Int
deriving DecidableEq

namespace Decimal

/-- The same decimal with as few digits in the coefficient as it has. -/
def trim (coefficient : Nat) (exponent : Int) : Decimal :=
  go coefficient coefficient exponent
where
  go : Nat → Nat → Int → Decimal
    | 0, c, e => ⟨c, e⟩
    | rounds + 1, c, e => if 0 < c ∧ c % 10 = 0 then go rounds (c / 10) (e + 1) else ⟨c, e⟩

end Decimal

namespace Binary64

/-- The decimals that read back as a number: an interval counted in quarters of a unit. -/
structure Neighbourhood where
  low : Nat
  high : Nat
  closed : Bool

/-- Below a power of two the numbers lie twice as close, so the lower midpoint is nearer there. -/
def neighbourhood (x : Binary64) : Neighbourhood :=
  let gap := Nat.pow 2 x.place
  let narrow := x.significand == binadeSize && decide (0 < x.place)
  { low := 4 * x.units - (if narrow then gap else 2 * gap)
    high := 4 * x.units + 2 * gap
    closed := x.significand % 2 == 0 }

/-- The interval holds `n / d` quarters. -/
def Neighbourhood.has (i : Neighbourhood) (n d : Nat) : Bool :=
  if i.closed then decide (i.low * d ≤ n) && decide (n ≤ i.high * d)
  else decide (i.low * d < n) && decide (n < i.high * d)

/-- The power of ten of the first digit of a number that is not zero. The smallest number is above
`10 ^ (-324)`, so counted in that it is at least one. -/
def leadingExponent (x : Binary64) : Int :=
  ((Nat.toDigits 10 (x.units * Nat.pow 10 324 / unitsPerOne)).length : Int) - 325

/-- The point nearest to `x` among the multiples of `10 ^ exponent` that read back as `x`. -/
def nearestOnGrid? (x : Binary64) (exponent : Int) : Option Nat :=
  let up := Nat.pow 10 (-exponent).toNat
  let down := Nat.pow 10 exponent.toNat
  let n := x.units * up
  let d := unitsPerOne * down
  let below := n / d
  let hits (k : Nat) : Bool := x.neighbourhood.has (k * (4 * d)) up
  let remainder := n % d
  let nearAbove := decide (d < 2 * remainder) || (d == 2 * remainder && below % 2 == 1)
  match hits below, hits (below + 1) with
  | true, true => some (if nearAbove then below + 1 else below)
  | true, false => some below
  | false, true => some (below + 1)
  | false, false => none

/-- Seventeen digits tell any two numbers apart. -/
def digitsEnough : Nat := 17

/-- The shortest decimal for the magnitude of a finite number. -/
def shortest (x : Binary64) : Decimal :=
  if x.isZero then ⟨0, 0⟩ else
    let top := x.leadingExponent
    let attempt (count : Nat) : Option Decimal :=
      let exponent := top - count
      (x.nearestOnGrid? exponent).map fun k => Decimal.trim k exponent
    ((List.range digitsEnough).findSome? attempt).getD ⟨0, 0⟩

end Binary64

end Sieve
