import Sieve.Binary64.Basic

/-!
Rounding to binary64. A ratio of naturals goes to the nearest number, a half to the one whose last
digit is even; a magnitude past the largest finite number is infinity. The arithmetic of the number
reader rounds exact results this way.
-/

namespace Sieve.Binary64

/-- `n / d` to the nearest natural number, a half to the even one. -/
def roundHalfEven (n d : Nat) : Nat :=
  let quotient := n / d
  let remainder := n % d
  if 2 * remainder < d then quotient
  else if d < 2 * remainder then quotient + 1
  else quotient + quotient % 2

/-- The bits below the sign of the number nearest to `n / d`. A full significand carries into the
exponent field, which is the next binade. -/
def nearest (n d : Nat) : Nat :=
  let scaled := n * unitsPerOne
  let place := Nat.log2 (scaled / d) - 52
  min infinityBits (place * binadeSize + roundHalfEven scaled (d * Nat.pow 2 place))

def ofNat (n : Nat) : Binary64 := ofMagnitude false (nearest n 1)

def ofInt (i : Int) : Binary64 := ofMagnitude (decide (i < 0)) (nearest i.natAbs 1)

/-- The number nearest to `coefficient * 10 ^ exponent`. -/
def ofDecimal (negative : Bool) (coefficient : Nat) (exponent : Int) : Binary64 :=
  ofMagnitude negative
    (nearest (coefficient * Nat.pow 10 exponent.toNat) (Nat.pow 10 (-exponent).toNat))

/-- The product of two magnitudes that are finite numbers. -/
def mul (x y : Binary64) : Binary64 :=
  ofMagnitude false (nearest (x.units * y.units) (unitsPerOne * unitsPerOne))

/-- The quotient of two magnitudes that are finite numbers, the second not zero. -/
def div (x y : Binary64) : Binary64 := ofMagnitude false (nearest x.units y.units)

def powerOfTen (k : Nat) : Binary64 := ofNat (Nat.pow 10 k)

/-- The largest power of ten below infinity. -/
def largestPower : Nat := 308

/-- Divides by a power of ten, in steps no larger than the largest finite one. -/
def divideByPower (x : Binary64) (k : Nat) : Binary64 :=
  if k ≤ largestPower then div x (powerOfTen k)
  else if x.isZero then x
  else divideByPower (div x (powerOfTen largestPower)) (k - largestPower)
termination_by k
decreasing_by simp only [largestPower] at *; omega

/-- Multiplies by a power of ten. Only zero survives one past the largest finite one. -/
def multiplyByPower (x : Binary64) (k : Nat) : Binary64 :=
  if k ≤ largestPower then mul x (powerOfTen k)
  else if x.isZero then x
  else infinity false

/-- A magnitude times a power of ten, by one rounded operation wherever the power itself is
finite. -/
def scale (x : Binary64) (exponent : Int) : Binary64 :=
  if 0 ≤ exponent then x.multiplyByPower exponent.toNat
  else x.divideByPower (-exponent).toNat

end Sieve.Binary64
