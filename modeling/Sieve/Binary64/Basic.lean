/-!
Binary64 numbers, held by their bits. Below the sign the bits of a number grow with its magnitude,
so comparison is comparison of one integer per number, its rank; anything above the bits of
infinity is not a number and compares with nothing.
-/

namespace Sieve

/-- A binary64 number, held as its sixty-four bits: sign, exponent field, fraction. -/
structure Binary64 where
  bits : UInt64
deriving DecidableEq

namespace Binary64

/-- The value of the sign bit. -/
def signBit : Nat := 0x8000000000000000

/-- The bits of infinity below the sign: the exponent field is full and the fraction empty. -/
def infinityBits : Nat := 0x7ff0000000000000

/-- How many numbers have the same exponent field. -/
def binadeSize : Nat := 0x10000000000000

/-- The bits below the sign. -/
def magnitude (x : Binary64) : Nat := x.bits.toNat % signBit

def isNegative (x : Binary64) : Bool := decide (signBit ≤ x.bits.toNat)

def isNaN (x : Binary64) : Bool := decide (infinityBits < x.magnitude)

def isInfinite (x : Binary64) : Bool := x.magnitude == infinityBits

def isFinite (x : Binary64) : Bool := decide (x.magnitude < infinityBits)

/-- The number with the given sign and the given bits below it. -/
def ofMagnitude (negative : Bool) (magnitude : Nat) : Binary64 :=
  ⟨UInt64.ofNat (if negative then signBit + magnitude else magnitude)⟩

def zero : Binary64 := ofMagnitude false 0

def infinity (negative : Bool) : Binary64 := ofMagnitude negative infinityBits

/-- A quiet not-a-number. -/
def nan : Binary64 := ofMagnitude false (infinityBits + binadeSize / 2)

/-- The same magnitude under the other sign. -/
def neg (x : Binary64) : Binary64 := ofMagnitude (!x.isNegative) x.magnitude

/-- The place of a number on the line. Both zeros have rank 0. -/
def rank (x : Binary64) : Int := if x.isNegative then -x.magnitude else x.magnitude

/-- Equality of values: the zeros are equal, and not-a-number equals nothing. -/
def same (x y : Binary64) : Bool := !x.isNaN && !y.isNaN && x.rank == y.rank

def lt (x y : Binary64) : Bool := !x.isNaN && !y.isNaN && decide (x.rank < y.rank)

def le (x y : Binary64) : Bool := !x.isNaN && !y.isNaN && decide (x.rank ≤ y.rank)

def isZero (x : Binary64) : Bool := x.magnitude == 0

/-- The exponent field. -/
def exponentField (x : Binary64) : Nat := x.magnitude / binadeSize

/-- The digits of a finite number: the fraction, under a leading one unless the number is
subnormal. -/
def significand (x : Binary64) : Nat :=
  if x.exponentField = 0 then x.magnitude else binadeSize + x.magnitude % binadeSize

/-- The power of two that the last digit stands for, counted from the smallest one. -/
def place (x : Binary64) : Nat := x.exponentField - 1

/-- The magnitude of a finite number, counted in units of `2 ^ (-1074)`. -/
def units (x : Binary64) : Nat := x.significand * Nat.pow 2 x.place

/-- How many units make one. -/
def unitsPerOne : Nat := Nat.pow 2 1074

end Binary64

end Sieve
