import Sieve.Decimal.Shortest

/-!
Decimal numerals: the digits of whole numbers, and decimal fractions either plainly or with a power
of ten. A style says which first digits are near enough to the point to be written plainly. A plain
fraction always has a digit after the point; a power of ten always has its sign and no padding.
-/

namespace Sieve

namespace Decimal

/-- The decimal digits of a natural number. -/
def digits (n : Nat) : List Char := Nat.toDigits 10 n

/-- The decimal digits of a whole number, after its sign if it is negative. -/
def wholeDigits (i : Int) : List Char :=
  if i < 0 then '-' :: digits i.natAbs else digits i.natAbs

/-- The digits of `n`, with zeros in front up to `width`. -/
def padded (width n : Nat) : List Char :=
  List.replicate (width - (digits n).length) '0' ++ digits n

/-- Powers of ten of the first digit that are written plainly. -/
structure Style where
  lowest : Int
  highest : Int

/-- Digits with a point after the first `whole` of them, filled up with zeros where they end
early. -/
def pointAfter (whole : Nat) (ds : List Char) : List Char :=
  let front := ds.take whole ++ List.replicate (whole - ds.length) '0'
  let back := ds.drop whole
  front ++ '.' :: (if back.isEmpty then ['0'] else back)

def plain (ds : List Char) (top : Int) : List Char :=
  if top < 0 then '0' :: '.' :: (List.replicate (-top - 1).toNat '0' ++ ds)
  else pointAfter (top.toNat + 1) ds

def withPower (ds : List Char) (top : Int) : List Char :=
  let front := match ds with
    | [] => []
    | [d] => [d]
    | d :: rest => d :: '.' :: rest
  let sign := if top < 0 then '-' else '+'
  front ++ 'e' :: sign :: digits top.natAbs

/-- The text of a decimal in a style. -/
def write (style : Style) (d : Decimal) : List Char :=
  let ds := digits d.coefficient
  let top := (ds.length : Int) - 1 + d.exponent
  if style.lowest ≤ top ∧ top ≤ style.highest then plain ds top else withPower ds top

end Decimal

end Sieve
