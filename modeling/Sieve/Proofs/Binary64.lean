import Mathlib.Algebra.Group.Nat.Defs
import Sieve.Json.Basic

/-!
Where rounding stays finite. A whole number below the last power of two in reach rounds to a finite
binary64 number, and every number of a JSON value is such a number.
-/

namespace Sieve

namespace Binary64

theorem isFinite_ofMagnitude {negative : Bool} {magnitude : Nat} (h : magnitude < infinityBits) :
    (ofMagnitude negative magnitude).isFinite = true := by
  have held : (ofMagnitude negative magnitude).magnitude = magnitude := by
    cases negative <;>
      simp only [Binary64.magnitude, ofMagnitude, UInt64.toNat_ofNat', infinityBits, signBit,
        Bool.false_eq_true, ↓reduceIte] at h ⊢ <;>
      omega
  rw [isFinite, held]
  exact decide_eq_true h

theorem roundHalfEven_le (n d : Nat) : roundHalfEven n d ≤ n / d + 1 := by
  simp only [roundHalfEven]
  split
  · omega
  · split <;> omega

/-- What is left of a number above its place has at most fifty-three binary digits. -/
theorem div_place_lt (n : Nat) : n / 2 ^ (n.log2 - 52) < 2 ^ 53 := by
  rw [Nat.div_lt_iff_lt_mul (Nat.two_pow_pos _), ← Nat.pow_add]
  calc n < 2 ^ (n.log2 + 1) := Nat.lt_log2_self
    _ ≤ 2 ^ (53 + (n.log2 - 52)) := Nat.pow_le_pow_right (by decide) (by omega)

/-- Below `2 ^ 1022` even rounding up into the next binade stays below infinity. -/
theorem nearest_lt_infinityBits {n k : Nat} (h : n < 2 ^ k) (reach : k ≤ 1022) :
    nearest n 1 < infinityBits := by
  have one : unitsPerOne.log2 = 1074 := by decide +kernel
  have units : n * unitsPerOne < 2 ^ (k + (unitsPerOne.log2 + 1)) := by
    rw [Nat.pow_add]
    exact Nat.mul_lt_mul'' h Nat.lt_log2_self
  simp only [nearest, Nat.div_one, Nat.one_mul]
  rw [one] at units
  generalize n * unitsPerOne = scaled at units
  have place : scaled.log2 - 52 ≤ 2044 := by
    by_cases zero : scaled = 0
    · rw [zero, Nat.log2_zero]
      omega
    · have := (Nat.log2_lt zero).mpr units
      omega
  have rounded := roundHalfEven_le scaled (2 ^ (scaled.log2 - 52))
  have digits := div_place_lt scaled
  change min infinityBits (_ + roundHalfEven scaled (2 ^ (scaled.log2 - 52))) < _
  simp only [infinityBits, binadeSize]
  omega

theorem isFinite_ofInt {i : Int} {k : Nat} (h : i.natAbs < 2 ^ k) (reach : k ≤ 1022) :
    (ofInt i).isFinite = true :=
  isFinite_ofMagnitude (nearest_lt_infinityBits h reach)

end Binary64

/-- A number of a JSON value is finite however it is held. -/
theorem Json.Number.isFinite_toBinary64 (n : Json.Number) : n.toBinary64.isFinite = true := by
  cases n with
  | binary x finite => exact finite
  | whole i above below =>
    have small : i.natAbs < 2 ^ 64 := by omega
    exact Binary64.isFinite_ofInt small (by decide)

end Sieve
