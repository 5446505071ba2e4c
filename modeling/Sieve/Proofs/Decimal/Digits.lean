import Mathlib.Algebra.Group.Nat.Defs
import Mathlib.Data.List.Basic
import Sieve.Decimal.Style

/-!
Decimal digits. A numeral has at least one digit, digits only, and no zero in front unless it is the
numeral of zero. The shortest decimal of a number that is not zero has digits other than zero.
-/

namespace Sieve

namespace Decimal

theorem digits_ne_nil (n : Nat) : digits n ≠ [] := Nat.toDigits_ne_nil

theorem isDigit_of_mem_digits {n : Nat} {c : Char} (h : c ∈ digits n) : c.isDigit = true :=
  Nat.isDigit_of_mem_toDigits (by decide) (by decide) h

/-- The first digit is the first digit of a tenth of the number. -/
theorem digits_head_ne_zero {n : Nat} (positive : 0 < n) (cs : List Char) :
    digits n ≠ '0' :: cs := by
  induction n using Nat.strongRecOn generalizing cs with
  | ind n ih =>
    by_cases small : n < 10
    · rw [digits, Nat.toDigits_of_lt_base small]
      intro h
      have single : n.digitChar = '0' := (List.cons.inj h).1
      revert single
      have each : ∀ k < 10, 0 < k → k.digitChar ≠ '0' := by decide
      exact each n small positive
    · rw [digits, Nat.toDigits_of_base_le (by decide) (by omega)]
      intro h
      obtain ⟨c, front, split⟩ := List.exists_cons_of_ne_nil (digits_ne_nil (n / 10))
      rw [digits] at split
      rw [split, List.cons_append] at h
      refine ih (n / 10) (by omega) (by omega) front ?_
      rw [digits, split, (List.cons.inj h).1]

theorem digits_zero : digits 0 = ['0'] := rfl

/-- Digits before something else show where they end and which number they are of. -/
theorem digits_append_cons_inj {m n : Nat} {c : Char} (stop : c.isDigit = false)
    {xs ys : List Char} (h : digits m ++ c :: xs = digits n ++ c :: ys) : m = n ∧ xs = ys := by
  have read (k : Nat) (rest : List Char) :
      (digits k ++ c :: rest).takeWhile Char.isDigit = digits k := by
    rw [List.takeWhile_append_of_pos fun d hd => isDigit_of_mem_digits hd,
      List.takeWhile_cons_of_neg (by rw [stop]; exact Bool.false_ne_true), List.append_nil]
  have same : digits m = digits n := by rw [← read m xs, h, read n ys]
  constructor
  · rw [← @Nat.ofDigitChars_ten_toDigits m, ← @Nat.ofDigitChars_ten_toDigits n]
    exact congrArg (Nat.ofDigitChars 10 · 0) same
  · rw [same] at h
    exact (List.cons.inj (List.append_cancel_left h)).2

theorem padded_ne_nil (width n : Nat) : padded width n ≠ [] := by
  rw [padded]
  exact List.append_ne_nil_of_right_ne_nil _ (digits_ne_nil n)

theorem isDigit_of_mem_padded {width n : Nat} {c : Char} (h : c ∈ padded width n) :
    c.isDigit = true := by
  rcases List.mem_append.mp h with zero | digit
  · rw [List.eq_of_mem_replicate zero]
    rfl
  · exact isDigit_of_mem_digits digit

/-- Zeros in front fill the width up, if the number fits in it at all. -/
theorem length_padded {width n : Nat} (positive : 0 < width) (h : n < 10 ^ width) :
    (padded width n).length = width := by
  have fits : (digits n).length ≤ width := (Nat.length_toDigits_le_iff (by decide) positive).mpr h
  rw [padded, List.length_append, List.length_replicate]
  omega

theorem ofDigitChars_padded (width n : Nat) : Nat.ofDigitChars 10 (padded width n) 0 = n := by
  rw [padded, Nat.ofDigitChars_append, Nat.ofDigitChars_replicate_zero, Nat.mul_zero, digits,
    Nat.ofDigitChars_ten_toDigits]

theorem coefficient_trim_go {rounds c : Nat} {e : Int} (positive : 0 < c) :
    0 < (trim.go rounds c e).coefficient := by
  induction rounds generalizing c e with
  | zero => exact positive
  | succ rounds ih =>
    rw [trim.go]
    split
    · exact ih (by omega)
    · exact positive

end Decimal

namespace Binary64

theorem significand_pos {x : Binary64} (h : x.isZero = false) : 0 < x.significand := by
  rw [significand]
  split
  · have := beq_eq_false_iff_ne.mp h
    omega
  · simp only [binadeSize]
    omega

/-- Half a gap below a number there is still something above zero. -/
theorem neighbourhood_low_pos {x : Binary64} (h : x.isZero = false) : 0 < x.neighbourhood.low := by
  have wide : Nat.pow 2 x.place ≤ x.units := Nat.le_mul_of_pos_left _ (significand_pos h)
  have gap_pos : 0 < Nat.pow 2 x.place := Nat.pow_pos (by decide)
  simp only [neighbourhood]
  split <;> omega

theorem not_has_zero {x : Binary64} (h : x.isZero = false) {d : Nat} (positive : 0 < d) :
    x.neighbourhood.has 0 d = false := by
  have low : 0 < x.neighbourhood.low * d := Nat.mul_pos (neighbourhood_low_pos h) positive
  have outside : ¬x.neighbourhood.low * d ≤ 0 := by omega
  have below : ¬x.neighbourhood.low * d < 0 := Nat.not_lt_zero _
  rw [Neighbourhood.has, decide_eq_false outside, decide_eq_false below]
  split <;> rfl

/-- A point that reads back as a number other than zero is not zero itself. -/
theorem nearestOnGrid?_pos {x : Binary64} (h : x.isZero = false) {e : Int} {k : Nat}
    (found : x.nearestOnGrid? e = some k) : 0 < k := by
  have up_pos : 0 < Nat.pow 10 (-e).toNat := Nat.pow_pos (by decide)
  have hit_pos : ∀ k d, x.neighbourhood.has (k * d) (Nat.pow 10 (-e).toNat) = true → 0 < k := by
    intro k d hit
    apply Nat.pos_of_ne_zero
    rintro rfl
    rw [Nat.zero_mul, not_has_zero h up_pos] at hit
    cases hit
  simp only [nearestOnGrid?] at found
  split at found
  · rename_i below _
    have := hit_pos _ _ below
    split at found <;> cases found <;> omega
  · rename_i below _
    cases found
    exact hit_pos _ _ below
  · cases found
    exact Nat.succ_pos _
  · cases found

/-- Only zero has the coefficient zero, and it is written without a power of ten. -/
theorem exponent_shortest {x : Binary64} (h : x.shortest.coefficient = 0) :
    x.shortest.exponent = 0 := by
  rw [shortest] at h ⊢
  cases zero : x.isZero with
  | true => rfl
  | false =>
    simp only [zero, Bool.false_eq_true, ↓reduceIte] at h ⊢
    cases found : (List.range digitsEnough).findSome? _ with
    | none => rfl
    | some d =>
      rw [found] at h
      obtain ⟨count, _, attempt⟩ := List.exists_of_findSome?_eq_some found
      obtain ⟨k, onGrid, rfl⟩ := Option.map_eq_some_iff.mp attempt
      have positive : 0 < (Decimal.trim k (x.leadingExponent - count)).coefficient :=
        Decimal.coefficient_trim_go (nearestOnGrid?_pos zero onGrid)
      exact absurd h (Nat.ne_of_gt positive)

end Binary64

end Sieve
