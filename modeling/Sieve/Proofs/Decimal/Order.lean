import Sieve.Proofs.Decimal.Digits

/-!
Numbers written at one width, in the order of their texts. The first digits in which two such
numbers differ decide between them, so the texts stand in the order of the numbers; and what follows
the numbers comes into it only where they are the same.
-/

namespace Sieve

namespace Decimal

theorem ofDigitChars_cons (c : Char) (cs : List Char) :
    Nat.ofDigitChars 10 (c :: cs) 0 =
      10 ^ cs.length * (c.toNat - '0'.toNat) + Nat.ofDigitChars 10 cs 0 := by
  rw [Nat.ofDigitChars_cons, Nat.ofDigitChars_eq_ofDigitChars_zero]
  simp

theorem ofDigitChars_lt {cs : List Char} (digits : ∀ c ∈ cs, c.isDigit = true) :
    Nat.ofDigitChars 10 cs 0 < 10 ^ cs.length := by
  induction cs with
  | nil => decide
  | cons c cs ih =>
    obtain ⟨digit, digits⟩ := List.forall_mem_cons.mp digits
    have later := ih digits
    have first : c.toNat - '0'.toNat ≤ 9 := by
      have nine := (Char.isDigit_iff_toNat.mp digit).2
      simp at nine ⊢
      omega
    have most := Nat.mul_le_mul_left (10 ^ cs.length) first
    simp only [ofDigitChars_cons, List.length_cons, Nat.pow_succ]
    omega

/-- Digits stand in the order of their values. -/
theorem lt_iff_of_isDigit {c d : Char} (digit : c.isDigit = true) (digit' : d.isDigit = true) :
    c < d ↔ c.toNat - '0'.toNat < d.toNat - '0'.toNat := by
  have zero := (Char.isDigit_iff_toNat.mp digit).1
  have zero' := (Char.isDigit_iff_toNat.mp digit').1
  rw [Char.lt_def, UInt32.lt_iff_toNat_lt]
  change c.toNat < d.toNat ↔ _
  omega

theorem eq_iff_of_isDigit {c d : Char} (digit : c.isDigit = true) (digit' : d.isDigit = true) :
    c = d ↔ c.toNat - '0'.toNat = d.toNat - '0'.toNat := by
  have zero := (Char.isDigit_iff_toNat.mp digit).1
  have zero' := (Char.isDigit_iff_toNat.mp digit').1
  rw [← Char.toNat_inj]
  omega

/-- The first digit that differs outweighs all the digits after it. -/
theorem append_lt_append_iff {xs ys : List Char} (same : xs.length = ys.length)
    (digits : ∀ c ∈ xs, c.isDigit = true) (digits' : ∀ c ∈ ys, c.isDigit = true)
    (rest rest' : List Char) :
    xs ++ rest < ys ++ rest' ↔ Nat.ofDigitChars 10 xs 0 < Nat.ofDigitChars 10 ys 0 ∨
      Nat.ofDigitChars 10 xs 0 = Nat.ofDigitChars 10 ys 0 ∧ rest < rest' := by
  induction xs generalizing ys with
  | nil =>
    rw [List.eq_nil_of_length_eq_zero same.symm]
    simp
  | cons x xs ih =>
    cases ys with
    | nil => cases same
    | cons y ys =>
      obtain ⟨digit, digits⟩ := List.forall_mem_cons.mp digits
      obtain ⟨digit', digits'⟩ := List.forall_mem_cons.mp digits'
      have length : xs.length = ys.length := Nat.succ.inj same
      have low := ofDigitChars_lt digits
      have low' := ofDigitChars_lt digits'
      rw [List.cons_append, List.cons_append, List.cons_lt_cons_iff, ih length digits digits',
        ofDigitChars_cons, ofDigitChars_cons, lt_iff_of_isDigit digit digit',
        eq_iff_of_isDigit digit digit', length]
      rw [length] at low
      generalize x.toNat - '0'.toNat = a, y.toNat - '0'.toNat = b, 10 ^ ys.length = unit at *
      have outweighs {a b : Nat} (less : a < b) : unit * a + unit ≤ unit * b :=
        Nat.mul_le_mul_left unit less
      by_cases less : a < b
      · have := outweighs less
        omega
      · by_cases tie : a = b
        · simp [tie]
        · have := outweighs (show b < a by omega)
          omega

/-- So many digits are those of one number only. -/
theorem eq_of_ofDigitChars_eq {xs ys : List Char} (same : xs.length = ys.length)
    (digits : ∀ c ∈ xs, c.isDigit = true) (digits' : ∀ c ∈ ys, c.isDigit = true)
    (value : Nat.ofDigitChars 10 xs 0 = Nat.ofDigitChars 10 ys 0) : xs = ys := by
  have not_less := (append_lt_append_iff same digits digits' [] []).not
  have not_greater := (append_lt_append_iff same.symm digits' digits [] []).not
  simp only [List.append_nil, value, Nat.lt_irrefl, List.lt_irrefl, and_false, or_false,
    not_false_eq_true, iff_true] at not_less not_greater
  exact List.le_antisymm (List.not_lt.mp not_greater) (List.not_lt.mp not_less)

/-- Two numbers written at one width, and what follows them. -/
theorem padded_append_lt_iff {width m n : Nat} (positive : 0 < width) (fits : m < 10 ^ width)
    (fits' : n < 10 ^ width) (rest rest' : List Char) :
    padded width m ++ rest < padded width n ++ rest' ↔ m < n ∨ m = n ∧ rest < rest' := by
  have same : (padded width m).length = (padded width n).length := by
    rw [length_padded positive fits, length_padded positive fits']
  rw [append_lt_append_iff same (fun _ hc => isDigit_of_mem_padded hc)
    (fun _ hc => isDigit_of_mem_padded hc), ofDigitChars_padded, ofDigitChars_padded]

end Decimal

end Sieve
